import ChatStasher.Collect.StageLines

/-! Facts as observations of a shard list: what was observed once stays covered. -/
namespace ChatStasher

variable {H : Sha256}

def factOf (H : Sha256) (shards : List (ℕ × Bytes)) : ShardFact H.Digest where
  shardCount := shards.length
  concatBytes := (shardBytes shards).length
  concatSha256 := H.digest (shardBytes shards)
  shardIdentities := shards.map fun p => fingerprint H p.1 p.2

variable {d : SessionDir} {shards part : List (ℕ × Bytes)}

lemma length_shardBytes (shards : List (ℕ × Bytes)) :
    (shardBytes shards).length = (shards.map fun p => p.2.length).sum := by
  simp [shardBytes, List.length_flatten, Function.comp_def]

theorem Holds.shardFactInDir_eq (h : Holds d shards) :
    shardFactInDir H d = factOf H (readable shards) := by
  have hmap : ∀ {β : Type} (f : ℕ → Bytes → β),
      (sortedEntries d).map (fun e => f e.1 e.2.bytes) =
        (readable shards).map fun p => f p.1 p.2 := by
    intro β f
    rw [← h.sortedEntries_map, List.map_map]
    rfl
  rw [shardFactInDir, factOf, h.stageSealedShards_eq, h.sortedEntries_length,
    hmap fun _ b => b.length, hmap (fingerprint H), length_shardBytes]
  rfl

lemma Holds.sessionStageLen_eq (h : Holds d shards) :
    sessionStageLen d = (shardBytes (readable shards)).length := by
  rw [sessionStageLen, length_shardBytes, ← h.entries, List.map_map]
  rfl

lemma matchFingerprints_of_isPrefix {entries : List (ℕ × StoredFile)}
    (h : part <+: entries.map fun e => (e.1, e.2.bytes)) (covered : ℕ) :
    matchFingerprints H entries (part.map fun p => fingerprint H p.1 p.2) covered =
      some (covered + (shardBytes part).length) := by
  induction part generalizing entries covered with
  | nil =>
    cases entries <;> simp [matchFingerprints, shardBytes]
  | cons p part ih =>
    cases entries with
    | nil => simp at h
    | cons e entries =>
      obtain ⟨hp, hpart⟩ := List.cons_prefix_cons.mp h
      have hlen : (shardBytes (p :: part)).length = p.2.length + (shardBytes part).length := by
        simp [shardBytes]
      subst hp
      rw [List.map_cons, matchFingerprints, fingerprint]
      simp only [ne_eq, not_true_eq_false, or_self, if_false]
      rw [ih hpart, hlen, Nat.add_assoc]

theorem Holds.dirCovers_isPrefix (h : Holds d shards) (hpart : part <+: readable shards) :
    dirCovers H d (factOf H part) = true := by
  have hbytes : shardBytes part <+: (stageSealedShards d).flatten := by
    rw [h.stageSealedShards_eq]
    obtain ⟨rest, hrest⟩ := hpart
    exact ⟨shardBytes rest, by rw [← shardBytes_append, hrest]; rfl⟩
  have htake := List.prefix_iff_eq_take.mp hbytes
  have hmatch := matchFingerprints_of_isPrefix (H := H) (h.sortedEntries_map ▸ hpart) 0
  rw [dirCovers]
  rw [if_neg (by rw [h.entries_length]; exact not_lt.mpr hpart.length_le)]
  split
  next hzero =>
    have hnil : shardBytes part = [] := List.eq_nil_of_length_eq_zero hzero
    simp [factOf, hnil]
  next =>
    have hfingerprints : dirCoversByFingerprints H (sortedEntries d) (factOf H part) = none ∨
        dirCoversByFingerprints H (sortedEntries d) (factOf H part) = some true := by
      rw [dirCoversByFingerprints]
      split
      next => exact Or.inl rfl
      next =>
        split
        next => exact Or.inl rfl
        next => exact Or.inr (by simp [factOf, hmatch])
    rcases hfingerprints with hnone | hsome
    · rw [hnone]
      simp only [factOf, ← htake, ne_eq, not_true_eq_false, if_false, beq_self_eq_true]
    · rw [hsome]

lemma verifyDebt_reclaimed {entry : DebtEntry H.Digest} {machine : Ident}
    {remoteFacts : Option (Option (ShardFact H.Digest))}
    {manifestFact : Option (ShardFact H.Digest)}
    (h : verifyDebt H entry machine d remoteFacts manifestFact = .settledReclaimed) :
    ∃ fact ∈ manifestFact, retainedSummaryCovers fact entry.shards = true := by
  have hlocal : debtSettledLocally H entry machine d manifestFact = some .settledReclaimed := by
    unfold verifyDebt at h
    split at h
    next verdict hverdict => rw [hverdict, h]
    next =>
      cases remoteFacts with
      | none => cases h
      | some remote =>
        cases remote with
        | none => cases h
        | some observed =>
          dsimp only at h
          split at h
          next => cases h
          next => split at h <;> cases h
  unfold debtSettledLocally at hlocal
  split at hlocal
  next => cases hlocal
  next =>
    split at hlocal
    next => cases hlocal
    next =>
      split at hlocal
      next hcovers => exact (Option.any_eq_true _ _).mp hcovers.2
      next => cases hlocal

lemma Holds.verifyDebt_owed (h : Holds d shards) {entry : DebtEntry H.Digest} {machine : Ident}
    (hmachine : entry.machine = machine) (hshards : entry.shards = factOf H part)
    (hpart : part <+: readable shards)
    (remoteFacts : Option (Option (ShardFact H.Digest)))
    (manifestFact : Option (ShardFact H.Digest)) :
    verifyDebt H entry machine d remoteFacts manifestFact = .owedOnStage := by
  have hlocal : debtSettledLocally H entry machine d manifestFact = some .owedOnStage := by
    rw [debtSettledLocally, if_neg (not_not.mpr hmachine), hshards,
      if_pos (h.dirCovers_isPrefix hpart)]
  simp only [verifyDebt, hlocal]

end ChatStasher
