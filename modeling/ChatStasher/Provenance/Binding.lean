import ChatStasher.Provenance.RowFile

/-! Which observations the shards bear out, and when both readers agree on them. -/
namespace ChatStasher
open Inbox

section Bodies

def bodiesOf (shards : List SequencedShard) (sequence : ℕ) : List Bytes :=
  shards.filterMap fun shard => if shard.1 = some sequence then some shard.2 else none

def onlyBody (shards : List SequencedShard) (sequence : ℕ) : Option Bytes :=
  match bodiesOf shards sequence with
  | [body] => some body
  | _ => none

variable {shards shards' : List SequencedShard} {sequence : ℕ} {body : Bytes}

lemma mem_bodiesOf : body ∈ bodiesOf shards sequence ↔ (some sequence, body) ∈ shards := by
  rw [bodiesOf, List.mem_filterMap]
  constructor
  · rintro ⟨⟨name, bytes⟩, hmem, hsome⟩
    split at hsome
    next hname =>
      obtain rfl := Option.some.inj hsome
      rwa [← hname]
    next => exact absurd hsome.symm (Option.some_ne_none body)
  · exact fun hmem => ⟨_, hmem, if_pos rfl⟩

lemma bodiesOf_concat (shards : List SequencedShard) (sequence : ℕ) (shard : SequencedShard) :
    bodiesOf (shards ++ [shard]) sequence =
      bodiesOf shards sequence ++ if shard.1 = some sequence then [shard.2] else [] := by
  rw [bodiesOf, List.filterMap_append]
  congr 1
  split
  next h => simp [h]
  next h => simp [h]

lemma bodiesOf_cons (shard : SequencedShard) : bodiesOf (shard :: shards) sequence =
    (if shard.1 = some sequence then [shard.2] else []) ++ bodiesOf shards sequence := by
  rw [bodiesOf, List.filterMap_cons, bodiesOf]
  split
  next hnone =>
    split at hnone
    next => exact absurd hnone (Option.some_ne_none shard.2)
    next hne => rw [if_neg hne, List.nil_append]
  next body hsome =>
    split at hsome
    next heq => rw [if_pos heq, Option.some.inj hsome, List.singleton_append]
    next => exact absurd hsome.symm (Option.some_ne_none body)

lemma onlyBody_eq_some_iff : onlyBody shards sequence = some body ↔
    bodiesOf shards sequence = [body] := by
  unfold onlyBody
  split
  next b hb => rw [hb, Option.some.injEq, List.cons.injEq, and_iff_left rfl]
  next hne =>
    constructor
    · exact fun h => absurd h.symm (Option.some_ne_none body)
    · exact fun h => absurd h (hne body)

lemma onlyBody_perm (h : shards.Perm shards') : onlyBody shards = onlyBody shards' := by
  funext sequence
  ext body
  rw [onlyBody_eq_some_iff, onlyBody_eq_some_iff]
  have hperm : (bodiesOf shards sequence).Perm (bodiesOf shards' sequence) := h.filterMap _
  constructor
  · exact fun hb => List.perm_singleton.mp (hb ▸ hperm.symm)
  · exact fun hb => List.perm_singleton.mp (hb ▸ hperm)

/-- The two tables of the merging reader: a sequence met once has its body, one met again is
ambiguous whatever the table holds for it. -/
inductive SequenceMet (shards : List SequencedShard) (tables : SortedMap ℕ Bytes × Finset ℕ)
    (sequence : ℕ) : Prop
  | never (hbodies : bodiesOf shards sequence = []) (hget : tables.1.get sequence = none)
      (hnot : sequence ∉ tables.2)
  | once (body : Bytes) (hbodies : bodiesOf shards sequence = [body])
      (hget : tables.1.get sequence = some body) (hnot : sequence ∉ tables.2)
  | again (hbodies : 2 ≤ (bodiesOf shards sequence).length) (hmem : sequence ∈ tables.2)

lemma SequenceMet.add {tables : SortedMap ℕ Bytes × Finset ℕ}
    (h : ∀ q, SequenceMet shards tables q) (body : Bytes) (sequence q : ℕ) :
    SequenceMet (shards ++ [(some sequence, body)])
      (if (tables.1.get sequence).isSome then
        (tables.1.remove sequence, insert sequence tables.2)
      else (tables.1.insert sequence body, tables.2)) q := by
  have hbodies := bodiesOf_concat shards q (some sequence, body)
  by_cases hq : sequence = q
  · subst hq
    rw [if_pos rfl] at hbodies
    cases h sequence with
    | never hnil hget hnot =>
      rw [hget, if_neg (by simp)]
      exact .once body (by rw [hbodies, hnil, List.nil_append]) (SortedMap.get_insert_self _ _) hnot
    | once b hone hget hnot =>
      rw [hget, if_pos Option.isSome_some]
      exact .again (by simp [hbodies, hone]) (Finset.mem_insert_self _ _)
    | again htwo hmem =>
      have hlen : 2 ≤ (bodiesOf (shards ++ [(some sequence, body)]) sequence).length := by
        rw [hbodies, List.length_append]
        exact htwo.trans (Nat.le_add_right _ _)
      split
      next => exact .again hlen (Finset.mem_insert_of_mem hmem)
      next => exact .again hlen hmem
  · rw [if_neg (fun heq => hq (Option.some.inj heq)), List.append_nil] at hbodies
    split
    next =>
      have hget : (tables.1.remove sequence).get q = tables.1.get q := by
        rw [SortedMap.get_remove, if_neg (Ne.symm hq)]
      cases h q with
      | never hnil hnone hnot =>
        exact .never (hbodies.trans hnil) (hget.trans hnone) (by simp [Ne.symm hq, hnot])
      | once b hone hsome hnot =>
        exact .once b (hbodies.trans hone) (hget.trans hsome) (by simp [Ne.symm hq, hnot])
      | again htwo hmem => exact .again (hbodies ▸ htwo) (Finset.mem_insert_of_mem hmem)
    next =>
      have hget := SortedMap.get_insert_of_ne (m := tables.1) (Ne.symm hq) body
      cases h q with
      | never hnil hnone hnot => exact .never (hbodies.trans hnil) (hget.trans hnone) hnot
      | once b hone hsome hnot => exact .once b (hbodies.trans hone) (hget.trans hsome) hnot
      | again htwo hmem => exact .again (hbodies ▸ htwo) hmem

theorem sequencedBodies_met (shards : List SequencedShard) (q : ℕ) :
    SequenceMet shards (sequencedBodies shards) q := by
  induction shards using List.reverseRecOn generalizing q with
  | nil => exact .never rfl rfl (Finset.notMem_empty q)
  | append_singleton shards shard ih =>
    obtain ⟨name, body⟩ := shard
    rw [sequencedBodies, List.foldl_concat, ← sequencedBodies]
    cases name with
    | none =>
      have hbodies := bodiesOf_concat shards q (none, body)
      rw [if_neg (Option.some_ne_none q).symm, List.append_nil] at hbodies
      cases ih q with
      | never hnil hnone hnot => exact .never (hbodies.trans hnil) hnone hnot
      | once b hone hsome hnot => exact .once b (hbodies.trans hone) hsome hnot
      | again htwo hmem => exact .again (hbodies ▸ htwo) hmem
    | some sequence => exact SequenceMet.add ih body sequence q

lemma sequencedBodies_lookup (shards : List SequencedShard) :
    (fun q => if q ∈ (sequencedBodies shards).2 then none
      else (sequencedBodies shards).1.get q) = onlyBody shards := by
  funext q
  cases sequencedBodies_met shards q with
  | never hnil hget hnot => rw [if_neg hnot, hget, onlyBody, hnil]
  | once body hone hget hnot => rw [if_neg hnot, hget, onlyBody, hone]
  | again htwo hmem =>
    rw [if_pos hmem]
    refine (Option.eq_none_iff_forall_ne_some.mpr fun body hbody => ?_).symm
    rw [onlyBody_eq_some_iff.mp hbody, List.length_singleton] at htwo
    exact absurd htwo (by decide)

lemma lastBody_lookup (shards : List SequencedShard) (q : ℕ) :
    (SortedMap.ofList (shards.filterMap fun shard => shard.1.map fun s => (s, shard.2))).get q =
      (bodiesOf shards q).getLast? := by
  have hbodies : ((shards.filterMap fun shard => shard.1.map fun s => (s, shard.2)).filter
      fun e => decide (e.1 = q)).map Prod.snd = bodiesOf shards q := by
    induction shards with
    | nil => rfl
    | cons shard shards ih =>
      obtain ⟨name, body⟩ := shard
      cases name with
      | none => simpa [bodiesOf] using ih
      | some s =>
        by_cases hs : s = q
        · simpa [bodiesOf, hs] using ih
        · simpa [bodiesOf, hs] using ih
  rw [SortedMap.get_ofList, ← List.getLast?_map, hbodies]

end Bodies

section Readers
variable (H : Sha256) (sessionId : Text)

/-- An observation whose named sequences each occur on exactly one shard and whose digest is that
of these bodies in the order of the sequences. -/
def BoundBy (shards : List SequencedShard) (observation : ProvenanceObservation H.Digest) : Prop :=
  namesSequences H sessionId observation = true ∧
    namedDigest H (onlyBody shards) observation.bodyShardSequences = some observation.bodySha256

instance (shards : List SequencedShard) : DecidablePred (BoundBy H sessionId shards) :=
  fun _ => inferInstanceAs (Decidable (_ ∧ _))

variable {H sessionId} {observations observations' : List (ProvenanceObservation H.Digest)}
  {shards shards' : List SequencedShard}

lemma namedDigest_eq_some_iff {body : ℕ → Option Bytes} {sequences : List ℕ} {d : H.Digest} :
    namedDigest H body sequences = some d ↔
      ∃ bodies, List.Forall₂ (fun q b => body q = some b) sequences bodies ∧
        H.digest bodies.flatten = d := by
  rw [namedDigest, Option.map_eq_some_iff]
  exact exists_congr fun bodies => and_congr_left' Traverse.mapM_eq_some_iff

lemma boundBy_perm (h : shards.Perm shards') {observation : ProvenanceObservation H.Digest} :
    BoundBy H sessionId shards observation ↔ BoundBy H sessionId shards' observation := by
  rw [BoundBy, BoundBy, onlyBody_perm h]

theorem mergeVerified_eq (into : SessionProvenance)
    (hbound : ∀ o ∈ observations, o.bodyShardSequences ≠ []) :
    mergeVerifiedShardSequenceObservations H sessionId into observations shards =
      ((observations.filter fun o => BoundBy H sessionId shards o).map
        ProvenanceObservation.dimensions).foldl SessionProvenance.merge into := by
  have hlegacy : (observations.filter fun row => row.bodyShardSequences.isEmpty) = [] :=
    List.filter_eq_nil_iff.mpr fun o ho => by simpa using hbound o ho
  unfold mergeVerifiedShardSequenceObservations
  dsimp only
  rw [hlegacy, sequencedBodies_lookup, List.foldl_map, List.foldl_filter]
  refine List.foldl_ext _ _ _ fun p o _ => ?_
  by_cases hnames : namesSequences H sessionId o = true
  · simp [BoundBy, hnames]
  · simp [BoundBy, hnames]

lemma mem_foldl_union {A : Type} (accepted : A → Prop) [DecidablePred accepted] (names : A → List ℕ)
    (l : List A) (verified : Finset ℕ) (q : ℕ) :
    q ∈ l.foldl (fun verified a =>
      if accepted a then verified ∪ (names a).toFinset else verified) verified ↔
      q ∈ verified ∨ ∃ a ∈ l, accepted a ∧ q ∈ names a := by
  induction l generalizing verified with
  | nil => simp
  | cons a l ih =>
    rw [List.foldl_cons, ih, List.exists_mem_cons_iff]
    by_cases ha : accepted a
    · simp [ha, or_assoc]
    · simp [ha]

lemma mem_verified {q : ℕ} :
    q ∈ verifiedObservationSequences H sessionId observations shards ↔
      ∃ o ∈ observations, (namesSequences H sessionId o = true ∧
        namedDigest H (fun q => (bodiesOf shards q).getLast?) o.bodyShardSequences =
          some o.bodySha256) ∧ q ∈ o.bodyShardSequences := by
  have hlookup : (SortedMap.ofList (shards.filterMap fun shard =>
      shard.1.map fun s => (s, shard.2))).get = fun q => (bodiesOf shards q).getLast? :=
    funext (lastBody_lookup shards)
  unfold verifiedObservationSequences
  dsimp only
  simp only [hlookup, ← ite_and]
  rw [mem_foldl_union (fun o => namesSequences H sessionId o = true ∧
    namedDigest H (fun q => (bodiesOf shards q).getLast?) o.bodyShardSequences =
      some o.bodySha256)]
  simp

def boundSequences (H : Sha256) (sessionId : Text)
    (observations : List (ProvenanceObservation H.Digest)) (shards : List SequencedShard) :
    Finset ℕ :=
  ((observations.filter fun o => BoundBy H sessionId shards o).flatMap
    ProvenanceObservation.bodyShardSequences).toFinset

lemma mem_boundSequences {q : ℕ} : q ∈ boundSequences H sessionId observations shards ↔
    ∃ o ∈ observations, BoundBy H sessionId shards o ∧ q ∈ o.bodyShardSequences := by
  simp [boundSequences, and_assoc]

/-- Both readers agree with what the shards bear out, in whatever order observations and shards
come. -/
structure BindingKept (H : Sha256) (sessionId : Text) (into : SessionProvenance)
    (observations : List (ProvenanceObservation H.Digest)) (shards : List SequencedShard) :
    Prop where
  merged : mergeVerifiedShardSequenceObservations H sessionId into observations shards =
    ((observations.filter fun o => BoundBy H sessionId shards o).map
      ProvenanceObservation.dimensions).foldl SessionProvenance.merge into
  verified : verifiedObservationSequences H sessionId observations shards =
    boundSequences H sessionId observations shards
  reordered : ∀ observations' shards', observations.Perm observations' → shards.Perm shards' →
    mergeVerifiedShardSequenceObservations H sessionId into observations' shards' =
        mergeVerifiedShardSequenceObservations H sessionId into observations shards ∧
      verifiedObservationSequences H sessionId observations' shards' =
        verifiedObservationSequences H sessionId observations shards

/-- No observation names a repeated sequence while its digest is that of one choice among the
bodies its sequences have. -/
def NoChosenBodies (H : Sha256) (sessionId : Text)
    (observations : List (ProvenanceObservation H.Digest)) (shards : List SequencedShard) : Prop :=
  ∀ o ∈ observations, namesSequences H sessionId o = true →
    (∃ q ∈ o.bodyShardSequences, 2 ≤ (bodiesOf shards q).length) →
    ∀ bodies, List.Forall₂ (fun q body => body ∈ bodiesOf shards q) o.bodyShardSequences bodies →
      H.digest bodies.flatten ≠ o.bodySha256

lemma NoChosenBodies.perm (h : NoChosenBodies H sessionId observations shards)
    (ho : observations.Perm observations') (hs : shards.Perm shards') :
    NoChosenBodies H sessionId observations' shards' := by
  have hbodies : ∀ q, (bodiesOf shards q).Perm (bodiesOf shards' q) := fun q => hs.filterMap _
  intro o hmem hnames hrepeated bodies hchosen
  refine h o (ho.mem_iff.mpr hmem) hnames ?_ bodies ?_
  · obtain ⟨q, hq, htwo⟩ := hrepeated
    exact ⟨q, hq, (hbodies q).length_eq ▸ htwo⟩
  · exact hchosen.imp fun q body hbody => (hbodies q).mem_iff.mpr hbody

lemma NoChosenBodies.verified (h : NoChosenBodies H sessionId observations shards) :
    verifiedObservationSequences H sessionId observations shards =
      boundSequences H sessionId observations shards := by
  ext q
  rw [mem_verified, mem_boundSequences]
  refine exists_congr fun o => and_congr_right fun ho => ?_
  refine and_congr_left' (and_congr_right fun hnames => ?_)
  rw [namedDigest_eq_some_iff, namedDigest_eq_some_iff]
  refine exists_congr fun bodies => and_congr_left fun hdigest => ?_
  constructor
  · intro hlast
    have hmem : List.Forall₂ (fun q body => body ∈ bodiesOf shards q) o.bodyShardSequences bodies :=
      hlast.imp fun q body hbody => List.mem_of_getLast? hbody
    have hone : ∀ q ∈ o.bodyShardSequences, (bodiesOf shards q).length ≤ 1 := fun q hq =>
      Nat.le_of_lt_succ (Nat.lt_of_not_le fun htwo =>
        h o ho hnames ⟨q, hq, htwo⟩ bodies hmem hdigest)
    refine ((List.forall₂_and_left _ _).mpr ⟨hone, hlast⟩).imp fun q body ⟨hle, hbody⟩ => ?_
    rw [onlyBody_eq_some_iff]
    obtain ⟨a, ha⟩ := List.length_eq_one_iff.mp
      (Nat.le_antisymm hle (List.length_pos_of_mem (List.mem_of_getLast? hbody)))
    rw [ha] at hbody ⊢
    rw [List.getLast?_singleton, Option.some.injEq] at hbody
    rw [hbody]
  · intro honly
    refine honly.imp fun q body hbody => ?_
    rw [onlyBody_eq_some_iff.mp hbody, List.getLast?_singleton]

def chosenShards (sequences : List ℕ) (bodies : List Bytes) : List SequencedShard :=
  (sequences.map some).zip bodies

lemma bodiesOf_chosenShards_of_notMem {sequences : List ℕ} {q : ℕ} (hq : q ∉ sequences)
    (bodies : List Bytes) : bodiesOf (chosenShards sequences bodies) q = [] := by
  refine List.eq_nil_iff_forall_not_mem.mpr fun body hbody => hq ?_
  obtain ⟨p, hp, hpq⟩ := List.mem_map.mp (List.of_mem_zip (mem_bodiesOf.mp hbody)).1
  exact Option.some.inj hpq ▸ hp

lemma bodiesOf_chosenShards {sequences : List ℕ} (hnodup : sequences.Nodup) {bodies : List Bytes}
    (hlen : sequences.length = bodies.length) :
    List.Forall₂ (fun q body => bodiesOf (chosenShards sequences bodies) q = [body])
      sequences bodies := by
  induction sequences generalizing bodies with
  | nil =>
    obtain rfl := List.eq_nil_of_length_eq_zero hlen.symm
    exact .nil
  | cons q sequences ih =>
    obtain ⟨body, bodies, rfl⟩ := List.exists_cons_of_length_eq_add_one hlen.symm
    obtain ⟨hq, hrest⟩ := List.nodup_cons.mp hnodup
    have htail := (List.forall₂_and_left (p := (· ∈ sequences)) _ _).mpr
      ⟨fun p hp => hp, ih hrest (Nat.succ.inj hlen)⟩
    refine .cons ?_ (htail.imp fun p b ⟨hp, hb⟩ => ?_)
    · rw [chosenShards, List.map_cons, List.zip_cons_cons, ← chosenShards, bodiesOf_cons,
        if_pos rfl, bodiesOf_chosenShards_of_notMem hq, List.append_nil]
    · have hne : ¬ some q = some p := fun h => hq (Option.some.inj h ▸ hp)
      rw [chosenShards, List.map_cons, List.zip_cons_cons, ← chosenShards, bodiesOf_cons,
        if_neg hne, List.nil_append, hb]

lemma exists_perm_chosen {sequences : List ℕ} (hnodup : sequences.Nodup) {bodies : List Bytes}
    (hchosen : List.Forall₂ (fun q body => body ∈ bodiesOf shards q) sequences bodies) :
    ∃ shards', shards.Perm shards' ∧
      List.Forall₂ (fun q body => (bodiesOf shards' q).getLast? = some body) sequences bodies := by
  have hkeys : (chosenShards sequences bodies).Nodup := by
    refine List.Nodup.of_map Prod.fst ?_
    rw [chosenShards, List.map_fst_zip (by rw [List.length_map, hchosen.length_eq])]
    exact hnodup.map (Option.some_injective ℕ)
  have hsub : chosenShards sequences bodies ⊆ shards := by
    intro shard hshard
    rw [chosenShards, List.zip_map_left, List.mem_map] at hshard
    obtain ⟨⟨q, body⟩, hmem, rfl⟩ := hshard
    exact mem_bodiesOf.mp ((List.forall₂_iff_zip.mp hchosen).2 hmem)
  obtain ⟨l, hl, hsublist⟩ := hkeys.subperm hsub
  obtain ⟨rest, hrest⟩ := hsublist.exists_perm_append
  refine ⟨rest ++ chosenShards sequences bodies,
    hrest.trans ((hl.append_right rest).trans List.perm_append_comm), ?_⟩
  refine (bodiesOf_chosenShards hnodup hchosen.length_eq).imp fun q body hbody => ?_
  rw [bodiesOf, List.filterMap_append, ← bodiesOf, ← bodiesOf, hbody, List.getLast?_concat]

lemma namesSequences_nodup {o : ProvenanceObservation H.Digest}
    (h : namesSequences H sessionId o = true) : o.bodyShardSequences.Nodup := by
  simp only [namesSequences, Bool.and_eq_true, decide_eq_true_eq] at h
  exact (List.isChain_iff_pairwise.mp h.1.2).imp ne_of_lt

/-- Both readers bear out the same observations in every order exactly when no observation names
a repeated sequence under the digest of one choice of its bodies. -/
theorem bindingKept_iff (into : SessionProvenance)
    (hbound : ∀ o ∈ observations, o.bodyShardSequences ≠ []) :
    BindingKept H sessionId into observations shards ↔
      NoChosenBodies H sessionId observations shards := by
  constructor
  · rintro ⟨-, hverified, hreordered⟩ o ho hnames ⟨q, hq, htwo⟩ bodies hchosen hdigest
    obtain ⟨shards', hperm, hlast⟩ := exists_perm_chosen (namesSequences_nodup hnames) hchosen
    have hmem : q ∈ verifiedObservationSequences H sessionId observations shards' :=
      mem_verified.mpr ⟨o, ho, ⟨hnames, namedDigest_eq_some_iff.mpr ⟨bodies, hlast, hdigest⟩⟩, hq⟩
    rw [(hreordered observations shards' (List.Perm.refl _) hperm).2, hverified,
      mem_boundSequences] at hmem
    obtain ⟨o', -, ⟨-, hnamed⟩, hq'⟩ := hmem
    obtain ⟨bodies', honly, -⟩ := namedDigest_eq_some_iff.mp hnamed
    obtain ⟨body, -, hbody⟩ := Traverse.exists_mem_right honly hq'
    rw [onlyBody_eq_some_iff.mp hbody, List.length_singleton] at htwo
    exact absurd htwo (by decide)
  · intro h
    refine ⟨mergeVerified_eq into hbound, h.verified, fun observations' shards' ho hs => ?_⟩
    have hbound' : ∀ o ∈ observations', o.bodyShardSequences ≠ [] :=
      fun o hmem => hbound o (ho.mem_iff.mpr hmem)
    have hsame : BoundBy H sessionId shards' = BoundBy H sessionId shards :=
      funext fun o => propext (boundBy_perm hs).symm
    constructor
    · rw [mergeVerified_eq into hbound', mergeVerified_eq into hbound]
      simp only [hsame]
      exact ((ho.filter _).map _).symm.foldl_eq into
    · rw [(h.perm ho hs).verified, h.verified, boundSequences, boundSequences]
      simp only [hsame]
      exact List.toFinset_eq_of_perm _ _ ((ho.filter _).flatMap_right _).symm

/-- A web session's observation of the shard under sequence 1, with this digest. -/
def webObservation (sha256 : Bytes) : ProvenanceObservation Bytes :=
  ⟨['s'], ⟨[['w', 'e', 'b']], [], [], [], []⟩, 1, sha256, [1]⟩

theorem bindingKept_of_one_shard :
    BindingKept Sha256.verbatim ['s'] SessionProvenance.empty [webObservation [7]]
      [(some 1, [7]), (none, [8])] := by
  refine (bindingKept_iff SessionProvenance.empty ?_).mpr ?_
  · intro o ho
    obtain rfl := List.mem_singleton.mp ho
    exact List.cons_ne_nil 1 []
  · rintro o ho - ⟨q, hq, htwo⟩
    obtain rfl := List.mem_singleton.mp ho
    obtain rfl := List.mem_singleton.mp hq
    exact absurd htwo (by decide)

/-- The second of two bodies under one sequence makes that sequence count as verified. -/
theorem repeated_sequence_verified :
    ¬ BindingKept Sha256.verbatim ['s'] SessionProvenance.empty [webObservation [8]]
      [(some 1, [7]), (some 1, [8])] :=
  fun h => absurd h.verified (by decide)

end Readers

end ChatStasher
