import ChatStasher.GrokBot.Pass
import ChatStasher.Library.StepRun

/-! What any sequence of passes delivers: nothing observed is lost, nothing measured comes twice. -/
namespace ChatStasher.GrokBot
open Inbox (Text)

variable {F : ReplicaFormat} {H : Sha256} {Dest : Type}

lemma mergeReplicaRecords_eq (previous observed : List (ReplicaRecord F)) :
    mergeReplicaRecords previous observed =
      GroupedUnion.union ReplicaRecord.sequence (previous ++ observed) := by
  have hadd : ∀ (variants : List (ReplicaRecord F)) (record : ReplicaRecord F),
      addVariant variants record = GroupedUnion.insertNew variants record := by
    intro variants record
    have hmem : record.raw ∈ variants.map ReplicaRecord.raw ↔ record ∈ variants := by
      rw [List.mem_map]
      exact ⟨fun ⟨r, hr, heq⟩ => ReplicaRecord.eq_of_raw heq ▸ hr, fun hr => ⟨record, hr, rfl⟩⟩
    rw [addVariant, GroupedUnion.insertNew]
    simp only [hmem]
  simp only [mergeReplicaRecords, GroupedUnion.union, GroupedUnion.groups, hadd]

lemma mem_mergeReplicaRecords {previous observed : List (ReplicaRecord F)} {r : ReplicaRecord F} :
    r ∈ mergeReplicaRecords previous observed ↔ r ∈ previous ∨ r ∈ observed := by
  rw [mergeReplicaRecords_eq, GroupedUnion.mem_union, List.mem_append]

lemma mergeReplicaRecords_merge (windows observed : List (ReplicaRecord F)) :
    mergeReplicaRecords (mergeReplicaRecords [] windows) observed =
      mergeReplicaRecords [] (windows ++ observed) := by
  rw [mergeReplicaRecords_eq, mergeReplicaRecords_eq, mergeReplicaRecords_eq, List.nil_append,
    List.nil_append, GroupedUnion.union_union_append]

section Plan
variable (union : List (ReplicaRecord F)) (delivered : List H.Digest) (deliverAll : Bool)

lemma planGrokBotRows_fst : (planGrokBotRows union delivered deliverAll).1 =
    union.filter fun r => deliverAll || grokBotRowDigest H r ∉ delivered := by
  rw [planGrokBotRows]
  induction union using List.reverseRecOn with
  | nil => rfl
  | append_singleton union r ih =>
    rw [List.foldl_append, List.foldl_cons, List.foldl_nil, List.filter_append, ← ih,
      List.filter_singleton]
    dsimp only
    split
    next h => rw [h]; rfl
    next h => rw [Bool.not_eq_true] at h; rw [h]; simp

lemma mem_planGrokBotRows_snd (d : H.Digest) : d ∈ (planGrokBotRows union delivered deliverAll).2 ↔
    d ∈ delivered ∨
      ∃ r ∈ (planGrokBotRows union delivered deliverAll).1, grokBotRowDigest H r = d := by
  rw [planGrokBotRows]
  induction union using List.reverseRecOn with
  | nil => simp
  | append_singleton union r ih =>
    rw [List.foldl_append, List.foldl_cons, List.foldl_nil]
    dsimp only
    generalize union.foldl _ _ = plan at ih ⊢
    split
    next =>
      have hinsert : d ∈ (if grokBotRowDigest H r ∈ plan.2 then plan.2
          else plan.2 ++ [grokBotRowDigest H r]) ↔ d ∈ plan.2 ∨ grokBotRowDigest H r = d := by
        split
        next hold => exact ⟨Or.inl, fun h => h.elim id fun heq => heq ▸ hold⟩
        next => simp [eq_comm]
      rw [hinsert, ih, or_assoc]
      simp [or_and_right, exists_or]
    next => exact ih

end Plan

def deliveredBy (old : Option (OffsetEntry H.Digest)) : List H.Digest :=
  (old.bind OffsetEntry.grokBotRowDigests).getD []

/-- A pass delivers the whole union when it is reset or has no delivered set. -/
def deliverAll (old : Option (OffsetEntry H.Digest)) (forceReset : Bool) : Bool :=
  forceReset || old.isNone || old.any fun e => e.grokBotRowDigests.isNone

variable (s : Site F H Dest) (p : Pass F Dest)

def merged : List (ReplicaRecord F) := mergeReplicaRecords (s.union.getD []) p.observed.records

def due : List (ReplicaRecord F) := (merged s p).filter fun r =>
  deliverAll (s.debts p.dest) p.forceReset || grokBotRowDigest H r ∉ deliveredBy (s.debts p.dest)

def handed : List (ReplicaRecord F) := ((delivery s p).map Delivery.rows).getD []

variable {s p}

lemma delivery_eq_none (h : delivery s p = none) :
    due s p = [] ∧ (s.debts p.dest).isSome = true ∧ p.forceReset = false := by
  rw [delivery, processGrokBot] at h
  split at h
  next hquiet =>
    rw [Bool.and_eq_true, Bool.and_eq_true, Bool.not_eq_true', List.isEmpty_iff,
      planGrokBotRows_fst] at hquiet
    exact ⟨hquiet.1.1, hquiet.1.2, hquiet.2⟩
  next => cases h

lemma delivery_eq_some {d : Delivery F H} (h : delivery s p = some d) :
    d.rows = due s p ∧ d.union = merged s p ∧ (∀ r ∈ due s p, F.encode r.raw ∈ d.shard) ∧
      ∃ digests, d.state.grokBotRowDigests = some digests ∧
        ∀ x, x ∈ digests ↔ x ∈ deliveredBy (s.debts p.dest) ∨
          ∃ r ∈ due s p, grokBotRowDigest H r = x := by
  rw [delivery, processGrokBot] at h
  split at h
  next => cases h
  next =>
    obtain rfl := Option.some.inj h
    have hrows := planGrokBotRows_fst (merged s p) (deliveredBy (s.debts p.dest))
      (deliverAll (s.debts p.dest) p.forceReset)
    refine ⟨hrows, rfl, fun r hr => ?_, _, rfl, fun x => ?_⟩
    · refine List.mem_append_left _ (List.mem_map.mpr ⟨r, ?_, rfl⟩)
      exact hrows ▸ hr
    · have hset := mem_planGrokBotRows_snd (merged s p) (deliveredBy (s.debts p.dest))
        (deliverAll (s.debts p.dest) p.forceReset) x
      rw [hrows] at hset
      exact hset

lemma handed_eq_due : handed s p = due s p := by
  rw [handed]
  cases h : delivery s p with
  | none => rw [(delivery_eq_none h).1]; rfl
  | some d => exact (delivery_eq_some h).1

def DeliveredSealed (s : Site F H Dest) : Prop :=
  ∀ dest, ∀ x ∈ deliveredBy (s.debts dest), ∃ shard ∈ s.shards, ∃ r : ReplicaRecord F,
    grokBotRowDigest H r = x ∧ F.encode r.raw ∈ shard

def Measured (dest : Dest) (rows : List (ReplicaRecord F)) (s : Site F H Dest) : Prop :=
  ∃ e digests, s.debts dest = some e ∧ e.grokBotRowDigests = some digests ∧
    ∀ r ∈ rows, grokBotRowDigest H r ∈ digests

lemma deliveredSealed_start (legacy : Dest → Option (OffsetEntry H.Digest)) :
    DeliveredSealed (Site.start legacy : Site F H Dest) := by
  intro dest x hx
  have hnone : deliveredBy ((Site.start legacy : Site F H Dest).debts dest) = [] := by
    cases hlegacy : legacy dest <;> simp [Site.start, deliveredBy, hlegacy]
  rw [hnone] at hx
  cases hx

lemma encode_eq_of_digest {r r' : ReplicaRecord F}
    (h : grokBotRowDigest H r = grokBotRowDigest H r') : F.encode r.raw = F.encode r'.raw :=
  H.digest_injective h

section Step
variable [DecidableEq Dest]

lemma shards_subset_step (s : Site F H Dest) (a : Action F Dest) :
    s.shards ⊆ (step s a).shards := by
  cases a with
  | loseDebt dest => exact List.Subset.refl _
  | pass p =>
    rw [step]
    unfold passStep
    split
    · exact List.Subset.refl _
    · exact List.Subset.refl _
    all_goals exact List.subset_append_left _ _

omit [DecidableEq Dest] in
/-- After a pass that has rows to deliver and seals them, these rows and the delivered ones stand in
sealed shards. -/
lemma sealed_of_digest (hs : DeliveredSealed s) {d : Delivery F H} (hd : delivery s p = some d)
    {x : H.Digest} (hx : x ∈ deliveredBy (s.debts p.dest) ∨
      ∃ r ∈ due s p, grokBotRowDigest H r = x) :
    ∃ shard ∈ s.shards ++ [d.shard], ∃ r : ReplicaRecord F,
      grokBotRowDigest H r = x ∧ F.encode r.raw ∈ shard := by
  rcases hx with hold | ⟨r, hr, hdigest⟩
  · obtain ⟨shard, hshard, r, hdigest, hmem⟩ := hs p.dest x hold
    exact ⟨shard, List.mem_append_left _ hshard, r, hdigest, hmem⟩
  · exact ⟨d.shard, by simp, r, hdigest, (delivery_eq_some hd).2.2.1 r hr⟩

lemma deliveredSealed_step (hs : DeliveredSealed s) (a : Action F Dest) :
    DeliveredSealed (step s a) := by
  -- shards only join, so a debt entry that stays keeps its rows
  have hkept : ∀ dest, (step s a).debts dest = s.debts dest →
      ∀ x ∈ deliveredBy ((step s a).debts dest), ∃ shard ∈ (step s a).shards,
        ∃ r : ReplicaRecord F, grokBotRowDigest H r = x ∧ F.encode r.raw ∈ shard := by
    intro dest hsame x hx
    obtain ⟨shard, hshard, hrest⟩ := hs dest x (hsame ▸ hx)
    exact ⟨shard, shards_subset_step s a hshard, hrest⟩
  intro dest
  cases a with
  | loseDebt dest' =>
    by_cases hdest : dest = dest'
    · intro x hx
      simp [step, hdest, deliveredBy] at hx
    · exact hkept dest (by simp [step, hdest])
  | pass p =>
    cases hd : delivery s p with
    | none => exact hkept dest (by simp [step, passStep, hd])
    | some d =>
      cases hfate : p.fate with
      | beforeSeal => exact hkept dest (by simp [step, passStep, hd, hfate])
      | afterSeal => exact hkept dest (by simp [step, passStep, hd, hfate])
      | afterUnion => exact hkept dest (by simp [step, passStep, hd, hfate])
      | completes =>
        by_cases hdest : dest = p.dest
        · obtain ⟨-, -, -, digests, hdigests, hmem⟩ := delivery_eq_some hd
          intro x hx
          have hx : x ∈ digests := by
            simpa [step, passStep, hd, hfate, hdest, deliveredBy, hdigests] using hx
          have hstep : (step s (.pass p)).shards = s.shards ++ [d.shard] := by
            simp [step, passStep, hd, hfate]
          rw [hstep]
          exact sealed_of_digest hs hd ((hmem x).mp hx)
        · exact hkept dest (by simp [step, passStep, hd, hfate, hdest])

lemma observed_sealed (hs : DeliveredSealed s) (hcompletes : p.fate = .completes)
    {r : ReplicaRecord F} (hr : r ∈ p.observed.records) :
    ∃ shard ∈ (step s (.pass p)).shards, F.encode r.raw ∈ shard := by
  have hmerged : r ∈ merged s p := mem_mergeReplicaRecords.mpr (Or.inr hr)
  by_cases hdue : r ∈ due s p
  · cases hd : delivery s p with
    | none =>
      rw [(delivery_eq_none hd).1] at hdue
      cases hdue
    | some d =>
      refine ⟨d.shard, ?_, (delivery_eq_some hd).2.2.1 r hdue⟩
      simp [step, passStep, hd, hcompletes]
  · have hold : grokBotRowDigest H r ∈ deliveredBy (s.debts p.dest) := by
      by_contra hnot
      exact hdue (List.mem_filter.mpr ⟨hmerged, by simp [hnot]⟩)
    obtain ⟨shard, hshard, r', hdigest, hmem⟩ := hs p.dest _ hold
    exact ⟨shard, shards_subset_step s _ hshard, encode_eq_of_digest hdigest ▸ hmem⟩

lemma measured_of_completes (hcompletes : p.fate = .completes) (hrows : handed s p ≠ []) :
    Measured p.dest (handed s p) (step s (.pass p)) := by
  rw [handed_eq_due] at hrows ⊢
  cases hd : delivery s p with
  | none => exact absurd (delivery_eq_none hd).1 hrows
  | some d =>
    obtain ⟨-, -, -, digests, hdigests, hmem⟩ := delivery_eq_some hd
    refine ⟨d.state, digests, by simp [step, passStep, hd, hcompletes], hdigests, fun r hr => ?_⟩
    exact (hmem _).mpr (Or.inr ⟨r, hr, rfl⟩)

lemma measured_step {dest : Dest} {rows : List (ReplicaRecord F)} (h : Measured dest rows s)
    {a : Action F Dest} (ha : a ≠ .loseDebt dest) : Measured dest rows (step s a) := by
  obtain ⟨e, digests, he, hdigests, hrows⟩ := h
  have hsame : (step s a).debts dest = s.debts dest → Measured dest rows (step s a) := fun h =>
    ⟨e, digests, h.trans he, hdigests, hrows⟩
  cases a with
  | loseDebt dest' =>
    have hdest : dest ≠ dest' := fun heq => ha (heq ▸ rfl)
    exact hsame (by simp [step, hdest])
  | pass p =>
    cases hd : delivery s p with
    | none => exact hsame (by simp [step, passStep, hd])
    | some d =>
      cases hfate : p.fate with
      | beforeSeal => exact hsame (by simp [step, passStep, hd, hfate])
      | afterSeal => exact hsame (by simp [step, passStep, hd, hfate])
      | afterUnion => exact hsame (by simp [step, passStep, hd, hfate])
      | completes =>
        by_cases hdest : dest = p.dest
        · subst hdest
          obtain ⟨-, -, -, digests', hdigests', hmem⟩ := delivery_eq_some hd
          refine ⟨d.state, digests', by simp [step, passStep, hd, hfate], hdigests', fun r hr => ?_⟩
          rw [hmem, deliveredBy, he, Option.bind_some, hdigests]
          exact Or.inl (hrows r hr)
        · exact hsame (by simp [step, passStep, hd, hfate, hdest])

omit [DecidableEq Dest] in
lemma handed_disjoint {rows : List (ReplicaRecord F)} (h : Measured p.dest rows s)
    (hreset : p.forceReset = false) : List.Disjoint rows (handed s p) := by
  obtain ⟨e, digests, he, hdigests, hrows⟩ := h
  intro r hr hhanded
  rw [handed_eq_due, due, List.mem_filter, he] at hhanded
  have hnot := hhanded.2
  simp [deliverAll, deliveredBy, hreset, hdigests] at hnot
  exact hnot (hrows r hr)

/-- The window of a pass that writes the union state. -/
def windowWritten (s : Site F H Dest) : Action F Dest → List (ReplicaRecord F)
  | .pass p =>
    if (delivery s p).isSome ∧ (p.fate = .afterUnion ∨ p.fate = .completes) then p.observed.records
    else []
  | .loseDebt _ => []

/-- All windows observed by the passes of a run that wrote the union state, in order. -/
def windowsWritten : Site F H Dest → List (Action F Dest) → List (ReplicaRecord F)
  | _, [] => []
  | s, a :: as => windowWritten s a ++ windowsWritten (step s a) as

lemma union_step {windows : List (ReplicaRecord F)}
    (h : s.union.getD [] = mergeReplicaRecords [] windows) (a : Action F Dest) :
    (step s a).union.getD [] = mergeReplicaRecords [] (windows ++ windowWritten s a) := by
  have hsame : (step s a).union = s.union → windowWritten s a = [] →
      (step s a).union.getD [] = mergeReplicaRecords [] (windows ++ windowWritten s a) := by
    intro hunion hwindow
    rw [hunion, hwindow, List.append_nil, h]
  cases a with
  | loseDebt dest => exact hsame rfl rfl
  | pass p =>
    cases hd : delivery s p with
    | none => exact hsame (by simp [step, passStep, hd]) (by simp [windowWritten, hd])
    | some d =>
      have hunion : d.union = mergeReplicaRecords [] (windows ++ p.observed.records) := by
        rw [(delivery_eq_some hd).2.1, merged, h, mergeReplicaRecords_merge]
      cases hfate : p.fate with
      | beforeSeal =>
        exact hsame (by simp [step, passStep, hd, hfate]) (by simp [windowWritten, hfate])
      | afterSeal =>
        exact hsame (by simp [step, passStep, hd, hfate]) (by simp [windowWritten, hfate])
      | afterUnion => simpa [step, passStep, windowWritten, hd, hfate] using hunion
      | completes => simpa [step, passStep, windowWritten, hd, hfate] using hunion

lemma union_exec (as : List (Action F Dest)) {s : Site F H Dest}
    {windows : List (ReplicaRecord F)} (h : s.union.getD [] = mergeReplicaRecords [] windows) :
    (StepRun.exec step s as).union.getD [] =
      mergeReplicaRecords [] (windows ++ windowsWritten s as) := by
  induction as generalizing s windows with
  | nil => rw [windowsWritten, List.append_nil]; exact h
  | cons a as ih => rw [StepRun.exec_cons, ih (union_step h a), windowsWritten, List.append_assoc]

/-- Completed passes of one destination whose debt entry stays hand no row to two shards, where the
later one is of a kind. -/
def NeverTwice (kind : Pass F Dest → Prop) (s : Site F H Dest) (as : List (Action F Dest)) : Prop :=
  ∀ pre p mid p' post, as = pre ++ .pass p :: (mid ++ .pass p' :: post) →
    p.fate = .completes → p'.fate = .completes → p'.dest = p.dest →
      Action.loseDebt p.dest ∉ mid → kind p' →
        List.Disjoint (handed (StepRun.exec step s pre) p)
          (handed (StepRun.exec step s (pre ++ .pass p :: mid)) p')

/-- What any run of passes keeps. -/
structure Kept (s : Site F H Dest) (as : List (Action F Dest)) : Prop where
  observed : ∀ pre p post, as = pre ++ .pass p :: post → p.fate = .completes →
    ∀ r ∈ p.observed.records, ∃ shard ∈ (StepRun.exec step s as).shards, F.encode r.raw ∈ shard
  union : (StepRun.exec step s as).union.getD [] = mergeReplicaRecords [] (windowsWritten s as)
  ordered : ((StepRun.exec step s as).union.getD []).Pairwise fun a b =>
    a.sequence < b.sequence ∨ a.sequence = b.sequence ∧
      (windowsWritten s as).idxOf a < (windowsWritten s as).idxOf b
  nodup : ((StepRun.exec step s as).union.getD []).Nodup
  once : NeverTwice (fun p => p.forceReset = false) s as
  reset : ∀ pre p post, as = pre ++ .pass p :: post → p.forceReset = true →
    handed (StepRun.exec step s pre) p = merged (StepRun.exec step s pre) p

lemma shards_subset_exec (s : Site F H Dest) (as : List (Action F Dest)) :
    s.shards ⊆ (StepRun.exec step s as).shards := by
  induction as generalizing s with
  | nil => exact List.Subset.refl _
  | cons a as ih => exact List.Subset.trans (shards_subset_step s a) (ih (step s a))

lemma never_twice (s : Site F H Dest) (as : List (Action F Dest)) :
    NeverTwice (fun p => p.forceReset = false) s as := by
  rintro pre p mid p' post rfl hp hp' hdest hlost hreset
  by_cases hrows : handed (StepRun.exec step s pre) p = []
  · rw [hrows]
    exact List.disjoint_nil_left _
  · have hstart := measured_of_completes hp hrows
    have hmid : Measured p.dest (handed (StepRun.exec step s pre) p)
        (StepRun.exec step s (pre ++ .pass p :: mid)) := by
      have hsteps : ∀ (t : Site F H Dest) (a : Action F Dest),
          Measured p.dest (handed (StepRun.exec step s pre) p) t → a ≠ .loseDebt p.dest →
            Measured p.dest (handed (StepRun.exec step s pre) p) (step t a) :=
        fun t a ht ha => measured_step ht ha
      rw [StepRun.exec_append, StepRun.exec_cons]
      exact StepRun.invariant hsteps hstart
        (StepRun.along_of_forall fun a ha heq => hlost (heq ▸ ha))
    exact handed_disjoint (hdest ▸ hmid) hreset

/-- Whatever passes fail or crash and in whatever order: what a completed pass observed is sealed, the
union is that of the windows written to it, and only a forced reset hands a row over again. -/
theorem passes_keep (legacy : Dest → Option (OffsetEntry H.Digest)) (as : List (Action F Dest)) :
    Kept (Site.start legacy) as := by
  have hunion : (StepRun.exec step (Site.start legacy) as).union.getD [] =
      mergeReplicaRecords [] (windowsWritten (Site.start legacy : Site F H Dest) as) := by
    have hempty : (Site.start legacy : Site F H Dest).union.getD [] =
        mergeReplicaRecords [] [] := rfl
    exact union_exec as hempty
  have hcanonical : (StepRun.exec step (Site.start legacy) as).union.getD [] =
      GroupedUnion.union ReplicaRecord.sequence
        (windowsWritten (Site.start legacy : Site F H Dest) as) := by
    rw [hunion, mergeReplicaRecords_eq, List.nil_append]
  refine {
    observed := ?_
    union := hunion
    ordered := hcanonical ▸ GroupedUnion.union_pairwise ReplicaRecord.sequence _
    nodup := hcanonical ▸ GroupedUnion.union_nodup ReplicaRecord.sequence _
    once := never_twice _ as
    reset := ?_ }
  · rintro pre p post rfl hp r hr
    have hsealed : DeliveredSealed (StepRun.exec step (Site.start legacy : Site F H Dest) pre) :=
      have hstep : ∀ (s : Site F H Dest) (a : Action F Dest), DeliveredSealed s →
          DeliveredSealed (step s a) := fun _ a hs => deliveredSealed_step hs a
      StepRun.invariant_all hstep (deliveredSealed_start legacy) pre
    obtain ⟨shard, hshard, hmem⟩ := observed_sealed hsealed hp hr
    refine ⟨shard, ?_, hmem⟩
    rw [StepRun.exec_append, StepRun.exec_cons]
    exact shards_subset_exec _ post hshard
  · rintro pre p post rfl hreset
    rw [handed_eq_due, due, List.filter_eq_self]
    intro r _
    simp [deliverAll, hreset]

end Step

def oneRow : Bytes := Inbox.utf8 "\x7b\"kind\":\"user\",\"seq\":1\x7d".toList

def oneRowUnion : Bytes :=
  Inbox.utf8 "[\x7b\"sequence\":1,\"raw\":".toList ++ oneRow ++ Inbox.utf8 "\x7d]".toList

def oneRowMetadata : Bytes :=
  Inbox.utf8 ("\x7b\"_chat_stasher\":\x7b\"agent_name\":null,".toList ++
    "\"agent_name_state\":\"unknown\",\"observed_sequence_max\":1,".toList ++
    "\"observed_sequence_min\":1,\"partial_replica\":true,".toList ++
    "\"sequence_gaps\":[],\"source\":\"grok-bot\"\x7d\x7d".toList)

/-- Replica records by their canonical JSON, with the texts for one record. -/
def oneRowFormat : ReplicaFormat where
  Raw := Bytes
  decEq := inferInstance
  sequence raw := if raw = oneRow then some 1 else none
  encode := id
  encode_injective := Function.injective_id
  encodeUnion _ := oneRowUnion
  encodeMetadata _ _ _ _ := oneRowMetadata

def rowRecord : ReplicaRecord oneRowFormat := ⟨1, oneRow, by simp [oneRowFormat]⟩

def rowPass (forceReset : Bool) : Pass oneRowFormat Unit :=
  ⟨(), ⟨none, [rowRecord], oneRow.length⟩, forceReset, .completes⟩

/-- A forced reset hands a row over that the destination's own completed pass had delivered. -/
theorem reset_hands_again : ¬ NeverTwice (fun _ => True)
    (Site.start fun _ => none : Site oneRowFormat .verbatim Unit)
      [.pass (rowPass false), .pass (rowPass true)] := by
  intro h
  have hfirst : rowRecord ∈ handed (Site.start fun _ => none : Site oneRowFormat .verbatim Unit)
      (rowPass false) := by decide +kernel
  have hagain : rowRecord ∈ handed (StepRun.exec step
      (Site.start fun _ => none : Site oneRowFormat .verbatim Unit) [.pass (rowPass false)])
      (rowPass true) := by decide +kernel
  exact h [] (rowPass false) [] (rowPass true) [] rfl rfl rfl rfl (List.not_mem_nil) trivial
    hfirst hagain

end ChatStasher.GrokBot
