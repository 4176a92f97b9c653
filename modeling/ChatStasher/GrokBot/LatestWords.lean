import ChatStasher.GrokBot.ShownRecords

/-! What the reader shows of a session after any number of completed passes: the latest words of every
position, unless a position went back to a content observed there before. -/
namespace ChatStasher.GrokBot
open Inbox (Text utf8)
open Deletion (textLines)
open GroupedUnion (CaughtUp distinct)

section Pick
variable {α : Type*} {marked : α → Bool} {vs : List α} {v : α}

lemma pickLast_of_marked (hv : marked v = true) :
    pickLast marked vs = some v ↔ (vs.filter marked).getLast? = some v := by
  rw [pickLast, Option.or_eq_some_iff]
  refine ⟨fun h => h.elim id ?_, Or.inl⟩
  rintro ⟨hnone, hlast⟩
  have hmem : v ∈ vs.filter marked := List.mem_filter.mpr ⟨List.mem_of_getLast? hlast, hv⟩
  rw [List.getLast?_eq_none_iff.mp hnone] at hmem
  cases hmem

lemma pickLast_of_unmarked (h : ∀ x ∈ vs, marked x = false) : pickLast marked vs = vs.getLast? := by
  have hnone : vs.filter marked = [] := List.filter_eq_nil_iff.mpr fun x hx => by simp [h x hx]
  rw [pickLast, hnone]
  rfl

lemma unmarked_of_pickLast (h : pickLast marked vs = some v) (hv : marked v = false) :
    ∀ x ∈ vs, marked x = false := by
  intro x hx
  by_contra hmarked
  rw [Bool.not_eq_false] at hmarked
  have hmem : x ∈ vs.filter marked := List.mem_filter.mpr ⟨hx, hmarked⟩
  cases hlast : (vs.filter marked).getLast? with
  | none => rw [List.getLast?_eq_none_iff.mp hlast] at hmem; cases hmem
  | some w =>
    rw [pickLast, hlast, Option.some_or] at h
    have hw := (List.mem_filter.mp (List.mem_of_getLast? hlast)).2
    rw [Option.some.inj h, hv] at hw
    cases hw

end Pick

variable {R : ReplicaReader} {H : Sha256} {Dest : Type}

def ReplicaRecord.isComplete (r : ReplicaRecord (jsonFormat R)) : Bool := complete r.value

/-- The latest observation of a position that is marked complete, or the latest when none is. -/
def latestAt (observed : List (ReplicaRecord (jsonFormat R))) (n : ℕ) :
    Option (ReplicaRecord (jsonFormat R)) :=
  pickLast ReplicaRecord.isComplete (recordsAt observed n)

def positions (observed : List (ReplicaRecord (jsonFormat R))) : List ℕ :=
  (observed.map ReplicaRecord.sequence).toFinset.sort

/-- The reader shows the latest record of each position, the positions never observed and no string of
a secret exchange. -/
structure ReadsLatest (s : Site (jsonFormat R) H Dest)
    (observed : List (ReplicaRecord (jsonFormat R))) : Prop where
  shown : shownOf s = some ((positions observed).filterMap fun n =>
    (latestAt observed n).map ReplicaRecord.value)
  gaps : ∃ conversation, readSession s = some conversation ∧
    ∀ n, Covered conversation.sequenceGapRuns n ↔
      1 ≤ n ∧ (∀ r ∈ observed, r.sequence ≠ n) ∧ ∃ r ∈ observed, n ≤ r.sequence
  withheld : ∀ body body', List.Forall₂ (LineChange R) (textLines body) (textLines body') →
    normalizeBody R body = normalizeBody R body'

/-- No position was left at a content after which another one with the same streaming mark was
observed there for the first time; no latest record passes for a measurement line. -/
def Settled (observed : List (ReplicaRecord (jsonFormat R))) : Prop :=
  ∀ n r, latestAt observed n = some r → namesMeasurement r.value = false ∧
    ∀ r' ∈ recordsAt observed n, namesMeasurement r'.value = false →
      r'.isComplete = r.isComplete →
        (recordsAt observed n).idxOf r' ≤ (recordsAt observed n).idxOf r

def observedBy : Action (jsonFormat R) Dest → List (ReplicaRecord (jsonFormat R))
  | .pass p => p.observed.records
  | .loseDebt _ => []

def Completed : Action (jsonFormat R) Dest → Prop
  | .pass p => p.fate = .completes
  | .loseDebt _ => True

def measurementOf (agentName : Option Text) (union : List (ReplicaRecord (jsonFormat R))) : Value :=
  let sequences := union.map ReplicaRecord.sequence
  metadataValue agentName (sequenceGaps sequences) sequences.head? sequences.getLast?

/-- The JSON parser reads back every measurement that the passes of a run may write. -/
def RereadsMeasurements (as : List (Action (jsonFormat R) Dest)) : Prop :=
  ∀ p, .pass p ∈ as → ∀ union ⊆ as.flatMap observedBy,
    Rereads R (measurementOf p.observed.name union)

lemma mem_recordsAt {observed : List (ReplicaRecord (jsonFormat R))} {n : ℕ}
    {r : ReplicaRecord (jsonFormat R)} : r ∈ recordsAt observed n ↔ r ∈ observed ∧ r.sequence = n := by
  simp [recordsAt]

lemma mem_positions {observed : List (ReplicaRecord (jsonFormat R))} {n : ℕ} :
    n ∈ positions observed ↔ ∃ r ∈ observed, r.sequence = n := by
  simp [positions]

lemma positions_pairwise (observed : List (ReplicaRecord (jsonFormat R))) :
    (positions observed).Pairwise (· < ·) := (Finset.sortedLT_sort _).pairwise

lemma latestAt_isSome {observed : List (ReplicaRecord (jsonFormat R))} {n : ℕ}
    (h : n ∈ positions observed) : (latestAt observed n).isSome = true := by
  obtain ⟨r, hr, hn⟩ := mem_positions.mp h
  exact pickLast_isSome.mpr (List.ne_nil_of_mem (mem_recordsAt.mpr ⟨hr, hn⟩))

/-- From a log that has caught up the reader picks the latest record of a position just when no other
of its kind was observed first after it. -/
lemma pick_eq_latest_iff {log observed : List (ReplicaRecord (jsonFormat R))} {n : ℕ}
    (h : CaughtUp (recordsAt log n) (recordsAt observed n)) {r : ReplicaRecord (jsonFormat R)}
    (hlatest : latestAt observed n = some r) :
    pickLast ReplicaRecord.isComplete (variantsAt log n) = some r ↔
      namesMeasurement r.value = false ∧ ∀ r' ∈ recordsAt observed n,
        namesMeasurement r'.value = false → r'.isComplete = r.isComplete →
          (recordsAt observed n).idxOf r' ≤ (recordsAt observed n).idxOf r := by
  have hr : r ∈ recordsAt observed n := mem_of_pickLast hlatest
  cases hcomplete : r.isComplete with
  | true =>
    rw [pickLast_of_marked hcomplete, variantsAt, List.filter_filter, h,
      GroupedUnion.getLast?_filter_distinct]
    simp only [hr, hcomplete, Bool.and_eq_true, Bool.not_eq_true', true_and]
    exact and_congr_right fun _ => forall₂_congr fun r' _ =>
      ⟨fun hle hplain hmark => hle ⟨hmark, hplain⟩, fun hle hmark => hle hmark.2 hmark.1⟩
  | false =>
    have hunmarked := unmarked_of_pickLast hlatest hcomplete
    have hlog : ∀ x ∈ variantsAt log n, x.isComplete = false := fun x hx =>
      hunmarked x (h.mem_iff.mp (List.mem_filter.mp hx).1)
    rw [pickLast_of_unmarked hlog, variantsAt, h, GroupedUnion.getLast?_filter_distinct]
    simp only [hr, Bool.not_eq_true', true_and]
    exact and_congr_right fun _ => forall₂_congr fun r' hr' =>
      ⟨fun hle hplain _ => hle hplain, fun hle hplain => hle hplain (hunmarked r' hr')⟩

def Measures (measurement : Option Value) (observed : List (ReplicaRecord (jsonFormat R))) : Prop :=
  match measurement with
  | none => observed = []
  | some m => ∃ agentName union, m = measurementOf agentName union ∧ ∀ r, r ∈ union ↔ r ∈ observed

/-- From the lines of some shards the reader gathers a log that has caught up with what was observed. -/
def BodyRead (shards : List (List Bytes)) (observed : List (ReplicaRecord (jsonFormat R))) : Prop :=
  ∃ (lines : List Text) (log : List (ReplicaRecord (jsonFormat R))) (measurement : Option Value),
    shards.flatten = lines.map utf8 ∧ (∀ line ∈ lines, ShardLine line) ∧
      lines.foldl (walkLine R) Walk.start = ⟨gathered log, measurement, 0⟩ ∧
      (∀ n, CaughtUp (recordsAt log n) (recordsAt observed n)) ∧ Measures measurement observed

/-- What completed passes keep up: the union, the delivered set of each destination as what had been
observed at some earlier time, and a body that has caught up. -/
structure Progress (s : Site (jsonFormat R) H Dest)
    (observed : List (ReplicaRecord (jsonFormat R))) : Prop where
  union : s.union.getD [] = GroupedUnion.union ReplicaRecord.sequence observed
  delivered : ∀ dest, ∃ old, old <+: observed ∧
    ∀ x, x ∈ deliveredBy (s.debts dest) ↔ ∃ r ∈ old, grokBotRowDigest H r = x
  read : BodyRead s.shards observed

lemma progress_start (legacy : Dest → Option (OffsetEntry H.Digest)) :
    Progress (Site.start legacy : Site (jsonFormat R) H Dest) [] where
  union := rfl
  delivered dest := by
    refine ⟨[], List.prefix_refl [], fun x => ?_⟩
    cases hlegacy : legacy dest <;> simp [Site.start, deliveredBy, hlegacy]
  read := ⟨[], [], none, rfl, fun _ h => absurd h List.not_mem_nil, rfl,
    fun _ => GroupedUnion.caughtUp_nil, rfl⟩

lemma grokBotRowDigest_injective {r r' : ReplicaRecord (jsonFormat R)}
    (h : grokBotRowDigest H r = grokBotRowDigest H r') : r = r' :=
  ReplicaRecord.eq_of_raw ((jsonFormat R).encode_injective (encode_eq_of_digest h))

section Pass
variable {s : Site (jsonFormat R) H Dest} {p : Pass (jsonFormat R) Dest}
  {observed : List (ReplicaRecord (jsonFormat R))}

lemma merged_eq (h : Progress s observed) : merged s p =
    GroupedUnion.union ReplicaRecord.sequence (observed ++ p.observed.records) := by
  rw [merged, mergeReplicaRecords_eq, h.union, GroupedUnion.union_union_append]

lemma delivery_shard {d : Delivery (jsonFormat R) H} (h : delivery s p = some d) :
    d.shard = ((due s p).map fun r => r.value.compact).map utf8 ++
      [utf8 (measurementOf p.observed.name (merged s p)).compact] := by
  rw [delivery, processGrokBot] at h
  split at h
  next => cases h
  next =>
    obtain rfl := Option.some.inj h
    dsimp only
    rw [planGrokBotRows_fst, List.map_map]
    rfl

/-- The rows that are due at a position are those of its first observations that were observed after
the destination's last delivery, or all. -/
lemma recordsAt_due (h : Progress s observed) {old : List (ReplicaRecord (jsonFormat R))}
    (hold : ∀ x, x ∈ deliveredBy (s.debts p.dest) ↔ ∃ r ∈ old, grokBotRowDigest H r = x) (n : ℕ) :
    recordsAt (due s p) n =
      (distinct (recordsAt observed n ++ recordsAt p.observed.records n)).filter
        fun r => deliverAll (s.debts p.dest) p.forceReset || r ∉ recordsAt old n := by
  have hunion : (merged s p).filter (fun r => r.sequence = n) =
      distinct (recordsAt (observed ++ p.observed.records) n) := by
    rw [merged_eq h]
    exact GroupedUnion.filter_union ReplicaRecord.sequence _ n
  rw [← recordsAt_append, ← hunion, recordsAt, due, List.filter_comm]
  refine List.filter_congr fun r hr => ?_
  have hseq : r.sequence = n := by simpa using (List.mem_filter.mp hr).2
  have hiff : grokBotRowDigest H r ∈ deliveredBy (s.debts p.dest) ↔ r ∈ recordsAt old n := by
    rw [hold, mem_recordsAt]
    constructor
    · rintro ⟨r', hr', heq⟩
      exact ⟨grokBotRowDigest_injective heq ▸ hr', hseq⟩
    · exact fun hr => ⟨r, hr.1, rfl⟩
  simp only [hiff]

lemma observed_subset_of_quiet (h : Progress s observed) (hquiet : delivery s p = none) :
    p.observed.records ⊆ observed := by
  obtain ⟨hdue, -, -⟩ := delivery_eq_none hquiet
  obtain ⟨old, hstart, hold⟩ := h.delivered p.dest
  intro r hr
  have hmerged : r ∈ merged s p := mem_mergeReplicaRecords.mpr (Or.inr hr)
  have hdelivered : grokBotRowDigest H r ∈ deliveredBy (s.debts p.dest) := by
    by_contra hnot
    have hmem : r ∈ due s p := List.mem_filter.mpr ⟨hmerged, by simp [hnot]⟩
    rw [hdue] at hmem
    cases hmem
  obtain ⟨r', hr', heq⟩ := (hold _).mp hdelivered
  exact grokBotRowDigest_injective heq ▸ hstart.subset hr'

lemma Progress.of_subset (h : Progress s observed) {news : List (ReplicaRecord (jsonFormat R))}
    (hnews : news ⊆ observed) : Progress s (observed ++ news) where
  union := by
    rw [h.union]
    refine GroupedUnion.union_congr _ fun n => ?_
    rw [List.filter_append, GroupedUnion.distinct_append_of_subset]
    exact List.filter_subset _ hnews
  delivered dest := by
    obtain ⟨old, hstart, hold⟩ := h.delivered dest
    exact ⟨old, hstart.trans (List.prefix_append _ _), hold⟩
  read := by
    obtain ⟨lines, log, measurement, hshards, hlines, hwalk, hcaught, hmeasures⟩ := h.read
    refine ⟨lines, log, measurement, hshards, hlines, hwalk, fun n => ?_, ?_⟩
    · rw [recordsAt_append]
      exact (hcaught n).of_subset (List.filter_subset _ hnews)
    · cases measurement with
      | none =>
        have hempty : observed = [] := hmeasures
        rw [hempty, List.subset_nil] at hnews
        exact (congrArg₂ (· ++ ·) hempty hnews)
      | some m =>
        obtain ⟨agentName, union, heq, hmem⟩ := hmeasures
        refine ⟨agentName, union, heq, fun r => ?_⟩
        rw [hmem, List.mem_append]
        exact ⟨Or.inl, fun hr => hr.elim id fun hr => hnews hr⟩

lemma read_delivered (h : Progress s observed) {d : Delivery (jsonFormat R) H}
    (hd : delivery s p = some d)
    (hmeta : Rereads R (measurementOf p.observed.name (merged s p))) :
    BodyRead (s.shards ++ [d.shard]) (observed ++ p.observed.records) := by
  obtain ⟨lines, log, measurement, hshards, hlines, hwalk, hcaught, -⟩ := h.read
  obtain ⟨old, hstart, hold⟩ := h.delivered p.dest
  refine ⟨lines ++ (((due s p).map fun r => r.value.compact) ++
      [(measurementOf p.observed.name (merged s p)).compact]), log ++ due s p,
    some (measurementOf p.observed.name (merged s p)), ?_, fun line hline => ?_, ?_, fun n => ?_, ?_⟩
  · rw [List.flatten_append, hshards, List.flatten_singleton, delivery_shard hd]
    simp
  · rw [List.mem_append, List.mem_append, List.mem_map, List.mem_singleton] at hline
    rcases hline with hline | ⟨r, -, rfl⟩ | rfl
    · exact hlines line hline
    · exact r.rereads.shardLine
    · exact hmeta.shardLine
  · rw [List.foldl_append, hwalk]
    exact walk_shard log rfl (due s p) hmeta
  · rw [recordsAt_append, recordsAt_append, recordsAt_due h hold n]
    exact (hcaught n).deliver (hstart.filter _) _ _
  · refine ⟨p.observed.name, merged s p, rfl, fun r => ?_⟩
    rw [merged_eq h, GroupedUnion.mem_union]

lemma delivered_all (h : Progress s observed) {d : Delivery (jsonFormat R) H}
    (hd : delivery s p = some d) (x : H.Digest) : x ∈ deliveredBy (some d.state) ↔
      ∃ r ∈ observed ++ p.observed.records, grokBotRowDigest H r = x := by
  obtain ⟨-, -, -, digests, hdigests, hmem⟩ := delivery_eq_some hd
  obtain ⟨old, hstart, hold⟩ := h.delivered p.dest
  have hstate : deliveredBy (some d.state) = digests := by
    rw [deliveredBy, Option.bind_some, hdigests, Option.getD_some]
  rw [hstate, hmem]
  constructor
  · rintro (hx | ⟨r, hr, rfl⟩)
    · obtain ⟨r, hr, rfl⟩ := (hold x).mp hx
      exact ⟨r, List.mem_append_left _ (hstart.subset hr), rfl⟩
    · have hmerged := (List.mem_filter.mp hr).1
      rw [merged_eq h, GroupedUnion.mem_union] at hmerged
      exact ⟨r, hmerged, rfl⟩
  · rintro ⟨r, hr, rfl⟩
    by_cases hdelivered : grokBotRowDigest H r ∈ deliveredBy (s.debts p.dest)
    · exact Or.inl hdelivered
    · refine Or.inr ⟨r, List.mem_filter.mpr ⟨?_, by simp [hdelivered]⟩, rfl⟩
      rw [merged_eq h, GroupedUnion.mem_union]
      exact hr

end Pass

section Run
variable [DecidableEq Dest]

lemma progress_step {s : Site (jsonFormat R) H Dest} {observed : List (ReplicaRecord (jsonFormat R))}
    (h : Progress s observed) {a : Action (jsonFormat R) Dest} (hcompleted : Completed a)
    (hmeta : ∀ p, a = .pass p → Rereads R (measurementOf p.observed.name (merged s p))) :
    Progress (step s a) (observed ++ observedBy a) := by
  cases a with
  | loseDebt dest' =>
    rw [observedBy, List.append_nil]
    refine ⟨h.union, fun dest => ?_, h.read⟩
    by_cases hdest : dest = dest'
    · exact ⟨[], List.nil_prefix, fun x => by simp [step, hdest, deliveredBy]⟩
    · obtain ⟨old, hstart, hold⟩ := h.delivered dest
      exact ⟨old, hstart, fun x => by simpa [step, hdest] using hold x⟩
  | pass p =>
    have hfate : p.fate = .completes := hcompleted
    rw [observedBy]
    cases hd : delivery s p with
    | none =>
      have hstep : step s (.pass p) = s := by simp [step, passStep, hd]
      rw [hstep]
      exact h.of_subset (observed_subset_of_quiet h hd)
    | some d =>
      have hstep : step s (.pass p) = {
          shards := s.shards ++ [d.shard]
          union := some d.union
          debts := Function.update s.debts p.dest (some d.state) } := by
        simp [step, passStep, hd, hfate]
      rw [hstep]
      refine ⟨?_, fun dest => ?_, read_delivered h hd (hmeta p rfl)⟩
      · rw [Option.getD_some, (delivery_eq_some hd).2.1, merged_eq h]
      · by_cases hdest : dest = p.dest
        · subst hdest
          refine ⟨_, List.prefix_refl _, fun x => ?_⟩
          dsimp only
          rw [Function.update_self]
          exact delivered_all h hd x
        · obtain ⟨old, hstart, hold⟩ := h.delivered dest
          refine ⟨old, hstart.trans (List.prefix_append _ _), fun x => ?_⟩
          dsimp only
          rw [Function.update_of_ne hdest]
          exact hold x

lemma progress_exec {as : List (Action (jsonFormat R) Dest)}
    (hcompleted : ∀ a ∈ as, Completed a) :
    ∀ {s : Site (jsonFormat R) H Dest} {observed all : List (ReplicaRecord (jsonFormat R))},
      Progress s observed → observed ++ as.flatMap observedBy = all →
      (∀ p, .pass p ∈ as → ∀ union ⊆ all, Rereads R (measurementOf p.observed.name union)) →
      Progress (StepRun.exec step s as) all := by
  induction as with
  | nil =>
    rintro s observed all h rfl -
    simpa [StepRun.exec] using h
  | cons a as ih =>
    rintro s observed all h rfl hmeta
    rw [StepRun.exec_cons]
    refine ih (fun b hb => hcompleted b (List.mem_cons_of_mem a hb))
      (progress_step h (hcompleted a List.mem_cons_self) fun p hp => ?_) (by simp)
      fun p hp => hmeta p (List.mem_cons_of_mem a hp)
    refine hmeta p (hp ▸ List.mem_cons_self) _ fun r hr => ?_
    rw [merged_eq h, GroupedUnion.mem_union, List.mem_append] at hr
    subst hp
    rcases hr with hr | hr
    · exact List.mem_append_left _ hr
    · exact List.mem_append_right _ (by simp [observedBy, hr])

end Run

section Read
variable {s : Site (jsonFormat R) H Dest} {observed : List (ReplicaRecord (jsonFormat R))}

lemma covered_measured {measurement : Option Value} (h : Measures measurement observed) (walk : Walk)
    (hwalk : walk.measurement = measurement) (n : ℕ) :
    Covered (conversationOf R walk).sequenceGapRuns n ↔
      1 ≤ n ∧ (∀ r ∈ observed, r.sequence ≠ n) ∧ ∃ r ∈ observed, n ≤ r.sequence := by
  have hrendered : ∀ (records : List Value) (conversation : Conversation),
      (records.foldl (renderRecord R) conversation).sequenceGapRuns =
        conversation.sequenceGapRuns := by
    intro records
    induction records with
    | nil => exact fun _ => rfl
    | cons record records ih => exact fun conversation => (ih _).trans (renderRecord_runs R _ _)
  cases measurement with
  | none =>
    have hempty : observed = [] := h
    rw [conversationOf, hwalk, Option.bind_none, hrendered, hempty]
    simp [Covered, Conversation.new]
  | some m =>
    obtain ⟨agentName, union, rfl, hmem⟩ := h
    rw [conversationOf, hwalk]
    have hgaps := @covered_gapRuns (sequenceGaps (union.map ReplicaRecord.sequence))
      (sequenceGaps_pairwise _) (fun p hp => by
        obtain ⟨-, -, m, hm, hle⟩ := mem_sequenceGaps.mp hp
        obtain ⟨r, -, rfl⟩ := List.mem_map.mp hm
        exact lt_of_le_of_lt hle r.sequence_lt) n
    refine hgaps.trans ?_
    rw [mem_sequenceGaps]
    simp only [List.mem_map, hmem, exists_exists_and_eq_and, not_exists, not_and, ne_eq]

lemma shown_iff (h : BodyRead s.shards observed) :
    shownOf s = some ((positions observed).filterMap fun n =>
      (latestAt observed n).map ReplicaRecord.value) ↔ Settled observed := by
  obtain ⟨lines, log, measurement, hshards, hlines, hwalk, hcaught, -⟩ := h
  obtain ⟨body, hbody, hread⟩ := sessionBody_lines hshards hlines
  have hall : ∀ r ∈ log, r.sequence ∈ positions observed := fun r hr => by
    have hseen := (hcaught r.sequence).mem_iff.mp (mem_recordsAt.mpr ⟨hr, rfl⟩)
    exact mem_positions.mpr ⟨r, mem_recordsAt.mp hseen⟩
  rw [shownOf, hbody, Option.map_some, hread, hwalk, Option.some.injEq,
    shownRecords_gathered log measurement 0 (positions_pairwise observed) hall,
    filterMap_eq_iff fun n hn => by rw [Option.isSome_map]; exact latestAt_isSome hn]
  have hone : ∀ n r, latestAt observed n = some r →
      ((pickLast (complete ∘ ReplicaRecord.value) (variantsAt log n)).map ReplicaRecord.value =
        (latestAt observed n).map ReplicaRecord.value ↔
          pickLast ReplicaRecord.isComplete (variantsAt log n) = some r) := by
    intro n r hlatest
    rw [← hlatest]
    exact (Option.map_injective ReplicaRecord.value_injective).eq_iff
  constructor
  · intro hshown n r hlatest
    have hn : n ∈ positions observed :=
      mem_positions.mpr ⟨r, mem_recordsAt.mp (mem_of_pickLast hlatest)⟩
    exact (pick_eq_latest_iff (hcaught n) hlatest).mp ((hone n r hlatest).mp (hshown n hn))
  · intro hsettled n hn
    obtain ⟨r, hlatest⟩ := Option.isSome_iff_exists.mp (latestAt_isSome hn)
    exact (hone n r hlatest).mpr
      ((pick_eq_latest_iff (hcaught n) hlatest).mpr (hsettled n r hlatest))

/-- Of a body that has caught up the reader shows the latest words just when all positions are
settled; its gaps are right and its secrets withheld in any case. -/
lemma BodyRead.latest_iff (h : BodyRead s.shards observed) :
    ReadsLatest s observed ↔ Settled observed := by
  rw [← shown_iff h]
  refine ⟨ReadsLatest.shown, fun hshown => ⟨hshown, ?_, fun body body' => secrets_withheld R⟩⟩
  obtain ⟨lines, log, measurement, hshards, hlines, hwalk, -, hmeasures⟩ := h
  obtain ⟨body, hbody, hread⟩ := sessionBody_lines hshards hlines
  refine ⟨normalizeBody R body, by rw [readSession, hbody, Option.map_some], fun n => ?_⟩
  rw [normalizeBody, hread, hwalk]
  exact covered_measured hmeasures _ rfl n

end Read

/-- After any completed passes for any destinations, whatever they observed and whichever debt entries
were lost, the reader shows the latest words of every position just when no position went back to a
content observed there before. -/
theorem reads_latest_iff [DecidableEq Dest] (legacy : Dest → Option (OffsetEntry H.Digest))
    (as : List (Action (jsonFormat R) Dest)) (hcompleted : ∀ a ∈ as, Completed a)
    (hmeta : RereadsMeasurements as) :
    ReadsLatest (StepRun.exec step (Site.start legacy : Site (jsonFormat R) H Dest) as)
      (as.flatMap observedBy) ↔ Settled (as.flatMap observedBy) :=
  (progress_exec hcompleted (progress_start legacy) (List.nil_append _) hmeta).read.latest_iff

def messageOne (content : String) : Value :=
  .object [("content".toList, .string content.toList), ("isStreaming".toList, .bool false),
    ("kind".toList, .string "message".toList), ("seq".toList, .number ['1'])]

/-- The values that stand in the lines of a session with two contents of position 1. -/
def twoContentLines : List Value :=
  [messageOne "draft", messageOne "final", metadataValue none [] (some 1) (some 1),
    metadataValue none [] none none]

/-- A reader that knows the lines of this session. -/
def twoContentReader : ReplicaReader where
  parse text := twoContentLines.find? fun value => value.compact = text
  rfc3339 _ := none
  truncated _ := none

set_option maxRecDepth 4096 in
lemma twoContentReader_rereads {value : Value} (h : value ∈ twoContentLines) :
    Rereads twoContentReader value := by
  simp only [twoContentLines, List.mem_cons, List.not_mem_nil, or_false] at h
  rcases h with rfl | rfl | rfl | rfl
  · exact ⟨rfl, by decide +kernel, by decide +kernel, by decide +kernel⟩
  · exact ⟨rfl, by decide +kernel, by decide +kernel, by decide +kernel⟩
  · exact ⟨rfl, by decide +kernel, by decide +kernel, by decide +kernel⟩
  · exact ⟨rfl, by decide +kernel, by decide +kernel, by decide +kernel⟩

def draftRecord : ReplicaRecord (jsonFormat twoContentReader) :=
  ⟨1, ⟨messageOne "draft", twoContentReader_rereads (by simp [twoContentLines])⟩, rfl⟩

def finalRecord : ReplicaRecord (jsonFormat twoContentReader) :=
  ⟨1, ⟨messageOne "final", twoContentReader_rereads (by simp [twoContentLines])⟩, rfl⟩

/-- Passes for one destination that complete, each over a window of one record. -/
def windowPasses (windows : List (ReplicaRecord (jsonFormat twoContentReader))) :
    List (Action (jsonFormat twoContentReader) Unit) :=
  windows.map fun record => .pass ⟨(), ⟨none, [record], 0⟩, false, .completes⟩

lemma windowPasses_completed (windows : List (ReplicaRecord (jsonFormat twoContentReader))) :
    ∀ a ∈ windowPasses windows, Completed a := by
  intro a ha
  obtain ⟨record, -, rfl⟩ := List.mem_map.mp ha
  rfl

lemma windowPasses_rereads {windows : List (ReplicaRecord (jsonFormat twoContentReader))}
    (hone : ∀ record ∈ windows, record.sequence = 1) :
    RereadsMeasurements (windowPasses windows) := by
  intro p hp union hunion
  obtain ⟨record, -, heq⟩ := List.mem_map.mp hp
  obtain rfl := Action.pass.inj heq
  have hsequence : ∀ n ∈ union.map ReplicaRecord.sequence, n = 1 := by
    intro n hn
    obtain ⟨r, hr, rfl⟩ := List.mem_map.mp hn
    obtain ⟨a, ha, hra⟩ := List.mem_flatMap.mp (hunion hr)
    obtain ⟨record', hrecord', rfl⟩ := List.mem_map.mp ha
    obtain rfl := List.mem_singleton.mp hra
    exact hone _ hrecord'
  have hgaps : sequenceGaps (union.map ReplicaRecord.sequence) = [] := by
    refine List.eq_nil_iff_forall_not_mem.mpr fun n hn => ?_
    obtain ⟨hpos, hnot, m, hm, hle⟩ := mem_sequenceGaps.mp hn
    obtain rfl := hsequence m hm
    exact hnot (le_antisymm hle hpos ▸ hm)
  refine twoContentReader_rereads ?_
  rw [measurementOf, hgaps]
  generalize union.map ReplicaRecord.sequence = sequences at hsequence
  cases hlast : sequences.getLast? with
  | none =>
    rw [List.getLast?_eq_none_iff.mp hlast]
    simp [twoContentLines]
  | some last =>
    obtain ⟨first, rest, rfl⟩ : ∃ first rest, sequences = first :: rest :=
      List.exists_cons_of_ne_nil fun hnil => by rw [hnil] at hlast; cases hlast
    rw [hsequence last (List.mem_of_getLast? hlast), List.head?_cons,
      hsequence first List.mem_cons_self]
    simp [twoContentLines]

/-- A position that turns from one content to another and stays shows its latest words. -/
theorem reads_latest_of_rewrite :
    ReadsLatest (StepRun.exec step (Site.start fun _ => none : Site _ .verbatim Unit)
      (windowPasses [draftRecord, finalRecord])) [draftRecord, finalRecord] := by
  have hobserved : (windowPasses [draftRecord, finalRecord]).flatMap observedBy =
      [draftRecord, finalRecord] := rfl
  have hsettled : Settled [draftRecord, finalRecord] := by
    intro n r hlatest
    by_cases hn : n = 1
    · subst hn
      obtain rfl : finalRecord = r := Option.some.inj hlatest
      refine ⟨rfl, fun r' hr' _ _ => Nat.le_of_lt_succ ?_⟩
      exact List.idxOf_lt_length_of_mem hr'
    · have hnone : recordsAt [draftRecord, finalRecord] n = [] := by
        simp [recordsAt, draftRecord, finalRecord, Ne.symm hn]
      rw [latestAt, hnone] at hlatest
      cases hlatest
  have hread := reads_latest_iff (H := .verbatim) (fun _ => none)
    (windowPasses [draftRecord, finalRecord]) (windowPasses_completed _)
    (windowPasses_rereads (by simp [draftRecord, finalRecord]))
  rw [hobserved] at hread
  exact hread.mpr hsettled

/-- A position that goes back to its first content shows the words it had in between. -/
theorem reads_revisited_stale :
    ¬ ReadsLatest (StepRun.exec step (Site.start fun _ => none : Site _ .verbatim Unit)
      (windowPasses [draftRecord, finalRecord, draftRecord]))
      [draftRecord, finalRecord, draftRecord] := by
  have hread := (progress_exec (windowPasses_completed [draftRecord, finalRecord, draftRecord])
    (progress_start fun _ => none : Progress (Site.start fun _ => none : Site _ .verbatim Unit) [])
    rfl (windowPasses_rereads (by simp [draftRecord, finalRecord]))).read
  refine fun h => absurd (hread.latest_iff.mp h) fun hsettled => ?_
  have hlatest : latestAt [draftRecord, finalRecord, draftRecord] 1 = some draftRecord := rfl
  have hle := (hsettled 1 draftRecord hlatest).2 finalRecord (by decide +kernel) rfl rfl
  revert hle
  decide +kernel

end ChatStasher.GrokBot
