import ChatStasher.GrokBot.SessionBody
import Mathlib.Data.Finset.Sort
import Mathlib.Data.List.Destutter

/-! Which records of a log the reader shows, position by position, and the runs it makes of a gap
measurement. -/
namespace ChatStasher.GrokBot
open Inbox (Text)
open KeyedList

section Pick
variable {α β : Type*}

def pickLast (marked : α → Bool) (vs : List α) : Option α :=
  (vs.filter marked).getLast?.or vs.getLast?

lemma pickVariant_eq (variants : List Value) : pickVariant variants = pickLast complete variants := by
  rw [pickVariant, pickLast, ← List.head?_filter, List.filter_reverse, List.head?_reverse]

lemma pickLast_map (f : α → β) (marked : β → Bool) (vs : List α) :
    pickLast marked (vs.map f) = (pickLast (marked ∘ f) vs).map f := by
  rw [pickLast, pickLast, List.filter_map, List.getLast?_map, List.getLast?_map, Option.map_or]

lemma pickLast_isSome {marked : α → Bool} {vs : List α} :
    (pickLast marked vs).isSome = true ↔ vs ≠ [] := by
  cases hlast : vs.getLast? with
  | none => simp [pickLast, List.getLast?_eq_none_iff.mp hlast]
  | some v =>
    have hne : vs ≠ [] := List.ne_nil_of_mem (List.mem_of_getLast? hlast)
    simp [pickLast, hlast, hne]

lemma mem_of_pickLast {marked : α → Bool} {vs : List α} {v : α} (h : pickLast marked vs = some v) :
    v ∈ vs := by
  rw [pickLast, Option.or_eq_some_iff] at h
  rcases h with h | ⟨-, h⟩
  · exact (List.mem_filter.mp (List.mem_of_getLast? h)).1
  · exact List.mem_of_getLast? h

lemma filterMap_eq_iff {keys : List α} {pick wanted : α → Option β}
    (hwanted : ∀ k ∈ keys, (wanted k).isSome = true) :
    keys.filterMap pick = keys.filterMap wanted ↔ ∀ k ∈ keys, pick k = wanted k := by
  refine ⟨fun h => ?_, fun h => List.filterMap_congr h⟩
  induction keys with
  | nil => exact fun k hk => absurd hk List.not_mem_nil
  | cons key keys ih =>
    rw [List.forall_mem_cons] at hwanted
    obtain ⟨w, hw⟩ := Option.isSome_iff_exists.mp hwanted.1
    rw [List.filterMap_cons_some hw] at h
    cases hpick : pick key with
    | none =>
      -- too few are picked from the rest
      rw [List.filterMap_cons_none hpick] at h
      have hall : (keys.filterMap wanted).length = keys.length := by
        rw [List.length_filterMap_eq_countP, List.countP_eq_length]
        exact hwanted.2
      have hfew := List.length_filterMap_le pick keys
      rw [h, List.length_cons, hall] at hfew
      omega
    | some v =>
      rw [List.filterMap_cons_some hpick, List.cons.injEq] at h
      rw [List.forall_mem_cons, hpick, hw, h.1]
      exact ⟨rfl, ih hwanted.2 h.2⟩

end Pick

section Gathered
variable {R : ReplicaReader} (log : List (ReplicaRecord (jsonFormat R)))

def recordsAt (n : ℕ) : List (ReplicaRecord (jsonFormat R)) := log.filter fun r => r.sequence = n

/-- The records of a position that the reader does not take for measurement lines. -/
def variantsAt (n : ℕ) : List (ReplicaRecord (jsonFormat R)) :=
  (recordsAt log n).filter fun r => !namesMeasurement r.value

lemma recordsAt_append (rows : List (ReplicaRecord (jsonFormat R))) (n : ℕ) :
    recordsAt (log ++ rows) n = recordsAt log n ++ recordsAt rows n := List.filter_append _ _

lemma gathered_nodup : ((gathered log).map Prod.fst).Nodup := by
  rw [gathered]
  suffices h : ∀ (rows : List (ReplicaRecord (jsonFormat R))) (m : List (ℕ × List Value)),
      (m.map Prod.fst).Nodup → ((rows.foldl (fun records r =>
        upsert records r.sequence fun variants => variants.getD [] ++ [r.value]) m).map
          Prod.fst).Nodup from h _ [] List.nodup_nil
  intro rows
  induction rows with
  | nil => exact fun m hm => hm
  | cons r rows ih => exact fun m hm => ih _ (put_nodup hm)

lemma lookup_gathered (n : ℕ) : (gathered log).lookup n =
    if variantsAt log n = [] then none
    else some ((variantsAt log n).map ReplicaRecord.value) := by
  have hfold : ∀ (rows : List (ReplicaRecord (jsonFormat R))) (vs : List Value),
      rows.foldl (fun (v : Option (List Value)) r => some (v.getD [] ++ [r.value])) (some vs) =
        some (vs ++ rows.map ReplicaRecord.value) := by
    intro rows
    induction rows with
    | nil => exact fun vs => congrArg some (List.append_nil vs).symm
    | cons r rows ih =>
      intro vs
      rw [List.foldl_cons, Option.getD_some, ih, List.map_cons, List.append_assoc,
        List.singleton_append]
  have hcomm : (log.filter fun r => !namesMeasurement r.value).filter (fun r => r.sequence = n) =
      variantsAt log n := by
    rw [variantsAt, recordsAt, List.filter_filter, List.filter_filter]
    exact List.filter_congr fun r _ => Bool.and_comm _ _
  rw [gathered, lookup_foldl_upsert ReplicaRecord.sequence
    fun variants r => variants.getD [] ++ [r.value], hcomm]
  cases variantsAt log n with
  | nil => rfl
  | cons r rows => exact hfold rows [r.value]

lemma shownRecords_gathered (measurement : Option Value) (unrecognized : ℕ) {positions : List ℕ}
    (hsorted : positions.Pairwise (· < ·)) (hall : ∀ r ∈ log, r.sequence ∈ positions) :
    shownRecords ⟨gathered log, measurement, unrecognized⟩ = positions.filterMap fun n =>
      (pickLast (complete ∘ ReplicaRecord.value) (variantsAt log n)).map ReplicaRecord.value := by
  have hnodup := gathered_nodup log
  have hkeys : ((inKeyOrder (gathered log)).map Prod.fst).Sublist positions := by
    have hlt : ((inKeyOrder (gathered log)).map Prod.fst).Pairwise (· < ·) :=
      List.pairwise_map.mpr (inKeyOrder_sorted hnodup)
    refine List.sublist_of_subperm_of_pairwise (r := (· ≤ ·)) ?_ (hlt.imp le_of_lt)
      (hsorted.imp le_of_lt)
    refine List.subperm_of_subset (hlt.imp ne_of_lt) fun n hn => ?_
    obtain ⟨⟨n, vs⟩, hmem, rfl⟩ := List.mem_map.mp hn
    rw [mem_inKeyOrder, ← lookup_eq_some_iff_mem hnodup, lookup_gathered] at hmem
    split at hmem
    next => cases hmem
    next hne =>
      obtain ⟨r, hr⟩ := List.exists_mem_of_ne_nil _ hne
      have hat := List.mem_filter.mp (List.mem_filter.mp hr).1
      exact of_decide_eq_true hat.2 ▸ hall r hat.1
  have hfind := filterMap_eq_of_sublist (hsorted.imp ne_of_lt) hkeys
    (g := fun n => ((gathered log).lookup n).map fun vs => (n, vs)) (by
      rintro n - ⟨k, vs⟩
      rw [mem_inKeyOrder, ← lookup_eq_some_iff_mem hnodup]
      simp only [Option.map_eq_some_iff, Prod.mk.injEq]
      constructor
      · rintro ⟨vs', hvs, rfl, rfl⟩
        exact ⟨hvs, rfl⟩
      · rintro ⟨hvs, rfl⟩
        exact ⟨vs, hvs, rfl, rfl⟩)
  rw [shownRecords, ← hfind, List.filterMap_filterMap]
  refine List.filterMap_congr fun n _ => ?_
  rw [lookup_gathered, ← pickLast_map, ← pickVariant_eq]
  split
  next h => rw [h]; rfl
  next => rfl

end Gathered

lemma renderRecord_runs (R : ReplicaReader) (conversation : Conversation) (record : Value) :
    (renderRecord R conversation record).sequenceGapRuns = conversation.sequenceGapRuns := by
  have hpushed : ∀ (messages : List (Option ℤ × Message)) (conversation : Conversation),
      (messages.foldl (fun conversation at_ => conversation.pushMessage at_.2)
        conversation).sequenceGapRuns = conversation.sequenceGapRuns := by
    intro messages
    induction messages with
    | nil => exact fun _ => rfl
    | cons message messages ih => exact fun conversation => ih _
  have hvoice : (renderVoiceCall R record conversation).sequenceGapRuns =
      conversation.sequenceGapRuns := by
    rw [renderVoiceCall]
    refine (hpushed _ _).trans ?_
    split <;> rfl
  have hmessage : (renderMessage R record conversation).sequenceGapRuns =
      conversation.sequenceGapRuns := by
    rw [renderMessage]
    split <;> rfl
  have hnotice : (renderNotice R record conversation).sequenceGapRuns =
      conversation.sequenceGapRuns := by
    rw [renderNotice]
    split <;> rfl
  have hsent : (renderSendMessage R record conversation).sequenceGapRuns =
      conversation.sequenceGapRuns := by
    have hblocks : ∀ blocks : List Block,
        (if blocks.isEmpty then conversation else conversation.pushMessage
          ⟨.assistant, messageTime R (record.get "timestampMs"), blocks⟩).sequenceGapRuns =
            conversation.sequenceGapRuns := by
      intro blocks
      split <;> rfl
    exact hblocks _
  unfold renderRecord
  repeat' split
  all_goals first | rfl | assumption

def Covered (runs : List (ℕ × ℕ)) (n : ℕ) : Prop := ∃ run ∈ runs, run.1 ≤ n ∧ n ≤ run.2

lemma covered_append {runs runs' : List (ℕ × ℕ)} {n : ℕ} :
    Covered (runs ++ runs') n ↔ Covered runs n ∨ Covered runs' n := by
  simp only [Covered, List.mem_append, or_and_right, exists_or]

lemma covered_singleton {run : ℕ × ℕ} {n : ℕ} : Covered [run] n ↔ run.1 ≤ n ∧ n ≤ run.2 := by
  simp [Covered]

lemma extendRuns_covers {positions : List ℕ} (hsorted : positions.Pairwise (· < ·))
    (hbound : ∀ p ∈ positions, p < 2 ^ 64) :
    (∀ n, Covered (positions.foldl extendRuns []) n ↔ n ∈ positions) ∧
      (positions.foldl extendRuns []).getLast?.map Prod.snd = positions.getLast? ∧
      ∀ run ∈ positions.foldl extendRuns [], run.1 ≤ run.2 := by
  induction positions using List.reverseRecOn with
  | nil => exact ⟨fun n => by simp [Covered], rfl, by simp⟩
  | append_singleton positions p ih =>
    obtain ⟨hpositions, -, hlt⟩ := List.pairwise_append.mp hsorted
    obtain ⟨hcovered, hlast, hordered⟩ := ih hpositions fun q hq =>
      hbound q (List.mem_append_left _ hq)
    have hp : p < 2 ^ 64 := hbound p (by simp)
    rw [List.foldl_append, List.foldl_cons, List.foldl_nil, List.getLast?_concat]
    generalize positions.foldl extendRuns [] = runs at hcovered hlast hordered ⊢
    have hnew : (∀ n, Covered (runs ++ [(p, p)]) n ↔ n ∈ positions ++ [p]) ∧
        (runs ++ [(p, p)]).getLast?.map Prod.snd = some p ∧
        ∀ run ∈ runs ++ [(p, p)], run.1 ≤ run.2 := by
      refine ⟨fun n => ?_, by simp, fun run hrun => ?_⟩
      · rw [covered_append, covered_singleton, hcovered, List.mem_append, List.mem_singleton]
        exact or_congr_right ⟨fun h => le_antisymm h.2 h.1, fun h => ⟨h.ge, h.le⟩⟩
      · rw [List.mem_append, List.mem_singleton] at hrun
        rcases hrun with hrun | rfl
        · exact hordered run hrun
        · exact le_refl p
    unfold extendRuns
    split
    next start last heq =>
      obtain ⟨front, rfl⟩ := List.getLast?_eq_some_iff.mp heq
      rw [heq, Option.map_some] at hlast
      have hlastp : last < p := hlt last (List.mem_of_getLast? hlast.symm) p (by simp)
      split
      next hnext =>
        obtain rfl : last + 1 = p := by omega
        have hstart : start ≤ last := hordered (start, last) (by simp)
        rw [List.dropLast_concat]
        refine ⟨fun n => ?_, by simp, fun run hrun => ?_⟩
        · rw [List.mem_append, ← hcovered, covered_append, covered_append, covered_singleton,
            covered_singleton, List.mem_singleton, or_assoc]
          refine or_congr_right ⟨fun h => ?_, fun h => ?_⟩
          · dsimp only at h ⊢
            omega
          · dsimp only at h ⊢
            omega
        · rw [List.mem_append, List.mem_singleton] at hrun
          rcases hrun with hrun | rfl
          · exact hordered run (List.mem_append_left _ hrun)
          · exact hstart.trans (Nat.le_succ last)
      next => exact hnew
    next hnone =>
      obtain rfl := List.getLast?_eq_none_iff.mp hnone
      exact hnew

lemma covered_gapRuns {gaps : List ℕ} (hsorted : gaps.Pairwise (· < ·))
    (hbound : ∀ p ∈ gaps, p < 2 ^ 64) (n : ℕ) :
    Covered (gapRuns (some (.array (gaps.map Value.ofU64)))) n ↔ n ∈ gaps := by
  have hread : (gaps.map Value.ofU64).filterMap Value.asU64 = gaps := by
    rw [List.filterMap_map]
    exact (List.filterMap_congr fun p hp => Value.asU64_ofU64 (hbound p hp)).trans
      (List.filterMap_some)
  have hdistinct : gaps.destutter (· ≠ ·) = gaps :=
    List.destutter_of_isChain _ _ (hsorted.imp ne_of_lt).isChain
  have hentries : entries (some (.array (gaps.map Value.ofU64))) = gaps.map Value.ofU64 := rfl
  have hmerge : gaps.mergeSort (· ≤ ·) = gaps :=
    List.mergeSort_eq_self (· ≤ ·) (hsorted.imp le_of_lt)
  rw [gapRuns, hentries, hread, hmerge, hdistinct]
  exact (extendRuns_covers hsorted hbound).1 n

lemma sequenceGaps_pairwise (sequences : List ℕ) : (sequenceGaps sequences).Pairwise (· < ·) := by
  unfold sequenceGaps
  split
  · exact List.Pairwise.nil
  · exact (List.pairwise_lt_range' _).filter _

lemma mem_sequenceGaps {sequences : List ℕ} {n : ℕ} : n ∈ sequenceGaps sequences ↔
    1 ≤ n ∧ n ∉ sequences ∧ ∃ m ∈ sequences, n ≤ m := by
  rw [sequenceGaps]
  cases hmax : sequences.max? with
  | none =>
    rw [List.max?_eq_none_iff.mp hmax]
    simp
  | some max =>
    obtain ⟨hmem, hle⟩ := List.max?_eq_some_iff.mp hmax
    simp only [List.mem_filter, List.mem_range'_1, decide_eq_true_eq]
    constructor
    · rintro ⟨⟨hone, hlt⟩, hnot⟩
      exact ⟨hone, hnot, max, hmem, by omega⟩
    · rintro ⟨hone, hnot, m, hm, hnm⟩
      have := hle m hm
      exact ⟨⟨hone, by omega⟩, hnot⟩

end ChatStasher.GrokBot
