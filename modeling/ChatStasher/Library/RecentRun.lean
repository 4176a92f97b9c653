import ChatStasher.Library.KeyedList
import Mathlib.Algebra.Order.BigOperators.Group.List
import Mathlib.Algebra.Order.Ring.Nat

/-! Keeping what was used last within a budget. Lists run from the least to the most recent. -/
namespace RecentRun

variable {α : Type*} (size : α → ℕ)

def total (entries : List α) : ℕ := (entries.map size).sum

def keep (quota : ℕ) : List α → List α
  | [] => []
  | e :: entries => if total size (e :: entries) ≤ quota then e :: entries else keep quota entries

structure IsLongest (quota : ℕ) (entries run : List α) : Prop where
  recent : run <:+ entries
  fits : total size run ≤ quota
  longest : ∀ other, other <:+ entries → total size other ≤ quota → other <:+ run

variable {size}

@[simp] lemma total_nil : total size [] = 0 := rfl

@[simp] lemma total_cons (e : α) (entries : List α) :
    total size (e :: entries) = size e + total size entries := by
  simp [total]

@[simp] lemma total_append (l l' : List α) : total size (l ++ l') = total size l + total size l' := by
  simp [total]

lemma total_le_of_sublist {l l' : List α} (h : l.Sublist l') : total size l ≤ total size l' :=
  (h.map size).sum_le_sum fun _ _ => Nat.zero_le _

lemma total_perm {l l' : List α} (h : l.Perm l') : total size l = total size l' :=
  (h.map size).sum_eq

lemma keep_suffix (quota : ℕ) (entries : List α) : keep size quota entries <:+ entries := by
  induction entries with
  | nil => exact List.suffix_refl _
  | cons e entries ih =>
    rw [keep]
    split
    · exact List.suffix_refl _
    · exact ih.trans (List.suffix_cons e entries)

lemma total_keep_le (quota : ℕ) (entries : List α) : total size (keep size quota entries) ≤ quota := by
  induction entries with
  | nil => exact Nat.zero_le _
  | cons e entries ih =>
    rw [keep]
    split
    next hfits => exact hfits
    · exact ih

lemma keep_of_fits {quota : ℕ} {entries : List α} (h : total size entries ≤ quota) :
    keep size quota entries = entries := by
  cases entries with
  | nil => rfl
  | cons e entries => rw [keep, if_pos h]

theorem isLongest_keep (size : α → ℕ) (quota : ℕ) (entries : List α) :
    IsLongest size quota entries (keep size quota entries) := by
  refine ⟨keep_suffix quota entries, total_keep_le quota entries, fun other hother hfits => ?_⟩
  induction entries with
  | nil => exact hother
  | cons e entries ih =>
    rw [keep]
    split
    · exact hother
    next hover =>
      rcases List.suffix_cons_iff.mp hother with rfl | hrest
      · exact absurd hfits hover
      · exact ih hrest

lemma IsLongest.lt_total_cons {quota : ℕ} {front run : List α} {z : α}
    (h : IsLongest size quota (front ++ z :: run) run) : quota < total size (z :: run) := by
  by_contra hfits
  have hsuffix := h.longest (z :: run) (List.suffix_append front _) (by omega)
  have := hsuffix.length_le
  rw [List.length_cons] at this
  omega

lemma mem_keep_concat {quota : ℕ} {entries : List α} {e : α} :
    e ∈ keep size quota (entries ++ [e]) ↔ size e ≤ quota := by
  have hlongest := isLongest_keep size quota (entries ++ [e])
  constructor
  · intro hmem
    have hle := @total_le_of_sublist _ size _ _ (List.singleton_sublist.mpr hmem)
    have hfits := hlongest.fits
    simp only [total_cons, total_nil] at hle
    omega
  · intro hfits
    have hsuffix := hlongest.longest [e] (List.suffix_append entries [e]) (by simpa using hfits)
    exact hsuffix.subset List.mem_cons_self

section Touch
variable {K V : Type*} [DecidableEq K] {size : K × V → ℕ}

lemma total_le_filter_ne_add {entries : List (K × V)} (h : (entries.map Prod.fst).Nodup) {e : K × V}
    (hsize : ∀ old ∈ entries, old.1 = e.1 → size old ≤ size e) :
    total size entries ≤ total size (entries.filter fun x => x.1 ≠ e.1) + size e := by
  induction entries with
  | nil => simp
  | cons x entries ih =>
    obtain ⟨hx, hrest⟩ := List.nodup_cons.mp h
    by_cases hkey : x.1 = e.1
    · have hkept : entries.filter (fun y => y.1 ≠ e.1) = entries := by
        refine List.filter_eq_self.mpr fun y hy => decide_eq_true fun hsame => hx ?_
        exact List.mem_map.mpr ⟨y, hy, hsame.trans hkey.symm⟩
      have := hsize x List.mem_cons_self hkey
      rw [List.filter_cons_of_neg (by simp [hkey]), hkept, total_cons]
      omega
    · have := ih hrest fun old hold => hsize old (List.mem_cons_of_mem x hold)
      rw [List.filter_cons_of_pos (by simp [hkey]), total_cons, total_cons]
      omega

/-- What is kept of the kept entries and one more is the longest run of all of them, if the new
entry is not smaller than the one it replaces. -/
theorem IsLongest.put {quota : ℕ} {entries run : List (K × V)} (h : IsLongest size quota entries run)
    (hnodup : (entries.map Prod.fst).Nodup) {e : K × V}
    (hsize : ∀ old ∈ entries, old.1 = e.1 → size old ≤ size e) :
    IsLongest size quota (KeyedList.put entries e) (keep size quota (KeyedList.put run e)) := by
  obtain ⟨older, rfl⟩ := h.recent
  have hkept := isLongest_keep size quota (KeyedList.put run e)
  have hput : KeyedList.put (older ++ run) e =
      older.filter (fun x => x.1 ≠ e.1) ++ KeyedList.put run e := by
    simp [KeyedList.put]
  refine ⟨?_, hkept.fits, fun other hother hfits => ?_⟩
  · rw [hput]
    exact hkept.recent.trans (List.suffix_append _ _)
  · rw [hput] at hother
    rcases List.suffix_or_suffix_of_suffix hother (List.suffix_append _ (KeyedList.put run e)) with
      hin | hout
    · exact hkept.longest other hin hfits
    · obtain ⟨between, rfl⟩ := hout
      obtain rfl | hnonempty := eq_or_ne between []
      · exact hkept.longest _ (List.suffix_refl _) hfits
      · -- the entry before the run did not fit, and everything from it on is still there
        exfalso
        have hbetween : between <:+ older.filter fun x => x.1 ≠ e.1 := by
          obtain ⟨front, hfront⟩ := hother
          rw [← List.append_assoc] at hfront
          exact ⟨front, List.append_cancel_right hfront⟩
        obtain ⟨front, z, rfl⟩ : ∃ front z, older = front ++ [z] := by
          refine List.eq_nil_or_concat' older |>.resolve_left ?_
          rintro rfl
          exact hnonempty (List.suffix_nil.mp hbetween)
        rw [List.append_assoc, List.singleton_append] at h hnodup hsize
        have hover := h.lt_total_cons
        have hkeys : ((z :: run).map Prod.fst).Nodup :=
          hnodup.sublist ((List.sublist_append_right front _).map _)
        have hle := total_le_filter_ne_add hkeys (e := e) fun old hold =>
          hsize old (List.mem_append_right front hold)
        have hsub : ((z :: run).filter fun x => x.1 ≠ e.1).Sublist
            (between ++ run.filter fun x => x.1 ≠ e.1) := by
          by_cases hz : z.1 = e.1
          · rw [List.filter_cons_of_neg (by simp [hz])]
            exact List.sublist_append_right _ _
          · rw [List.filter_cons_of_pos (by simp [hz])]
            refine @List.Sublist.append _ [z] _ _ _ ?_ (List.Sublist.refl _)
            rw [List.filter_append, List.filter_cons_of_pos (by simp [hz]), List.filter_nil] at hbetween
            obtain ⟨before, hbefore⟩ := hbetween
            have hlast := congrArg List.getLast? hbefore
            rw [List.getLast?_append_of_ne_nil _ hnonempty, List.getLast?_concat] at hlast
            exact List.singleton_sublist.mpr (List.mem_of_getLast? hlast)
        have hsum := @total_le_of_sublist _ size _ _ hsub
        simp only [KeyedList.put, total_append, total_cons, total_nil] at hfits hsum
        omega

end Touch

end RecentRun
