import Mathlib.Data.List.Infix
import Mathlib.Algebra.GroupWithZero.Nat

/-! Sequences cut into records by a separator: framing, splitting and their round trip. -/
namespace Framing

variable {α : Type*} (sep : α)

def frame (records : List (List α)) : List α := records.flatMap (· ++ [sep])

@[simp] lemma frame_nil : frame sep [] = [] := rfl

@[simp] lemma frame_cons (r : List α) (rs : List (List α)) :
    frame sep (r :: rs) = r ++ sep :: frame sep rs := by
  simp [frame]

@[simp] lemma frame_append (rs ss : List (List α)) :
    frame sep (rs ++ ss) = frame sep rs ++ frame sep ss := by
  simp [frame]

@[simp] lemma frame_eq_nil {rs : List (List α)} : frame sep rs = [] ↔ rs = [] := by
  cases rs <;> simp

lemma length_frame (rs : List (List α)) :
    (frame sep rs).length = (rs.map fun r => r.length + 1).sum := by
  induction rs with
  | nil => rfl
  | cons r rs ih => simp [ih]; omega

lemma frame_length_mono {rs ss : List (List α)} (h : rs <+: ss) :
    (frame sep rs).length ≤ (frame sep ss).length := by
  obtain ⟨t, rfl⟩ := h
  simp

lemma frame_isPrefix {rs ss : List (List α)} (h : rs <+: ss) : frame sep rs <+: frame sep ss := by
  obtain ⟨t, rfl⟩ := h
  simp

variable [DecidableEq α]

/-- Position of the last separator. -/
def rposition : List α → Option ℕ
  | [] => none
  | a :: as =>
    match rposition as with
    | some i => some (i + 1)
    | none => if a = sep then some 0 else none

lemma rposition_eq_none {l : List α} : rposition sep l = none ↔ sep ∉ l := by
  induction l with
  | nil => simp [rposition]
  | cons a l ih =>
    cases h : rposition sep l with
    | none => simp [rposition, h, ih.mp h, eq_comm]
    | some i =>
      have hl : ¬ sep ∉ l := by rw [← ih, h]; simp
      simp [rposition, h, not_not.mp hl]

lemma rposition_append_cons (l : List α) {tail : List α} (ht : sep ∉ tail) :
    rposition sep (l ++ sep :: tail) = some l.length := by
  induction l with
  | nil => simp [rposition, (rposition_eq_none sep).mpr ht]
  | cons a l ih => simp [rposition, ih]

lemma append_sep_inj {l l' tail tail' : List α} (ht : sep ∉ tail) (ht' : sep ∉ tail')
    (h : l ++ sep :: tail = l' ++ sep :: tail') : l = l' ∧ tail = tail' := by
  have hlen : l.length = l'.length := by
    have hpos := congrArg (rposition sep) h
    rw [rposition_append_cons sep l ht, rposition_append_cons sep l' ht'] at hpos
    exact Option.some.inj hpos
  obtain ⟨hl, hcons⟩ := List.append_inj h hlen
  exact ⟨hl, List.tail_eq_of_cons_eq hcons⟩

/-- The records that end in a separator, and the length of the input they occupy. -/
def completeRecords (input : List α) : List (List α) × ℕ :=
  match rposition sep input with
  | none => ([], 0)
  | some last =>
    let completeLen := last + 1
    (((input.take completeLen).splitOn sep).dropLast, completeLen)

lemma splitOn_frame {rs : List (List α)} (h : ∀ r ∈ rs, sep ∉ r) :
    (frame sep rs).splitOn sep = rs ++ [[]] := by
  induction rs with
  | nil => simp
  | cons r rs ih =>
    rw [frame_cons, List.splitOn_append_cons_self, ih fun s hs => h s (List.mem_cons_of_mem _ hs),
      List.splitOn_eq_singleton (h r List.mem_cons_self)]
    rfl

lemma splitOn_frame_append {rs : List (List α)} {tail : List α} (h : ∀ r ∈ rs, sep ∉ r)
    (ht : sep ∉ tail) : (frame sep rs ++ tail).splitOn sep = rs ++ [tail] := by
  induction rs with
  | nil => simpa using List.splitOn_eq_singleton ht
  | cons r rs ih =>
    have hcons : frame sep (r :: rs) ++ tail = r ++ sep :: (frame sep rs ++ tail) := by simp
    rw [hcons, List.splitOn_append_cons_self, ih fun s hs => h s (List.mem_cons_of_mem _ hs),
      List.splitOn_eq_singleton (h r List.mem_cons_self)]
    rfl

theorem completeRecords_frame {rs : List (List α)} {tail : List α} (h : ∀ r ∈ rs, sep ∉ r)
    (ht : sep ∉ tail) :
    completeRecords sep (frame sep rs ++ tail) = (rs, (frame sep rs).length) := by
  induction rs using List.reverseRecOn with
  | nil => simp [completeRecords, (rposition_eq_none sep).mpr ht]
  | append_singleton rs r _ =>
    have hpos : rposition sep (frame sep (rs ++ [r]) ++ tail) =
        some (frame sep rs ++ r).length := by
      rw [← rposition_append_cons sep (frame sep rs ++ r) ht]
      simp
    have hlen : (frame sep rs ++ r).length + 1 = (frame sep (rs ++ [r])).length := by
      simp; omega
    simp only [completeRecords, hpos, hlen, List.take_left, splitOn_frame sep h,
      List.dropLast_concat]

lemma exists_frame (input : List α) :
    ∃ rs tail, input = frame sep rs ++ tail ∧ (∀ r ∈ rs, sep ∉ r) ∧ sep ∉ tail := by
  induction input with
  | nil => exact ⟨[], [], by simp⟩
  | cons a input ih =>
    obtain ⟨rs, tail, rfl, hrs, ht⟩ := ih
    by_cases ha : a = sep
    · subst ha
      exact ⟨[] :: rs, tail, by simp, by simpa using hrs, ht⟩
    · cases rs with
      | nil => exact ⟨[], a :: tail, by simp, by simp, by simp [ht, Ne.symm ha]⟩
      | cons r rs =>
        refine ⟨(a :: r) :: rs, tail, by simp, ?_, ht⟩
        intro s hs
        rcases List.mem_cons.mp hs with rfl | hs
        · simp [Ne.symm ha, hrs r List.mem_cons_self]
        · exact hrs s (List.mem_cons_of_mem _ hs)

theorem frame_completeRecords (input : List α) :
    ∃ tail, input = frame sep (completeRecords sep input).1 ++ tail ∧
      (completeRecords sep input).2 = (frame sep (completeRecords sep input).1).length ∧
      (∀ r ∈ (completeRecords sep input).1, sep ∉ r) ∧ sep ∉ tail := by
  obtain ⟨rs, tail, rfl, hrs, ht⟩ := exists_frame sep input
  rw [completeRecords_frame sep hrs ht]
  exact ⟨tail, rfl, rfl, hrs, ht⟩

lemma completeRecords_framed {rs : List (List α)} (h : ∀ r ∈ rs, sep ∉ r) :
    completeRecords sep (frame sep rs) = (rs, (frame sep rs).length) := by
  have ht : sep ∉ ([] : List α) := by simp
  simpa using completeRecords_frame sep h ht

theorem completeRecords_frame_append {rs : List (List α)} (h : ∀ r ∈ rs, sep ∉ r)
    (input : List α) :
    completeRecords sep (frame sep rs ++ input) =
      (rs ++ (completeRecords sep input).1, (frame sep rs).length + (completeRecords sep input).2) := by
  obtain ⟨ss, tail, rfl, hss, ht⟩ := exists_frame sep input
  have hall : ∀ r ∈ rs ++ ss, sep ∉ r := fun r hr =>
    (List.mem_append.mp hr).elim (h r) (hss r)
  rw [completeRecords_frame sep hss ht, ← List.append_assoc, ← frame_append,
    completeRecords_frame sep hall ht]
  simp

def records (input : List α) : List (List α) := (completeRecords sep input).1

lemma sep_notMem_records (input : List α) : ∀ r ∈ records sep input, sep ∉ r :=
  (frame_completeRecords sep input).choose_spec.2.2.1

def Terminated (input : List α) : Prop := frame sep (records sep input) = input

instance Terminated.decidable (input : List α) : Decidable (Terminated sep input) :=
  inferInstanceAs (Decidable (_ = _))

lemma terminated_frame {rs : List (List α)} (h : ∀ r ∈ rs, sep ∉ r) :
    Terminated sep (frame sep rs) := by
  rw [Terminated, records, completeRecords_framed sep h]

@[simp] lemma records_frame {rs : List (List α)} (h : ∀ r ∈ rs, sep ∉ r) :
    records sep (frame sep rs) = rs := by
  rw [records, completeRecords_framed sep h]

@[simp] lemma records_nil : records sep [] = [] := rfl

lemma terminated_nil : Terminated sep [] := rfl

lemma Terminated.records_append {a : List α} (h : Terminated sep a) (b : List α) :
    records sep (a ++ b) = records sep a ++ records sep b := by
  conv_lhs => rw [← h]
  rw [records, completeRecords_frame_append sep (sep_notMem_records sep a)]
  rfl

lemma Terminated.append {a b : List α} (ha : Terminated sep a) (hb : Terminated sep b) :
    Terminated sep (a ++ b) := by
  rw [Terminated, ha.records_append, frame_append, ha, hb]

lemma terminated_flatten {l : List (List α)} (h : ∀ a ∈ l, Terminated sep a) :
    Terminated sep l.flatten := by
  induction l with
  | nil => exact terminated_nil sep
  | cons a l ih =>
    exact (h a List.mem_cons_self).append sep (ih fun b hb => h b (List.mem_cons_of_mem a hb))

lemma records_flatten {l : List (List α)} (h : ∀ a ∈ l, Terminated sep a) :
    records sep l.flatten = l.flatMap (records sep) := by
  induction l with
  | nil => rfl
  | cons a l ih =>
    rw [List.flatten_cons, (h a List.mem_cons_self).records_append, List.flatMap_cons,
      ih fun b hb => h b (List.mem_cons_of_mem a hb)]

lemma complete_isPrefix (input : List α) : frame sep (records sep input) <+: input := by
  obtain ⟨tail, h, -⟩ := frame_completeRecords sep input
  exact ⟨tail, h.symm⟩

end Framing

/-! Lines that several writers append to one file, each in as many writes as it takes. -/
namespace LineAppend

variable {ι α : Type*}

def Mid (writing : ι → Option (List α × ℕ)) (c : ι) : Prop :=
  ∃ line k, writing c = some (line, k) ∧ 0 < k ∧ k < line.length

/-- What stands behind the whole lines of the file: nothing, or a part of the one line that is being
written. -/
inductive Tail (writing : ι → Option (List α × ℕ)) : List α → Prop
  | clean (hnone : ∀ c, ¬ Mid writing c) : Tail writing []
  | torn (c : ι) (line : List α) (k : ℕ) (hc : writing c = some (line, k)) (hpos : 0 < k)
      (hlt : k < line.length) (hothers : ∀ d, d ≠ c → ¬ Mid writing d) :
      Tail writing (line.take k)

variable {writing writing' : ι → Option (List α × ℕ)} {tail : List α}

lemma Tail.congr (h : Tail writing tail)
    (hsame : ∀ c, writing' c = writing c ∨ (¬ Mid writing c ∧ ¬ Mid writing' c)) :
    Tail writing' tail := by
  have hmid : ∀ c, ¬ Mid writing c → ¬ Mid writing' c := by
    rintro c hc ⟨line, k, hk, hrest⟩
    rcases hsame c with heq | ⟨-, hnot⟩
    · exact hc ⟨line, k, heq ▸ hk, hrest⟩
    · exact hnot ⟨line, k, hk, hrest⟩
  cases h with
  | clean hnone => exact .clean fun c => hmid c (hnone c)
  | torn c line k hc hpos hlt hothers =>
    rcases hsame c with heq | ⟨hnot, -⟩
    · exact .torn c line k (heq.trans hc) hpos hlt fun d hd => hmid d (hothers d hd)
    · exact absurd ⟨line, k, hc, hpos, hlt⟩ hnot

lemma Tail.eq_nil (h : Tail writing tail) (hnone : ∀ c, ¬ Mid writing c) : tail = [] := by
  cases h with
  | clean => rfl
  | torn c line k hc hpos hlt => exact absurd ⟨line, k, hc, hpos, hlt⟩ (hnone c)

/-- While no other writer is in the middle of a line, the tail is what this one has written of
its own. -/
lemma Tail.eq_take (h : Tail writing tail) {c : ι} {line : List α} {k : ℕ}
    (hc : writing c = some (line, k)) (hlt : k < line.length)
    (hothers : ∀ d, d ≠ c → ¬ Mid writing d) : tail = line.take k := by
  cases h with
  | clean hnone =>
    have hk : k = 0 := by
      by_contra hk
      exact hnone c ⟨line, k, hc, Nat.pos_of_ne_zero hk, hlt⟩
    rw [hk, List.take_zero]
  | torn d other j hd hpos hlt' =>
    have hdc : d = c := by
      by_contra hdc
      exact hothers d hdc ⟨other, j, hd, hpos, hlt'⟩
    subst hdc
    obtain ⟨rfl, rfl⟩ := Prod.mk.inj (Option.some.inj (hd.symm.trans hc))
    rfl

variable [DecidableEq ι]

/-- A write completes the line, or leaves a longer part of it as the tail; behind a line that is
complete already it changes nothing. -/
theorem Tail.write (h : Tail writing tail) {c : ι} {line : List α} {k : ℕ} (count : ℕ)
    (hc : writing c = some (line, k)) (hle : k ≤ line.length)
    (hothers : ∀ d, d ≠ c → ¬ Mid writing d)
    (hwritten : writing' = Function.update writing c (some (line, min (k + count) line.length))) :
    (k < line.length ∧ line.length ≤ k + count ∧ tail ++ (line.drop k).take count = line ∧
        Tail writing' []) ∨
      (min (k + count) line.length < line.length ∧
        Tail writing' (tail ++ (line.drop k).take count)) ∨
      (k = line.length ∧ (line.drop k).take count = [] ∧ writing' = writing) := by
  subst hwritten
  have hself : Function.update writing c (some (line, min (k + count) line.length)) c =
      some (line, min (k + count) line.length) := Function.update_self _ _ _
  have hmid : ∀ d, d ≠ c → ¬ Mid (Function.update writing c
      (some (line, min (k + count) line.length))) d := by
    rintro d hd ⟨other, j, hj, hrest⟩
    rw [Function.update_of_ne hd] at hj
    exact hothers d hd ⟨other, j, hj, hrest⟩
  rcases Nat.lt_or_eq_of_le hle with hlt | rfl
  · obtain rfl := h.eq_take hc hlt hothers
    rw [← List.take_add]
    rcases Nat.lt_or_ge (k + count) line.length with hpart | hfull
    · refine Or.inr (Or.inl ⟨by omega, ?_⟩)
      rw [Nat.min_eq_left (Nat.le_of_lt hpart)] at hself hmid ⊢
      rcases Nat.eq_zero_or_pos (k + count) with hzero | hpos
      · rw [hzero] at hself hmid ⊢
        rw [List.take_zero]
        refine .clean fun d => ?_
        by_cases hd : d = c
        · rintro ⟨other, j, hj, hpos, -⟩
          rw [hd, hself] at hj
          obtain ⟨-, rfl⟩ := Prod.mk.inj (Option.some.inj hj)
          exact absurd hpos (Nat.lt_irrefl 0)
        · exact hmid d hd
      · exact .torn c line (k + count) hself hpos hpart hmid
    · refine Or.inl ⟨hlt, hfull, List.take_of_length_le hfull, .clean fun d => ?_⟩
      by_cases hd : d = c
      · rintro ⟨other, j, hj, -, hj'⟩
        rw [hd, hself, Nat.min_eq_right hfull] at hj
        obtain ⟨rfl, rfl⟩ := Prod.mk.inj (Option.some.inj hj)
        exact absurd hj' (Nat.lt_irrefl _)
      · exact hmid d hd
  · refine Or.inr (Or.inr ⟨rfl, by simp, ?_⟩)
    rw [Nat.min_eq_right (Nat.le_add_right _ _)]
    exact Function.update_eq_self_iff.mpr hc.symm

end LineAppend
