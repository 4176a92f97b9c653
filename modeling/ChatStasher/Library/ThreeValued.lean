import Mathlib.Data.List.Perm.Basic

/-! Conjunctions of three-valued answers, and a scan that stops at the first answer that does not
hold. -/
namespace ThreeValued

inductive Truth
  | holds
  | fails
  | unknown
  deriving DecidableEq

/-- A conjunction fails as soon as one answer fails, and holds only where all do. -/
def conj (answers : List Truth) : Truth :=
  if .fails ∈ answers then .fails
  else if .unknown ∈ answers then .unknown
  else .holds

/-- The first answer that does not hold. -/
def scan : List Truth → Truth
  | [] => .holds
  | .holds :: answers => scan answers
  | answer :: _ => answer

variable {answers answers' : List Truth}

@[simp] lemma scan_holds_cons (answers : List Truth) : scan (.holds :: answers) = scan answers := rfl

@[simp] lemma scan_fails_cons (answers : List Truth) : scan (.fails :: answers) = .fails := rfl

@[simp] lemma scan_unknown_cons (answers : List Truth) : scan (.unknown :: answers) = .unknown := rfl

lemma conj_eq_fails : conj answers = .fails ↔ .fails ∈ answers := by
  rw [conj]
  split
  next h => simp [h]
  next h => split <;> simp [h]

lemma conj_eq_holds : conj answers = .holds ↔ ∀ answer ∈ answers, answer = .holds := by
  rw [conj]
  split
  next h => simpa using ⟨_, h, by decide⟩
  next h =>
    split
    next h' => simpa using ⟨_, h', by decide⟩
    next h' =>
      simp only [true_iff]
      intro answer hanswer
      cases answer with
      | holds => rfl
      | fails => exact absurd hanswer h
      | unknown => exact absurd hanswer h'

lemma conj_perm (h : answers.Perm answers') : conj answers = conj answers' := by
  simp only [conj, h.mem_iff]

lemma scan_eq_holds : scan answers = .holds ↔ ∀ answer ∈ answers, answer = .holds := by
  induction answers with
  | nil => simp [scan]
  | cons answer answers ih => cases answer <;> simp [ih]

lemma mem_of_scan {answer : Truth} (h : scan answers = answer) (hne : answer ≠ .holds) :
    answer ∈ answers := by
  induction answers with
  | nil => exact absurd h.symm hne
  | cons first answers ih =>
    cases first with
    | holds => exact List.mem_cons_of_mem _ (ih h)
    | fails => exact h ▸ List.mem_cons_self
    | unknown => exact h ▸ List.mem_cons_self

def Unmasked (answers : List Truth) : Prop :=
  ∀ before after, answers = before ++ .unknown :: after → .fails ∈ after → .fails ∈ before

theorem scan_eq_conj_iff : scan answers = conj answers ↔ Unmasked answers := by
  induction answers with
  | nil => simp [scan, conj, Unmasked]
  | cons answer answers ih =>
    cases answer with
    | holds =>
      have hconj : conj (.holds :: answers) = conj answers := by simp [conj]
      rw [scan_holds_cons, hconj, ih]
      constructor
      · rintro h (_ | ⟨first, before⟩) after heq hfails
        · cases heq
        · obtain ⟨rfl, rfl⟩ := List.cons.inj heq
          exact List.mem_cons_of_mem _ (h before after rfl hfails)
      · rintro h before after rfl hfails
        simpa using h (.holds :: before) after rfl hfails
    | fails =>
      have hconj : conj (.fails :: answers) = .fails := conj_eq_fails.mpr List.mem_cons_self
      simp only [scan_fails_cons, hconj, true_iff]
      rintro (_ | ⟨first, before⟩) after heq hfails
      · cases heq
      · obtain ⟨rfl, rfl⟩ := List.cons.inj heq
        exact List.mem_cons_self
    | unknown =>
      rw [scan_unknown_cons, eq_comm]
      constructor
      · intro hconj before after heq hfails
        have hmem : .fails ∈ Truth.unknown :: answers := by
          rw [heq]
          simp [hfails]
        rw [conj_eq_fails.mpr hmem] at hconj
        cases hconj
      · intro h
        have hnot : .fails ∉ Truth.unknown :: answers := fun hmem =>
          absurd (h [] answers rfl (by simpa using hmem)) List.not_mem_nil
        simp [conj, hnot]

theorem scan_perm_iff : (∀ other, other.Perm answers → scan other = scan answers) ↔
    ¬ (.fails ∈ answers ∧ .unknown ∈ answers) := by
  constructor
  · rintro h ⟨hfails, hunknown⟩
    have hrest : .unknown ∈ answers.erase .fails := by
      rwa [List.mem_erase_of_ne (by decide)]
    have hperm : (.fails :: .unknown :: (answers.erase .fails).erase .unknown).Perm answers :=
      ((List.perm_cons_erase hfails).trans ((List.perm_cons_erase hrest).cons _)).symm
    have hfirst := h _ hperm
    have hsecond := h _ ((List.Perm.swap _ _ _).trans hperm)
    rw [scan_fails_cons] at hfirst
    rw [scan_unknown_cons, ← hfirst] at hsecond
    cases hsecond
  · intro h
    have hunmasked : ∀ other, other.Perm answers → Unmasked other := by
      rintro other hother before after rfl hafter
      exact absurd ⟨hother.mem_iff.mp (by simp [hafter]), hother.mem_iff.mp (by simp)⟩ h
    intro other hother
    rw [scan_eq_conj_iff.mpr (hunmasked other hother),
      scan_eq_conj_iff.mpr (hunmasked answers (List.Perm.refl _)), conj_perm hother]

end ThreeValued
