import Mathlib.Data.List.Basic

/-! Lists of tasks that take turns: one entry is replaced while the others stay. -/
namespace TaskList

variable {α : Type*} {R : α → α → Prop} {l : List α} {i : ℕ} {a x : α}

lemma mem_of_getElem? (h : l[i]? = some a) : a ∈ l := List.mem_of_getElem? h

lemma mem_set (h : x ∈ l.set i a) : x = a ∨ ∃ j, j ≠ i ∧ l[j]? = some x := by
  obtain ⟨j, hj⟩ := List.mem_iff_getElem?.mp h
  rw [List.getElem?_set] at hj
  split at hj
  next heq =>
    split at hj
    next => exact Or.inl (Option.some.inj hj).symm
    next => cases hj
  next hne => exact Or.inr ⟨j, fun h => hne h.symm, hj⟩

lemma pairwise_getElem? (hsymm : ∀ a b, R a b → R b a) (h : l.Pairwise R) {j : ℕ} {b : α}
    (hij : i ≠ j) (ha : l[i]? = some a) (hb : l[j]? = some b) : R a b := by
  obtain ⟨hi, rfl⟩ := List.getElem?_eq_some_iff.mp ha
  obtain ⟨hj, rfl⟩ := List.getElem?_eq_some_iff.mp hb
  rcases Nat.lt_or_gt_of_ne hij with hlt | hlt
  · exact List.pairwise_iff_getElem.mp h i j hi hj hlt
  · exact hsymm _ _ (List.pairwise_iff_getElem.mp h j i hj hi hlt)

/-- A symmetric relation among tasks is kept by a turn after which the task is related to the
others. -/
lemma pairwise_set (hsymm : ∀ a b, R a b → R b a) (h : l.Pairwise R)
    (ha : ∀ j x, j ≠ i → l[j]? = some x → R a x) : (l.set i a).Pairwise R := by
  rw [List.pairwise_iff_getElem]
  intro j k hj hk hlt
  rw [List.length_set] at hj hk
  rw [List.getElem_set, List.getElem_set]
  split
  next heq =>
    split
    next heq' => omega
    next hne => exact ha k _ (fun h => hne h.symm) (List.getElem?_eq_getElem hk)
  next hne =>
    split
    next heq => exact hsymm _ _ (ha j _ (fun h => hne h.symm) (List.getElem?_eq_getElem hj))
    next => exact List.pairwise_iff_getElem.mp h j k hj hk hlt

end TaskList

/-! A lock held by at most one process: what the processes believe agrees with the lock. -/
namespace Mutex

variable {ι : Type*}

def Agrees (holds : ι → Bool) (lock : Option ι) : Prop := ∀ p, holds p = true ↔ lock = some p

@[simp] lemma agrees_none : Agrees (fun _ : ι => false) none := by
  simp [Agrees]

lemma Agrees.unique {holds : ι → Bool} {lock : Option ι} {p q : ι} (h : Agrees holds lock)
    (hp : holds p = true) (hq : lock = some q) : p = q :=
  Option.some.inj (((h p).mp hp).symm.trans hq)

variable [DecidableEq ι]

def release (lock : Option ι) (p : ι) : Option ι := if lock = some p then none else lock

/-- What one process may do to the lock: take it if it is free, keep its own, or let go. -/
def Turn (lock : Option ι) (p : ι) (holds : Bool) (lock' : Option ι) : Prop :=
  holds = true ∧ lock' = some p ∧ (lock = none ∨ lock = some p) ∨
    holds = false ∧ lock' = release lock p

variable {holds holds' : ι → Bool} {lock lock' : Option ι} {p : ι}

lemma Agrees.release_of_not (h : Agrees holds lock) (hp : holds p = false) : release lock p = lock := by
  rw [release, if_neg]
  intro hlock
  simp [(h p).mpr hlock] at hp

theorem Agrees.turn (h : Agrees holds lock) (hturn : Turn lock p (holds' p) lock')
    (hothers : ∀ q, q ≠ p → holds' q = holds q) : Agrees holds' lock' := by
  intro q
  by_cases hq : q = p
  · subst hq
    rcases hturn with ⟨hholds, hlock, -⟩ | ⟨hholds, hlock⟩
    · simp [hholds, hlock]
    · simp only [hholds, hlock, release]
      split <;> simp_all
  · rw [hothers q hq, h q]
    rcases hturn with ⟨-, hlock, hfree | hown⟩ | ⟨-, hlock⟩
    · simp [hlock, hfree, Ne.symm hq]
    · simp [hlock, hown]
    · rw [hlock, release]
      split
      next hown => simp [hown, Ne.symm hq]
      · rfl

end Mutex
