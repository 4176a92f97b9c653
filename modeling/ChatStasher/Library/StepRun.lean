import Mathlib.Data.List.Basic

/-! Runs of a deterministic labelled step function and the invariants they carry. -/
namespace StepRun

variable {σ τ α β : Type*} (step : σ → α → σ)

/-- The state reached from `s` by taking the listed actions in order. -/
def exec (s : σ) (as : List α) : σ := as.foldl step s

@[simp] lemma exec_nil (s : σ) : exec step s [] = s := rfl

@[simp] lemma exec_cons (s : σ) (a : α) (as : List α) :
    exec step s (a :: as) = exec step (step s a) as := rfl

lemma exec_append (s : σ) (as bs : List α) :
    exec step s (as ++ bs) = exec step (exec step s as) bs := by
  simp [exec]

lemma exec_concat (s : σ) (as : List α) (a : α) :
    exec step s (as ++ [a]) = step (exec step s as) a := by
  simp [exec]

/-- Every action of the run is taken in a state that `ok` allows it in. -/
def Along (ok : σ → α → Prop) : σ → List α → Prop
  | _, [] => True
  | s, a :: as => ok s a ∧ Along ok (step s a) as

instance Along.decidable (ok : σ → α → Prop) [∀ s a, Decidable (ok s a)] :
    ∀ s as, Decidable (Along step ok s as)
  | _, [] => inferInstanceAs (Decidable True)
  | s, a :: as =>
    have := Along.decidable ok (step s a) as
    inferInstanceAs (Decidable (_ ∧ _))

@[simp] lemma along_nil (ok : σ → α → Prop) (s : σ) : Along step ok s [] := trivial

@[simp] lemma along_cons (ok : σ → α → Prop) (s : σ) (a : α) (as : List α) :
    Along step ok s (a :: as) ↔ ok s a ∧ Along step ok (step s a) as := Iff.rfl

lemma along_append (ok : σ → α → Prop) (s : σ) (as bs : List α) :
    Along step ok s (as ++ bs) ↔ Along step ok s as ∧ Along step ok (exec step s as) bs := by
  induction as generalizing s with
  | nil => simp
  | cons a as ih => simp [ih, and_assoc]

variable {step}

lemma Along.mono {ok ok' : σ → α → Prop} (h : ∀ s a, ok s a → ok' s a) {s : σ} {as : List α}
    (hs : Along step ok s as) : Along step ok' s as := by
  induction as generalizing s with
  | nil => trivial
  | cons a as ih => exact ⟨h _ _ hs.1, ih hs.2⟩

lemma along_of_forall {p : α → Prop} {s : σ} {as : List α} (h : ∀ a ∈ as, p a) :
    Along step (fun _ a => p a) s as := by
  induction as generalizing s with
  | nil => trivial
  | cons a as ih => exact ⟨h a List.mem_cons_self, ih fun b hb => h b (List.mem_cons_of_mem _ hb)⟩

lemma Along.and {ok ok' : σ → α → Prop} {s : σ} {as : List α} (h : Along step ok s as)
    (h' : Along step ok' s as) : Along step (fun s a => ok s a ∧ ok' s a) s as := by
  induction as generalizing s with
  | nil => trivial
  | cons a as ih => exact ⟨⟨h.1, h'.1⟩, ih h.2 h'.2⟩

theorem exists_of_not_along {ok : σ → α → Prop} {s : σ} {as : List α}
    (h : ¬ Along step ok s as) : ∃ pre a post, as = pre ++ a :: post ∧ Along step ok s pre ∧
      ¬ ok (exec step s pre) a := by
  induction as generalizing s with
  | nil => exact absurd trivial h
  | cons a as ih =>
    by_cases ha : ok s a
    · obtain ⟨pre, b, post, rfl, hpre, hb⟩ := ih fun has => h ⟨ha, has⟩
      exact ⟨a :: pre, b, post, rfl, ⟨ha, hpre⟩, hb⟩
    · exact ⟨[], a, as, rfl, trivial, ha⟩

theorem along_iff_forall {ok : σ → α → Prop} {s : σ} {as : List α} :
    Along step ok s as ↔ ∀ pre a post, as = pre ++ a :: post → ok (exec step s pre) a := by
  constructor
  · rintro h pre a post rfl
    exact ((along_append step ok s pre (a :: post)).mp h).2.1
  · intro h
    by_contra hnot
    obtain ⟨pre, a, post, heq, -, ha⟩ := exists_of_not_along hnot
    exact ha (h pre a post heq)

theorem invariant {ok : σ → α → Prop} {Inv : σ → Prop}
    (hstep : ∀ s a, Inv s → ok s a → Inv (step s a)) {s : σ} (hs : Inv s) {as : List α}
    (has : Along step ok s as) : Inv (exec step s as) := by
  induction as generalizing s with
  | nil => exact hs
  | cons a as ih => exact ih (hstep s a hs has.1) has.2

theorem Along.carries {ok good : σ → α → Prop} {Inv : σ → Prop}
    (hstep : ∀ s a, Inv s → ok s a → good s a ∧ Inv (step s a)) {s : σ} (hs : Inv s) {as : List α}
    (has : Along step ok s as) : Along step good s as := by
  induction as generalizing s with
  | nil => trivial
  | cons a as ih =>
    obtain ⟨hgood, hnext⟩ := hstep s a hs has.1
    exact ⟨hgood, ih hnext has.2⟩

theorem invariant_all {Inv : σ → Prop} (hstep : ∀ s a, Inv s → Inv (step s a)) {s : σ}
    (hs : Inv s) (as : List α) : Inv (exec step s as) := by
  induction as generalizing s with
  | nil => exact hs
  | cons a as ih => exact ih (hstep s a hs)

/-- A property that a step keeps exactly where it is allowed to take it holds after a run exactly if it
held before and the run is allowed. -/
theorem exec_iff_along {ok : σ → α → Prop} {Inv good : σ → Prop}
    (hinv : ∀ s a, Inv s → Inv (step s a))
    (hstep : ∀ s a, Inv s → (good (step s a) ↔ good s ∧ ok s a)) {s : σ} (hs : Inv s)
    (as : List α) : good (exec step s as) ↔ good s ∧ Along step ok s as := by
  induction as generalizing s with
  | nil => simp
  | cons a as ih => rw [exec_cons, ih (hinv s a hs), hstep s a hs, along_cons, and_assoc]

theorem relates {ok : σ → α → Prop} {Inv : σ → Prop} {R : σ → σ → Prop}
    (hrefl : ∀ s, R s s) (htrans : ∀ s t u, R s t → R t u → R s u)
    (hstep : ∀ s a, Inv s → ok s a → Inv (step s a) ∧ R s (step s a)) {s : σ} (hs : Inv s)
    {as : List α} (has : Along step ok s as) : R s (exec step s as) := by
  induction as generalizing s with
  | nil => exact hrefl s
  | cons a as ih =>
    obtain ⟨hi, hr⟩ := hstep s a hs has.1
    exact htrans _ _ _ hr (ih hi has.2)

end StepRun
