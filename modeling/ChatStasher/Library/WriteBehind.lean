import Mathlib.Data.List.Basic

/-! A stored value with the saves that are on their way to it and take effect in the order in which
they were handed over. -/

/-- What is stored, the values handed over since, oldest first, and how many were handed over. -/
structure WriteBehind (α : Type*) where
  stored : α
  pending : List α
  issued : ℕ
  deriving DecidableEq, Repr

namespace WriteBehind

variable {α : Type*}

def ofStored (v : α) : WriteBehind α := ⟨v, [], 0⟩

def versions (s : WriteBehind α) : List α := s.stored :: s.pending

def latest (s : WriteBehind α) : α := s.pending.getLast?.getD s.stored

def save (s : WriteBehind α) (v : α) : WriteBehind α :=
  { s with pending := s.pending ++ [v], issued := s.issued + 1 }

/-- The oldest save on its way takes effect. -/
def settle (s : WriteBehind α) : WriteBehind α :=
  match s.pending with
  | [] => s
  | v :: rest => { s with stored := v, pending := rest }

def hasSettled (s : WriteBehind α) (n : ℕ) : Bool := n + s.pending.length ≤ s.issued

@[simp] lemma latest_ofStored (v : α) : (ofStored v).latest = v := rfl

@[simp] lemma versions_ofStored (v : α) : (ofStored v).versions = [v] := rfl

@[simp] lemma latest_save (s : WriteBehind α) (v : α) : (s.save v).latest = v := by
  simp [latest, save]

@[simp] lemma versions_save (s : WriteBehind α) (v : α) :
    (s.save v).versions = s.versions ++ [v] := by
  simp [versions, save]

@[simp] lemma latest_settle (s : WriteBehind α) : s.settle.latest = s.latest := by
  obtain ⟨v, _ | ⟨w, rest⟩, n⟩ := s
  · rfl
  · simp [settle, latest, List.getLast?_cons]

lemma versions_settle_subset (s : WriteBehind α) : s.settle.versions ⊆ s.versions := by
  obtain ⟨v, _ | ⟨w, rest⟩, n⟩ := s
  · exact List.Subset.refl _
  · exact List.subset_cons_self _ _

lemma latest_mem_versions (s : WriteBehind α) : s.latest ∈ s.versions := by
  rw [latest, versions]
  cases h : s.pending.getLast? with
  | none => exact List.mem_cons_self
  | some v => exact List.mem_cons_of_mem _ (List.mem_of_getLast? h)

lemma stored_mem_versions (s : WriteBehind α) : s.stored ∈ s.versions := List.mem_cons_self

lemma latest_eq_stored {s : WriteBehind α} (h : s.pending = []) : s.latest = s.stored := by
  simp [latest, h]

end WriteBehind
