import Mathlib.Data.List.Forall2
import Mathlib.Data.List.Infix

/-! How much of a stock has not been seen: the measure of a walk that sees nothing twice. -/
namespace Unseen

variable {α : Type*} [DecidableEq α] {stock seen seen' : List α} {a : α}

def unseen (stock seen : List α) : ℕ := (stock.filter fun x => x ∉ seen).length

lemma unseen_lt (hstock : a ∈ stock) (hnew : a ∉ seen) (hseen : ∀ x ∈ seen, x ∈ seen')
    (ha : a ∈ seen') : unseen stock seen' < unseen stock seen := by
  have hsub : (stock.filter fun x => x ∉ seen').Sublist (stock.filter fun x => x ∉ seen) := by
    apply List.monotone_filter_right
    intro x hx
    simp only [decide_eq_true_eq] at hx ⊢
    exact fun hmem => hx (hseen x hmem)
  refine Nat.lt_of_le_of_ne hsub.length_le fun hlength => ?_
  have hin : a ∈ stock.filter fun x => x ∉ seen :=
    List.mem_filter.mpr ⟨hstock, by simpa using hnew⟩
  rw [← hsub.eq_of_length hlength] at hin
  simpa [ha] using (List.mem_filter.mp hin).2

end Unseen

/-! Lists traversed by a function that may fail. -/
namespace Traverse

variable {α β γ : Type*} {f f' : α → Option β} {l : List α} {r : List β}

theorem mapM_eq_some_iff : l.mapM f = some r ↔ List.Forall₂ (fun a b => f a = some b) l r := by
  induction l generalizing r with
  | nil => simp [eq_comm]
  | cons a l ih =>
    rw [List.mapM_cons, Option.bind_eq_bind, Option.bind_eq_some_iff, List.forall₂_cons_left_iff]
    constructor
    · rintro ⟨b, hb, hrest⟩
      obtain ⟨rest, hl, heq⟩ := Option.bind_eq_some_iff.mp hrest
      exact ⟨b, rest, hb, ih.mp hl, (Option.some.inj heq).symm⟩
    · rintro ⟨b, rest, hb, hl, rfl⟩
      exact ⟨b, hb, Option.bind_eq_some_iff.mpr ⟨rest, ih.mpr hl, rfl⟩⟩

lemma exists_mem_right {R : α → β → Prop} (h : List.Forall₂ R l r) {a : α} (ha : a ∈ l) :
    ∃ b ∈ r, R a b := by
  induction h with
  | nil => cases ha
  | cons hab _ ih =>
    rcases List.mem_cons.mp ha with rfl | ha
    · exact ⟨_, List.mem_cons_self, hab⟩
    · obtain ⟨b, hb, hR⟩ := ih ha
      exact ⟨b, List.mem_cons_of_mem _ hb, hR⟩

lemma exists_of_mem (h : l.mapM f = some r) {a : α} (ha : a ∈ l) : ∃ b ∈ r, f a = some b :=
  exists_mem_right (mapM_eq_some_iff.mp h) ha

lemma exists_of_mem_result (h : l.mapM f = some r) {b : β} (hb : b ∈ r) : ∃ a ∈ l, f a = some b :=
  exists_mem_right (mapM_eq_some_iff.mp h).flip hb

lemma map_mapM_congr (g : β → γ) (h : ∀ a ∈ l, (f a).map g = (f' a).map g) :
    (l.mapM f).map (List.map g) = (l.mapM f').map (List.map g) := by
  induction l with
  | nil => rfl
  | cons a l ih =>
    have hhead := h a List.mem_cons_self
    have htail := ih fun b hb => h b (List.mem_cons_of_mem a hb)
    rw [List.mapM_cons, List.mapM_cons]
    cases hf : f a with
    | none =>
      rw [hf, Option.map_none, eq_comm, Option.map_eq_none_iff] at hhead
      rw [hhead]
      rfl
    | some b =>
      rw [hf, Option.map_some, eq_comm, Option.map_eq_some_iff] at hhead
      obtain ⟨b', hf', hbb⟩ := hhead
      rw [hf']
      cases hl : l.mapM f with
      | none =>
        rw [hl, Option.map_none, eq_comm, Option.map_eq_none_iff] at htail
        simp [htail]
      | some rest =>
        rw [hl, Option.map_some, eq_comm, Option.map_eq_some_iff] at htail
        obtain ⟨rest', hl', hrr⟩ := htail
        simp [hl', hbb, hrr]

end Traverse

/-! Sequences cut in two at the first place where a separator stands. -/
namespace SplitOnce

variable {α : Type*} [DecidableEq α]

/-- What stands before the first separator, and what follows it. -/
def splitOnce (sep : List α) : List α → Option (List α × List α)
  | [] => if sep = [] then some ([], []) else none
  | a :: as =>
    if sep <+: a :: as then some ([], (a :: as).drop sep.length)
    else (splitOnce sep as).map fun parts => (a :: parts.1, parts.2)

lemma eq_append_of_splitOnce {sep l left right : List α}
    (h : splitOnce sep l = some (left, right)) : l = left ++ sep ++ right := by
  induction l generalizing left with
  | nil =>
    unfold splitOnce at h
    split at h
    · rename_i hsep
      cases h
      simp [hsep]
    · exact nomatch h
  | cons a as ih =>
    unfold splitOnce at h
    split at h
    · rename_i hprefix
      obtain ⟨rest, hrest⟩ := hprefix
      cases h
      rw [← hrest]
      simp
    · obtain ⟨⟨left', right'⟩, hsplit, heq⟩ := Option.map_eq_some_iff.mp h
      cases heq
      rw [ih hsplit]
      rfl

lemma splitOnce_append {c : α} {sep left : List α} (h : c ∉ left) (right : List α) :
    splitOnce (c :: sep) (left ++ c :: sep ++ right) = some (left, right) := by
  induction left with
  | nil =>
    unfold splitOnce
    simp
  | cons a left ih =>
    have hne : c ≠ a := fun heq => h (heq ▸ List.mem_cons_self)
    have hleft : c ∉ left := fun hmem => h (List.mem_cons_of_mem a hmem)
    have hnot : ¬ (c :: sep) <+: a :: (left ++ c :: sep ++ right) := by
      rintro ⟨rest, hrest⟩
      exact hne (List.cons.inj hrest).1
    rw [List.cons_append, List.cons_append]
    unfold splitOnce
    rw [if_neg hnot, ih hleft]
    rfl

lemma append_cons_inj {c : α} {left left' right right' : List α} (h : c ∉ left) (h' : c ∉ left')
    (heq : left ++ c :: right = left' ++ c :: right') : left = left' ∧ right = right' := by
  have hcut : splitOnce [c] (left ++ c :: right) = some (left, right) := by
    have happend := @splitOnce_append α _ c [] left h right
    rwa [List.append_assoc, List.singleton_append] at happend
  have hcut' : splitOnce [c] (left' ++ c :: right') = some (left', right') := by
    have happend := @splitOnce_append α _ c [] left' h' right'
    rwa [List.append_assoc, List.singleton_append] at happend
  rw [heq, hcut'] at hcut
  exact Prod.ext_iff.mp (Option.some.inj hcut.symm)

end SplitOnce

/-! Lists that are read page by page from a cursor, and what is still to be read from one. -/

/-- The pages of a list: where there is none left, what one holds, and the cursor after it (`none`
where the reader refuses the page). -/
structure PagedList (σ α : Type*) where
  done : σ → Bool
  page : σ → List α
  next : σ → Option σ

namespace PagedList

variable {σ α : Type*}

/-- The entries of the pages still to be read from a cursor. -/
inductive Names (l : PagedList σ α) : σ → α → Prop
  | here {s a} : l.done s = false → a ∈ l.page s → Names l s a
  | later {s s' a} : l.done s = false → l.next s = some s' → Names l s' a → Names l s a

variable {l : PagedList σ α} {s s' : σ} {a : α}

lemma not_names_of_done (h : l.done s = true) : ¬ l.Names s a := by
  rintro (⟨hnot, -⟩ | ⟨hnot, -, -⟩) <;> simp [h] at hnot

lemma names_iff (hdone : l.done s = false) (hnext : l.next s = some s') :
    l.Names s a ↔ a ∈ l.page s ∨ l.Names s' a := by
  constructor
  · rintro (⟨-, hpage⟩ | ⟨-, hnext', hrest⟩)
    · exact .inl hpage
    · rw [hnext, Option.some.injEq] at hnext'
      exact .inr (hnext' ▸ hrest)
  · rintro (hpage | hrest)
    · exact .here hdone hpage
    · exact .later hdone hnext hrest

end PagedList
