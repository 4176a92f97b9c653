import Mathlib.Data.List.Induction
import Mathlib.Data.List.Perm.Basic
import ChatStasher.Library.KeyedList

/-! Lists kept as sorted sets: what a value adds, and that the order of insertions is lost. -/
namespace SortedInsert

variable {V : Type*} [LinearOrder V]

def insertSorted (values : List V) (value : V) : List V :=
  if value ∈ values then values else (values ++ [value]).insertionSort (· ≤ ·)

lemma insertSorted_of_mem {values : List V} {value : V} (h : value ∈ values) :
    insertSorted values value = values := if_pos h

lemma perm_insertSorted {values : List V} {value : V} (h : value ∉ values) :
    (insertSorted values value).Perm (values ++ [value]) := by
  rw [insertSorted, if_neg h]
  exact List.perm_insertionSort _ _

lemma insertSorted_pairwise {values : List V} {value : V} (h : value ∉ values) :
    (insertSorted values value).Pairwise (· ≤ ·) := by
  rw [insertSorted, if_neg h]
  exact List.pairwise_insertionSort _ _

lemma mem_insertSorted {values : List V} {value x : V} :
    x ∈ insertSorted values value ↔ x ∈ values ∨ x = value := by
  by_cases h : value ∈ values
  · rw [insertSorted_of_mem h]
    exact ⟨Or.inl, fun hx => hx.elim id fun heq => heq ▸ h⟩
  · rw [(perm_insertSorted h).mem_iff, List.mem_append, List.mem_singleton]

theorem insertSorted_right_comm (values : List V) (a b : V) :
    insertSorted (insertSorted values a) b = insertSorted (insertSorted values b) a := by
  by_cases ha : a ∈ values
  · rw [insertSorted_of_mem ha, insertSorted_of_mem (mem_insertSorted.mpr (Or.inl ha))]
  by_cases hb : b ∈ values
  · rw [insertSorted_of_mem hb, insertSorted_of_mem (mem_insertSorted.mpr (Or.inl hb))]
  by_cases hab : a = b
  · rw [hab]
  have hba : b ∉ insertSorted values a := by simp [mem_insertSorted, hb, Ne.symm hab]
  have hab' : a ∉ insertSorted values b := by simp [mem_insertSorted, ha, hab]
  have hperm : (insertSorted (insertSorted values a) b).Perm
      (insertSorted (insertSorted values b) a) := calc
    (insertSorted (insertSorted values a) b).Perm (insertSorted values a ++ [b]) :=
      perm_insertSorted hba
    List.Perm _ (values ++ [a] ++ [b]) := (perm_insertSorted ha).append_right [b]
    List.Perm _ (values ++ [b] ++ [a]) := by
      rw [List.append_assoc, List.append_assoc]
      exact (List.perm_append_comm ).append_left values
    List.Perm _ (insertSorted values b ++ [a]) := ((perm_insertSorted hb).append_right [a]).symm
    List.Perm _ (insertSorted (insertSorted values b) a) := (perm_insertSorted hab').symm
  exact hperm.eq_of_pairwise' (insertSorted_pairwise hba) (insertSorted_pairwise hab')

instance : RightCommutative (@insertSorted V _) := ⟨insertSorted_right_comm⟩

end SortedInsert

/-! Lists sorted by a key that no two of their elements share. -/
namespace SortByKey

variable {A K : Type*} [LinearOrder K] (key : A → K)

def sortByKey (l : List A) : List A := l.insertionSort fun a b => key a ≤ key b

lemma sortByKey_perm (l : List A) : (sortByKey key l).Perm l := List.perm_insertionSort _ l

variable {key} {l : List A}

@[simp] lemma mem_sortByKey {a : A} : a ∈ sortByKey key l ↔ a ∈ l := List.mem_insertionSort _

lemma sortByKey_lt (h : (l.map key).Nodup) :
    (sortByKey key l).Pairwise fun a b => key a < key b := by
  have hle : (sortByKey key l).Pairwise fun a b => key a ≤ key b :=
    List.pairwise_insertionSort _ l
  have hne : (sortByKey key l).Pairwise fun a b => key a ≠ key b :=
    List.pairwise_map.mp (((sortByKey_perm key l).map key).nodup_iff.mpr h)
  exact hle.imp₂ (fun _ _ => lt_of_le_of_ne) hne

theorem eq_sortByKey {l' : List A} (hsorted : l'.Pairwise fun a b => key a < key b)
    (hperm : l'.Perm l) : l' = sortByKey key l := by
  have hkeys : (l.map key).Nodup :=
    ((hperm.map key).nodup_iff).mp (List.pairwise_map.mpr (hsorted.imp ne_of_lt))
  exact List.Perm.eq_of_pairwise (fun a b _ _ hab hba => absurd hba (lt_asymm hab)) hsorted
    (sortByKey_lt hkeys) (hperm.trans (sortByKey_perm key l).symm)

theorem sortByKey_filter (h : (l.map key).Nodup) (p : A → Bool) :
    sortByKey key (l.filter p) = (sortByKey key l).filter p :=
  (eq_sortByKey ((sortByKey_lt h).filter p) ((sortByKey_perm key l).filter p)).symm

lemma filter_append_filter_perm {p q : A → Bool} (h : ∀ a, p a = true → q a = false) (l : List A) :
    (l.filter p ++ l.filter q).Perm (l.filter fun a => p a || q a) := by
  induction l with
  | nil => exact List.Perm.refl _
  | cons a l ih =>
    cases hp : p a with
    | true => simpa [hp, h a hp] using ih
    | false =>
      cases hq : q a with
      | true => simpa [hp, hq] using List.perm_middle.trans (ih.cons a)
      | false => simpa [hp, hq] using ih

lemma flatMap_filter_perm {B : Type*} [DecidableEq B] [BEq B] [LawfulBEq B]
    (group : A → Option B) {groups : List B} (h : groups.Nodup) (l : List A) :
    (groups.flatMap fun g => l.filter fun a => group a = some g).Perm
      (l.filter fun a => (group a).any fun g => g ∈ groups) := by
  induction groups with
  | nil => simp
  | cons g groups ih =>
    obtain ⟨hg, hgroups⟩ := List.nodup_cons.mp h
    rw [List.flatMap_cons]
    have hapart : ∀ a, decide (group a = some g) = true →
        (group a).any (fun g => g ∈ groups) = false := by
      intro a ha
      simp [of_decide_eq_true ha, hg]
    refine ((ih hgroups).append_left _).trans ((filter_append_filter_perm hapart l).trans ?_)
    refine List.Perm.of_eq (List.filter_congr fun a _ => ?_)
    cases group a with
    | none => simp
    | some x => simp

end SortByKey

/-! A stable sort by an order in which elements may tie: ties keep the order that the elements
stood in. -/
namespace StableSort

variable {α : Type*} {r : α → α → Prop} [DecidableRel r] {before : α → α → Prop}

def Stably (r before : α → α → Prop) (a b : α) : Prop := r a b ∧ (r b a → before a b)

lemma orderedInsert_stably [Std.Total r] [IsTrans α r] {a : α} {l : List α}
    (ha : ∀ b ∈ l, before a b) (h : l.Pairwise (Stably r before)) :
    (l.orderedInsert r a).Pairwise (Stably r before) := by
  induction l with
  | nil => exact List.pairwise_singleton _ a
  | cons b l ih =>
    obtain ⟨hb, hl⟩ := List.pairwise_cons.mp h
    rw [List.orderedInsert_cons]
    split
    · next hab =>
      refine List.pairwise_cons.mpr ⟨fun c hc => ⟨?_, fun _ => ha c hc⟩, h⟩
      rcases List.mem_cons.mp hc with rfl | hc
      · exact hab
      · exact IsTrans.trans a b c hab (hb c hc).1
    · next hab =>
      have hrest := ih (fun c hc => ha c (List.mem_cons_of_mem b hc)) hl
      refine List.pairwise_cons.mpr ⟨fun c hc => ?_, hrest⟩
      rcases (List.mem_orderedInsert r).mp hc with rfl | hc
      · exact ⟨(Std.Total.total c b).resolve_left hab, fun h => absurd h hab⟩
      · exact hb c hc

theorem insertionSort_stably [Std.Total r] [IsTrans α r] {l : List α} (h : l.Pairwise before) :
    (l.insertionSort r).Pairwise (Stably r before) := by
  induction l with
  | nil => exact List.Pairwise.nil
  | cons a l ih =>
    obtain ⟨ha, hl⟩ := List.pairwise_cons.mp h
    exact orderedInsert_stably (fun b hb => ha b ((List.mem_insertionSort r).mp hb)) (ih hl)

end StableSort

/-! Ordered maps: entries under ascending keys, looked up, inserted and removed one by one. -/

/-- A map that is iterated in the order of its keys. -/
@[ext]
structure SortedMap (K V : Type*) [LinearOrder K] where
  entries : List (K × V)
  sorted : entries.Pairwise fun a b => a.1 < b.1

namespace SortedMap
open KeyedList

variable {K V : Type*} [LinearOrder K]

def empty : SortedMap K V := ⟨[], List.Pairwise.nil⟩

variable (m : SortedMap K V)

lemma keys_nodup : (m.entries.map Prod.fst).Nodup :=
  List.pairwise_map.mpr (m.sorted.imp ne_of_lt)

def get (k : K) : Option V := m.entries.lookup k

def insert (k : K) (v : V) : SortedMap K V :=
  ⟨inKeyOrder (put m.entries (k, v)), inKeyOrder_sorted (put_nodup m.keys_nodup)⟩

def filter (p : K × V → Bool) : SortedMap K V := ⟨m.entries.filter p, m.sorted.filter p⟩

def remove (k : K) : SortedMap K V :=
  ⟨m.entries.filter fun e => e.1 ≠ k, m.sorted.filter _⟩

variable {m}

lemma get_eq_some_iff {k : K} {v : V} : m.get k = some v ↔ (k, v) ∈ m.entries :=
  lookup_eq_some_iff_mem m.keys_nodup

@[simp] lemma get_empty (k : K) : (empty : SortedMap K V).get k = none := rfl

lemma mem_insert {k : K} {v : V} {e : K × V} :
    e ∈ (m.insert k v).entries ↔ e = (k, v) ∨ e ∈ m.entries ∧ e.1 ≠ k := by
  rw [insert, mem_inKeyOrder, mem_put]

lemma get_insert (k : K) (v : V) (k' : K) :
    (m.insert k v).get k' = if k' = k then some v else m.get k' := by
  ext w
  rw [get_eq_some_iff, mem_insert]
  split
  next h =>
    subst h
    simp [eq_comm]
  next h =>
    rw [get_eq_some_iff]
    simp [h]

@[simp] lemma get_insert_self (k : K) (v : V) : (m.insert k v).get k = some v := by
  rw [get_insert, if_pos rfl]

lemma get_insert_of_ne {k k' : K} (h : k' ≠ k) (v : V) : (m.insert k v).get k' = m.get k' := by
  rw [get_insert, if_neg h]

lemma get_remove (k k' : K) : (m.remove k).get k' = if k' = k then none else m.get k' := by
  ext w
  rw [get_eq_some_iff, remove, List.mem_filter]
  split
  next h => simp [h]
  next h =>
    rw [get_eq_some_iff]
    simp [h]

lemma get_filter (p : K × V → Bool) (k : K) :
    (m.filter p).get k = (m.get k).filter fun v => p (k, v) := by
  ext v
  rw [get_eq_some_iff, filter, List.mem_filter, Option.filter_eq_some_iff, get_eq_some_iff]

theorem ext_get {m m' : SortedMap K V} (h : ∀ k, m.get k = m'.get k) : m = m' := by
  have : Std.Irrefl fun a b : K × V => a.1 < b.1 := ⟨fun a => lt_irrefl a.1⟩
  refine SortedMap.ext (m.sorted.eq_of_mem_iff m'.sorted fun e => ?_)
  rw [← get_eq_some_iff, ← get_eq_some_iff, h]

def ofList (es : List (K × V)) : SortedMap K V := es.foldl (fun m e => m.insert e.1 e.2) empty

lemma get_foldl_insert [deq : DecidableEq K] (es : List (K × V)) (m : SortedMap K V) (k : K) :
    (es.foldl (fun m e => m.insert e.1 e.2) m).get k =
      ((es.filter fun e => e.1 = k).getLast?.map Prod.snd).or (m.get k) := by
  obtain rfl : deq = LinearOrder.toDecidableEq := Subsingleton.elim _ _
  induction es using List.reverseRecOn with
  | nil => rfl
  | append_singleton es e ih =>
    rw [List.foldl_append, List.foldl_cons, List.foldl_nil, get_insert, ih, List.filter_append]
    by_cases h : e.1 = k
    · rw [if_pos h.symm, List.filter_cons_of_pos (by simpa using h), List.filter_nil,
        List.getLast?_concat]
      rfl
    · rw [if_neg (Ne.symm h), List.filter_cons_of_neg (by simpa using h), List.filter_nil,
        List.append_nil]

lemma get_ofList [DecidableEq K] (es : List (K × V)) (k : K) :
    (ofList es).get k = (es.filter fun e => e.1 = k).getLast?.map Prod.snd := by
  rw [ofList, get_foldl_insert, get_empty, Option.or_none]

@[simp] theorem ofList_entries (m : SortedMap K V) : ofList m.entries = m := by
  refine ext_get fun k => ?_
  ext v
  rw [get_ofList, Option.map_eq_some_iff]
  constructor
  · rintro ⟨⟨k', w⟩, hlast, rfl⟩
    obtain ⟨hmem, hk⟩ := List.mem_filter.mp (List.mem_of_getLast? hlast)
    exact get_eq_some_iff.mpr (of_decide_eq_true hk ▸ hmem)
  · intro hget
    have hmem : (k, v) ∈ m.entries.filter fun e => e.1 = k :=
      List.mem_filter.mpr ⟨get_eq_some_iff.mp hget, decide_eq_true rfl⟩
    obtain ⟨⟨k', w⟩, hlast⟩ : ∃ e, (m.entries.filter fun e => e.1 = k).getLast? = some e :=
      ⟨_, List.getLast?_eq_some_getLast (List.ne_nil_of_mem hmem)⟩
    obtain ⟨hw, hk⟩ := List.mem_filter.mp (List.mem_of_getLast? hlast)
    obtain rfl : k' = k := of_decide_eq_true hk
    exact ⟨_, hlast, Option.some.inj ((get_eq_some_iff.mpr hw).symm.trans hget)⟩

def groupBy {E : Type*} (key : E → K) (value : E → V) (es : List E) : SortedMap K (List V) :=
  es.foldl (fun m e => m.insert (key e) ((m.get (key e)).getD [] ++ [value e])) empty

lemma get_groupBy [deq : DecidableEq K] {E : Type*} (key : E → K) (value : E → V) (es : List E)
    (k : K) : (groupBy key value es).get k =
      match es.filter fun e => key e = k with
      | [] => none
      | first :: rest => some ((first :: rest).map value) := by
  obtain rfl : deq = LinearOrder.toDecidableEq := Subsingleton.elim _ _
  induction es using List.reverseRecOn with
  | nil => rfl
  | append_singleton es e ih =>
    rw [groupBy, List.foldl_append, List.foldl_cons, List.foldl_nil, ← groupBy, get_insert,
      List.filter_append]
    by_cases h : key e = k
    · subst h
      rw [if_pos rfl, ih, List.filter_cons_of_pos (by simp), List.filter_nil]
      cases es.filter fun x => key x = key e with
      | nil => rfl
      | cons first rest => simp
    · rw [if_neg (Ne.symm h), ih, List.filter_cons_of_neg (by simpa using h), List.filter_nil,
        List.append_nil]

end SortedMap

/-! The greatest elements of a list, so many of them. -/
namespace TopN

variable {α : Type*} [LinearOrder α]

def topN (n : ℕ) (l : List α) : List α := (l.insertionSort (· ≥ ·)).take n

lemma topN_subset (n : ℕ) (l : List α) : topN n l ⊆ l := fun _ hx =>
  (List.perm_insertionSort (· ≥ ·) l).mem_iff.mp (List.mem_of_mem_take hx)

lemma topN_nodup {l : List α} (h : l.Nodup) (n : ℕ) : (topN n l).Nodup :=
  ((List.perm_insertionSort (· ≥ ·) l).nodup_iff.mpr h).sublist (List.take_sublist n _)

lemma length_topN (n : ℕ) (l : List α) : (topN n l).length = min n l.length := by
  rw [topN, List.length_take, List.length_insertionSort]

lemma le_of_mem_topN {n : ℕ} {l : List α} {x y : α} (hx : x ∈ topN n l)
    (hy : y ∈ (l.insertionSort (· ≥ ·)).drop n) : y ≤ x := by
  have hsorted := List.pairwise_insertionSort (α := α) (· ≥ ·) l
  rw [← List.take_append_drop n (l.insertionSort (· ≥ ·)), List.pairwise_append] at hsorted
  exact hsorted.2.2 x hx y hy

lemma mem_drop_of_not_mem_topN {n : ℕ} {l : List α} {x : α} (hx : x ∈ l) (hnot : x ∉ topN n l) :
    x ∈ (l.insertionSort (· ≥ ·)).drop n := by
  have hmem := (List.perm_insertionSort (· ≥ ·) l).mem_iff.mpr hx
  rw [← List.take_append_drop n (l.insertionSort (· ≥ ·)), List.mem_append] at hmem
  exact hmem.resolve_left hnot

lemma countP_topN_of_not_mem {n : ℕ} {l : List α} {x : α} (hx : x ∈ l)
    (hnot : x ∉ topN n l) : (topN n l).countP (x < ·) = n := by
  have hdrop := mem_drop_of_not_mem_topN hx hnot
  have hlength : (topN n l).length = n := by
    have := List.length_pos_of_mem hdrop
    rw [List.length_drop, List.length_insertionSort] at this
    rw [length_topN]
    omega
  have hall : (topN n l).countP (x < ·) = (topN n l).length := by
    refine List.countP_eq_length.mpr fun y hy => ?_
    have hne : x ≠ y := fun heq => hnot (heq ▸ hy)
    simpa using lt_of_le_of_ne (le_of_mem_topN hy hdrop) hne
  rw [hall, hlength]

lemma le_countP_topN {n : ℕ} {l : List α} {v : α} (h : n ≤ l.countP (v < ·)) :
    n ≤ (topN n l).countP (v < ·) := by
  by_cases hrest : ∃ z ∈ (l.insertionSort (· ≥ ·)).drop n, v < z
  · obtain ⟨z, hz, hv⟩ := hrest
    have hall : (topN n l).countP (v < ·) = (topN n l).length := by
      refine List.countP_eq_length.mpr fun y hy => ?_
      simpa using hv.trans_le (le_of_mem_topN hy hz)
    have := List.length_pos_of_mem hz
    rw [List.length_drop, List.length_insertionSort] at this
    rw [hall, length_topN]
    omega
  · have hnone : ((l.insertionSort (· ≥ ·)).drop n).countP (v < ·) = 0 := by
      rw [List.countP_eq_zero]
      intro z hz hv
      exact hrest ⟨z, hz, by simpa using hv⟩
    rw [← (List.perm_insertionSort (· ≥ ·) l).countP_eq,
      ← List.take_append_drop n (l.insertionSort (· ≥ ·)), List.countP_append, hnone,
      Nat.add_zero] at h
    exact h

lemma filter_mem_topN_perm {l : List α} (h : l.Nodup) (n : ℕ) :
    (l.filter (· ∈ topN n l)).Perm (topN n l) := by
  rw [List.perm_ext_iff_of_nodup (h.filter _) (topN_nodup h n)]
  intro x
  rw [List.mem_filter, decide_eq_true_eq]
  exact ⟨And.right, fun hx => ⟨topN_subset n l hx, hx⟩⟩

end TopN
