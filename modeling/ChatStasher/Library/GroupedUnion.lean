import ChatStasher.Library.KeyedList
import Mathlib.Data.List.Induction

/-! The union of successive observations: grouped by key in key order, each group in the order of first
observation and without repeats. -/
namespace GroupedUnion
open KeyedList

variable {R : Type*} [DecidableEq R]

def insertNew (vs : List R) (r : R) : List R := if r ∈ vs then vs else vs ++ [r]

def distinct (rs : List R) : List R := rs.foldl insertNew []

@[simp] lemma mem_insertNew {vs : List R} {r x : R} : x ∈ insertNew vs r ↔ x ∈ vs ∨ x = r := by
  rw [insertNew]
  split
  next h => exact ⟨Or.inl, fun hx => hx.elim id fun heq => heq ▸ h⟩
  next => simp

lemma mem_foldl_insertNew {rs vs : List R} {x : R} :
    x ∈ rs.foldl insertNew vs ↔ x ∈ vs ∨ x ∈ rs := by
  induction rs generalizing vs with
  | nil => simp
  | cons r rs ih => rw [List.foldl_cons, ih, mem_insertNew, List.mem_cons, or_assoc]

@[simp] lemma mem_distinct {rs : List R} {x : R} : x ∈ distinct rs ↔ x ∈ rs := by
  rw [distinct, mem_foldl_insertNew]
  simp

lemma distinct_append (rs rs' : List R) :
    distinct (rs ++ rs') = rs'.foldl insertNew (distinct rs) := List.foldl_append

lemma distinct_eq_nil {rs : List R} : distinct rs = [] ↔ rs = [] := by
  rw [List.eq_nil_iff_forall_not_mem, List.eq_nil_iff_forall_not_mem]
  exact forall_congr' fun x => by rw [mem_distinct]

lemma distinct_pairwise (rs : List R) :
    (distinct rs).Pairwise fun a b => rs.idxOf a < rs.idxOf b := by
  induction rs using List.reverseRecOn with
  | nil => exact List.Pairwise.nil
  | append_singleton rs r ih =>
    have hkept : (distinct rs).Pairwise fun a b => (rs ++ [r]).idxOf a < (rs ++ [r]).idxOf b :=
      ih.imp_of_mem fun {a b} ha hb hab => by
        rwa [List.idxOf_append_of_mem (mem_distinct.mp ha),
          List.idxOf_append_of_mem (mem_distinct.mp hb)]
    rw [distinct_append, List.foldl_cons, List.foldl_nil, insertNew]
    split
    next => exact hkept
    next hnew =>
      rw [List.pairwise_append]
      refine ⟨hkept, List.pairwise_singleton _ _, fun a ha b hb => ?_⟩
      obtain rfl := List.mem_singleton.mp hb
      rw [List.idxOf_append_of_mem (mem_distinct.mp ha),
        List.idxOf_append_of_notMem (mt mem_distinct.mpr hnew)]
      exact lt_of_lt_of_le (List.idxOf_lt_length_of_mem (mem_distinct.mp ha)) (Nat.le_add_right _ _)

lemma distinct_nodup (rs : List R) : (distinct rs).Nodup :=
  (distinct_pairwise rs).imp fun h heq => absurd h (by rw [heq]; exact lt_irrefl _)

lemma distinct_of_nodup {rs : List R} (h : rs.Nodup) : distinct rs = rs := by
  induction rs using List.reverseRecOn with
  | nil => rfl
  | append_singleton rs r ih =>
    rw [List.nodup_append] at h
    have hnew : r ∉ rs := fun hr => h.2.2 r hr r (List.mem_singleton_self r) rfl
    rw [distinct_append, ih h.1, List.foldl_cons, List.foldl_nil, insertNew, if_neg hnew]

lemma distinct_distinct_append (rs rs' : List R) :
    distinct (distinct rs ++ rs') = distinct (rs ++ rs') := by
  rw [distinct_append, distinct_append, distinct_of_nodup (distinct_nodup rs)]

lemma distinct_append_eq (rs rs' : List R) :
    distinct (rs ++ rs') = distinct rs ++ (distinct rs').filter fun r => r ∉ rs := by
  induction rs' using List.reverseRecOn with
  | nil => rw [List.append_nil]; exact (List.append_nil _).symm
  | append_singleton rs' r ih =>
    rw [← List.append_assoc, distinct_append (rs ++ rs'), List.foldl_cons, List.foldl_nil,
      insertNew, distinct_append rs', List.foldl_cons, List.foldl_nil, insertNew]
    simp only [mem_distinct, List.mem_append]
    by_cases hrs : r ∈ rs
    · rw [if_pos (Or.inl hrs), ih]
      split
      · rfl
      · rw [List.filter_append, List.filter_cons_of_neg (by simpa using hrs), List.filter_nil,
          List.append_nil]
    · by_cases hrs' : r ∈ rs'
      · rw [if_pos (Or.inr hrs'), if_pos hrs', ih]
      · rw [if_neg (by tauto), if_neg hrs', ih, List.filter_append,
          List.filter_cons_of_pos (by simpa using hrs), List.filter_nil, List.append_assoc]

lemma distinct_append_of_subset {rs rs' : List R} (h : rs' ⊆ rs) :
    distinct (rs ++ rs') = distinct rs := by
  rw [distinct_append_eq]
  refine (congrArg (distinct rs ++ ·) ?_).trans (List.append_nil _)
  rw [List.filter_eq_nil_iff]
  exact fun r hr => by simpa using h (mem_distinct.mp hr)

lemma getLast?_filter_distinct {rs : List R} {q : R → Bool} {r : R} :
    ((distinct rs).filter q).getLast? = some r ↔
      r ∈ rs ∧ q r = true ∧ ∀ x ∈ rs, q x = true → rs.idxOf x ≤ rs.idxOf r := by
  have hmem : ∀ x, x ∈ (distinct rs).filter q ↔ x ∈ rs ∧ q x = true := fun x => by
    rw [List.mem_filter, mem_distinct]
  have hsorted := (distinct_pairwise rs).filter q
  constructor
  · intro h
    obtain ⟨front, hfront⟩ := List.getLast?_eq_some_iff.mp h
    have hr := (hmem r).mp (hfront ▸ List.mem_append_right _ List.mem_cons_self)
    refine ⟨hr.1, hr.2, fun x hx hq => ?_⟩
    have hxmem := (hmem x).mpr ⟨hx, hq⟩
    rw [hfront, List.mem_append, List.mem_singleton] at hxmem
    rw [hfront, List.pairwise_append] at hsorted
    rcases hxmem with hx | rfl
    · exact (hsorted.2.2 x hx r (List.mem_singleton_self r)).le
    · exact le_refl _
  · rintro ⟨hr, hq, hlast⟩
    have hrmem := (hmem r).mpr ⟨hr, hq⟩
    cases hx : ((distinct rs).filter q).getLast? with
    | none => rw [List.getLast?_eq_none_iff.mp hx] at hrmem; cases hrmem
    | some x =>
      obtain ⟨front, hfront⟩ := List.getLast?_eq_some_iff.mp hx
      rw [hfront, List.mem_append, List.mem_singleton] at hrmem
      rw [hfront, List.pairwise_append] at hsorted
      rcases hrmem with hrfront | rfl
      · have hxs := (hmem x).mp (hfront ▸ List.mem_append_right _ List.mem_cons_self)
        have hlt := hsorted.2.2 r hrfront x (List.mem_singleton_self x)
        exact absurd (hlast x hxs.1 hxs.2) (not_le.mpr hlt)
      · rfl

/-- A log ends, under every test, in what the first observations end in. -/
def CaughtUp (log seen : List R) : Prop :=
  ∀ q : R → Bool, (log.filter q).getLast? = ((distinct seen).filter q).getLast?

lemma caughtUp_nil : CaughtUp ([] : List R) [] := fun _ => rfl

lemma CaughtUp.mem_iff {log seen : List R} (h : CaughtUp log seen) {r : R} : r ∈ log ↔ r ∈ seen := by
  have hlast : ∀ rs : List R, r ∈ rs ↔ (rs.filter (· = r)).getLast? ≠ none := fun rs => by
    rw [ne_eq, List.getLast?_eq_none_iff, List.filter_eq_nil_iff]
    simp
  rw [hlast log, h, ← hlast, mem_distinct]

lemma CaughtUp.of_subset {log seen news : List R} (h : CaughtUp log seen) (hnews : news ⊆ seen) :
    CaughtUp log (seen ++ news) := fun q => by
  rw [distinct_append_of_subset hnews]
  exact h q

theorem CaughtUp.deliver {log seen old : List R} (h : CaughtUp log seen) (hold : old <+: seen)
    (news : List R) (all : Bool) :
    CaughtUp (log ++ (distinct (seen ++ news)).filter fun r => all || r ∉ old) (seen ++ news) := by
  obtain ⟨since, rfl⟩ := hold
  -- what is appended is the end of the first observations
  have hend : ∃ front, distinct (old ++ since ++ news) =
      front ++ (distinct (old ++ since ++ news)).filter fun r => all || r ∉ old := by
    cases all with
    | true => exact ⟨[], by simp⟩
    | false =>
      refine ⟨distinct old, ?_⟩
      rw [List.append_assoc, distinct_append_eq old, List.filter_append, List.filter_filter]
      have hnone : (distinct old).filter (fun r => false || decide (r ∉ old)) = [] := by
        rw [List.filter_eq_nil_iff]
        exact fun r hr => by simpa using mem_distinct.mp hr
      rw [hnone, List.nil_append]
      simp
  obtain ⟨front, hfront⟩ := hend
  intro q
  rw [List.filter_append]
  generalize hpart : (distinct (old ++ since ++ news)).filter (fun r => all || r ∉ old) = part
    at hfront ⊢
  by_cases hq : part.filter q = []
  · have hnone : ((distinct news).filter fun r => r ∉ old ++ since).filter q = [] := by
      rw [List.filter_eq_nil_iff] at hq ⊢
      intro r hr
      rw [List.mem_filter, mem_distinct, decide_eq_true_iff] at hr
      have hnew : r ∉ old := fun hold => hr.2 (List.mem_append_left since hold)
      refine hq r (hpart ▸ List.mem_filter.mpr ⟨?_, by simp [hnew]⟩)
      exact mem_distinct.mpr (List.mem_append_right _ hr.1)
    rw [hq, List.append_nil, h q, distinct_append_eq (old ++ since), List.filter_append, hnone,
      List.append_nil]
  · rw [hfront, List.filter_append, List.getLast?_append_of_ne_nil _ hq,
      List.getLast?_append_of_ne_nil _ hq]

variable (key : R → ℕ)

def groups (rs : List R) : List (ℕ × List R) :=
  rs.foldl (fun m r => upsert m (key r) fun vs => insertNew (vs.getD []) r) []

def union (rs : List R) : List R := (inKeyOrder (groups key rs)).flatMap Prod.snd

lemma groups_nodup (rs : List R) : ((groups key rs).map Prod.fst).Nodup := by
  suffices h : ∀ m : List (ℕ × List R), (m.map Prod.fst).Nodup →
      ((rs.foldl (fun m r => upsert m (key r) fun vs => insertNew (vs.getD []) r) m).map
        Prod.fst).Nodup from h [] List.nodup_nil
  induction rs with
  | nil => exact fun m hm => hm
  | cons r rs ih => exact fun m hm => ih _ (put_nodup hm)

lemma lookup_groups (rs : List R) (n : ℕ) : (groups key rs).lookup n =
    if (rs.filter fun r => key r = n) = [] then none
    else some (distinct (rs.filter fun r => key r = n)) := by
  have hfold : ∀ (l : List R) (v : List R),
      l.foldl (fun (v : Option (List R)) r => some (insertNew (v.getD []) r)) (some v) =
        some (l.foldl insertNew v) := by
    intro l
    induction l with
    | nil => exact fun v => rfl
    | cons r l ih => exact fun v => ih _
  rw [groups, lookup_foldl_upsert key fun vs r => insertNew (vs.getD []) r]
  cases rs.filter fun r => key r = n with
  | nil => rfl
  | cons r l => exact hfold l (insertNew [] r)

lemma mem_groups {rs : List R} {n : ℕ} {vs : List R} : (n, vs) ∈ groups key rs ↔
    (rs.filter fun r => key r = n) ≠ [] ∧ vs = distinct (rs.filter fun r => key r = n) := by
  rw [← lookup_eq_some_iff_mem (groups_nodup key rs), lookup_groups]
  split
  next h => simp [h]
  next h =>
    exact ⟨fun heq => ⟨h, (Option.some.inj heq).symm⟩, fun heq => by rw [heq.2]⟩

lemma union_congr {rs rs' : List R} (h : ∀ n, distinct (rs.filter fun r => key r = n) =
    distinct (rs'.filter fun r => key r = n)) : union key rs = union key rs' := by
  have hmem : ∀ x, x ∈ groups key rs ↔ x ∈ inKeyOrder (groups key rs') := by
    rintro ⟨n, vs⟩
    rw [mem_inKeyOrder, mem_groups, mem_groups, h n, ne_eq, ← distinct_eq_nil, h n, distinct_eq_nil]
  rw [union, union, inKeyOrder_eq (groups_nodup key rs)
    (inKeyOrder_sorted (groups_nodup key rs')) hmem]

@[simp] lemma mem_union {rs : List R} {r : R} : r ∈ union key rs ↔ r ∈ rs := by
  rw [union, List.mem_flatMap]
  constructor
  · rintro ⟨⟨n, vs⟩, hmem, hr⟩
    obtain ⟨-, rfl⟩ := (mem_groups key).mp (mem_inKeyOrder.mp hmem)
    exact (List.mem_filter.mp (mem_distinct.mp hr)).1
  · intro hr
    have hmem : r ∈ rs.filter fun x => key x = key r := by simp [hr]
    exact ⟨(key r, _), mem_inKeyOrder.mpr ((mem_groups key).mpr
      ⟨List.ne_nil_of_mem hmem, rfl⟩), mem_distinct.mpr hmem⟩

omit [DecidableEq R] in
lemma flatMap_key {l : List (ℕ × List R)} (h : (l.map Prod.fst).Nodup) (n : ℕ) :
    (l.flatMap fun g => if g.1 = n then g.2 else []) = (l.lookup n).getD [] := by
  induction l with
  | nil => rfl
  | cons g l ih =>
    rw [List.map_cons, List.nodup_cons] at h
    rw [List.flatMap_cons, ih h.2, List.lookup_cons]
    by_cases hg : g.1 = n
    · have hnone : l.lookup n = none := List.lookup_eq_none_iff.mpr fun x hx => by
        simpa using fun heq => h.1 (List.mem_map.mpr ⟨x, hx, (hg.trans heq).symm⟩)
      simp [hg, hnone]
    · have hne : (n == g.1) = false := beq_eq_false_iff_ne.mpr fun heq => hg heq.symm
      simp [hg, hne]

lemma filter_union (rs : List R) (n : ℕ) : (union key rs).filter (fun r => key r = n) =
    distinct (rs.filter fun r => key r = n) := by
  have hgroup : ∀ g ∈ inKeyOrder (groups key rs), g.2.filter (fun r => key r = n) =
      if g.1 = n then g.2 else [] := by
    rintro ⟨m, vs⟩ hg
    obtain ⟨-, rfl⟩ := (mem_groups key).mp (mem_inKeyOrder.mp hg)
    have hkey : ∀ r ∈ distinct (rs.filter fun r => key r = m), key r = m := fun r hr => by
      simpa using (List.mem_filter.mp (mem_distinct.mp hr)).2
    by_cases hm : m = n
    · rw [if_pos hm, List.filter_eq_self]
      exact fun r hr => decide_eq_true ((hkey r hr).trans hm)
    · rw [if_neg hm, List.filter_eq_nil_iff]
      exact fun r hr => by simpa [hkey r hr] using hm
  have hnodup := ((inKeyOrder_perm (groups key rs)).map Prod.fst).nodup_iff.mpr
    (groups_nodup key rs)
  rw [union, List.filter_flatMap, List.flatMap_congr hgroup, flatMap_key hnodup]
  have hlookup : (inKeyOrder (groups key rs)).lookup n = (groups key rs).lookup n := by
    ext vs
    rw [lookup_eq_some_iff_mem hnodup, lookup_eq_some_iff_mem (groups_nodup key rs), mem_inKeyOrder]
  rw [hlookup, lookup_groups]
  split
  next h => rw [h]; rfl
  next => rfl

theorem union_union_append (rs rs' : List R) :
    union key (union key rs ++ rs') = union key (rs ++ rs') :=
  union_congr key fun n => by
    rw [List.filter_append, List.filter_append, filter_union, distinct_distinct_append]

lemma idxOf_lt_of_filter {p : R → Bool} {rs : List R} {a b : R} (ha : a ∈ rs.filter p)
    (hb : b ∈ rs.filter p) (h : (rs.filter p).idxOf a < (rs.filter p).idxOf b) :
    rs.idxOf a < rs.idxOf b := by
  induction rs with
  | nil => cases ha
  | cons r rs ih =>
    have hab : a ≠ b := fun heq => absurd h (by rw [heq]; exact lt_irrefl _)
    by_cases hra : r = a
    · subst hra
      rw [List.idxOf_cons_self, List.idxOf_cons_ne _ hab]
      exact Nat.succ_pos _
    · by_cases hrb : r = b
      · subst hrb
        rw [List.filter_cons_of_pos (List.mem_filter.mp hb).2, List.idxOf_cons_self] at h
        exact absurd h (Nat.not_lt_zero _)
      · rw [List.idxOf_cons_ne _ hra, List.idxOf_cons_ne _ hrb]
        refine Nat.succ_lt_succ ?_
        have hmem : ∀ x, x ≠ r → x ∈ (r :: rs).filter p → x ∈ rs.filter p := fun x hx hxmem => by
          rw [List.mem_filter, List.mem_cons] at hxmem
          exact List.mem_filter.mpr ⟨hxmem.1.resolve_left hx, hxmem.2⟩
        refine ih (hmem a (Ne.symm hra) ha) (hmem b (Ne.symm hrb) hb) ?_
        by_cases hr : p r = true
        · rw [List.filter_cons_of_pos hr, List.idxOf_cons_ne _ hra, List.idxOf_cons_ne _ hrb] at h
          exact Nat.lt_of_succ_lt_succ h
        · rwa [List.filter_cons_of_neg hr] at h

theorem union_pairwise (rs : List R) : (union key rs).Pairwise fun a b =>
    key a < key b ∨ key a = key b ∧ rs.idxOf a < rs.idxOf b := by
  have hgroup : ∀ {n : ℕ} {vs : List R}, (n, vs) ∈ inKeyOrder (groups key rs) →
      vs = distinct (rs.filter fun r => key r = n) := fun h =>
    ((mem_groups key).mp (mem_inKeyOrder.mp h)).2
  have hkey : ∀ {n : ℕ} {vs : List R}, (n, vs) ∈ inKeyOrder (groups key rs) →
      ∀ r ∈ vs, r ∈ rs.filter (fun r => key r = n) ∧ key r = n := fun h r hr => by
    rw [hgroup h, mem_distinct] at hr
    exact ⟨hr, by simpa using (List.mem_filter.mp hr).2⟩
  rw [union, List.pairwise_flatMap]
  constructor
  · rintro ⟨n, vs⟩ hg
    have hdistinct := distinct_pairwise (rs.filter fun r => key r = n)
    rw [← hgroup hg] at hdistinct
    refine hdistinct.imp_of_mem fun {a b} ha hb hab => Or.inr ⟨?_, ?_⟩
    · rw [(hkey hg a ha).2, (hkey hg b hb).2]
    · exact idxOf_lt_of_filter (hkey hg a ha).1 (hkey hg b hb).1 hab
  · refine (inKeyOrder_sorted (groups_nodup key rs)).imp_of_mem fun {g g'} hg hg' hlt a ha b hb => ?_
    rw [(hkey hg a ha).2, (hkey hg' b hb).2]
    exact Or.inl hlt

lemma union_nodup (rs : List R) : (union key rs).Nodup :=
  (union_pairwise key rs).imp fun h heq => by
    subst heq
    rcases h with h | ⟨-, h⟩
    · exact lt_irrefl _ h
    · exact lt_irrefl _ h

end GroupedUnion
