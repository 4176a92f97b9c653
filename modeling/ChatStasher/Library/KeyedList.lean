import Mathlib.Data.List.Sort

/-! Association lists in which the first or the last entry for a key wins, iterated in key order. -/
namespace KeyedList

variable {K V : Type*}

lemma lookup_eq_some_iff_mem [BEq K] [LawfulBEq K] {m : List (K × V)} (h : (m.map Prod.fst).Nodup)
    {k : K} {v : V} : m.lookup k = some v ↔ (k, v) ∈ m := by
  constructor
  · intro hlookup
    obtain ⟨l₁, l₂, rfl, -⟩ := List.lookup_eq_some_iff.mp hlookup
    exact List.mem_append_right l₁ List.mem_cons_self
  · intro hmem
    cases hlookup : m.lookup k with
    | none =>
      have := List.lookup_eq_none_iff.mp hlookup (k, v) hmem
      simp at this
    | some w =>
      obtain ⟨l₁, l₂, rfl, -⟩ := List.lookup_eq_some_iff.mp hlookup
      have := List.inj_on_of_nodup_map h hmem (List.mem_append_right l₁ List.mem_cons_self) rfl
      rw [(Prod.mk.inj this).2]

lemma lookup_filter [BEq K] [LawfulBEq K] {m : List (K × V)} (h : (m.map Prod.fst).Nodup)
    (p : K × V → Bool) (k : K) : (m.filter p).lookup k = (m.lookup k).filter fun v => p (k, v) := by
  have hkept : ((m.filter p).map Prod.fst).Nodup := h.sublist (List.filter_sublist.map _)
  ext v
  rw [lookup_eq_some_iff_mem hkept, List.mem_filter, Option.filter_eq_some_iff,
    lookup_eq_some_iff_mem h]

lemma lookup_filter_of_pos [BEq K] [LawfulBEq K] {m : List (K × V)} (h : (m.map Prod.fst).Nodup)
    {p : K × V → Bool} {k : K} (hp : ∀ v, p (k, v) = true) :
    (m.filter p).lookup k = m.lookup k := by
  rw [lookup_filter h]
  cases m.lookup k with
  | none => rfl
  | some v => exact Option.filter_some_pos (hp v)

lemma lookup_filter_key [BEq K] [LawfulBEq K] (m : List (K × V)) (p : K → Bool) (k : K) :
    (m.filter fun x => p x.1).lookup k = if p k then m.lookup k else none := by
  induction m with
  | nil => simp
  | cons e m ih =>
    obtain ⟨key, v⟩ := e
    by_cases hk : k = key
    · subst hk
      by_cases hp : p k <;> simp [hp, ih]
    · have hne : (k == key) = false := beq_false_of_ne hk
      by_cases hp : p key <;> simp [List.lookup_cons, hp, hne, ih]

theorem filterMap_eq_of_sublist {keys : List K} (h : keys.Nodup) {m : List (K × V)}
    (hsub : (m.map Prod.fst).Sublist keys) {g : K → Option (K × V)}
    (hg : ∀ k ∈ keys, ∀ x, g k = some x ↔ x ∈ m ∧ x.1 = k) : keys.filterMap g = m := by
  induction keys generalizing m with
  | nil =>
    rw [List.sublist_nil, List.map_eq_nil_iff] at hsub
    rw [hsub]
    rfl
  | cons key keys ih =>
    obtain ⟨hkey, hkeys⟩ := List.nodup_cons.mp h
    rcases List.sublist_cons_iff.mp hsub with hrest | ⟨rest, hmap, hrest⟩
    · have hnone : g key = none := by
        rw [Option.eq_none_iff_forall_ne_some]
        intro x hx
        obtain ⟨hmem, rfl⟩ := (hg key List.mem_cons_self x).mp hx
        exact hkey (hrest.subset (List.mem_map_of_mem hmem))
      rw [List.filterMap_cons_none hnone]
      exact ih hkeys hrest fun k hk => hg k (List.mem_cons_of_mem key hk)
    · obtain ⟨x, m, rfl, rfl, rfl⟩ := List.map_eq_cons_iff.mp hmap
      rw [List.filterMap_cons_some ((hg x.1 List.mem_cons_self x).mpr ⟨List.mem_cons_self, rfl⟩)]
      refine congrArg (x :: ·) (ih hkeys hrest fun k hk y => ?_)
      rw [hg k (List.mem_cons_of_mem _ hk), List.mem_cons]
      constructor
      · rintro ⟨rfl | hy, hkey'⟩
        · exact absurd (hkey' ▸ hk) hkey
        · exact ⟨hy, hkey'⟩
      · rintro ⟨hy, hkey'⟩
        exact ⟨Or.inr hy, hkey'⟩

section Insert
variable [DecidableEq K]

def orInsert (m : List (K × V)) (e : K × V) : List (K × V) :=
  if e.1 ∈ m.map Prod.fst then m else m ++ [e]

/-- The map left by inserting the entries in order, the first one for each key winning. -/
def firstWins (entries : List (K × V)) : List (K × V) := entries.foldl orInsert []

lemma keys_orInsert {m : List (K × V)} {e : K × V} (h : (m.map Prod.fst).Nodup) :
    ((orInsert m e).map Prod.fst).Nodup := by
  rw [orInsert]
  split
  next => exact h
  next hnew => simpa [List.nodup_append, h] using fun a b hab => (fun he => hnew (by
    simpa using ⟨b, he ▸ hab⟩))

lemma mem_orInsert {m : List (K × V)} {e x : K × V} (h : x ∈ orInsert m e) : x ∈ m ∨ x = e := by
  rw [orInsert] at h
  split at h
  next => exact Or.inl h
  next => simpa using h

lemma subset_orInsert (m : List (K × V)) (e : K × V) : m ⊆ orInsert m e := by
  rw [orInsert]
  split
  next => exact List.Subset.refl m
  next => exact List.subset_append_left m [e]

lemma key_mem_orInsert (m : List (K × V)) (e : K × V) : e.1 ∈ (orInsert m e).map Prod.fst := by
  rw [orInsert]
  split
  next h => exact h
  next => simp

lemma foldl_orInsert (entries m : List (K × V)) (hm : (m.map Prod.fst).Nodup) :
    ((entries.foldl orInsert m).map Prod.fst).Nodup ∧ m ⊆ entries.foldl orInsert m ∧
      (∀ x ∈ entries.foldl orInsert m, x ∈ m ∨ x ∈ entries) ∧
      ∀ x ∈ entries, x.1 ∈ (entries.foldl orInsert m).map Prod.fst := by
  induction entries generalizing m with
  | nil => exact ⟨hm, List.Subset.refl m, fun x hx => Or.inl hx, by simp⟩
  | cons e entries ih =>
    obtain ⟨hnodup, hsub, hback, hkeys⟩ := ih (orInsert m e) (keys_orInsert hm)
    refine ⟨hnodup, List.Subset.trans (subset_orInsert m e) hsub, fun x hx => ?_, fun x hx => ?_⟩
    · rcases hback x hx with h | h
      · rcases mem_orInsert h with h | rfl
        · exact Or.inl h
        · exact Or.inr List.mem_cons_self
      · exact Or.inr (List.mem_cons_of_mem e h)
    · rcases List.mem_cons.mp hx with rfl | hx
      · exact List.map_subset _ hsub (key_mem_orInsert m x)
      · exact hkeys x hx

lemma firstWins_nodup (entries : List (K × V)) : ((firstWins entries).map Prod.fst).Nodup :=
  (foldl_orInsert entries [] (by simp)).1

lemma mem_of_mem_firstWins {entries : List (K × V)} {x : K × V} (h : x ∈ firstWins entries) :
    x ∈ entries := by
  simpa using (foldl_orInsert entries [] (by simp)).2.2.1 x h

lemma key_mem_firstWins {entries : List (K × V)} {x : K × V} (h : x ∈ entries) :
    x.1 ∈ (firstWins entries).map Prod.fst :=
  (foldl_orInsert entries [] (by simp)).2.2.2 x h

theorem mem_firstWins {entries : List (K × V)}
    (hfun : ∀ x ∈ entries, ∀ y ∈ entries, x.1 = y.1 → x = y) {x : K × V} :
    x ∈ firstWins entries ↔ x ∈ entries := by
  refine ⟨mem_of_mem_firstWins, fun hx => ?_⟩
  obtain ⟨y, hy, hkey⟩ := List.mem_map.mp (key_mem_firstWins hx)
  rw [hfun x hx y (mem_of_mem_firstWins hy) hkey.symm]
  exact hy

lemma map_orInsert {W : Type*} {f : K × V → K × W} (hf : ∀ x, (f x).1 = x.1) (m : List (K × V))
    (e : K × V) : (orInsert m e).map f = orInsert (m.map f) (f e) := by
  have hkeys : (m.map f).map Prod.fst = m.map Prod.fst := by
    rw [List.map_map]
    exact List.map_congr_left fun x _ => hf x
  rw [orInsert, orInsert, hkeys, hf]
  split
  next => rfl
  next => simp

lemma firstWins_concat (entries : List (K × V)) (e : K × V) :
    firstWins (entries ++ [e]) = orInsert (firstWins entries) e := by
  simp [firstWins]

theorem mem_foldl_orInsert {entries m : List (K × V)}
    (hfun : ∀ x ∈ entries, ∀ y ∈ entries, x.1 = y.1 → x = y) {x : K × V} :
    x ∈ entries.foldl orInsert m ↔ x ∈ m ∨ x.1 ∉ m.map Prod.fst ∧ x ∈ entries := by
  induction entries generalizing m with
  | nil => simp
  | cons e entries ih =>
    have hrest : ∀ y ∈ entries, y.1 = e.1 → y = e :=
      fun y hy => hfun y (List.mem_cons_of_mem e hy) e List.mem_cons_self
    rw [List.foldl_cons, ih fun a ha b hb => hfun a (List.mem_cons_of_mem e ha) b
      (List.mem_cons_of_mem e hb), List.mem_cons]
    by_cases hkey : e.1 ∈ m.map Prod.fst
    · rw [orInsert, if_pos hkey]
      constructor
      · rintro (hx | ⟨hx, hmem⟩)
        · exact Or.inl hx
        · exact Or.inr ⟨hx, Or.inr hmem⟩
      · rintro (hx | ⟨hx, rfl | hmem⟩)
        · exact Or.inl hx
        · exact absurd hkey hx
        · exact Or.inr ⟨hx, hmem⟩
    · rw [orInsert, if_neg hkey, List.mem_append, List.mem_singleton, List.map_append,
        List.mem_append, List.map_singleton, List.mem_singleton, not_or]
      constructor
      · rintro ((hx | rfl) | ⟨⟨hx, -⟩, hmem⟩)
        · exact Or.inl hx
        · exact Or.inr ⟨hkey, Or.inl rfl⟩
        · exact Or.inr ⟨hx, Or.inr hmem⟩
      · rintro (hx | ⟨hx, rfl | hmem⟩)
        · exact Or.inl (Or.inl hx)
        · exact Or.inl (Or.inr rfl)
        · by_cases hsame : x.1 = e.1
          · exact Or.inl (Or.inr (hrest x hmem hsame))
          · exact Or.inr ⟨⟨hx, hsame⟩, hmem⟩

theorem mem_foldl_orInsert_congr {batches batches' : List (List (K × V))}
    (h : List.Forall₂ (fun a b => ∀ x, x ∈ a ↔ x ∈ b) batches batches')
    (hfun : ∀ a ∈ batches, ∀ x ∈ a, ∀ y ∈ a, x.1 = y.1 → x = y) {m m' : List (K × V)}
    (hm : ∀ x, x ∈ m ↔ x ∈ m') (x : K × V) :
    x ∈ batches.flatten.foldl orInsert m ↔ x ∈ batches'.flatten.foldl orInsert m' := by
  induction h generalizing m m' with
  | nil => exact hm x
  | @cons a b as bs hab _ ih =>
    have hfunA := hfun a List.mem_cons_self
    have hfunB : ∀ x ∈ b, ∀ y ∈ b, x.1 = y.1 → x = y := fun x hx y hy =>
      hfunA x ((hab x).mpr hx) y ((hab y).mpr hy)
    rw [List.flatten_cons, List.flatten_cons, List.foldl_append, List.foldl_append]
    refine ih (fun c hc => hfun c (List.mem_cons_of_mem a hc)) fun y => ?_
    have hkeys : y.1 ∈ m.map Prod.fst ↔ y.1 ∈ m'.map Prod.fst := by
      simp only [List.mem_map, hm]
    rw [mem_foldl_orInsert hfunA, mem_foldl_orInsert hfunB, hm, hab, hkeys]

end Insert

section Put
variable [DecidableEq K]

def put (m : List (K × V)) (e : K × V) : List (K × V) := m.filter (fun x => x.1 ≠ e.1) ++ [e]

/-- The map left by inserting the entries in order, the last one for each key winning. -/
def lastWins (entries : List (K × V)) : List (K × V) := entries.foldl put []

@[simp] lemma mem_put {m : List (K × V)} {e x : K × V} :
    x ∈ put m e ↔ x = e ∨ (x ∈ m ∧ x.1 ≠ e.1) := by
  simp [put, or_comm]

lemma put_nodup {m : List (K × V)} {e : K × V} (h : (m.map Prod.fst).Nodup) :
    ((put m e).map Prod.fst).Nodup := by
  have hsub : ((m.filter fun x => x.1 ≠ e.1).map Prod.fst).Nodup :=
    h.sublist (List.filter_sublist.map _)
  rw [put, List.map_append, List.nodup_append]
  refine ⟨hsub, by simp, ?_⟩
  rintro a ha b hb rfl
  obtain ⟨x, hx, hxa⟩ := List.mem_map.mp ha
  obtain rfl : a = e.1 := by simpa using hb
  simp [hxa] at hx

lemma put_perm_of_mem {m : List (K × V)} (h : (m.map Prod.fst).Nodup) {e : K × V} (he : e ∈ m) :
    (put m e).Perm m := by
  obtain ⟨before, after, rfl⟩ := List.append_of_mem he
  rw [List.map_append, List.map_cons, List.nodup_middle, List.nodup_cons, ← List.map_append] at h
  have hkept : (before ++ after).filter (fun x => x.1 ≠ e.1) = before ++ after := by
    refine List.filter_eq_self.mpr fun x hx => decide_eq_true fun hkey => h.1 ?_
    exact List.mem_map.mpr ⟨x, hx, hkey⟩
  rw [put, List.filter_append, List.filter_cons_of_neg (by simp), ← List.filter_append, hkept]
  exact (List.perm_append_singleton _ _).trans List.perm_middle.symm

lemma put_perm {m m' : List (K × V)} (h : m.Perm m') (e : K × V) : (put m e).Perm (put m' e) :=
  (h.filter _).append_right _

lemma foldl_put_perm {m m' : List (K × V)} (h : m.Perm m') (entries : List (K × V)) :
    (entries.foldl put m).Perm (entries.foldl put m') := by
  induction entries generalizing m m' with
  | nil => exact h
  | cons e entries ih => exact ih (put_perm h e)

lemma lookup_filter_ne [BEq K] [LawfulBEq K] (m : List (K × V)) (key k : K) :
    (m.filter fun x => x.1 ≠ key).lookup k = if k = key then none else m.lookup k := by
  induction m with
  | nil => simp
  | cons x m ih =>
    obtain ⟨a, w⟩ := x
    have hbeq : ∀ b : K, (k == b) = decide (k = b) := fun b => by
      rw [Bool.eq_iff_iff, beq_iff_eq, decide_eq_true_iff]
    rw [List.filter_cons]
    by_cases hx : a = key
    · rw [if_neg (by simp [hx]), ih, List.lookup_cons, hbeq, hx]
      by_cases hk : k = key <;> simp [hk]
    · rw [if_pos (by simp [hx]), List.lookup_cons, List.lookup_cons, ih, hbeq]
      by_cases hk : k = a
      · subst hk
        simp [hx]
      · simp [hk]

lemma lookup_put [BEq K] [LawfulBEq K] (m : List (K × V)) (e : K × V) (k : K) :
    (put m e).lookup k = if k = e.1 then some e.2 else m.lookup k := by
  obtain ⟨key, v⟩ := e
  rw [put, List.lookup_append, lookup_filter_ne]
  by_cases hk : k = key
  · simp [hk]
  · have hne : (k == key) = false := beq_eq_false_iff_ne.mpr hk
    simp [hk, List.lookup_cons, hne]

lemma lookup_orInsert [BEq K] [LawfulBEq K] (m : List (K × V)) (e : K × V) (k : K) :
    (orInsert m e).lookup k = (m.lookup k).or (if k = e.1 then some e.2 else none) := by
  obtain ⟨key, v⟩ := e
  rw [orInsert]
  by_cases hmem : key ∈ m.map Prod.fst
  · rw [if_pos hmem]
    by_cases hk : k = key
    · subst hk
      obtain ⟨⟨key, w⟩, he, rfl⟩ := List.mem_map.mp hmem
      cases hlookup : m.lookup key with
      | none => simpa using List.lookup_eq_none_iff.mp hlookup _ he
      | some w => rfl
    · simp [hk]
  · rw [if_neg hmem, List.lookup_append]
    by_cases hk : k = key
    · simp [hk]
    · have hne : (k == key) = false := beq_eq_false_iff_ne.mpr hk
      simp [hk, List.lookup_cons, hne]

theorem lookup_foldl_orInsert [BEq K] [LawfulBEq K] (entries m : List (K × V)) (k : K) :
    (entries.foldl orInsert m).lookup k = (m.lookup k).or (entries.lookup k) := by
  induction entries generalizing m with
  | nil => simp
  | cons e entries ih =>
    obtain ⟨key, v⟩ := e
    rw [List.foldl_cons, ih, lookup_orInsert, Option.or_assoc, List.lookup_cons]
    by_cases hk : k = key
    · simp [hk]
    · have hne : (k == key) = false := beq_eq_false_iff_ne.mpr hk
      simp [hk, hne]

def upsert [BEq K] (m : List (K × V)) (k : K) (f : Option V → V) : List (K × V) :=
  put m (k, f (m.lookup k))

theorem lookup_foldl_upsert {E : Type*} [BEq K] [LawfulBEq K] (key : E → K) (f : Option V → E → V)
    (es : List E) (m : List (K × V)) (k : K) :
    (es.foldl (fun m e => upsert m (key e) (f · e)) m).lookup k =
      (es.filter fun e => key e = k).foldl (fun v e => some (f v e)) (m.lookup k) := by
  induction es generalizing m with
  | nil => rfl
  | cons e es ih =>
    rw [List.foldl_cons, ih, upsert, lookup_put, List.filter_cons]
    by_cases hk : key e = k
    · simp [hk]
    · have hne : ¬ k = key e := fun h => hk h.symm
      simp [hk, hne]

theorem foldl_put_eq (entries m : List (K × V)) (h : (entries.map Prod.fst).Nodup) :
    entries.foldl put m = m.filter (fun x => x.1 ∉ entries.map Prod.fst) ++ entries := by
  induction entries generalizing m with
  | nil => simp
  | cons e entries ih =>
    rw [List.map_cons, List.nodup_cons] at h
    have hkept : [e].filter (fun x => x.1 ∉ entries.map Prod.fst) = [e] :=
      List.filter_eq_self.mpr fun x hx => decide_eq_true (List.mem_singleton.mp hx ▸ h.1)
    rw [List.foldl_cons, ih _ h.2, put, List.filter_append, hkept, List.filter_filter,
      List.append_assoc, List.singleton_append]
    congr 1
    refine List.filter_congr fun x _ => ?_
    rw [List.map_cons]
    by_cases hx : x.1 = e.1 <;> simp [hx]

theorem mem_foldl_put {entries m : List (K × V)} (h : (entries.map Prod.fst).Nodup) {x : K × V} :
    x ∈ entries.foldl put m ↔ x ∈ entries ∨ (x ∈ m ∧ x.1 ∉ entries.map Prod.fst) := by
  induction entries generalizing m with
  | nil => simp
  | cons e entries ih =>
    rw [List.map_cons, List.nodup_cons] at h
    rw [List.foldl_cons, ih h.2, mem_put, List.map_cons, List.mem_cons, List.mem_cons, not_or]
    constructor
    · rintro (hx | ⟨rfl | ⟨hx, hne⟩, hnot⟩)
      · exact Or.inl (Or.inr hx)
      · exact Or.inl (Or.inl rfl)
      · exact Or.inr ⟨hx, hne, hnot⟩
    · rintro ((rfl | hx) | ⟨hx, hne, hnot⟩)
      · exact Or.inr ⟨Or.inl rfl, h.1⟩
      · exact Or.inl hx
      · exact Or.inr ⟨Or.inr ⟨hx, hne⟩, hnot⟩

lemma lookup_foldl_put [BEq K] [LawfulBEq K] {entries : List (K × V)}
    (h : (entries.map Prod.fst).Nodup) (m : List (K × V)) (k : K) :
    (entries.foldl put m).lookup k = (entries.lookup k).or (m.lookup k) := by
  induction entries generalizing m with
  | nil => rfl
  | cons e entries ih =>
    obtain ⟨key, v⟩ := e
    obtain ⟨hkey, hrest⟩ := List.nodup_cons.mp h
    rw [List.foldl_cons, ih hrest, lookup_put, List.lookup_cons]
    by_cases hk : k = key
    · have hnone : entries.lookup k = none := by
        refine List.lookup_eq_none_iff.mpr fun x hx => bne_iff_ne.mpr ?_
        rintro rfl
        exact hkey (List.mem_map.mpr ⟨x, hx, hk⟩)
      simp [hk, hk ▸ hnone]
    · have hne : (k == key) = false := beq_false_of_ne hk
      simp [hk, hne]

lemma mem_of_mem_foldl_put {entries m : List (K × V)} {x : K × V} (h : x ∈ entries.foldl put m) :
    x ∈ m ∨ x ∈ entries := by
  induction entries generalizing m with
  | nil => exact Or.inl h
  | cons e entries ih =>
    rcases ih h with hput | hrest
    · rcases mem_put.mp hput with rfl | ⟨hx, -⟩
      · exact Or.inr List.mem_cons_self
      · exact Or.inl hx
    · exact Or.inr (List.mem_cons_of_mem e hrest)

lemma key_mem_foldl_put {entries m : List (K × V)} {k : K}
    (h : k ∈ m.map Prod.fst ∨ k ∈ entries.map Prod.fst) :
    k ∈ (entries.foldl put m).map Prod.fst := by
  induction entries generalizing m with
  | nil => simpa using h
  | cons e entries ih =>
    refine ih ?_
    rw [List.map_cons, List.mem_cons] at h
    by_cases hk : k = e.1
    · exact Or.inl (List.mem_map.mpr ⟨e, mem_put.mpr (Or.inl rfl), hk.symm⟩)
    · rcases h with hm | hhead | hrest
      · obtain ⟨x, hx, rfl⟩ := List.mem_map.mp hm
        exact Or.inl (List.mem_map.mpr ⟨x, mem_put.mpr (Or.inr ⟨hx, hk⟩), rfl⟩)
      · exact absurd hhead hk
      · exact Or.inr hrest

lemma mem_of_mem_lastWins {entries : List (K × V)} {x : K × V} (h : x ∈ lastWins entries) :
    x ∈ entries := by
  simpa using mem_of_mem_foldl_put h

lemma foldl_put_nodup {entries m : List (K × V)} (h : (m.map Prod.fst).Nodup) :
    ((entries.foldl put m).map Prod.fst).Nodup := by
  induction entries generalizing m with
  | nil => exact h
  | cons e entries ih => exact ih (put_nodup h)

end Put

section Order
variable [LinearOrder K]

def inKeyOrder (m : List (K × V)) : List (K × V) := m.insertionSort fun a b => a.1 ≤ b.1

@[simp] lemma mem_inKeyOrder {m : List (K × V)} {x : K × V} : x ∈ inKeyOrder m ↔ x ∈ m :=
  List.mem_insertionSort _

lemma inKeyOrder_perm (m : List (K × V)) : (inKeyOrder m).Perm m := List.perm_insertionSort _ m

lemma inKeyOrder_sorted {m : List (K × V)} (h : (m.map Prod.fst).Nodup) :
    (inKeyOrder m).Pairwise fun a b => a.1 < b.1 := by
  have hle : (inKeyOrder m).Pairwise fun a b => a.1 ≤ b.1 := by
    have : Std.Total fun a b : K × V => a.1 ≤ b.1 := ⟨fun a b => le_total a.1 b.1⟩
    have : IsTrans (K × V) fun a b => a.1 ≤ b.1 := ⟨fun a b c hab hbc => le_trans hab hbc⟩
    exact List.pairwise_insertionSort _ m
  have hne : (inKeyOrder m).Pairwise fun a b => a.1 ≠ b.1 :=
    List.pairwise_map.mp (((inKeyOrder_perm m).map Prod.fst).nodup_iff.mpr h)
  exact (hle.and hne).imp fun hab => lt_of_le_of_ne hab.1 hab.2

lemma map_inKeyOrder {W : Type*} {f : K × V → K × W} (hf : ∀ x, (f x).1 = x.1) (m : List (K × V)) :
    (inKeyOrder m).map f = inKeyOrder (m.map f) :=
  List.map_insertionSort _ _ f m fun a _ b _ => by rw [hf, hf]

theorem inKeyOrder_eq {m l : List (K × V)} (h : (m.map Prod.fst).Nodup)
    (hl : l.Pairwise fun a b => a.1 < b.1) (hmem : ∀ x, x ∈ m ↔ x ∈ l) : inKeyOrder m = l := by
  have : Std.Irrefl fun a b : K × V => a.1 < b.1 := ⟨fun a => lt_irrefl a.1⟩
  exact (inKeyOrder_sorted h).eq_of_mem_iff hl (by simpa using hmem)

end Order

end KeyedList

/-! Maps that list their entries by when a key first came: an entry under a known key is merged into
its place. -/
namespace PlacedMap

variable {K V : Type*} [DecidableEq K] (merge : V → V → V)

/-- Set an entry: what stands under its key is merged with it, in its place. -/
def set (m : List (K × V)) (e : K × V) : List (K × V) :=
  if e.1 ∈ m.map Prod.fst then m.map fun x => if x.1 = e.1 then (x.1, merge x.2 e.2) else x
  else m ++ [e]

def combine : Option V → Option V → Option V
  | some v, some w => some (merge v w)
  | v, w => v.or w

variable {merge} {m entries : List (K × V)} {e : K × V}

lemma keys_set (m : List (K × V)) (e : K × V) : (set merge m e).map Prod.fst =
    if e.1 ∈ m.map Prod.fst then m.map Prod.fst else m.map Prod.fst ++ [e.1] := by
  rw [set]
  split
  · rw [List.map_map]
    refine List.map_congr_left fun x _ => ?_
    rw [Function.comp_apply]
    split <;> rfl
  · rw [List.map_append]
    rfl

lemma lookup_map_same [BEq K] [LawfulBEq K] {f : K × V → K × V} (hf : ∀ x, (f x).1 = x.1)
    (m : List (K × V)) (k : K) :
    (m.map f).lookup k = (m.lookup k).map fun v => (f (k, v)).2 := by
  induction m with
  | nil => rfl
  | cons x m ih =>
    obtain ⟨key, v⟩ := x
    have hfst := hf (key, v)
    rw [List.map_cons, ← Prod.mk.eta (p := f (key, v)), hfst, List.lookup_cons, List.lookup_cons]
    by_cases hk : k = key
    · simp [hk]
    · have hne : (k == key) = false := beq_false_of_ne hk
      rw [hne, ih]

lemma lookup_isSome_iff [BEq K] [LawfulBEq K] {k : K} :
    (m.lookup k).isSome ↔ k ∈ m.map Prod.fst := by
  induction m with
  | nil => simp
  | cons x m ih =>
    obtain ⟨key, v⟩ := x
    rw [List.lookup_cons, List.map_cons, List.mem_cons]
    by_cases hk : k = key
    · simp [hk]
    · have hne : (k == key) = false := beq_false_of_ne hk
      rw [hne, ih]
      simp [hk]

lemma lookup_set [BEq K] [LawfulBEq K] (m : List (K × V)) (e : K × V) (k : K) :
    (set merge m e).lookup k =
      if k = e.1 then combine merge (m.lookup k) (some e.2) else m.lookup k := by
  obtain ⟨key, w⟩ := e
  rw [set]
  split
  · next hmem =>
    rw [lookup_map_same (fun x => by split <;> rfl)]
    by_cases hk : k = key
    · obtain ⟨v, hv⟩ := Option.isSome_iff_exists.mp (lookup_isSome_iff.mpr hmem)
      simp [hk, hv, combine]
    · simp [hk]
  · next hnew =>
    rw [List.lookup_append]
    by_cases hk : k = key
    · have hnone : m.lookup key = none :=
        Option.not_isSome_iff_eq_none.mp (lookup_isSome_iff.not.mpr hnew)
      simp [hk, hnone, combine]
    · have hne : (k == key) = false := beq_false_of_ne hk
      simp [hk, List.lookup_cons, hne]

theorem keys_foldl_set (h : (entries.map Prod.fst).Nodup) (m : List (K × V)) :
    (entries.foldl (set merge) m).map Prod.fst =
      m.map Prod.fst ++ (entries.map Prod.fst).filter fun k => k ∉ m.map Prod.fst := by
  induction entries generalizing m with
  | nil => simp
  | cons e entries ih =>
    obtain ⟨he, hentries⟩ := List.nodup_cons.mp h
    rw [List.foldl_cons, ih hentries, keys_set, List.map_cons]
    by_cases hmem : e.1 ∈ m.map Prod.fst
    · rw [if_pos hmem, List.filter_cons_of_neg (by simpa using hmem)]
    · rw [if_neg hmem, List.filter_cons_of_pos (by simpa using hmem), List.append_assoc,
        List.singleton_append]
      congr 2
      refine List.filter_congr fun k hk => ?_
      have hne : k ≠ e.1 := fun heq => he (heq ▸ hk)
      simp [hne]

theorem lookup_foldl_set [BEq K] [LawfulBEq K] (h : (entries.map Prod.fst).Nodup)
    (m : List (K × V)) (k : K) :
    (entries.foldl (set merge) m).lookup k = combine merge (m.lookup k) (entries.lookup k) := by
  induction entries generalizing m with
  | nil => cases hm : m.lookup k <;> simp [combine, hm]
  | cons e entries ih =>
    obtain ⟨key, w⟩ := e
    obtain ⟨he, hentries⟩ := List.nodup_cons.mp h
    rw [List.foldl_cons, ih hentries, lookup_set, List.lookup_cons]
    by_cases hk : k = key
    · have hnone : entries.lookup k = none :=
        Option.not_isSome_iff_eq_none.mp (lookup_isSome_iff.not.mpr (hk ▸ he))
      rw [hnone]
      cases hm : m.lookup k <;> simp [hk, combine]
    · have hne : (k == key) = false := beq_false_of_ne hk
      simp [hk, hne]

end PlacedMap
