import ChatStasher.Backfill.ScopeMigration
import ChatStasher.Library.Sorting

/-! The rows that a move leaves under the new scope: whose they are, in which order they stand, and
that moving again leaves them as they are. -/
namespace ChatStasher.ScopeMigration
open DebtRecords

section Kept

/-- The row that an id keeps: that of the destination, unless only the source owes it. -/
def placedBy (source destination : Rows) (id : Ident) : Option DebtRecord :=
  match destination.lookup id, source.lookup id with
  | some there, some moved =>
    if there.state = .pending ∨ moved.state ≠ .pending then some there else some moved
  | there, moved => there.or moved

lemma keptRow_eq (prior row : DebtRecord) :
    keptRow prior row = if prior.state = .pending ∨ row.state ≠ .pending then prior else row := by
  unfold keptRow
  by_cases hprior : prior.state = .pending
  · simp [hprior]
  · by_cases hrow : row.state = .pending <;> simp [hprior, hrow]

lemma placedBy_eq (source destination : Rows) (id : Ident) : placedBy source destination id =
    PlacedMap.combine keptRow (destination.lookup id) (source.lookup id) := by
  unfold placedBy
  cases destination.lookup id with
  | none => rfl
  | some there =>
    cases source.lookup id with
    | none => rfl
    | some moved =>
      change (if there.state = .pending ∨ moved.state ≠ .pending then some there
        else some moved) = some (keptRow there moved)
      rw [keptRow_eq]
      exact (apply_ite some _ _ _).symm

variable {source destination : Rows} {id : Ident} {row : DebtRecord}

lemma nodup_inKeyOrder (h : (source.map Prod.fst).Nodup) :
    ((KeyedList.inKeyOrder source).map Prod.fst).Nodup :=
  ((KeyedList.inKeyOrder_perm source).map Prod.fst).nodup_iff.mpr h

lemma lookup_inKeyOrder (h : (source.map Prod.fst).Nodup) (id : Ident) :
    (KeyedList.inKeyOrder source).lookup id = source.lookup id := by
  ext row
  rw [KeyedList.lookup_eq_some_iff_mem (nodup_inKeyOrder h), KeyedList.lookup_eq_some_iff_mem h,
    KeyedList.mem_inKeyOrder]

variable (hsource : (source.map Prod.fst).Nodup) (hdestination : (destination.map Prod.fst).Nodup)

include hsource hdestination

lemma lookup_rowsById (id : Ident) :
    (rowsById source destination).lookup id = placedBy source destination id := by
  rw [rowsById, List.foldl_append, PlacedMap.lookup_foldl_set (nodup_inKeyOrder hsource),
    PlacedMap.lookup_foldl_set (nodup_inKeyOrder hdestination), lookup_inKeyOrder hsource,
    lookup_inKeyOrder hdestination, placedBy_eq, List.lookup_nil]
  cases destination.lookup id <;> rfl

lemma keys_rowsById : (rowsById source destination).map Prod.fst =
    (KeyedList.inKeyOrder destination).map Prod.fst ++
      ((KeyedList.inKeyOrder source).map Prod.fst).filter
        fun id => id ∉ (KeyedList.inKeyOrder destination).map Prod.fst := by
  have hfirst : ((KeyedList.inKeyOrder destination).foldl (PlacedMap.set keptRow) []).map Prod.fst =
      (KeyedList.inKeyOrder destination).map Prod.fst := by
    rw [PlacedMap.keys_foldl_set (nodup_inKeyOrder hdestination), List.map_nil, List.nil_append]
    exact List.filter_eq_self.mpr fun id _ => by simp
  rw [rowsById, List.foldl_append, PlacedMap.keys_foldl_set (nodup_inKeyOrder hsource), hfirst]
  exact congrArg _ (List.filter_congr fun id _ => decide_eq_decide.mpr Iff.rfl)

lemma nodup_rowsById : ((rowsById source destination).map Prod.fst).Nodup := by
  rw [keys_rowsById hsource hdestination]
  refine List.Nodup.append (nodup_inKeyOrder hdestination)
    ((nodup_inKeyOrder hsource).filter _) fun id hid hid' => ?_
  exact absurd hid (by simpa using (List.mem_filter.mp hid').2)

lemma mem_keys_rowsById : id ∈ (rowsById source destination).map Prod.fst ↔
    id ∈ source.map Prod.fst ∨ id ∈ destination.map Prod.fst := by
  rw [← PlacedMap.lookup_isSome_iff, ← PlacedMap.lookup_isSome_iff, ← PlacedMap.lookup_isSome_iff,
    lookup_rowsById hsource hdestination, placedBy_eq]
  cases destination.lookup id <;> cases source.lookup id <;> simp [PlacedMap.combine]

end Kept

section Numbers

variable {rows : Rows}

lemma getElem?_renumbered (rows : Rows) (i : ℕ) :
    (renumbered rows)[i]? = rows[i]?.map fun e => (e.1, { e.2 with seq := i + 1 }) := by
  rw [renumbered, List.getElem?_map, List.getElem?_zipIdx, Option.map_map]
  simp [Function.comp_def]

@[simp] lemma keys_renumbered (rows : Rows) :
    (renumbered rows).map Prod.fst = rows.map Prod.fst := by
  apply List.ext_getElem?
  intro i
  rw [List.getElem?_map, List.getElem?_map, getElem?_renumbered, Option.map_map]
  rfl

lemma renumbered_renumbered (rows : Rows) : renumbered (renumbered rows) = renumbered rows := by
  apply List.ext_getElem?
  intro i
  rw [getElem?_renumbered, getElem?_renumbered, Option.map_map]
  rfl

lemma mem_renumbered {id : Ident} {row : DebtRecord} (h : (id, row) ∈ renumbered rows) :
    ∃ kept, (id, kept) ∈ rows ∧ ∃ n, row = { kept with seq := n } := by
  obtain ⟨i, hi⟩ := List.mem_iff_getElem?.mp h
  rw [getElem?_renumbered] at hi
  obtain ⟨⟨id', kept⟩, hkept, heq⟩ := Option.map_eq_some_iff.mp hi
  obtain ⟨rfl, rfl⟩ := Prod.mk.inj heq
  exact ⟨kept, List.mem_iff_getElem?.mpr ⟨i, hkept⟩, i + 1, rfl⟩

lemma renumbered_pairwise (rows : Rows) :
    (renumbered rows).Pairwise fun a b => a.2.seq < b.2.seq := by
  rw [List.pairwise_iff_getElem]
  intro i j hi hj hij
  have hget : ∀ k (hk : k < (renumbered rows).length), (renumbered rows)[k].2.seq = k + 1 := by
    intro k hk
    have hsome := List.getElem?_eq_getElem hk
    rw [getElem?_renumbered] at hsome
    obtain ⟨e, -, he⟩ := Option.map_eq_some_iff.mp hsome
    rw [← he]
  rw [hget i hi, hget j hj]
  omega

end Numbers

section Merged

variable (locale : LocaleOrder) {source destination : Rows} {id : Ident} {row : DebtRecord}

instance : Std.Total (rekeyLe locale) where
  total a b := by
    rcases lt_trichotomy a.2.seq b.2.seq with hlt | heq | hgt
    · exact Or.inl (Or.inl hlt)
    · rcases (Bool.or_eq_true _ _).mp (locale.total a.1 b.1) with h | h
      · exact Or.inl (Or.inr ⟨heq, h⟩)
      · exact Or.inr (Or.inr ⟨heq.symm, h⟩)
    · exact Or.inr (Or.inl hgt)

instance : IsTrans (Ident × DebtRecord) (rekeyLe locale) where
  trans a b c hab hbc := by
    rcases hab with hab | ⟨hab, hab'⟩
    · rcases hbc with hbc | ⟨hbc, -⟩
      · exact Or.inl (hab.trans hbc)
      · exact Or.inl (hbc ▸ hab)
    · rcases hbc with hbc | ⟨hbc, hbc'⟩
      · exact Or.inl (hab ▸ hbc)
      · exact Or.inr ⟨hab.trans hbc, locale.trans _ _ _ hab' hbc'⟩

lemma mergedRows_pairwise (source destination : Rows) :
    (mergedRows locale source destination).Pairwise fun a b => a.2.seq < b.2.seq :=
  renumbered_pairwise _

variable (hsource : (source.map Prod.fst).Nodup) (hdestination : (destination.map Prod.fst).Nodup)

lemma keys_mergedRows_perm (source destination : Rows) :
    ((mergedRows locale source destination).map Prod.fst).Perm
    ((rowsById source destination).map Prod.fst) := by
  rw [mergedRows, keys_renumbered]
  exact (List.perm_insertionSort _ _).map Prod.fst

include hsource hdestination

lemma nodup_mergedRows : ((mergedRows locale source destination).map Prod.fst).Nodup :=
  (keys_mergedRows_perm locale source destination).nodup_iff.mpr
    (nodup_rowsById hsource hdestination)

lemma mem_keys_mergedRows : id ∈ (mergedRows locale source destination).map Prod.fst ↔
    id ∈ source.map Prod.fst ∨ id ∈ destination.map Prod.fst :=
  (keys_mergedRows_perm locale source destination).mem_iff.trans
    (mem_keys_rowsById hsource hdestination)

lemma placedBy_of_mem (h : (id, row) ∈ mergedRows locale source destination) :
    ∃ kept, placedBy source destination id = some kept ∧ ∃ n, row = { kept with seq := n } := by
  obtain ⟨kept, hmem, n, rfl⟩ := mem_renumbered h
  refine ⟨kept, ?_, n, rfl⟩
  rw [← lookup_rowsById hsource hdestination,
    KeyedList.lookup_eq_some_iff_mem (nodup_rowsById hsource hdestination)]
  exact (List.mem_insertionSort _).mp hmem

lemma mem_of_placedBy {kept : DebtRecord} (h : placedBy source destination id = some kept) :
    ∃ n, (id, { kept with seq := n }) ∈ mergedRows locale source destination := by
  have hmem : id ∈ (rowsById source destination).map Prod.fst := by
    rw [← PlacedMap.lookup_isSome_iff, lookup_rowsById hsource hdestination, h]
    rfl
  rw [← (keys_mergedRows_perm locale source destination).mem_iff] at hmem
  obtain ⟨⟨id', row⟩, hrow, rfl⟩ := List.mem_map.mp hmem
  obtain ⟨kept', hkept', n, rfl⟩ := placedBy_of_mem locale hsource hdestination hrow
  obtain rfl := Option.some.inj (h.symm.trans hkept')
  exact ⟨n, hrow⟩

omit hsource hdestination in
lemma rowsById_nil_perm (hrows : (destination.map Prod.fst).Nodup) :
    (rowsById [] destination).Perm destination := by
  have hnil : (([] : Rows).map Prod.fst).Nodup := List.nodup_nil
  refine (List.perm_ext_iff_of_nodup ((nodup_rowsById hnil hrows).of_map _)
    (hrows.of_map _)).mpr fun e => ?_
  rw [← KeyedList.lookup_eq_some_iff_mem (nodup_rowsById hnil hrows),
    ← KeyedList.lookup_eq_some_iff_mem hrows, lookup_rowsById hnil hrows, placedBy]
  cases destination.lookup e.1 <;> rfl

omit hsource hdestination in
theorem mergedRows_nil {rows : Rows} (hrows : ((renumbered rows).map Prod.fst).Nodup) :
    mergedRows locale [] (renumbered rows) = renumbered rows := by
  have hperm : ((rowsById [] (renumbered rows)).insertionSort (rekeyLe locale)).Perm
      (renumbered rows) :=
    (List.perm_insertionSort _ _).trans (rowsById_nil_perm hrows)
  have hdistinct : ((rowsById [] (renumbered rows)).insertionSort (rekeyLe locale)).Pairwise
      fun a b => a.2.seq ≠ b.2.seq := by
    have hnodup : ((renumbered rows).map fun e => e.2.seq).Nodup :=
      List.pairwise_map.mpr ((renumbered_pairwise rows).imp ne_of_lt)
    have hsame : (((rowsById [] (renumbered rows)).insertionSort (rekeyLe locale)).map
        fun e => e.2.seq).Nodup := (hperm.map _).nodup_iff.mpr hnodup
    exact List.pairwise_map.mp hsame
  have hsorted : ((rowsById [] (renumbered rows)).insertionSort (rekeyLe locale)).Pairwise
      fun a b => a.2.seq < b.2.seq := by
    refine (List.pairwise_insertionSort (rekeyLe locale) _).imp₂ (fun a b hle hne => ?_) hdistinct
    rcases hle with hlt | ⟨heq, -⟩
    · exact hlt
    · exact absurd heq hne
  have heq : (rowsById [] (renumbered rows)).insertionSort (rekeyLe locale) = renumbered rows :=
    List.Perm.eq_of_pairwise (fun a b _ _ hab hba => absurd hba (lt_asymm hab)) hsorted
      (renumbered_pairwise rows) hperm
  rw [mergedRows, heq, renumbered_renumbered]

end Merged

section Order

variable (locale : LocaleOrder) (source destination : Rows)

def number (id : Ident) : ℕ := ((placedBy source destination id).map DebtRecord.seq).getD 0

/-- What ties is left in this order: the ids of the destination first, each part by id. -/
def ReadBefore (p q : Ident) : Prop :=
  (p ∈ destination.map Prod.fst ∧ q ∉ destination.map Prod.fst) ∨
    ((p ∈ destination.map Prod.fst ↔ q ∈ destination.map Prod.fst) ∧ p < q)

/-- The order in which the ids stand after the move. -/
def SortsBefore (p q : Ident) : Prop :=
  number source destination p < number source destination q ∨
    number source destination p = number source destination q ∧ locale.le p q ∧
      (locale.le q p → ReadBefore destination p q)

variable {source destination} {p q : Ident}

lemma ReadBefore.asymm (h : ReadBefore destination p q) (h' : ReadBefore destination q p) :
    False := by
  rcases h with ⟨hp, hq⟩ | ⟨hsame, hlt⟩
  · rcases h' with ⟨hq', -⟩ | ⟨hsame, -⟩
    · exact hq hq'
    · exact hq (hsame.mpr hp)
  · rcases h' with ⟨hq, hp⟩ | ⟨-, hlt'⟩
    · exact hp (hsame.mpr hq)
    · exact lt_asymm hlt hlt'

variable {locale}

lemma SortsBefore.asymm (h : SortsBefore locale source destination p q)
    (h' : SortsBefore locale source destination q p) : False := by
  rcases h with hlt | ⟨heq, hle, htie⟩
  · rcases h' with hlt' | ⟨heq', -⟩
    · exact lt_asymm hlt hlt'
    · exact absurd heq' (ne_of_gt hlt)
  · rcases h' with hlt' | ⟨-, hle', htie'⟩
    · exact absurd heq (ne_of_gt hlt')
    · exact (htie hle').asymm (htie' hle)

variable (locale) (hsource : (source.map Prod.fst).Nodup)
  (hdestination : (destination.map Prod.fst).Nodup)

include hsource hdestination

lemma rowsById_pairwise : (rowsById source destination).Pairwise
    fun a b => ReadBefore destination a.1 b.1 := by
  have hin : ∀ id, id ∈ (KeyedList.inKeyOrder destination).map Prod.fst ↔
      id ∈ destination.map Prod.fst := fun id =>
    ((KeyedList.inKeyOrder_perm destination).map Prod.fst).mem_iff
  have hdst := List.pairwise_map.mpr (KeyedList.inKeyOrder_sorted hdestination)
  have hsrc := (List.pairwise_map.mpr (KeyedList.inKeyOrder_sorted hsource)).filter
    fun id => id ∉ (KeyedList.inKeyOrder destination).map Prod.fst
  have hnew : ∀ id ∈ ((KeyedList.inKeyOrder source).map Prod.fst).filter
      (fun id => id ∉ (KeyedList.inKeyOrder destination).map Prod.fst),
      id ∉ destination.map Prod.fst := fun id hid => by
    rw [← hin]
    simpa using (List.mem_filter.mp hid).2
  refine List.pairwise_map.mp ?_
  rw [keys_rowsById hsource hdestination]
  refine List.pairwise_append.mpr ⟨?_, ?_, ?_⟩
  · refine hdst.imp_of_mem fun {p q} hp hq hlt => Or.inr ⟨?_, hlt⟩
    exact iff_of_true ((hin p).mp hp) ((hin q).mp hq)
  · refine hsrc.imp_of_mem fun {p q} hp hq hlt => Or.inr ⟨?_, hlt⟩
    exact iff_of_false (hnew p hp) (hnew q hq)
  · exact fun p hp q hq => Or.inl ⟨(hin p).mp hp, hnew q hq⟩

theorem mergedRows_sorted : ((mergedRows locale source destination).map Prod.fst).Pairwise
    (SortsBefore locale source destination) := by
  rw [mergedRows, keys_renumbered]
  have hnumber : ∀ e ∈ (rowsById source destination).insertionSort (rekeyLe locale),
      number source destination e.1 = e.2.seq := by
    intro e he
    have hplaced : placedBy source destination e.1 = some e.2 := by
      rw [← lookup_rowsById hsource hdestination,
        KeyedList.lookup_eq_some_iff_mem (nodup_rowsById hsource hdestination)]
      exact (List.mem_insertionSort _).mp he
    rw [number, hplaced]
    rfl
  refine List.pairwise_map.mpr ((StableSort.insertionSort_stably
    (rowsById_pairwise hsource hdestination)).imp_of_mem fun {a b} ha hb h => ?_)
  rw [SortsBefore, hnumber a ha, hnumber b hb]
  rcases h with ⟨hlt | ⟨heq, hle⟩, htie⟩
  · exact Or.inl hlt
  · exact Or.inr ⟨heq, hle, fun hle' => htie (Or.inr ⟨heq.symm, hle'⟩)⟩

end Order

section Pending

variable (locale : LocaleOrder) {rows source destination : Rows} {id : Ident}

def pendingIds (rows : Rows) : List Ident := (readDebtSet (debtRows rows)).pending

lemma mem_debtRows {r : Ident × DebtRow} :
    r ∈ debtRows rows ↔ ∃ row, (r.1, row) ∈ rows ∧ r.2 = ⟨row.state, row.seq⟩ := by
  rw [debtRows, List.mem_map]
  constructor
  · rintro ⟨e, he, rfl⟩
    exact ⟨e.2, he, rfl⟩
  · rintro ⟨row, hrow, heq⟩
    exact ⟨_, hrow, Prod.ext rfl heq.symm⟩

lemma mem_pendingIds (h : (rows.map Prod.fst).Nodup) :
    id ∈ pendingIds rows ↔ ∃ row, rows.lookup id = some row ∧ row.state = .pending := by
  rw [pendingIds, readDebtSet, mem_idsIn]
  simp only [(orderedRows_perm _).mem_iff, mem_debtRows, DebtRow.mk.injEq,
    KeyedList.lookup_eq_some_iff_mem h]
  constructor
  · rintro ⟨seq, row, hrow, hstate, -⟩
    exact ⟨row, hrow, hstate.symm⟩
  · rintro ⟨row, hrow, hstate⟩
    exact ⟨row.seq, row, hrow, hstate.symm, rfl⟩

lemma nodup_pendingIds (h : (rows.map Prod.fst).Nodup) : (pendingIds rows).Nodup := by
  have hkeys : ((debtRows rows).map Prod.fst).Nodup := by
    rw [debtRows, List.map_map]
    exact h
  have hordered : ((orderedRows (debtRows rows)).map Prod.fst).Nodup :=
    ((orderedRows_perm _).map Prod.fst).nodup_iff.mpr hkeys
  exact hordered.sublist (List.filter_sublist.map _)

lemma pendingIds_sublist (h : rows.Pairwise fun a b => a.2.seq < b.2.seq) :
    (pendingIds rows).Sublist (rows.map Prod.fst) := by
  have hkeys : (debtRows rows).map Prod.fst = rows.map Prod.fst := by
    rw [debtRows, List.map_map]
    rfl
  have hsorted : (debtRows rows).Pairwise fun a b => a.2.seq < b.2.seq := List.pairwise_map.mpr h
  rw [pendingIds, readDebtSet_sorted hsorted, ← hkeys]
  exact List.filter_sublist.map _

variable (hsource : (source.map Prod.fst).Nodup) (hdestination : (destination.map Prod.fst).Nodup)

include hsource hdestination

lemma mem_pendingIds_mergedRows : id ∈ pendingIds (mergedRows locale source destination) ↔
    id ∈ pendingIds source ∨ id ∈ pendingIds destination := by
  rw [mem_pendingIds (nodup_mergedRows locale hsource hdestination), mem_pendingIds hsource,
    mem_pendingIds hdestination]
  have hkept : (∃ row, (mergedRows locale source destination).lookup id = some row ∧
      row.state = .pending) ↔
      ∃ kept, placedBy source destination id = some kept ∧ kept.state = .pending := by
    simp only [KeyedList.lookup_eq_some_iff_mem (nodup_mergedRows locale hsource hdestination)]
    constructor
    · rintro ⟨row, hrow, hstate⟩
      obtain ⟨kept, hkept, n, rfl⟩ := placedBy_of_mem locale hsource hdestination hrow
      exact ⟨kept, hkept, hstate⟩
    · rintro ⟨kept, hkept, hstate⟩
      obtain ⟨n, hrow⟩ := mem_of_placedBy locale hsource hdestination hkept
      exact ⟨_, hrow, hstate⟩
  rw [hkept, placedBy]
  cases destination.lookup id with
  | none => simp
  | some there =>
    cases source.lookup id with
    | none => simp
    | some moved =>
      by_cases hthere : there.state = .pending
      · simp [hthere]
      · by_cases hmoved : moved.state = .pending
        · simp [hthere, hmoved]
        · simp [hthere, hmoved]

theorem pendingIds_sublist_iff {rows : Rows} (hrows : (rows.map Prod.fst).Nodup)
    (hsub : pendingIds rows ⊆ pendingIds (mergedRows locale source destination)) :
    (pendingIds rows).Sublist (pendingIds (mergedRows locale source destination)) ↔
      (pendingIds rows).Pairwise (SortsBefore locale source destination) := by
  have hsorted : (pendingIds (mergedRows locale source destination)).Pairwise
      (SortsBefore locale source destination) :=
    (mergedRows_sorted locale hsource hdestination).sublist
      (pendingIds_sublist (mergedRows_pairwise locale source destination))
  have : Std.Antisymm (SortsBefore locale source destination) :=
    ⟨fun p q hpq hqp => (hpq.asymm hqp).elim⟩
  exact ⟨fun h => hsorted.sublist h, fun h => List.sublist_of_subperm_of_pairwise
    (List.subperm_of_subset (nodup_pendingIds hrows) hsub) h hsorted⟩

end Pending

end ChatStasher.ScopeMigration
