import ChatStasher.Collect.Facts
import ChatStasher.Library.KeyedList
import Mathlib.Data.Char
import Mathlib.Data.List.Lex
import Mathlib.Data.List.Pairwise

/-! The backfill's debt store: one record an id, with the order in which the debts were taken on. -/
namespace ChatStasher

inductive DebtState
  | pending
  | archived
  deriving DecidableEq

structure DebtRow where
  state : DebtState
  seq : ℕ
  deriving DecidableEq

abbrev DebtRows := List (Ident × DebtRow)

/-- The whole debt set of one platform and scope. -/
structure DebtSetSnapshot where
  pending : List Ident
  archived : List Ident
  nextSeq : ℕ
  deriving DecidableEq

def idsIn (state : DebtState) (rows : DebtRows) : List Ident :=
  (rows.filter fun r => r.2.state = state).map Prod.fst

def rowLe (a b : Ident × DebtRow) : Prop := a.2.seq < b.2.seq ∨ a.2.seq = b.2.seq ∧ a.1 ≤ b.1

instance rowLe.decidable : DecidableRel rowLe := fun _ _ => inferInstanceAs (Decidable (_ ∨ _))

def orderedRows (rows : DebtRows) : DebtRows := rows.insertionSort rowLe

def readDebtSet (rows : DebtRows) : DebtSetSnapshot :=
  let ordered := orderedRows rows
  { pending := idsIn .pending ordered
    archived := idsIn .archived ordered
    nextSeq := (ordered.map fun r => r.2.seq).foldr max 0 + 1 }

/-- What a save writes of the debt set. -/
structure DebtDiff where
  enqueue : List Ident
  settle : List Ident
  drop : List Ident
  deriving DecidableEq

def DebtDiff.isEmpty (diff : DebtDiff) : Bool :=
  diff.enqueue.isEmpty && diff.settle.isEmpty && diff.drop.isEmpty

def numbered (state : DebtState) (seq : ℕ) : List Ident → DebtRows
  | [] => []
  | id :: ids => (id, ⟨state, seq⟩) :: numbered state (seq + 1) ids

/-- The transaction of `applyDebtDiff`. What is enqueued as well as dropped is owed. -/
def applyDebtDiff (rows : DebtRows) (diff : DebtDiff) (nextSeq : ℕ) : DebtRows :=
  let deletes := diff.drop.filter fun id => id ∉ diff.enqueue
  let rows := (numbered .pending nextSeq diff.enqueue).foldl KeyedList.put rows
  let rows := rows.filter fun r => r.1 ∉ deletes
  (numbered .archived (nextSeq + diff.enqueue.length) diff.settle).foldl KeyedList.put rows

/-- The transaction of `replaceDebtSet`, written as a difference. -/
def replaceDebtSet (rows : DebtRows) (pending archived : List Ident) : DebtRows :=
  let records := numbered .pending 1 pending ++ numbered .archived (1 + pending.length) archived
  let wanted := KeyedList.lastWins records
  let writes := records.filter fun r => rows.lookup r.1 ≠ some r.2
  writes.foldl KeyedList.put (rows.filter fun r => wanted.lookup r.1 = some r.2)

section Numbered
variable (state : DebtState) (seq : ℕ) (ids : List Ident)

@[simp] lemma numbered_keys : (numbered state seq ids).map Prod.fst = ids := by
  induction ids generalizing seq with
  | nil => rfl
  | cons id ids ih => rw [numbered, List.map_cons, ih]

variable {state seq ids}

lemma mem_numbered {r : Ident × DebtRow} (h : r ∈ numbered state seq ids) :
    r.1 ∈ ids ∧ r.2.state = state ∧ seq ≤ r.2.seq ∧ r.2.seq < seq + ids.length := by
  induction ids generalizing seq with
  | nil => cases h
  | cons id ids ih =>
    rcases List.mem_cons.mp h with rfl | h
    · exact ⟨List.mem_cons_self, rfl, le_rfl, by simp⟩
    · obtain ⟨hid, hstate, hle, hlt⟩ := ih h
      refine ⟨List.mem_cons_of_mem _ hid, hstate, by omega, ?_⟩
      rw [List.length_cons]
      omega

lemma numbered_sorted (state : DebtState) (seq : ℕ) (ids : List Ident) :
    (numbered state seq ids).Pairwise fun a b => a.2.seq < b.2.seq := by
  induction ids generalizing seq with
  | nil => exact List.Pairwise.nil
  | cons id ids ih =>
    refine List.pairwise_cons.mpr ⟨fun r hr => ?_, ih (seq + 1)⟩
    exact (mem_numbered hr).2.2.1

@[simp] lemma idsIn_numbered (state : DebtState) (seq : ℕ) (ids : List Ident) :
    idsIn state (numbered state seq ids) = ids := by
  have hall : (numbered state seq ids).filter (fun r => r.2.state = state) =
      numbered state seq ids :=
    List.filter_eq_self.mpr fun r hr => decide_eq_true (mem_numbered hr).2.1
  rw [idsIn, hall, numbered_keys]

lemma idsIn_numbered_of_ne {state' : DebtState} (h : state ≠ state') (seq : ℕ) (ids : List Ident) :
    idsIn state' (numbered state seq ids) = [] := by
  have hnone : (numbered state seq ids).filter (fun r => r.2.state = state') = [] :=
    List.filter_eq_nil_iff.mpr fun r hr => by simp [(mem_numbered hr).2.1, h]
  rw [idsIn, hnone, List.map_nil]

end Numbered

section Sorted
variable {rows : DebtRows}

@[simp] lemma idsIn_append (state : DebtState) (rows rows' : DebtRows) :
    idsIn state (rows ++ rows') = idsIn state rows ++ idsIn state rows' := by
  rw [idsIn, List.filter_append, List.map_append]
  rfl

lemma mem_idsIn {state : DebtState} {id : Ident} :
    id ∈ idsIn state rows ↔ ∃ seq, (id, ⟨state, seq⟩) ∈ rows := by
  simp only [idsIn, List.mem_map, List.mem_filter, decide_eq_true_eq]
  constructor
  · rintro ⟨⟨id', state', seq⟩, ⟨hmem, rfl⟩, rfl⟩
    exact ⟨seq, hmem⟩
  · rintro ⟨seq, hmem⟩
    exact ⟨_, ⟨hmem, rfl⟩, rfl⟩

lemma idsIn_filter (state : DebtState) (rows : DebtRows) (p : Ident → Bool) :
    idsIn state (rows.filter fun r => p r.1) = (idsIn state rows).filter p := by
  simp only [idsIn, List.filter_map, List.filter_filter]
  congr 1
  exact List.filter_congr fun r _ => by simp [Bool.and_comm]

lemma readDebtSet_sorted (h : rows.Pairwise fun a b => a.2.seq < b.2.seq) :
    readDebtSet rows = ⟨idsIn .pending rows, idsIn .archived rows,
      (rows.map fun r => r.2.seq).foldr max 0 + 1⟩ := by
  have hsorted : orderedRows rows = rows := by
    exact List.Pairwise.insertionSort_eq (h.imp fun hlt => Or.inl hlt)
  rw [readDebtSet, hsorted]

lemma orderedRows_perm (rows : DebtRows) : (orderedRows rows).Perm rows :=
  List.perm_insertionSort _ rows

lemma orderedRows_eq {sorted : DebtRows} (hperm : rows.Perm sorted)
    (h : sorted.Pairwise fun a b => a.2.seq < b.2.seq) : orderedRows rows = sorted := by
  have : Std.Total rowLe := ⟨fun a b => by
    rcases lt_trichotomy a.2.seq b.2.seq with hlt | heq | hgt
    · exact Or.inl (Or.inl hlt)
    · exact (le_total a.1 b.1).imp (fun hle => Or.inr ⟨heq, hle⟩) fun hle => Or.inr ⟨heq.symm, hle⟩
    · exact Or.inr (Or.inl hgt)⟩
  have : IsTrans (Ident × DebtRow) rowLe := ⟨fun a b c hab hbc => by
    rcases hab with hab | ⟨hab, hle⟩ <;> rcases hbc with hbc | ⟨hbc, hle'⟩
    · exact Or.inl (hab.trans hbc)
    · exact Or.inl (hab.trans_eq hbc)
    · exact Or.inl (hab.trans_lt hbc)
    · exact Or.inr ⟨hab.trans hbc, hle.trans hle'⟩⟩
  have hsorted : (orderedRows rows).Pairwise rowLe := List.pairwise_insertionSort rowLe rows
  refine List.Perm.eq_of_pairwise (fun a b ha hb hab hba => ?_) hsorted
    (h.imp fun hlt => Or.inl hlt) ((orderedRows_perm rows).trans hperm)
  have hseq : a.2.seq = b.2.seq := by
    rcases hab with hab | ⟨hab, -⟩ <;> rcases hba with hba | ⟨hba, -⟩ <;> omega
  have ha' : a ∈ sorted := ((orderedRows_perm rows).trans hperm).mem_iff.mp ha
  have : Std.Symm fun a b : Ident × DebtRow => a.2.seq ≠ b.2.seq := ⟨fun _ _ hne => hne.symm⟩
  have hne : sorted.Pairwise fun a b => a.2.seq ≠ b.2.seq := h.imp fun hlt => hlt.ne
  exact by_contra fun hab => hne.forall ha' hb hab hseq

lemma seq_lt_nextSeq {r : Ident × DebtRow} (h : r ∈ rows) :
    r.2.seq < (rows.map fun r => r.2.seq).foldr max 0 + 1 := by
  induction rows with
  | nil => cases h
  | cons r' rows ih =>
    rw [List.map_cons, List.foldr_cons]
    rcases List.mem_cons.mp h with rfl | h
    · omega
    · have := ih h
      omega

end Sorted

lemma applyDebtDiff_perm {rows rows' : DebtRows} (h : rows.Perm rows') (diff : DebtDiff)
    (nextSeq : ℕ) : (applyDebtDiff rows diff nextSeq).Perm (applyDebtDiff rows' diff nextSeq) :=
  KeyedList.foldl_put_perm ((KeyedList.foldl_put_perm h _).filter _) _

lemma applyDebtDiff_nodup {rows : DebtRows} (h : (rows.map Prod.fst).Nodup) (diff : DebtDiff)
    (nextSeq : ℕ) : ((applyDebtDiff rows diff nextSeq).map Prod.fst).Nodup := by
  refine KeyedList.foldl_put_nodup (List.Nodup.sublist (List.filter_sublist.map _) ?_)
  exact KeyedList.foldl_put_nodup h

/-- The transaction removes the records of what is dropped or settled, and adds what is new at the
end. -/
theorem applyDebtDiff_eq {rows : DebtRows} {diff : DebtDiff} {nextSeq : ℕ}
    (henqueue : diff.enqueue.Nodup) (hsettle : diff.settle.Nodup)
    (hnew : ∀ id ∈ diff.enqueue, id ∉ rows.map Prod.fst)
    (hdrop : ∀ id ∈ diff.enqueue, id ∉ diff.drop) (hsettled : ∀ id ∈ diff.enqueue, id ∉ diff.settle) :
    applyDebtDiff rows diff nextSeq =
      rows.filter (fun r => r.1 ∉ diff.drop ∧ r.1 ∉ diff.settle) ++
        numbered .pending nextSeq diff.enqueue ++
        numbered .archived (nextSeq + diff.enqueue.length) diff.settle := by
  have hdeletes : diff.drop.filter (fun id => id ∉ diff.enqueue) = diff.drop :=
    List.filter_eq_self.mpr fun id hid => decide_eq_true fun hmem => hdrop id hmem hid
  have hfirst : (numbered .pending nextSeq diff.enqueue).foldl KeyedList.put rows =
      rows ++ numbered .pending nextSeq diff.enqueue := by
    rw [KeyedList.foldl_put_eq _ _ (by rwa [numbered_keys]), numbered_keys]
    congr 1
    refine List.filter_eq_self.mpr fun r hr => ?_
    simpa using fun hmem => hnew r.1 hmem (List.mem_map_of_mem hr)
  have hkept : ∀ r ∈ numbered .pending nextSeq diff.enqueue,
      r.1 ∉ diff.drop ∧ r.1 ∉ diff.settle :=
    fun r hr => ⟨hdrop r.1 (mem_numbered hr).1, hsettled r.1 (mem_numbered hr).1⟩
  rw [applyDebtDiff, hfirst, hdeletes, KeyedList.foldl_put_eq _ _ (by rwa [numbered_keys]),
    numbered_keys, List.filter_filter, List.filter_append]
  congr 2
  · exact List.filter_congr fun r _ => by simp [and_comm]
  · refine List.filter_eq_self.mpr fun r hr => ?_
    simpa using (hkept r hr).symm

def recordsFor (pending archived : List Ident) : DebtRows :=
  numbered .pending 1 pending ++ numbered .archived (1 + pending.length) archived

section Replace
variable {rows : DebtRows} {pending archived : List Ident}

lemma recordsFor_sorted (pending archived : List Ident) :
    (recordsFor pending archived).Pairwise fun a b => a.2.seq < b.2.seq := by
  refine List.pairwise_append.mpr ⟨numbered_sorted _ _ _, numbered_sorted _ _ _, fun a ha b hb => ?_⟩
  exact (mem_numbered ha).2.2.2.trans_le (mem_numbered hb).2.2.1

lemma recordsFor_keys (pending archived : List Ident) :
    (recordsFor pending archived).map Prod.fst = pending ++ archived := by
  rw [recordsFor, List.map_append, numbered_keys, numbered_keys]

theorem replaceDebtSet_perm (hrows : (rows.map Prod.fst).Nodup) (h : (pending ++ archived).Nodup) :
    (replaceDebtSet rows pending archived).Perm (recordsFor pending archived) := by
  have hkeys : ((recordsFor pending archived).map Prod.fst).Nodup := by rwa [recordsFor_keys]
  have hwanted : KeyedList.lastWins (recordsFor pending archived) = recordsFor pending archived := by
    rw [KeyedList.lastWins, KeyedList.foldl_put_eq _ _ hkeys]
    rfl
  have hmem : ∀ x, x ∈ replaceDebtSet rows pending archived ↔ x ∈ recordsFor pending archived := by
    intro x
    have hlookup : ∀ r : Ident × DebtRow,
        (recordsFor pending archived).lookup r.1 = some r.2 ↔ r ∈ recordsFor pending archived :=
      fun r => KeyedList.lookup_eq_some_iff_mem hkeys
    have hpresent : ∀ r : Ident × DebtRow, rows.lookup r.1 = some r.2 ↔ r ∈ rows :=
      fun r => KeyedList.lookup_eq_some_iff_mem hrows
    have hwrites : (((recordsFor pending archived).filter fun r =>
        rows.lookup r.1 ≠ some r.2).map Prod.fst).Nodup :=
      hkeys.sublist (List.filter_sublist.map _)
    change x ∈ ((recordsFor pending archived).filter fun r => rows.lookup r.1 ≠ some r.2).foldl
      KeyedList.put (rows.filter fun r =>
        (KeyedList.lastWins (recordsFor pending archived)).lookup r.1 = some r.2) ↔ _
    rw [hwanted, KeyedList.mem_foldl_put hwrites]
    simp only [List.mem_filter, hlookup, ne_eq, hpresent, decide_eq_true_eq, List.mem_map]
    constructor
    · rintro (⟨hx, -⟩ | ⟨⟨-, hx⟩, -⟩) <;> exact hx
    · intro hx
      by_cases hold : x ∈ rows
      · refine Or.inr ⟨⟨hold, hx⟩, ?_⟩
        rintro ⟨y, ⟨hy, hnew⟩, heq⟩
        exact hnew (List.inj_on_of_nodup_map hkeys hy hx heq ▸ hold)
      · exact Or.inl ⟨hx, hold⟩
  have hleft : ((replaceDebtSet rows pending archived).map Prod.fst).Nodup :=
    KeyedList.foldl_put_nodup (hrows.sublist (List.filter_sublist.map _))
  exact (List.perm_ext_iff_of_nodup hleft.of_map hkeys.of_map).mpr hmem

lemma readDebtSet_replaceDebtSet (hrows : (rows.map Prod.fst).Nodup)
    (h : (pending ++ archived).Nodup) :
    orderedRows (replaceDebtSet rows pending archived) = recordsFor pending archived ∧
      (readDebtSet (replaceDebtSet rows pending archived)).pending = pending ∧
      (readDebtSet (replaceDebtSet rows pending archived)).archived = archived := by
  have hordered := orderedRows_eq (replaceDebtSet_perm hrows h) (recordsFor_sorted pending archived)
  refine ⟨hordered, ?_, ?_⟩
  all_goals
    simp only [readDebtSet, hordered, recordsFor, idsIn_append, idsIn_numbered]
  · rw [idsIn_numbered_of_ne (by decide), List.append_nil]
  · rw [idsIn_numbered_of_ne (by decide), List.nil_append]

end Replace

end ChatStasher
