import ChatStasher.Backfill.Ledger
import Mathlib.Data.List.Perm.Basic

/-! What the debt operations and a save do to a ledger that tracks its store. -/
namespace ChatStasher

def BackfillState.held (state : BackfillState) : List Ident := state.pending ++ state.archived

section Operations
variable {state : BackfillState}

/-- A debt set in memory has each id once, pending or archived. -/
structure BackfillState.Sound (state : BackfillState) : Prop where
  pending : state.pending.Nodup
  archived : state.archived.Nodup
  apart : ∀ id ∈ state.pending, id ∉ state.archived

lemma enqueueDebt_spec {acc : BackfillState × List Ident} (h : acc.1.Sound) (id : Ident) :
    (enqueueDebt acc id).1.Sound ∧ (enqueueDebt acc id).1.archived = acc.1.archived := by
  unfold enqueueDebt
  split
  next => exact ⟨h, rfl⟩
  next hnew =>
    rw [not_or, not_or] at hnew
    refine ⟨⟨?_, h.archived, fun x hx => ?_⟩, rfl⟩
    · refine List.nodup_append.mpr ⟨h.pending, List.nodup_singleton _, fun x hx y hy heq => ?_⟩
      obtain rfl := List.mem_singleton.mp hy
      exact hnew.2.2 (heq ▸ hx)
    · rcases List.mem_append.mp hx with hx | hx
      · exact h.apart x hx
      · exact List.mem_singleton.mp hx ▸ hnew.2.1

lemma enqueueDebts_spec (h : state.Sound) (ids : List Ident) :
    (enqueueDebts state ids).1.Sound ∧ (enqueueDebts state ids).1.archived = state.archived := by
  suffices hall : ∀ acc : BackfillState × List Ident, acc.1.Sound →
      (ids.foldl enqueueDebt acc).1.Sound ∧
        (ids.foldl enqueueDebt acc).1.archived = acc.1.archived from hall (state, []) h
  induction ids with
  | nil => exact fun acc hsound => ⟨hsound, rfl⟩
  | cons id ids ih =>
    intro acc hsound
    obtain ⟨hnext, harchived⟩ := enqueueDebt_spec hsound id
    exact harchived ▸ ih _ hnext

lemma settleDebt_spec (h : state.Sound) (id : Ident) :
    (settleDebt state id).Sound ∧ state.archived <+: (settleDebt state id).archived := by
  unfold settleDebt
  split
  next hmem =>
    exact ⟨⟨h.pending.erase id, h.archived, fun x hx => h.apart x (List.mem_of_mem_erase hx)⟩,
      List.prefix_refl _⟩
  next hnew =>
    refine ⟨⟨h.pending.erase id, ?_, fun x hx hin => ?_⟩, List.prefix_append _ _⟩
    · refine List.nodup_append.mpr ⟨h.archived, List.nodup_singleton _, fun x hx y hy heq => ?_⟩
      obtain rfl := List.mem_singleton.mp hy
      exact hnew (heq ▸ hx)
    · rcases List.mem_append.mp hin with hin | hin
      · exact h.apart x (List.mem_of_mem_erase hx) hin
      · obtain rfl := List.mem_singleton.mp hin
        exact h.pending.not_mem_erase hx

lemma dropDebt_spec (h : state.Sound) (id : Ident) :
    (dropDebt state id).Sound ∧ (dropDebt state id).archived = state.archived :=
  ⟨⟨h.pending.erase id, h.archived, fun x hx => h.apart x (List.mem_of_mem_erase hx)⟩, rfl⟩

lemma held_enqueueDebts (state : BackfillState) (ids : List Ident) {id : Ident} :
    id ∈ (enqueueDebts state ids).1.held ↔ id ∈ state.held ∨ id ∈ ids.filter fun id => id ≠ [] := by
  suffices hall : ∀ acc : BackfillState × List Ident, id ∈ (ids.foldl enqueueDebt acc).1.held ↔
      id ∈ acc.1.held ∨ id ∈ ids.filter fun id => id ≠ [] from hall (state, [])
  induction ids with
  | nil => simp
  | cons x ids ih =>
    intro acc
    rw [List.foldl_cons, ih, List.filter_cons]
    unfold enqueueDebt BackfillState.held
    by_cases hx : x = []
    · simp [hx]
    · by_cases hknown : x ∈ acc.1.archived ∨ x ∈ acc.1.pending
      · simp only [hx, hknown, false_or, if_true, List.mem_append, decide_not, decide_false,
          Bool.not_false, List.mem_cons]
        constructor
        · tauto
        · rintro ((h | h) | rfl | h) <;> tauto
      · simp only [hx, hknown, false_or, if_false, List.mem_append, decide_not, decide_false,
          Bool.not_false, if_true, List.mem_cons]
        tauto

lemma held_settleDebt {state : BackfillState} {id id' : Ident} (h : id ∈ state.held) :
    id ∈ (settleDebt state id').held := by
  have herase : id ∈ state.pending → id ≠ id' → id ∈ state.pending.erase id' :=
    fun hin hne => (List.mem_erase_of_ne hne).mpr hin
  by_cases hid : id = id'
  · subst hid
    unfold settleDebt BackfillState.held
    split <;> simp [*]
  · unfold settleDebt BackfillState.held
    rcases List.mem_append.mp h with h | h
    · exact List.mem_append_left _ (herase h hid)
    · split <;> simp [h]

lemma held_dropDebt {state : BackfillState} {id id' : Ident} (h : id ∈ state.held) :
    id ∈ (dropDebt state id').held ∨ id = id' ∧ id' ∈ state.pending := by
  rcases List.mem_append.mp h with h | h
  · by_cases hid : id = id'
    · exact Or.inr ⟨hid, hid ▸ h⟩
    · exact Or.inl (List.mem_append_left _ ((List.mem_erase_of_ne hid).mpr h))
  · exact Or.inl (List.mem_append_right _ h)

end Operations

/-- The baseline of an open ledger is what its store holds, and archived debts only grow. -/
structure Tracks (rows : DebtRows) (ledger : Ledger) (state : BackfillState) : Prop where
  pending : ledger.pending = idsIn .pending rows
  archived : ledger.archived = idsIn .archived rows
  nextSeq : ∀ r ∈ rows, r.2.seq < ledger.nextSeq
  sound : state.Sound
  kept : ledger.archived <+: state.archived

/-- Records under different ids, in the order of their numbers. -/
structure RowsOrdered (rows : DebtRows) : Prop where
  sorted : rows.Pairwise fun a b => a.2.seq < b.2.seq
  keys : (rows.map Prod.fst).Nodup

def savedRows (rows : DebtRows) (ledger : Ledger) (state : BackfillState) : DebtRows :=
  let diff := ledger.diffAgainst state
  if diff.isEmpty then rows else applyDebtDiff rows diff ledger.nextSeq

section Save
variable {rows : DebtRows} {ledger : Ledger} {state : BackfillState}

lemma RowsOrdered.idsIn_nodup (h : RowsOrdered rows) (st : DebtState) : (idsIn st rows).Nodup :=
  h.keys.sublist (List.filter_sublist.map _)

lemma RowsOrdered.apart (h : RowsOrdered rows) {id : Ident} (hp : id ∈ idsIn .pending rows) :
    id ∉ idsIn .archived rows := by
  intro ha
  obtain ⟨seq, hrow⟩ := mem_idsIn.mp hp
  obtain ⟨seq', hrow'⟩ := mem_idsIn.mp ha
  have heq := List.inj_on_of_nodup_map h.keys hrow hrow' rfl
  cases heq

lemma mem_keys {id : Ident} (h : id ∈ rows.map Prod.fst) :
    id ∈ idsIn .pending rows ∨ id ∈ idsIn .archived rows := by
  obtain ⟨⟨id', ⟨st, seq⟩⟩, hmem, rfl⟩ := List.mem_map.mp h
  cases st
  · exact Or.inl (mem_idsIn.mpr ⟨seq, hmem⟩)
  · exact Or.inr (mem_idsIn.mpr ⟨seq, hmem⟩)

theorem savedRows_eq (h : Tracks rows ledger state) :
    let diff := ledger.diffAgainst state
    savedRows rows ledger state =
      rows.filter (fun r => r.1 ∉ diff.drop ∧ r.1 ∉ diff.settle) ++
        numbered .pending ledger.nextSeq diff.enqueue ++
        numbered .archived (ledger.nextSeq + diff.enqueue.length) diff.settle := by
  intro diff
  have hnew : ∀ id ∈ diff.enqueue, id ∉ rows.map Prod.fst := by
    intro id hid hkey
    obtain ⟨hpending, hfresh⟩ := List.mem_filter.mp hid
    rcases mem_keys hkey with hp | ha
    · exact of_decide_eq_true hfresh (h.pending ▸ hp)
    · exact h.sound.apart id hpending (h.kept.subset (h.archived ▸ ha))
  have hdrop : ∀ id ∈ diff.enqueue, id ∉ diff.drop := by
    intro id hid hmem
    exact (of_decide_eq_true (List.mem_filter.mp hmem).2).1 (List.mem_filter.mp hid).1
  have hsettle : ∀ id ∈ diff.enqueue, id ∉ diff.settle := by
    intro id hid hmem
    exact h.sound.apart id (List.mem_filter.mp hid).1 (List.mem_filter.mp hmem).1
  by_cases hempty : diff.isEmpty
  · obtain ⟨⟨he, hs⟩, hd⟩ : (diff.enqueue = [] ∧ diff.settle = []) ∧ diff.drop = [] := by
      simpa [DebtDiff.isEmpty] using hempty
    rw [savedRows, if_pos hempty]
    simp [he, hs, hd, numbered]
  · rw [savedRows, if_neg hempty]
    exact applyDebtDiff_eq (h.sound.pending.filter _) (h.sound.archived.filter _) hnew hdrop hsettle

lemma Tracks.stays (h : Tracks rows ledger state) (hrows : RowsOrdered rows) {id : Ident}
    (hid : id ∈ ledger.pending) : id ∉ (ledger.diffAgainst state).drop ∧
      id ∉ (ledger.diffAgainst state).settle ↔ id ∈ state.pending := by
  have hfresh : id ∉ ledger.archived := by
    rw [h.archived]
    exact hrows.apart (h.pending ▸ hid)
  simp only [Ledger.diffAgainst, List.mem_filter, decide_eq_true_eq, hid, hfresh, true_and, not_and,
    not_not, not_false_eq_true, and_true]
  exact ⟨fun ⟨hkept, hopen⟩ => by_contra fun hgone => hopen (hkept hgone),
    fun hin => ⟨fun hout => absurd hin hout, h.sound.apart id hin⟩⟩

lemma Tracks.archived_append (h : Tracks rows ledger state) :
    ledger.archived ++ (ledger.diffAgainst state).settle = state.archived := by
  obtain ⟨settled, hsettled⟩ := h.kept
  have hnodup := h.sound.archived
  rw [← hsettled, List.nodup_append] at hnodup
  have hnone : ledger.archived.filter (fun id => id ∉ ledger.archived) = [] :=
    List.filter_eq_nil_iff.mpr fun id hid => by simp [hid]
  have hall : settled.filter (fun id => id ∉ ledger.archived) = settled :=
    List.filter_eq_self.mpr fun id hid => decide_eq_true fun hin => hnodup.2.2 id hin id hid rfl
  simp only [Ledger.diffAgainst]
  rw [← hsettled, List.filter_append, hnone, hall, List.nil_append]

lemma savedRows_pending (hrows : RowsOrdered rows) (h : Tracks rows ledger state) :
    idsIn .pending (savedRows rows ledger state) =
      (idsIn .pending rows).filter (fun id => id ∈ state.pending) ++
        state.pending.filter fun id => id ∉ idsIn .pending rows := by
  have hdiff := savedRows_eq h
  rw [hdiff, idsIn_append, idsIn_append, idsIn_numbered, idsIn_numbered_of_ne (by decide),
    List.append_nil]
  congr 1
  · rw [idsIn_filter _ _ fun id => id ∉ (ledger.diffAgainst state).drop ∧
      id ∉ (ledger.diffAgainst state).settle]
    refine List.filter_congr fun id hid => ?_
    rw [decide_eq_decide]
    exact h.stays hrows (h.pending ▸ hid)
  · rw [← h.pending]
    rfl

lemma filter_mem_append_perm {l l' : List Ident} (h : l.Nodup) (h' : l'.Nodup) :
    (l.filter (fun id => id ∈ l') ++ l'.filter fun id => id ∉ l).Perm l' := by
  have hapart : (l.filter fun id => id ∈ l').Disjoint (l'.filter fun id => id ∉ l) :=
    fun id hin hout => of_decide_eq_true (List.mem_filter.mp hout).2 (List.mem_filter.mp hin).1
  have hnodup := List.Nodup.append (h.filter fun id => id ∈ l') (h'.filter fun id => id ∉ l) hapart
  refine (List.perm_ext_iff_of_nodup hnodup h').mpr fun id => ?_
  simp only [List.mem_append, List.mem_filter, decide_eq_true_eq]
  tauto

lemma savedRows_archived (hrows : RowsOrdered rows) (h : Tracks rows ledger state) :
    idsIn .archived (savedRows rows ledger state) = state.archived := by
  have hkept : ledger.archived.filter (fun id => id ∉ (ledger.diffAgainst state).drop ∧
      id ∉ (ledger.diffAgainst state).settle) = ledger.archived := by
    refine List.filter_eq_self.mpr fun id hid => decide_eq_true ⟨fun hdrop => ?_, fun hsettle => ?_⟩
    · have hpending : id ∈ idsIn .pending rows := h.pending ▸ (List.mem_filter.mp hdrop).1
      exact hrows.apart hpending (h.archived ▸ hid)
    · exact of_decide_eq_true (List.mem_filter.mp hsettle).2 hid
  rw [savedRows_eq h, idsIn_append, idsIn_append, idsIn_numbered, idsIn_numbered_of_ne (by decide),
    List.append_nil, idsIn_filter _ _ fun id => id ∉ (ledger.diffAgainst state).drop ∧
      id ∉ (ledger.diffAgainst state).settle, ← h.archived, hkept]
  exact h.archived_append

lemma savedRows_ordered (hrows : RowsOrdered rows) (h : Tracks rows ledger state) :
    RowsOrdered (savedRows rows ledger state) ∧
      ∀ r ∈ savedRows rows ledger state, r.2.seq < ledger.nextSeq +
        (ledger.diffAgainst state).enqueue.length + (ledger.diffAgainst state).settle.length := by
  have hold : ∀ r ∈ rows.filter (fun r => r.1 ∉ (ledger.diffAgainst state).drop ∧
      r.1 ∉ (ledger.diffAgainst state).settle), r ∈ rows ∧ r.2.seq < ledger.nextSeq :=
    fun r hr => ⟨(List.mem_filter.mp hr).1, h.nextSeq r (List.mem_filter.mp hr).1⟩
  refine ⟨⟨?_, ?_⟩, fun r hr => ?_⟩
  · rw [savedRows_eq h, List.pairwise_append, List.pairwise_append]
    refine ⟨⟨hrows.sorted.filter _, numbered_sorted _ _ _, fun a ha b hb => ?_⟩,
      numbered_sorted _ _ _, fun a ha b hb => ?_⟩
    · exact (hold a ha).2.trans_le (mem_numbered hb).2.2.1
    · have hb := (mem_numbered hb).2.2.1
      rcases List.mem_append.mp ha with ha | ha
      · have := (hold a ha).2
        omega
      · have := (mem_numbered ha).2.2.2
        omega
  · rw [savedRows]
    split
    · exact hrows.keys
    · exact applyDebtDiff_nodup hrows.keys _ _
  · rw [savedRows_eq h] at hr
    rcases List.mem_append.mp hr with hr | hr
    · rcases List.mem_append.mp hr with hr | hr
      · have := (hold r hr).2
        omega
      · have := (mem_numbered hr).2.2.2
        omega
    · exact (mem_numbered hr).2.2.2

lemma foldl_setAdd {l ids : List Ident} (h : ids.Nodup) (hnew : ∀ id ∈ ids, id ∉ l) :
    ids.foldl setAdd l = l ++ ids := by
  induction ids generalizing l with
  | nil => simp
  | cons id ids ih =>
    obtain ⟨hid, h⟩ := List.nodup_cons.mp h
    have hfirst : setAdd l id = l ++ [id] := if_neg (hnew id List.mem_cons_self)
    rw [List.foldl_cons, hfirst, ih h, List.append_assoc, List.singleton_append]
    intro x hx hin
    rcases List.mem_append.mp hin with hin | hin
    · exact hnew x (List.mem_cons_of_mem _ hx) hin
    · exact hid (List.mem_singleton.mp hin ▸ hx)

def savedLedger (ledger : Ledger) (state : BackfillState) : Ledger :=
  let diff := ledger.diffAgainst state
  if diff.isEmpty then ledger else ledger.advance diff

lemma savedLedger_eq (ledger : Ledger) (state : BackfillState) :
    savedLedger ledger state = ledger.advance (ledger.diffAgainst state) := by
  rw [savedLedger]
  split
  next hempty =>
    obtain ⟨⟨he, hs⟩, hd⟩ : ((ledger.diffAgainst state).enqueue = [] ∧
        (ledger.diffAgainst state).settle = []) ∧ (ledger.diffAgainst state).drop = [] := by
      simpa [DebtDiff.isEmpty] using hempty
    simp [Ledger.advance, he, hs, hd]
  next => rfl

theorem savedLedger_tracks (hrows : RowsOrdered rows) (h : Tracks rows ledger state) :
    Tracks (savedRows rows ledger state) (savedLedger ledger state) state := by
  have henqueue : (ledger.diffAgainst state).enqueue.foldl setAdd ledger.pending =
      ledger.pending ++ (ledger.diffAgainst state).enqueue :=
    foldl_setAdd (h.sound.pending.filter _) fun id hid => of_decide_eq_true (List.mem_filter.mp hid).2
  have hsettle : (ledger.diffAgainst state).settle.foldl setAdd ledger.archived =
      ledger.archived ++ (ledger.diffAgainst state).settle :=
    foldl_setAdd (h.sound.archived.filter _)
      fun id hid => of_decide_eq_true (List.mem_filter.mp hid).2
  have harchived : (savedLedger ledger state).archived = state.archived := by
    rw [savedLedger_eq, Ledger.advance, hsettle, h.archived_append]
  refine ⟨?_, ?_, fun r hr => ?_, h.sound, ?_⟩
  · have hnew : (ledger.diffAgainst state).enqueue = state.pending.filter (· ∉ ledger.pending) := rfl
    rw [savedLedger_eq, Ledger.advance, henqueue, savedRows_pending hrows h, ← h.pending,
      List.filter_filter, List.filter_append, ← hnew]
    dsimp only
    congr 1
    · refine List.filter_congr fun id hid => ?_
      rw [Bool.eq_iff_iff, decide_eq_true_iff, ← h.stays hrows hid, Bool.and_eq_true,
        decide_eq_true_iff, decide_eq_true_iff]
    · refine List.filter_eq_self.mpr fun id hid => ?_
      have hpending : id ∈ state.pending := (List.mem_filter.mp hid).1
      have hsettled : id ∉ (ledger.diffAgainst state).settle := fun hin =>
        h.sound.apart id hpending (List.mem_filter.mp hin).1
      have hdropped : id ∉ (ledger.diffAgainst state).drop := fun hin =>
        (of_decide_eq_true (List.mem_filter.mp hin).2).1 hpending
      simp [hsettled, hdropped]
  · rw [harchived, savedRows_archived hrows h]
  · rw [savedLedger_eq]
    exact (savedRows_ordered hrows h).2 r hr
  · rw [harchived]

end Save

section Session
variable {rows : DebtRows} {ledger : Ledger} {state : BackfillState}

lemma Tracks.enqueueDebts (h : Tracks rows ledger state) (ids : List Ident) :
    Tracks rows ledger (enqueueDebts state ids).1 := by
  obtain ⟨hsound, harchived⟩ := enqueueDebts_spec h.sound ids
  exact { h with sound := hsound, kept := harchived ▸ h.kept }

lemma Tracks.settleDebt (h : Tracks rows ledger state) (id : Ident) :
    Tracks rows ledger (settleDebt state id) := by
  obtain ⟨hsound, harchived⟩ := settleDebt_spec h.sound id
  exact { h with sound := hsound, kept := h.kept.trans harchived }

lemma Tracks.dropDebt (h : Tracks rows ledger state) (id : Ident) :
    Tracks rows ledger (dropDebt state id) := by
  obtain ⟨hsound, harchived⟩ := dropDebt_spec h.sound id
  exact { h with sound := hsound, kept := harchived ▸ h.kept }

lemma tracks_of_readDebtSet (h : RowsOrdered rows) :
    Tracks rows (.ofSnapshot (readDebtSet rows))
      ⟨(readDebtSet rows).pending, (readDebtSet rows).archived⟩ := by
  rw [readDebtSet_sorted h.sorted]
  exact ⟨rfl, rfl, fun r hr => seq_lt_nextSeq hr,
    ⟨h.idsIn_nodup _, h.idsIn_nodup _, fun id hid => h.apart hid⟩, List.prefix_refl _⟩

lemma tracks_nil : Tracks [] ⟨[], [], 1⟩ ⟨[], []⟩ :=
  tracks_of_readDebtSet ⟨List.Pairwise.nil, List.nodup_nil⟩

lemma saveLedger_eq (storage : LedgerStorage) (fate : SaveFate) :
    saveLedger ⟨storage, some (ledger, state)⟩ fate = match fate with
      | .refused => ⟨storage, none⟩
      | .diesBetween => ⟨{ storage with rows := savedRows storage.rows ledger state }, none⟩
      | .completes =>
        ⟨{ storage with
            rows := savedRows storage.rows ledger state, header := some (headerOf state) },
          some (savedLedger ledger state, state)⟩ := by
  cases fate <;> rfl

end Session

end ChatStasher
