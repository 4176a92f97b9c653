import ChatStasher.Backfill.LedgerSpec
import ChatStasher.Library.StepRun
import Mathlib.Data.List.Dedup

/-! How a record of the old layout is carried into the debt store, however often that is cut. -/
namespace ChatStasher

section Compare
variable {pending archived : List Ident} {readBack : DebtSetSnapshot}

lemma findIdx?_zip_ne_eq_none {l l' : List Ident} (hlength : l.length = l'.length) :
    (l.zip l').findIdx? (fun p => p.1 ≠ p.2) = none ↔ l = l' := by
  rw [List.findIdx?_eq_none_iff]
  constructor
  · intro h
    refine List.ext_getElem hlength fun i hi hi' => ?_
    have hmem : (l[i], l'[i]) ∈ l.zip l' := by
      rw [← List.getElem_zip (h := by rw [List.length_zip]; omega)]
      exact List.getElem_mem _
    simpa using h _ hmem
  · rintro rfl p hp
    rw [List.zip_eq_zipWith, List.zipWith_self] at hp
    obtain ⟨x, -, rfl⟩ := List.mem_map.mp hp
    simp

theorem compareSets_eq_none_iff (h : readBack.archived.Nodup) :
    compareSets pending archived readBack = none ↔
      readBack.pending = pending ∧ readBack.archived.Perm archived := by
  by_cases hlength : pending.length = readBack.pending.length
  case neg =>
    refine iff_of_false ?_ fun ⟨heq, _⟩ => hlength (heq ▸ rfl)
    rw [compareSets, if_pos hlength]
    exact Option.some_ne_none _
  rw [compareSets, if_neg (not_not.mpr hlength)]
  have hfind := findIdx?_zip_ne_eq_none hlength
  cases hdiffers : (pending.zip readBack.pending).findIdx? fun p => p.1 ≠ p.2 with
  | some i =>
    refine iff_of_false (Option.some_ne_none _) fun ⟨heq, _⟩ => ?_
    rw [hfind.mpr heq.symm] at hdiffers
    cases hdiffers
  | none =>
    have hpending : readBack.pending = pending := (hfind.mp hdiffers).symm
    by_cases hdedup : archived.dedup.length = archived.length
    case neg =>
      refine iff_of_false ?_ fun ⟨_, hperm⟩ => hdedup ?_
      · dsimp only
        rw [if_pos hdedup]
        exact Option.some_ne_none _
      · rw [(hperm.nodup_iff.mp h).dedup]
    have hself : archived.dedup = archived := (List.dedup_sublist archived).eq_of_length hdedup
    have hnodup : archived.Nodup := List.dedup_eq_self.mp hself
    dsimp only
    rw [hself, if_neg (not_not.mpr rfl)]
    by_cases hcount : readBack.archived.length = archived.length
    case neg =>
      refine iff_of_false ?_ fun ⟨_, hperm⟩ => hcount hperm.length_eq
      rw [if_pos hcount]
      exact Option.some_ne_none _
    rw [if_neg (not_not.mpr hcount), and_iff_right hpending]
    by_cases hsubset : ∀ id ∈ readBack.archived, id ∈ archived
    · have hany : (readBack.archived.any fun id => id ∉ archived) = false := by
        simpa using hsubset
      rw [hany]
      exact iff_of_true rfl ((List.subperm_of_subset h hsubset).perm_of_length_le hcount.ge)
    · have hany : (readBack.archived.any fun id => id ∉ archived) = true := by
        simpa using hsubset
      rw [hany]
      exact iff_of_false (Option.some_ne_none _) fun hperm => hsubset fun id => hperm.mem_iff.mp

end Compare

section Ordered
variable {rows : DebtRows} {ledger : Ledger} {state : BackfillState}

lemma length_idsIn (rows : DebtRows) :
    (idsIn .pending rows).length + (idsIn .archived rows).length = rows.length := by
  induction rows with
  | nil => rfl
  | cons r rows ih =>
    obtain ⟨id, state, seq⟩ := r
    cases state
    all_goals
      simp only [idsIn, List.length_map] at ih ⊢
      simp
      omega

lemma readDebtSet_orderedRows (h : RowsOrdered (orderedRows rows)) :
    readDebtSet (orderedRows rows) = readDebtSet rows := by
  rw [readDebtSet, orderedRows_eq (List.Perm.refl _) h.sorted]
  rfl

lemma orderedRows_savedRows (hrows : RowsOrdered (orderedRows rows))
    (h : Tracks (orderedRows rows) ledger state) :
    orderedRows (savedRows rows ledger state) = savedRows (orderedRows rows) ledger state := by
  refine orderedRows_eq ?_ (savedRows_ordered hrows h).1.sorted
  rw [savedRows, savedRows]
  split
  · exact (orderedRows_perm rows).symm
  · exact applyDebtDiff_perm (orderedRows_perm rows).symm _ _

lemma length_savedRows (hrows : RowsOrdered rows) (h : Tracks rows ledger state) :
    (savedRows rows ledger state).length = state.held.length := by
  have hpending : (idsIn .pending (savedRows rows ledger state)).Perm state.pending := by
    rw [savedRows_pending hrows h]
    exact filter_mem_append_perm (hrows.idsIn_nodup _) h.sound.pending
  rw [← length_idsIn, hpending.length_eq, savedRows_archived hrows h, BackfillState.held,
    List.length_append]

lemma mem_keys_iff {id : Ident} :
    id ∈ rows.map Prod.fst ↔ id ∈ idsIn .pending rows ∨ id ∈ idsIn .archived rows := by
  refine ⟨mem_keys, ?_⟩
  rintro (h | h)
  all_goals
    obtain ⟨seq, hmem⟩ := mem_idsIn.mp h
    exact List.mem_map_of_mem (f := Prod.fst) hmem

lemma mem_keys_savedRows (hrows : RowsOrdered rows) (h : Tracks rows ledger state) {id : Ident} :
    id ∈ (savedRows rows ledger state).map Prod.fst ↔ id ∈ state.held := by
  have hpending : (idsIn .pending (savedRows rows ledger state)).Perm state.pending := by
    rw [savedRows_pending hrows h]
    exact filter_mem_append_perm (hrows.idsIn_nodup _) h.sound.pending
  rw [mem_keys_iff, hpending.mem_iff, savedRows_archived hrows h, BackfillState.held,
    List.mem_append]

lemma idsIn_orderedRows_perm (state : DebtState) (rows : DebtRows) :
    (idsIn state (orderedRows rows)).Perm (idsIn state rows) :=
  ((orderedRows_perm rows).filter _).map _

lemma mem_keys_orderedRows {id : Ident} :
    id ∈ (orderedRows rows).map Prod.fst ↔ id ∈ rows.map Prod.fst :=
  ((orderedRows_perm rows).map Prod.fst).mem_iff

end Ordered

section Carry
variable (record : LegacyBackfillState)

/-- A scope to which a record of the old layout is being carried. -/
structure Carried (s : BackfillSite) : Prop where
  keys : (s.storage.rows.map Prod.fst).Nodup
  legacy : s.storage.legacy = some record ∨ s.storage.legacy = none
  unheaded : s.storage.header = none → s.storage.legacy = some record ∧ s.session = none
  ordered : ∀ header ∈ s.storage.header, RowsOrdered (orderedRows s.storage.rows) ∧
    header.pendingCount + header.archivedCount ≤ s.storage.rows.length
  session : ∀ opened ∈ s.session, Tracks (orderedRows s.storage.rows) opened.1 opened.2 ∧
    ∀ id ∈ opened.1.pending, id ∈ opened.2.held

def Matches (rows : DebtRows) : Prop :=
  (readDebtSet rows).pending = record.pending ∧ (readDebtSet rows).archived.Perm record.archived

/-- The store holds an id, or has one archived, that the record does not. -/
def Departed (rows : DebtRows) : Prop :=
  (∃ id ∈ rows.map Prod.fst, id ∉ record.pending ++ record.archived) ∨
    ∃ id ∈ idsIn .archived rows, id ∉ record.archived

/-- A save leaves the debt set alone while the old record is there. -/
def NothingMovedBeside (s : BackfillSite) : BackfillAction → Prop
  | .save .refused => True
  | .save _ => s.storage.legacy = none ∨
      ∀ opened ∈ s.session, (opened.1.diffAgainst opened.2).isEmpty
  | _ => True

instance NothingMovedBeside.decidable (s : BackfillSite) :
    ∀ a, Decidable (NothingMovedBeside s a)
  | .save .completes | .save .diesBetween => inferInstanceAs (Decidable (_ ∨ _))
  | .save .refused | .openLedger _ | .migrateOneLegacyKey _ | .enqueueDebts _ | .settleDebt _
  | .dropDebt _ | .kill => inferInstanceAs (Decidable True)

def BackfillAction.isDrop : BackfillAction → Bool
  | .dropDebt _ => true
  | _ => false

/-- What an attempt that nothing cuts comes to: the old record is gone and a ledger is open. -/
def Converges (key : ScopeKey) (s : BackfillSite) : Prop :=
  let t := StepRun.exec (backfillStep key) s [.migrateOneLegacyKey none, .openLedger none]
  t.storage.legacy = none ∧ t.session ≠ none

variable {record} {s : BackfillSite}

lemma compareSets_eq_none_iff_matches {rows : DebtRows} (h : (rows.map Prod.fst).Nodup) :
    compareSets record.pending record.archived (readDebtSet rows) = none ↔ Matches record rows := by
  have hordered : ((orderedRows rows).map Prod.fst).Nodup :=
    ((orderedRows_perm rows).map Prod.fst).nodup_iff.mpr h
  exact compareSets_eq_none_iff (hordered.sublist (List.filter_sublist.map _))

lemma Departed.not_matches {rows : DebtRows} (h : Departed record rows) :
    ¬ Matches record rows := by
  rintro ⟨hpending, harchived⟩
  have hheld : ∀ id ∈ idsIn .archived rows, id ∈ record.archived := fun id hid =>
    harchived.mem_iff.mp ((idsIn_orderedRows_perm _ rows).mem_iff.mpr hid)
  rcases h with ⟨id, hid, hnot⟩ | ⟨id, hid, hnot⟩
  · rw [List.mem_append, not_or] at hnot
    rcases mem_keys hid with hid | hid
    · exact hnot.1 (hpending ▸ (idsIn_orderedRows_perm _ rows).mem_iff.mpr hid)
    · exact hnot.2 (hheld id hid)
  · exact hnot (hheld id hid)

lemma matches_replaceDebtSet {rows : DebtRows} (hrows : (rows.map Prod.fst).Nodup)
    (h : (record.pending ++ record.archived).Nodup) :
    Matches record (replaceDebtSet rows record.pending record.archived) := by
  obtain ⟨-, hpending, harchived⟩ := readDebtSet_replaceDebtSet hrows h
  exact ⟨hpending, List.Perm.of_eq harchived⟩

lemma replaceDebtSet_keys {rows : DebtRows} (hrows : (rows.map Prod.fst).Nodup)
    (h : (record.pending ++ record.archived).Nodup) :
    ((replaceDebtSet rows record.pending record.archived).map Prod.fst).Nodup := by
  rwa [((replaceDebtSet_perm hrows h).map Prod.fst).nodup_iff, recordsFor_keys]

lemma migrate_cases (key : ScopeKey) (cut : Option Interrupt) (storage : LedgerStorage)
    (hrows : (storage.rows.map Prod.fst).Nodup) (h : (record.pending ++ record.archived).Nodup) :
    let replaced := replaceDebtSet storage.rows record.pending record.archived
    let header : BackfillHeader := ⟨record.pending.length, record.archived.length⟩
    let r := migrate key cut storage record
    (r.1 = storage ∨ r.1 = { storage with rows := replaced } ∨
      r.1 = { storage with rows := replaced, header := some header } ∨
      r.1 = ⟨replaced, some header, none⟩) ∧
    ∀ ledger state, r.2 = .opened ledger state → r.1 = ⟨replaced, some header, none⟩ ∧
      ledger = .ofSnapshot (readDebtSet replaced) ∧
      state = ⟨(readDebtSet replaced).pending, (readDebtSet replaced).archived⟩ := by
  intro replaced header r
  have hcompare : compareSets record.pending record.archived (readDebtSet replaced) = none :=
    (compareSets_eq_none_iff_matches (replaceDebtSet_keys hrows h)).mpr
      (matches_replaceDebtSet hrows h)
  simp only [r, migrate]
  rw [show compareSets record.pending record.archived
    (readDebtSet (replaceDebtSet storage.rows record.pending record.archived)) = none from hcompare]
  dsimp only
  split
  next =>
    refine ⟨?_, fun ledger state hopened => by cases hopened⟩
    dsimp only
    split
    · exact Or.inr (Or.inl rfl)
    · exact Or.inl rfl
  next =>
    split
    next => exact ⟨Or.inr (Or.inl rfl), fun ledger state hopened => by cases hopened⟩
    next =>
      split
      next =>
        refine ⟨?_, fun ledger state hopened => by cases hopened⟩
        dsimp only
        split
        · exact Or.inr (Or.inr (Or.inl rfl))
        · exact Or.inr (Or.inl rfl)
      next =>
        split
        next =>
          exact ⟨Or.inr (Or.inr (Or.inl rfl)), fun ledger state hopened => by cases hopened⟩
        next =>
          split
          next =>
            refine ⟨?_, fun ledger state hopened => by cases hopened⟩
            dsimp only
            split
            · exact Or.inr (Or.inr (Or.inr rfl))
            · exact Or.inr (Or.inr (Or.inl rfl))
          next =>
            refine ⟨Or.inr (Or.inr (Or.inr rfl)), fun ledger state hopened => ?_⟩
            cases hopened
            exact ⟨rfl, rfl, rfl⟩

lemma Carried.ended (h : Carried record s) : Carried record ⟨s.storage, none⟩ :=
  { h with unheaded := fun hheader => ⟨(h.unheaded hheader).1, rfl⟩, session := by simp }

lemma Carried.begun (h : Carried record s) {header : BackfillHeader}
    (hheader : s.storage.header = some header) :
    Carried record ⟨s.storage, some (.ofSnapshot (readDebtSet s.storage.rows),
      ⟨(readDebtSet s.storage.rows).pending, (readDebtSet s.storage.rows).archived⟩)⟩ where
  __ := h
  unheaded := by simp [hheader]
  session := by
    rintro opened ⟨⟩
    have hordered := (h.ordered header hheader).1
    rw [← readDebtSet_orderedRows hordered]
    exact ⟨tracks_of_readDebtSet hordered, fun id hid => List.mem_append_left _ hid⟩

lemma Carried.replaced (h : Carried record s) (hrecord : (record.pending ++ record.archived).Nodup)
    (hheader : s.storage.header = none) :
    Carried record ⟨{ s.storage with
      rows := replaceDebtSet s.storage.rows record.pending record.archived }, none⟩ where
  keys := replaceDebtSet_keys h.keys hrecord
  legacy := h.legacy
  unheaded := fun _ => ⟨(h.unheaded hheader).1, rfl⟩
  ordered := by simp [hheader]
  session := by simp

lemma Carried.moved (h : Carried record s) (hrecord : (record.pending ++ record.archived).Nodup)
    {legacy : Option LegacyBackfillState} (hlegacy : legacy = some record ∨ legacy = none) :
    Carried record ⟨⟨replaceDebtSet s.storage.rows record.pending record.archived,
      some ⟨record.pending.length, record.archived.length⟩, legacy⟩, none⟩ where
  keys := replaceDebtSet_keys h.keys hrecord
  legacy := hlegacy
  unheaded := by simp
  ordered := by
    rintro header ⟨⟩
    have hperm := replaceDebtSet_perm h.keys hrecord
    obtain ⟨hordered, -, -⟩ := readDebtSet_replaceDebtSet h.keys hrecord
    refine ⟨?_, ?_⟩
    · rw [hordered]
      exact ⟨recordsFor_sorted _ _, by rwa [recordsFor_keys]⟩
    · rw [hperm.length_eq, ← List.length_map (f := Prod.fst), recordsFor_keys, List.length_append]
  session := by simp

lemma Carried.removed (h : Carried record s) {header : BackfillHeader}
    (hheader : s.storage.header = some header) :
    Carried record ⟨{ s.storage with legacy := none }, none⟩ :=
  { h with legacy := Or.inr rfl, unheaded := by simp [hheader], session := by simp }

/-- What an attempt does to the storage: nothing, or it replaces the records while there is no
header, or it removes an old record that the store matches. -/
def AttemptEffect (record : LegacyBackfillState) (before after : LedgerStorage) : Prop :=
  after = before ∨
    (before.header = none ∧
      after.rows = replaceDebtSet before.rows record.pending record.archived) ∨
    (before.header ≠ none ∧ Matches record before.rows ∧ after = { before with legacy := none })

lemma openHeaderLedger_opened {key : ScopeKey} {cut : Option Interrupt} {storage : LedgerStorage}
    {header : BackfillHeader} {ledger : Ledger} {state : BackfillState}
    (h : openHeaderLedger key cut storage header = .opened ledger state) :
    ledger = .ofSnapshot (readDebtSet storage.rows) ∧
      state = ⟨(readDebtSet storage.rows).pending, (readDebtSet storage.rows).archived⟩ := by
  dsimp only [openHeaderLedger] at h
  split at h
  · cases h
  · split at h
    · cases h
    · cases h
      exact ⟨rfl, rfl⟩

lemma Carried.openLedger_spec (h : Carried record s)
    (hrecord : (record.pending ++ record.archived).Nodup) (key : ScopeKey) (cut : Option Interrupt) :
    let r := openLedger key cut s.storage
    Carried record ⟨r.1, none⟩ ∧ AttemptEffect record s.storage r.1 ∧
      ∀ ledger state, r.2 = .opened ledger state → Carried record ⟨r.1, some (ledger, state)⟩ := by
  intro r
  cases hheader : s.storage.header with
  | some header =>
    have hr : r.1 = s.storage ∧
        ∀ ledger state, r.2 = .opened ledger state → ledger = .ofSnapshot (readDebtSet s.storage.rows) ∧
          state = ⟨(readDebtSet s.storage.rows).pending, (readDebtSet s.storage.rows).archived⟩ := by
      simp only [r, openLedger, hheader]
      split
      · exact ⟨rfl, fun ledger state hopened => by cases hopened⟩
      · exact ⟨rfl, fun ledger state hopened => openHeaderLedger_opened hopened⟩
    rw [hr.1]
    refine ⟨h.ended, Or.inl rfl, fun ledger state hopened => ?_⟩
    obtain ⟨rfl, rfl⟩ := hr.2 ledger state hopened
    exact h.begun hheader
  | none =>
    have hlegacy := (h.unheaded hheader).1
    by_cases hcut : stopsAt cut .loadHeader = true ∨ stopsAt cut .loadLegacy = true
    · have hr : r = (s.storage, .interrupted) := by
        simp only [r, openLedger, openFromLegacy, hheader]
        rcases hcut with hcut | hcut
        · rw [if_pos hcut]
        · rw [if_pos hcut, ite_self]
      rw [hr]
      exact ⟨h.ended, Or.inl rfl, fun ledger state hopened => by cases hopened⟩
    · rw [not_or] at hcut
      have hr : r = migrate key cut s.storage record := by
        simp only [r, openLedger, openFromLegacy, hheader, hlegacy, if_neg hcut.1, if_neg hcut.2]
      have hmoved := fun legacy (hlegacy : legacy = some record ∨ legacy = none) =>
        h.moved hrecord hlegacy
      obtain ⟨hcases, hopened⟩ := migrate_cases key cut s.storage h.keys hrecord
      rw [hr]
      refine ⟨?_, ?_, fun ledger state hopen => ?_⟩
      · rcases hcases with heq | heq | heq | heq
        all_goals rw [heq]
        · exact h.ended
        · exact h.replaced hrecord hheader
        · exact hmoved _ h.legacy
        · exact hmoved none (Or.inr rfl)
      · rcases hcases with heq | heq | heq | heq
        · exact Or.inl heq
        all_goals exact Or.inr (Or.inl ⟨hheader, heq ▸ rfl⟩)
      · obtain ⟨heq, rfl, rfl⟩ := hopened ledger state hopen
        rw [heq]
        exact (hmoved none (Or.inr rfl)).begun rfl

lemma Carried.step_openLedger (h : Carried record s) (hrecord : (record.pending ++ record.archived).Nodup)
    (key : ScopeKey) (cut : Option Interrupt) :
    let t := backfillStep key s (.openLedger cut)
    Carried record t ∧ AttemptEffect record s.storage t.storage := by
  obtain ⟨hended, heffect, hopened⟩ := h.openLedger_spec hrecord key cut
  dsimp only [backfillStep]
  split
  next storage ledger state heq =>
    rw [heq] at heffect hopened
    exact ⟨hopened ledger state rfl, heffect⟩
  next storage outcome _ heq =>
    rw [heq] at heffect hended
    exact ⟨hended, heffect⟩

lemma Carried.step_migrateOneLegacyKey (h : Carried record s)
    (hrecord : (record.pending ++ record.archived).Nodup) (key : ScopeKey) (cut : Option Interrupt) :
    let t := backfillStep key s (.migrateOneLegacyKey cut)
    Carried record t ∧ AttemptEffect record s.storage t.storage := by
  dsimp only [backfillStep, migrateOneLegacyKey]
  rcases h.legacy with hlegacy | hlegacy
  · rw [hlegacy]
    cases hheader : s.storage.header with
    | none =>
      obtain ⟨hended, heffect, -⟩ := h.openLedger_spec hrecord key cut
      exact ⟨hended, heffect⟩
    | some header =>
      dsimp only [completeInterruptedMigration]
      split
      · exact ⟨h.ended, Or.inl rfl⟩
      · split
        · exact ⟨h.ended, Or.inl rfl⟩
        next hcompare =>
          split
          · exact ⟨h.ended, Or.inl rfl⟩
          · refine ⟨h.removed hheader, Or.inr (Or.inr ⟨by simp [hheader], ?_, rfl⟩)⟩
            exact (compareSets_eq_none_iff_matches h.keys).mp hcompare
  · rw [hlegacy]
    exact ⟨h.ended, Or.inl rfl⟩

lemma Carried.remembered (h : Carried record s) {ledger : Ledger} {state state' : BackfillState}
    (hsession : s.session = some (ledger, state))
    (htracks : Tracks (orderedRows s.storage.rows) ledger state')
    (hkept : ∀ id ∈ state.held, id ∈ state'.held) :
    Carried record ⟨s.storage, some (ledger, state')⟩ where
  __ := h
  unheaded := fun hheader => by
    have := (h.unheaded hheader).2
    rw [hsession] at this
    cases this
  session := by
    rintro opened ⟨⟩
    exact ⟨htracks, fun id hid => hkept id ((h.session _ hsession).2 id hid)⟩

lemma Carried.saved (h : Carried record s) {ledger : Ledger} {state : BackfillState}
    (hsession : s.session = some (ledger, state)) :
    let rows := savedRows s.storage.rows ledger state
    RowsOrdered (orderedRows rows) ∧ Tracks (orderedRows rows) (savedLedger ledger state) state ∧
      (rows.map Prod.fst).Nodup ∧ s.storage.rows.length ≤ rows.length ∧
      rows.length = state.held.length ∧ (∀ id, id ∈ rows.map Prod.fst ↔ id ∈ state.held) ∧
      (∀ id, id ∈ idsIn .archived rows ↔ id ∈ state.archived) ∧
      (∀ id ∈ s.storage.rows.map Prod.fst, id ∈ state.held) := by
  intro rows
  obtain ⟨htracks, hkept⟩ := h.session _ hsession
  have hordered : RowsOrdered (orderedRows s.storage.rows) := by
    cases hheader : s.storage.header with
    | none =>
      have := (h.unheaded hheader).2
      rw [hsession] at this
      cases this
    | some header => exact (h.ordered header hheader).1
  have horder : orderedRows rows = savedRows (orderedRows s.storage.rows) ledger state :=
    orderedRows_savedRows hordered htracks
  have hsaved := (savedRows_ordered hordered htracks).1
  have hheld : ∀ id ∈ s.storage.rows.map Prod.fst, id ∈ state.held := by
    intro id hid
    rcases mem_keys (mem_keys_orderedRows.mpr hid) with hid | hid
    · exact hkept id (htracks.pending ▸ hid)
    · exact List.mem_append_right _ (htracks.kept.subset (htracks.archived ▸ hid))
  have hlength : rows.length = state.held.length := by
    rw [← (orderedRows_perm rows).length_eq, horder, length_savedRows hordered htracks]
  refine ⟨horder ▸ hsaved, ?_, ?_, ?_, hlength, fun id => ?_, fun id => ?_, hheld⟩
  · rw [horder]
    exact savedLedger_tracks hordered htracks
  · rw [← ((orderedRows_perm rows).map Prod.fst).nodup_iff, horder]
    exact hsaved.keys
  · rw [hlength, ← List.length_map (f := Prod.fst)]
    exact (List.subperm_of_subset h.keys hheld).length_le
  · rw [← mem_keys_orderedRows, horder, mem_keys_savedRows hordered htracks]
  · rw [← (idsIn_orderedRows_perm _ rows).mem_iff, horder, savedRows_archived hordered htracks]

lemma Carried.step_save (h : Carried record s) (key : ScopeKey) (fate : SaveFate) :
    Carried record (backfillStep key s (.save fate)) := by
  obtain ⟨storage, session⟩ := s
  cases session with
  | none => exact h
  | some opened =>
    obtain ⟨ledger, state⟩ := opened
    obtain ⟨hordered, htracks, hkeys, hgrows, hlength, hmem, -⟩ := h.saved rfl
    simp only [backfillStep, saveLedger_eq]
    cases fate with
    | refused => exact h.ended
    | completes =>
      exact
        { keys := hkeys
          legacy := h.legacy
          unheaded := by simp
          ordered := by
            rintro header ⟨⟩
            refine ⟨hordered, ?_⟩
            rw [hlength, BackfillState.held, List.length_append]
            rfl
          session := by
            rintro opened ⟨⟩
            refine ⟨htracks, fun id hid => (hmem id).mp ?_⟩
            rw [htracks.pending] at hid
            exact mem_keys_orderedRows.mp (mem_keys_iff.mpr (Or.inl hid)) }
    | diesBetween =>
      exact
        { keys := hkeys
          legacy := h.legacy
          unheaded := fun hheader => ⟨(h.unheaded hheader).1, rfl⟩
          ordered := fun header hheader =>
            ⟨hordered, (h.ordered header hheader).2.trans hgrows⟩
          session := by simp }

theorem Carried.step (h : Carried record s) (hrecord : (record.pending ++ record.archived).Nodup)
    (key : ScopeKey) {a : BackfillAction} (ha : a.isDrop = false) :
    Carried record (backfillStep key s a) ∧ ((∃ fate, a = .save fate) ∨
      AttemptEffect record s.storage (backfillStep key s a).storage) := by
  cases a with
  | save fate => exact ⟨h.step_save key fate, Or.inl ⟨fate, rfl⟩⟩
  | openLedger cut => exact (h.step_openLedger hrecord key cut).imp_right Or.inr
  | migrateOneLegacyKey cut => exact (h.step_migrateOneLegacyKey hrecord key cut).imp_right Or.inr
  | kill => exact ⟨h.ended, Or.inr (Or.inl rfl)⟩
  | enqueueDebts ids =>
    refine ⟨?_, Or.inr (Or.inl rfl)⟩
    obtain ⟨storage, session⟩ := s
    cases session with
    | none => exact h
    | some opened =>
      exact h.remembered rfl ((h.session _ rfl).1.enqueueDebts ids)
        fun id hid => (held_enqueueDebts _ _).mpr (Or.inl hid)
  | settleDebt id =>
    refine ⟨?_, Or.inr (Or.inl rfl)⟩
    obtain ⟨storage, session⟩ := s
    cases session with
    | none => exact h
    | some opened =>
      exact h.remembered rfl ((h.session _ rfl).1.settleDebt id) fun id hid => held_settleDebt hid
  | dropDebt id => cases ha

/-- The store matches the record as long as the record sits beside a header. -/
structure Even (record : LegacyBackfillState) (s : BackfillSite) : Prop where
  carried : Carried record s
  matched : s.storage.legacy ≠ none → s.storage.header ≠ none → Matches record s.storage.rows

/-- The record sits beside a header and a store that has departed from it. -/
structure Stuck (record : LegacyBackfillState) (s : BackfillSite) : Prop where
  carried : Carried record s
  legacy : s.storage.legacy = some record
  header : s.storage.header ≠ none
  departed : Departed record s.storage.rows

lemma AttemptEffect.matches {before after : LedgerStorage} (h : AttemptEffect record before after)
    (hkeys : (before.rows.map Prod.fst).Nodup) (hrecord : (record.pending ++ record.archived).Nodup)
    (hbefore : before.legacy ≠ none) (hafter : after.legacy = none) : Matches record after.rows := by
  rcases h with rfl | ⟨-, hrows⟩ | ⟨-, hmatches, rfl⟩
  · exact absurd hafter hbefore
  · exact hrows ▸ matches_replaceDebtSet hkeys hrecord
  · exact hmatches

lemma Carried.headed (h : Carried record s) (hsession : s.session ≠ none) :
    s.storage.header ≠ none :=
  fun hheader => hsession (h.unheaded hheader).2

lemma Even.step (h : Even record s) (hrecord : (record.pending ++ record.archived).Nodup)
    (key : ScopeKey) {a : BackfillAction} (ha : a.isDrop = false) (hok : NothingMovedBeside s a) :
    Even record (backfillStep key s a) := by
  obtain ⟨hcarried, heffect⟩ := h.carried.step hrecord key ha
  refine ⟨hcarried, fun hlegacy hheader => ?_⟩
  rcases heffect with ⟨fate, rfl⟩ | heq | ⟨-, hrows⟩ | ⟨-, -, heq⟩
  · obtain ⟨storage, session⟩ := s
    cases session with
    | none => exact h.matched hlegacy hheader
    | some opened =>
      obtain ⟨ledger, state⟩ := opened
      have hbefore : storage.header ≠ none := h.carried.headed (by simp)
      simp only [backfillStep, saveLedger_eq] at hlegacy ⊢
      have hsame : storage.legacy ≠ none → (ledger.diffAgainst state).isEmpty →
          Matches record (savedRows storage.rows ledger state) := by
        intro hlegacy hempty
        have hrows : savedRows storage.rows ledger state = storage.rows := if_pos hempty
        rw [hrows]
        exact h.matched hlegacy hbefore
      cases fate with
      | refused => exact h.matched hlegacy hbefore
      | completes => exact hsame hlegacy (hok.resolve_left hlegacy _ rfl)
      | diesBetween => exact hsame hlegacy (hok.resolve_left hlegacy _ rfl)
  · rw [heq] at hlegacy hheader ⊢
    exact h.matched hlegacy hheader
  · exact hrows ▸ matches_replaceDebtSet h.carried.keys hrecord
  · rw [heq] at hlegacy
    exact absurd rfl hlegacy

lemma Carried.departs (h : Carried record s) {ledger : Ledger} {state : BackfillState}
    (hsession : s.session = some (ledger, state))
    (hmoved : Departed record s.storage.rows ∨
      Matches record s.storage.rows ∧ ¬ (ledger.diffAgainst state).isEmpty) :
    Departed record (savedRows s.storage.rows ledger state) := by
  obtain ⟨-, -, -, -, -, hkeys, harchived, hheld⟩ := h.saved hsession
  obtain ⟨htracks, hkept⟩ := h.session _ hsession
  rcases hmoved with hdeparted | ⟨⟨hpending, hmatched⟩, hmoved⟩
  · rcases hdeparted with ⟨id, hid, hnot⟩ | ⟨id, hid, hnot⟩
    · exact Or.inl ⟨id, (hkeys id).mpr (hheld id hid), hnot⟩
    · refine Or.inr ⟨id, (harchived id).mpr (htracks.kept.subset ?_), hnot⟩
      rw [htracks.archived]
      exact (idsIn_orderedRows_perm _ _).mem_iff.mpr hid
  · have hpendingLedger : ledger.pending = record.pending := htracks.pending.trans hpending
    have harchivedLedger : ledger.archived.Perm record.archived := htracks.archived ▸ hmatched
    rw [DebtDiff.isEmpty, Bool.and_eq_true, Bool.and_eq_true, List.isEmpty_iff, List.isEmpty_iff,
      List.isEmpty_iff, not_and_or, not_and_or] at hmoved
    rcases hmoved with (henqueue | hsettle) | hdrop
    · obtain ⟨id, hid⟩ := List.exists_mem_of_ne_nil _ henqueue
      obtain ⟨hin, hnew⟩ := List.mem_filter.mp hid
      refine Or.inl ⟨id, (hkeys id).mpr (List.mem_append_left _ hin), fun hrecorded => ?_⟩
      rcases List.mem_append.mp hrecorded with hrecorded | hrecorded
      · exact of_decide_eq_true hnew (hpendingLedger ▸ hrecorded)
      · exact htracks.sound.apart id hin
          (htracks.kept.subset (harchivedLedger.mem_iff.mpr hrecorded))
    · obtain ⟨id, hid⟩ := List.exists_mem_of_ne_nil _ hsettle
      obtain ⟨hin, hnew⟩ := List.mem_filter.mp hid
      exact Or.inr ⟨id, (harchived id).mpr hin, fun hrecorded =>
        of_decide_eq_true hnew (harchivedLedger.mem_iff.mpr hrecorded)⟩
    · obtain ⟨id, hid⟩ := List.exists_mem_of_ne_nil _ hdrop
      obtain ⟨hin, hgone⟩ := List.mem_filter.mp hid
      exact absurd (List.mem_append.mp (hkept id hin)) (not_or.mpr (of_decide_eq_true hgone))

lemma Stuck.step (h : Stuck record s) (hrecord : (record.pending ++ record.archived).Nodup)
    (key : ScopeKey) {a : BackfillAction} (ha : a.isDrop = false) :
    Stuck record (backfillStep key s a) := by
  obtain ⟨hcarried, heffect⟩ := h.carried.step hrecord key ha
  rcases heffect with ⟨fate, rfl⟩ | heq | ⟨hheader, -⟩ | ⟨-, hmatches, -⟩
  · obtain ⟨storage, session⟩ := s
    cases session with
    | none => exact h
    | some opened =>
      obtain ⟨ledger, state⟩ := opened
      have hdeparted := h.carried.departs rfl (Or.inl h.departed)
      cases fate with
      | refused => exact ⟨hcarried, h.legacy, h.header, h.departed⟩
      | completes => exact ⟨hcarried, h.legacy, Option.some_ne_none _, hdeparted⟩
      | diesBetween => exact ⟨hcarried, h.legacy, h.header, hdeparted⟩
  · exact ⟨hcarried, heq ▸ h.legacy, heq ▸ h.header, heq ▸ h.departed⟩
  · exact absurd hheader h.header
  · exact absurd hmatches h.departed.not_matches

lemma Even.departs (h : Even record s) (key : ScopeKey) {a : BackfillAction}
    (hmoved : ¬ NothingMovedBeside s a) : Stuck record (backfillStep key s a) := by
  obtain ⟨storage, session⟩ := s
  cases a with
  | save fate =>
    have hsaved := h.carried.step_save key fate
    have hdeparts : storage.legacy ≠ none → ∀ ledger state, session = some (ledger, state) →
        ¬ (ledger.diffAgainst state).isEmpty → storage.legacy = some record ∧
          storage.header ≠ none ∧ Departed record (savedRows storage.rows ledger state) := by
      rintro hlegacy ledger state rfl hdiff
      have hheader : storage.header ≠ none := h.carried.headed (by simp)
      refine ⟨h.carried.legacy.resolve_right hlegacy, hheader, ?_⟩
      exact h.carried.departs rfl (Or.inr ⟨h.matched hlegacy hheader, hdiff⟩)
    cases fate with
    | refused => exact absurd trivial hmoved
    | completes =>
      simp only [NothingMovedBeside, not_or, not_forall] at hmoved
      obtain ⟨hlegacy, ⟨ledger, state⟩, rfl, hdiff⟩ := hmoved
      obtain ⟨hrecord, -, hdeparted⟩ := hdeparts hlegacy ledger state rfl hdiff
      exact ⟨hsaved, hrecord, Option.some_ne_none _, hdeparted⟩
    | diesBetween =>
      simp only [NothingMovedBeside, not_or, not_forall] at hmoved
      obtain ⟨hlegacy, ⟨ledger, state⟩, rfl, hdiff⟩ := hmoved
      obtain ⟨hrecord, hheader, hdeparted⟩ := hdeparts hlegacy ledger state rfl hdiff
      exact ⟨hsaved, hrecord, hheader, hdeparted⟩
  | _ => exact absurd trivial hmoved

lemma migrate_uncut (key : ScopeKey) {storage : LedgerStorage}
    (hrows : (storage.rows.map Prod.fst).Nodup) (h : (record.pending ++ record.archived).Nodup) :
    (migrate key none storage record).1.legacy = none := by
  have hcompare : compareSets record.pending record.archived
      (readDebtSet (replaceDebtSet storage.rows record.pending record.archived)) = none :=
    (compareSets_eq_none_iff_matches (replaceDebtSet_keys hrows h)).mpr
      (matches_replaceDebtSet hrows h)
  simp only [migrate, stopsAt, Option.any_none, Bool.false_eq_true, if_false, hcompare]

lemma Even.migrates (h : Even record s) (hrecord : (record.pending ++ record.archived).Nodup)
    (key : ScopeKey) : (migrateOneLegacyKey key none s.storage).legacy = none := by
  rcases h.carried.legacy with hlegacy | hlegacy
  · cases hheader : s.storage.header with
    | none =>
      simp only [migrateOneLegacyKey, hlegacy, hheader, openLedger, openFromLegacy, stopsAt,
        Option.any_none, Bool.false_eq_true, if_false]
      exact migrate_uncut key h.carried.keys hrecord
    | some header =>
      have hmatches := h.matched (by simp [hlegacy]) (by simp [hheader])
      have hcompare := (compareSets_eq_none_iff_matches h.carried.keys).mpr hmatches
      simp only [migrateOneLegacyKey, hlegacy, hheader, completeInterruptedMigration, stopsAt,
        Option.any_none, Bool.false_eq_true, if_false, hcompare, Bool.false_and]
  · simp only [migrateOneLegacyKey, hlegacy]

lemma Carried.opens (h : Carried record s) (hlegacy : s.storage.legacy = none) (key : ScopeKey) :
    ∃ ledger state, openLedger key none s.storage = (s.storage, .opened ledger state) := by
  cases hheader : s.storage.header with
  | none => exact absurd hlegacy (by simp [(h.unheaded hheader).1])
  | some header =>
    have hheld : (readDebtSet s.storage.rows).pending.length +
        (readDebtSet s.storage.rows).archived.length = s.storage.rows.length :=
      (length_idsIn _).trans (orderedRows_perm _).length_eq
    have hloss : debtLossBetween header (readDebtSet s.storage.rows) = none :=
      if_pos (hheld ▸ (h.ordered header hheader).2)
    refine ⟨.ofSnapshot (readDebtSet s.storage.rows),
      ⟨(readDebtSet s.storage.rows).pending, (readDebtSet s.storage.rows).archived⟩, ?_⟩
    simp only [openLedger, hheader, openHeaderLedger, stopsAt, Option.any_none, Bool.false_eq_true,
      if_false, hloss]

lemma Even.converges (h : Even record s) (hrecord : (record.pending ++ record.archived).Nodup)
    (key : ScopeKey) : Converges key s := by
  have hmigrated := h.migrates hrecord key
  have hcarried := (h.carried.step hrecord key (a := .migrateOneLegacyKey none) rfl).1
  obtain ⟨ledger, state, hopen⟩ := hcarried.opens hmigrated key
  simp only [Converges, StepRun.exec_cons, StepRun.exec_nil]
  rw [show backfillStep key (backfillStep key s (.migrateOneLegacyKey none)) (.openLedger none) =
    ⟨(backfillStep key s (.migrateOneLegacyKey none)).storage, some (ledger, state)⟩ by
      rw [backfillStep, hopen]]
  exact ⟨hmigrated, Option.some_ne_none _⟩

lemma Stuck.not_converges (h : Stuck record s)
    (hrecord : (record.pending ++ record.archived).Nodup) (key : ScopeKey) : ¬ Converges key s := by
  rintro ⟨hlegacy, -⟩
  have hstuck := (h.step hrecord key (a := .migrateOneLegacyKey none) rfl).step hrecord key
    (a := .openLedger none) rfl
  rw [StepRun.exec_cons, StepRun.exec_cons, StepRun.exec_nil, hstuck.legacy] at hlegacy
  cases hlegacy

end Carry

section Runs

lemma saveLedger_legacy (s : BackfillSite) (fate : SaveFate) :
    (saveLedger s fate).storage.legacy = s.storage.legacy := by
  obtain ⟨storage, session⟩ := s
  cases session with
  | none => rfl
  | some opened => cases fate <;> rfl

variable {record : LegacyBackfillState} {s : BackfillSite}
  (hrecord : (record.pending ++ record.archived).Nodup) (key : ScopeKey)
  {actions : List BackfillAction} (hactions : ∀ a ∈ actions, a.isDrop = false)
include hrecord hactions

lemma Carried.run (h : Carried record s) :
    Carried record (StepRun.exec (backfillStep key) s actions) := by
  have hstep : ∀ u a, Carried record u → a.isDrop = false → Carried record (backfillStep key u a) :=
    fun u a hu ha => (hu.step hrecord key ha).1
  exact StepRun.invariant hstep h (StepRun.along_of_forall hactions)

lemma Even.run (h : Even record s)
    (hok : StepRun.Along (backfillStep key) NothingMovedBeside s actions) :
    Even record (StepRun.exec (backfillStep key) s actions) := by
  have hstep : ∀ u a, Even record u → a.isDrop = false ∧ NothingMovedBeside u a →
      Even record (backfillStep key u a) := fun u a hu hua => hu.step hrecord key hua.1 hua.2
  exact StepRun.invariant hstep h ((StepRun.along_of_forall hactions).and hok)

lemma Stuck.run (h : Stuck record s) :
    Stuck record (StepRun.exec (backfillStep key) s actions) := by
  have hstep : ∀ u a, Stuck record u → a.isDrop = false → Stuck record (backfillStep key u a) :=
    fun u a hu ha => hu.step hrecord key ha
  exact StepRun.invariant hstep h (StepRun.along_of_forall hactions)

lemma Even.stuck_of_not_along (h : Even record s)
    (hnot : ¬ StepRun.Along (backfillStep key) NothingMovedBeside s actions) :
    Stuck record (StepRun.exec (backfillStep key) s actions) := by
  obtain ⟨pre, a, post, rfl, hpre, ha⟩ := StepRun.exists_of_not_along hnot
  have heven := h.run hrecord key (fun b hb => hactions b (List.mem_append_left _ hb)) hpre
  have hpost : ∀ b ∈ post, b.isDrop = false := fun b hb =>
    hactions b (List.mem_append_right _ (List.mem_cons_of_mem _ hb))
  have hrest := (heven.departs key ha).run hrecord key hpost
  rwa [← StepRun.exec_cons, ← StepRun.exec_append] at hrest

omit hrecord hactions

lemma Even.start {rows : DebtRows} (hrows : (rows.map Prod.fst).Nodup) :
    Even record ⟨⟨rows, none, some record⟩, none⟩ :=
  ⟨⟨hrows, Or.inl rfl, fun _ => ⟨rfl, rfl⟩, by simp, by simp⟩, fun _ hheader => absurd rfl hheader⟩

/-- The old record goes only when the store holds exactly its ids, and attempts finish the move
unless a save has moved debts while the record sat beside a header; then none ever does. -/
theorem legacy_move_converges_iff (key : ScopeKey) (record : LegacyBackfillState) (rows : DebtRows)
    (hrecord : (record.pending ++ record.archived).Nodup) (hrows : (rows.map Prod.fst).Nodup)
    (actions : List BackfillAction) (hactions : ∀ a ∈ actions, a.isDrop = false) :
    let start : BackfillSite := ⟨⟨rows, none, some record⟩, none⟩
    let s := StepRun.exec (backfillStep key) start actions
    (s.storage.legacy = some record ∨ s.storage.legacy = none) ∧
    (∀ a : BackfillAction, a.isDrop = false → s.storage.legacy ≠ none →
      (backfillStep key s a).storage.legacy = none →
        Matches record (backfillStep key s a).storage.rows) ∧
    (Converges key s ↔ StepRun.Along (backfillStep key) NothingMovedBeside start actions) ∧
    (¬ Converges key s → ∀ more : List BackfillAction, (∀ a ∈ more, a.isDrop = false) →
      (StepRun.exec (backfillStep key) s more).storage.legacy = some record) := by
  intro start s
  have hstart : Even record start := Even.start hrows
  have hs : Carried record s := hstart.carried.run hrecord key hactions
  have hiff : Converges key s ↔ StepRun.Along (backfillStep key) NothingMovedBeside start actions := by
    constructor
    · intro hconverges
      by_contra hnot
      exact (hstart.stuck_of_not_along hrecord key hactions hnot).not_converges hrecord key hconverges
    · exact fun hok => (hstart.run hrecord key hactions hok).converges hrecord key
  refine ⟨hs.legacy, fun a ha hlegacy hgone => ?_, hiff, fun hnot more hmore => ?_⟩
  · rcases (hs.step hrecord key ha).2 with ⟨fate, rfl⟩ | heffect
    · exact absurd ((saveLedger_legacy s fate).symm.trans hgone) hlegacy
    · exact heffect.matches hs.keys hrecord hlegacy hgone
  · have hstuck := hstart.stuck_of_not_along hrecord key hactions fun hok => hnot (hiff.mpr hok)
    exact (hstuck.run hrecord key hmore).legacy

/-- A move cut before its last step and finished before the run goes on. -/
theorem legacy_move_converges_after_cut :
    let key : ScopeKey := ⟨"chatgpt", "default"⟩
    let record : LegacyBackfillState := ⟨[['a'], ['b']], [['c']]⟩
    let start : BackfillSite := ⟨⟨[(['x'], ⟨.pending, 7⟩)], none, some record⟩, none⟩
    Converges key (StepRun.exec (backfillStep key) start [.openLedger (some ⟨.removeLegacy, false⟩),
      .openLedger none, .migrateOneLegacyKey none, .openLedger none, .settleDebt ['a'],
      .save .completes]) := by
  intro key record start
  exact (legacy_move_converges_iff key record [(['x'], ⟨.pending, 7⟩)] (by decide) (by decide) _
    (by decide)).2.2.1.mpr (by decide +kernel)

/-- A move cut before its last step, whose finish cannot read the debts once, and then an ordinary
run by the new header: no later step removes the old record. -/
theorem legacy_move_never_converges :
    let key : ScopeKey := ⟨"chatgpt", "default"⟩
    let record : LegacyBackfillState := ⟨[['a'], ['b']], [['c']]⟩
    let s := StepRun.exec (backfillStep key) ⟨⟨[], none, some record⟩, none⟩
      [.openLedger (some ⟨.removeLegacy, false⟩), .migrateOneLegacyKey (some ⟨.readDebts, false⟩),
        .openLedger none, .settleDebt ['a'], .save .completes]
    ¬ Converges key s ∧ ∀ more : List BackfillAction, (∀ a ∈ more, a.isDrop = false) →
      (StepRun.exec (backfillStep key) s more).storage.legacy = some record := by
  intro key record s
  have hrecord : (record.pending ++ record.archived).Nodup := by decide
  have hstuck : Stuck record s :=
    (Even.start (by decide)).stuck_of_not_along hrecord key (by decide) (by decide +kernel)
  exact ⟨hstuck.not_converges hrecord key, fun more hmore => (hstuck.run hrecord key hmore).legacy⟩

end Runs

end ChatStasher
