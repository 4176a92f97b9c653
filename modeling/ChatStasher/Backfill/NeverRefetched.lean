import ChatStasher.Backfill.Registry
import ChatStasher.Backfill.LegacyMove

/-! Archived debts across evictions of their scope: when a ledger opened later still knows them. -/
namespace ChatStasher
open KeyedList

section Save
variable {rows : DebtRows} {ledger : Ledger} {state : BackfillState}

/-- What an open ledger knows of the archived records of its store. -/
structure Knows (rows : DebtRows) (ledger : Ledger) (state : BackfillState) : Prop where
  sound : state.Sound
  archived : idsIn .archived rows ⊆ ledger.archived
  kept : ledger.archived ⊆ state.archived

lemma Knows.savedRows_archived (h : Knows rows ledger state) (id : Ident) :
    id ∈ idsIn .archived (savedRows rows ledger state) ↔
      id ∈ idsIn .archived rows ∨ id ∈ (ledger.diffAgainst state).settle := by
  rw [savedRows]
  generalize hdiff : ledger.diffAgainst state = diff
  have henqueue : diff.enqueue.Nodup := hdiff ▸ h.sound.pending.filter _
  have hsettle : diff.settle.Nodup := hdiff ▸ h.sound.archived.filter _
  by_cases hempty : diff.isEmpty
  · have hnone : diff.settle = [] := by
      rw [DebtDiff.isEmpty, Bool.and_eq_true, Bool.and_eq_true] at hempty
      exact List.isEmpty_iff.mp hempty.1.2
    simp [hempty, hnone]
  · rw [if_neg hempty, applyDebtDiff]
    have hkept : id ∈ idsIn .archived rows → id ∉ diff.enqueue ∧ id ∉ diff.drop := by
      intro hid
      have hstate : id ∈ state.archived := h.kept (h.archived hid)
      subst hdiff
      constructor
      · exact fun hmem => h.sound.apart id (List.mem_filter.mp hmem).1 hstate
      · intro hmem
        have := (List.mem_filter.mp hmem).2
        simp [hstate] at this
    have hadded : id ∈ diff.settle → id ∈ idsIn .archived
        ((numbered .archived (ledger.nextSeq + diff.enqueue.length) diff.settle).foldl put
          (((numbered .pending ledger.nextSeq diff.enqueue).foldl put rows).filter
            fun r => r.1 ∉ diff.drop.filter fun id => id ∉ diff.enqueue)) := by
      intro hid
      rw [← idsIn_numbered .archived (ledger.nextSeq + diff.enqueue.length) diff.settle] at hid
      obtain ⟨seq, hmem⟩ := mem_idsIn.mp hid
      exact mem_idsIn.mpr ⟨seq, (mem_foldl_put (by rwa [numbered_keys])).mpr (Or.inl hmem)⟩
    constructor
    · intro hid
      obtain ⟨seq, hmem⟩ := mem_idsIn.mp hid
      rcases mem_of_mem_foldl_put hmem with hold | hnew
      · rcases mem_of_mem_foldl_put (List.mem_filter.mp hold).1 with hold | hnew
        · exact Or.inl (mem_idsIn.mpr ⟨seq, hold⟩)
        · cases (mem_numbered hnew).2.1
      · exact Or.inr (mem_numbered hnew).1
    · rintro (hid | hid)
      · by_cases hsettled : id ∈ diff.settle
        · exact hadded hsettled
        · obtain ⟨hnotEnqueued, hnotDropped⟩ := hkept hid
          obtain ⟨seq, hmem⟩ := mem_idsIn.mp hid
          refine mem_idsIn.mpr ⟨seq, (mem_foldl_put (by rwa [numbered_keys])).mpr (Or.inr ⟨?_, ?_⟩)⟩
          · refine List.mem_filter.mpr ⟨(mem_foldl_put (by rwa [numbered_keys])).mpr
              (Or.inr ⟨hmem, by rwa [numbered_keys]⟩), ?_⟩
            simp [hnotDropped]
          · rwa [numbered_keys]
      · exact hadded hid

lemma mem_foldl_setAdd {l ids : List Ident} {id : Ident} :
    id ∈ ids.foldl setAdd l ↔ id ∈ l ∨ id ∈ ids := by
  induction ids generalizing l with
  | nil => simp
  | cons x ids ih =>
    have hadd : id ∈ setAdd l x ↔ id ∈ l ∨ id = x := by
      rw [setAdd]
      split
      next h => exact ⟨Or.inl, fun hid => hid.elim (fun h => h) fun heq => heq ▸ h⟩
      next => simp
    rw [List.foldl_cons, ih, hadd, List.mem_cons, or_assoc]

lemma mem_savedLedger_archived {id : Ident} : id ∈ (savedLedger ledger state).archived ↔
    id ∈ ledger.archived ∨ id ∈ (ledger.diffAgainst state).settle := by
  rw [savedLedger]
  split
  next hempty =>
    have hnone : (ledger.diffAgainst state).settle = [] := by
      rw [DebtDiff.isEmpty, Bool.and_eq_true, Bool.and_eq_true] at hempty
      exact List.isEmpty_iff.mp hempty.1.2
    simp [hnone]
  next => exact mem_foldl_setAdd

lemma Knows.saved (h : Knows rows ledger state) :
    Knows (savedRows rows ledger state) (savedLedger ledger state) state where
  sound := h.sound
  archived id hid := mem_savedLedger_archived.mpr
    (((h.savedRows_archived id).mp hid).imp_left fun hold => h.archived hold)
  kept id hid := by
    rcases mem_savedLedger_archived.mp hid with hold | hnew
    · exact h.kept hold
    · exact (List.mem_filter.mp hnew).1

end Save

def BackfillSite.archivedRows (s : BackfillSite) : List Ident := idsIn .archived s.storage.rows

/-- The open ledger lists every archived id of the store and owes none of them. -/
def BackfillSite.Remembers (s : BackfillSite) : Prop :=
  ∀ ledger state, s.session = some (ledger, state) → ∀ id ∈ s.archivedRows,
    id ∈ ledger.archived ∧ id ∈ state.archived ∧ id ∉ state.pending

/-- A step after which the open ledger remembers, and which leaves every archived row archived. -/
def NeverRefetches (key : ScopeKey) (s : RegisteredSite) (a : RegisteredAction) : Prop :=
  (registeredStep key s a).site.Remembers ∧
    s.site.archivedRows ⊆ (registeredStep key s a).site.archivedRows

/-- An attempt without a header that gets as far as an open ledger, or as the replacement of the debt
set by the old layout's record. -/
def OpensBlind (s : LedgerStorage) : BackfillAction → Prop
  | .openLedger cut => s.header = none ∧ stopsAt cut .loadHeader = false ∧
      stopsAt cut .loadLegacy = false ∧
        (s.legacy.isSome → stopsAt cut .replaceDebts = false ∨ landsAt cut .replaceDebts = true)
  | .migrateOneLegacyKey cut => s.header = none ∧ stopsAt cut .loadHeader = false ∧
      stopsAt cut .loadLegacy = false ∧ s.legacy.isSome ∧
        (stopsAt cut .replaceDebts = false ∨ landsAt cut .replaceDebts = true)
  | _ => False

/-- No ledger is opened without its header while the store holds an archived id that the record of the
old layout, if there is one, does not name. -/
def HeaderAtHand (s : RegisteredSite) : RegisteredAction → Prop
  | .backfill a => OpensBlind s.site.storage a → s.site.archivedRows ⊆
      (s.site.storage.legacy.map LegacyBackfillState.archived).getD []
  | _ => True

/-- What every run keeps while its headers are at hand. -/
structure BackfillSite.Kept (s : BackfillSite) : Prop where
  keys : (s.storage.rows.map Prod.fst).Nodup
  record : ∀ r, s.storage.legacy = some r → (r.pending ++ r.archived).Nodup
  session : ∀ ledger state, s.session = some (ledger, state) → Knows s.storage.rows ledger state

lemma BackfillSite.Kept.remembers {s : BackfillSite} (h : s.Kept) : s.Remembers := by
  intro ledger state hsession id hid
  have hknows := h.session ledger state hsession
  have hstate := hknows.kept (hknows.archived hid)
  exact ⟨hknows.archived hid, hstate, fun hpending => hknows.sound.apart id hpending hstate⟩

lemma knows_readDebtSet {rows : DebtRows} (hkeys : (rows.map Prod.fst).Nodup) :
    Knows rows (.ofSnapshot (readDebtSet rows))
      ⟨(readDebtSet rows).pending, (readDebtSet rows).archived⟩ := by
  have hordered : ((orderedRows rows).map Prod.fst).Nodup :=
    ((orderedRows_perm rows).map Prod.fst).nodup_iff.mpr hkeys
  have hnodup : ∀ state, (idsIn state (orderedRows rows)).Nodup := fun state =>
    hordered.sublist (List.filter_sublist.map _)
  refine ⟨⟨hnodup .pending, hnodup .archived, fun id hpending harchived => ?_⟩, fun id hid => ?_,
    List.Subset.refl _⟩
  · obtain ⟨seq, hp⟩ := mem_idsIn.mp hpending
    obtain ⟨seq', ha⟩ := mem_idsIn.mp harchived
    cases List.inj_on_of_nodup_map hordered hp ha rfl
  · exact (idsIn_orderedRows_perm .archived rows).mem_iff.mpr hid

lemma mem_archived_replaceDebtSet {rows : DebtRows} (hkeys : (rows.map Prod.fst).Nodup)
    {r : LegacyBackfillState} (hr : (r.pending ++ r.archived).Nodup) (id : Ident) :
    id ∈ idsIn .archived (replaceDebtSet rows r.pending r.archived) ↔ id ∈ r.archived := by
  obtain ⟨-, -, harchived⟩ := readDebtSet_replaceDebtSet hkeys hr
  have hread : idsIn .archived (orderedRows (replaceDebtSet rows r.pending r.archived)) =
      r.archived := harchived
  rw [← (idsIn_orderedRows_perm .archived _).mem_iff, hread]

lemma migrate_rows (key : ScopeKey) (cut : Option Interrupt) (s : LedgerStorage)
    (legacy : LegacyBackfillState) : (migrate key cut s legacy).1.rows =
      if stopsAt cut .replaceDebts = false ∨ landsAt cut .replaceDebts = true then
        replaceDebtSet s.rows legacy.pending legacy.archived
      else s.rows := by
  dsimp only [migrate]
  by_cases hstops : stopsAt cut .replaceDebts = true
  · rw [if_pos hstops]
    by_cases hlands : landsAt cut .replaceDebts = true <;> simp [hstops, hlands]
  · rw [if_neg hstops, if_pos (Or.inl (by simpa using hstops))]
    split
    · rfl
    · split
      · rfl
      · split
        · split <;> rfl
        · split
          · rfl
          · split
            · split <;> rfl
            · rfl

namespace BackfillSite.Kept
variable {s : BackfillSite}

lemma ended (h : s.Kept) : BackfillSite.Kept ⟨s.storage, none⟩ where
  keys := h.keys
  record := h.record
  session ledger state hnone := by cases hnone

lemma migrated (h : s.Kept) (key : ScopeKey) (cut : Option Interrupt) {r : LegacyBackfillState}
    (hr : s.storage.legacy = some r) :
    BackfillSite.Kept ⟨(migrate key cut s.storage r).1, none⟩ ∧
      ∀ ledger state, (migrate key cut s.storage r).2 = .opened ledger state →
        BackfillSite.Kept ⟨(migrate key cut s.storage r).1, some (ledger, state)⟩ := by
  have hrecord := h.record r hr
  have hkeys := replaceDebtSet_keys h.keys hrecord
  obtain ⟨hcases, hopened⟩ := migrate_cases key cut s.storage h.keys hrecord
  constructor
  · rcases hcases with heq | heq | heq | heq
    all_goals rw [heq]
    · exact h.ended
    · exact ⟨hkeys, h.record, nofun⟩
    · exact ⟨hkeys, h.record, nofun⟩
    · exact ⟨hkeys, nofun, nofun⟩
  · intro ledger state hopen
    obtain ⟨heq, rfl, rfl⟩ := hopened ledger state hopen
    rw [heq]
    refine ⟨hkeys, nofun, ?_⟩
    rintro ledger state ⟨⟩
    exact knows_readDebtSet hkeys

end BackfillSite.Kept

lemma neverRefetches_of_kept {key : ScopeKey} {s : RegisteredSite} {a : RegisteredAction}
    (hkept : (registeredStep key s a).site.Kept)
    (harchived : s.site.archivedRows ⊆ (registeredStep key s a).site.archivedRows) :
    NeverRefetches key s a := ⟨hkept.remembers, harchived⟩

section Open
variable {s : BackfillSite} (h : s.Kept) (key : ScopeKey) (cut : Option Interrupt)
include h

lemma openLedger_headed {header : BackfillHeader} (hheader : s.storage.header = some header) :
    (backfillStep key s (.openLedger cut)).Kept ∧
      (backfillStep key s (.openLedger cut)).storage = s.storage := by
  by_cases hstops : stopsAt cut .loadHeader = true
  · have hstep : backfillStep key s (.openLedger cut) = ⟨s.storage, none⟩ := by
      simp [backfillStep, openLedger, hstops]
    rw [hstep]
    exact ⟨h.ended, rfl⟩
  · cases hopen : openHeaderLedger key cut s.storage header with
    | opened ledger state =>
      obtain ⟨rfl, rfl⟩ := openHeaderLedger_opened hopen
      simp only [backfillStep, openLedger, hstops, hheader, hopen]
      refine ⟨⟨h.keys, h.record, ?_⟩, rfl⟩
      rintro ledger state ⟨⟩
      exact knows_readDebtSet h.keys
    | refused r =>
      simp only [backfillStep, openLedger, hstops, hheader, hopen]
      exact ⟨h.ended, rfl⟩
    | interrupted =>
      simp only [backfillStep, openLedger, hstops, hheader, hopen]
      exact ⟨h.ended, rfl⟩

omit h in
lemma openLedger_fresh (hheader : s.storage.header = none) (hlegacy : s.storage.legacy = none)
    (hreads : stopsAt cut .loadHeader = false ∧ stopsAt cut .loadLegacy = false) :
    backfillStep key s (.openLedger cut) = ⟨s.storage, some (⟨[], [], 1⟩, ⟨[], []⟩)⟩ := by
  simp [backfillStep, openLedger, openFromLegacy, hheader, hlegacy, hreads]

lemma openLedger_moves (hheader : s.storage.header = none) {r : LegacyBackfillState}
    (hlegacy : s.storage.legacy = some r)
    (hreads : stopsAt cut .loadHeader = false ∧ stopsAt cut .loadLegacy = false) :
    (backfillStep key s (.openLedger cut)).Kept ∧
      (backfillStep key s (.openLedger cut)).storage = (migrate key cut s.storage r).1 := by
  obtain ⟨hended, hopened⟩ := h.migrated key cut hlegacy
  have hopen : openLedger key cut s.storage = migrate key cut s.storage r := by
    simp [openLedger, openFromLegacy, hheader, hlegacy, hreads]
  dsimp only [backfillStep]
  rw [hopen]
  split
  next storage ledger state heq =>
    rw [heq] at hopened
    exact ⟨hopened ledger state rfl, by rw [heq]⟩
  next storage outcome _ heq =>
    rw [heq] at hended
    exact ⟨hended, by rw [heq]⟩

omit h in
lemma openLedger_stopped (hheader : s.storage.header = none)
    (hreads : ¬ (stopsAt cut .loadHeader = false ∧ stopsAt cut .loadLegacy = false)) :
    backfillStep key s (.openLedger cut) = ⟨s.storage, none⟩ := by
  by_cases hload : stopsAt cut .loadHeader = true
  · simp [backfillStep, openLedger, hload]
  · have hlegacy : stopsAt cut .loadLegacy = true := by
      by_contra hnot
      exact hreads ⟨Bool.eq_false_iff.mpr hload, Bool.eq_false_iff.mpr hnot⟩
    simp [backfillStep, openLedger, openFromLegacy, hheader, hload, hlegacy]

end Open

/-- What a step owes: the ledger remembers, and archived rows stay, exactly when no ledger is opened
blind; and then the invariant stays. -/
def StepOwes (key : ScopeKey) (s : BackfillSite) (a : BackfillAction) : Prop :=
  let t := backfillStep key s a
  let known := OpensBlind s.storage a →
    s.archivedRows ⊆ (s.storage.legacy.map LegacyBackfillState.archived).getD []
  ((t.Remembers ∧ s.archivedRows ⊆ t.archivedRows) ↔ known) ∧ (known → t.Kept)

namespace BackfillSite.Kept
variable {s : BackfillSite} (h : s.Kept) (key : ScopeKey)

lemma owes_of_kept {a : BackfillAction} (hkept : (backfillStep key s a).Kept)
    (harchived : s.archivedRows ⊆ (backfillStep key s a).archivedRows)
    (hblind : ¬ OpensBlind s.storage a) : StepOwes key s a :=
  ⟨iff_of_true ⟨hkept.remembers, harchived⟩ fun hopens => absurd hopens hblind, fun _ => hkept⟩

lemma archivedRows_of_rows {t : BackfillSite} (hrows : t.storage.rows = s.storage.rows) :
    t.archivedRows = s.archivedRows := by
  rw [archivedRows, archivedRows, hrows]

include h

lemma owes_of_moves {a : BackfillAction} {cut : Option Interrupt} {r : LegacyBackfillState}
    (hlegacy : s.storage.legacy = some r) (hkept : (backfillStep key s a).Kept)
    (hstorage : (backfillStep key s a).storage = (migrate key cut s.storage r).1)
    (hblind : OpensBlind s.storage a ↔
      (stopsAt cut .replaceDebts = false ∨ landsAt cut .replaceDebts = true)) :
    StepOwes key s a := by
  have hrows := migrate_rows key cut s.storage r
  by_cases hlands : stopsAt cut .replaceDebts = false ∨ landsAt cut .replaceDebts = true
  · rw [if_pos hlands] at hrows
    have harchived : ∀ id, id ∈ (backfillStep key s a).archivedRows ↔ id ∈ r.archived := fun id => by
      rw [archivedRows, hstorage, hrows]
      exact mem_archived_replaceDebtSet h.keys (h.record r hlegacy) id
    refine ⟨⟨fun hsafe _ id hid => ?_, fun hknown => ⟨hkept.remembers, fun id hid => ?_⟩⟩,
      fun _ => hkept⟩
    · rw [hlegacy]
      exact (harchived id).mp (hsafe.2 hid)
    · have := hknown (hblind.mpr hlands) hid
      rw [hlegacy] at this
      exact (harchived id).mpr this
  · rw [if_neg hlands] at hrows
    refine owes_of_kept key hkept ?_ fun hopens => hlands (hblind.mp hopens)
    rw [archivedRows_of_rows (by rw [hstorage, hrows])]
    exact List.Subset.refl _

lemma owes_openLedger (cut : Option Interrupt) : StepOwes key s (.openLedger cut) := by
  cases hheader : s.storage.header with
  | some header =>
    obtain ⟨hkept, hstorage⟩ := openLedger_headed h key cut hheader
    refine owes_of_kept key hkept ?_ fun hopens => ?_
    · rw [archivedRows_of_rows (by rw [hstorage])]
      exact List.Subset.refl _
    · rw [OpensBlind, hheader] at hopens
      cases hopens.1
  | none =>
    by_cases hreads : stopsAt cut .loadHeader = false ∧ stopsAt cut .loadLegacy = false
    · cases hlegacy : s.storage.legacy with
      | none =>
        have hopens : OpensBlind s.storage (.openLedger cut) :=
          ⟨hheader, hreads.1, hreads.2, fun hsome => by rw [hlegacy] at hsome; cases hsome⟩
        rw [StepOwes, openLedger_fresh key cut hheader hlegacy hreads, hlegacy]
        refine ⟨⟨fun hsafe _ id hid => (hsafe.1 _ _ rfl id hid).1, fun hknown => ?_⟩,
          fun hknown => ⟨h.keys, h.record, ?_⟩⟩
        · refine ⟨?_, List.Subset.refl _⟩
          rintro ledger state ⟨⟩ id hid
          cases hknown hopens hid
        · rintro ledger state ⟨⟩
          exact ⟨⟨List.nodup_nil, List.nodup_nil, nofun⟩, hknown hopens, List.Subset.refl _⟩
      | some r =>
        obtain ⟨hkept, hstorage⟩ := openLedger_moves h key cut hheader hlegacy hreads
        refine h.owes_of_moves key hlegacy hkept hstorage ?_
        simp [OpensBlind, hheader, hreads, hlegacy]
    · have hstep := openLedger_stopped key cut hheader hreads
      refine owes_of_kept key (by rw [hstep]; exact h.ended) ?_ fun hopens =>
        hreads ⟨hopens.2.1, hopens.2.2.1⟩
      rw [hstep]
      exact List.Subset.refl _

lemma owes_migrateOneLegacyKey (cut : Option Interrupt) :
    StepOwes key s (.migrateOneLegacyKey cut) := by
  have hended : ∀ storage : LedgerStorage, storage.rows = s.storage.rows →
      (storage.legacy = s.storage.legacy ∨ storage.legacy = none) →
        backfillStep key s (.migrateOneLegacyKey cut) = ⟨storage, none⟩ →
          ¬ OpensBlind s.storage (.migrateOneLegacyKey cut) →
            StepOwes key s (.migrateOneLegacyKey cut) := by
    intro storage hrows hlegacy hstep hblind
    refine owes_of_kept key ?_ ?_ hblind
    · rw [hstep]
      refine ⟨by rw [hrows]; exact h.keys, fun r hr => ?_, nofun⟩
      rcases hlegacy with hlegacy | hlegacy
      · exact h.record r (hlegacy ▸ hr)
      · rw [hlegacy] at hr
        cases hr
    · have harchived : BackfillSite.archivedRows ⟨storage, none⟩ = s.archivedRows :=
        archivedRows_of_rows hrows
      rw [hstep, harchived]
      exact List.Subset.refl _
  cases hlegacy : s.storage.legacy with
  | none =>
    refine hended s.storage rfl (Or.inl rfl) ?_ fun hopens => ?_
    · simp [backfillStep, migrateOneLegacyKey, hlegacy]
    · have := hopens.2.2.2.1
      rw [hlegacy] at this
      cases this
  | some r =>
    cases hheader : s.storage.header with
    | some header =>
      have hblind : ¬ OpensBlind s.storage (.migrateOneLegacyKey cut) := fun hopens => by
        have := hopens.1
        rw [hheader] at this
        cases this
      have hstep : backfillStep key s (.migrateOneLegacyKey cut) =
          ⟨(completeInterruptedMigration key cut s.storage r).1, none⟩ := by
        simp [backfillStep, migrateOneLegacyKey, hlegacy, hheader]
      have hresult : (completeInterruptedMigration key cut s.storage r).1 = s.storage ∨
          (completeInterruptedMigration key cut s.storage r).1 = { s.storage with legacy := none } := by
        dsimp only [completeInterruptedMigration]
        split
        · exact Or.inl rfl
        · split
          · exact Or.inl rfl
          · split
            · exact Or.inl rfl
            · exact Or.inr rfl
      rcases hresult with hsame | hremoved
      · exact hended s.storage rfl (Or.inl rfl) (by rw [hstep, hsame]) hblind
      · exact hended { s.storage with legacy := none } rfl (Or.inr rfl) (by rw [hstep, hremoved])
          hblind
    | none =>
      have hstep : backfillStep key s (.migrateOneLegacyKey cut) =
          ⟨(openLedger key cut s.storage).1, none⟩ := by
        simp [backfillStep, migrateOneLegacyKey, hlegacy, hheader]
      by_cases hreads : stopsAt cut .loadHeader = false ∧ stopsAt cut .loadLegacy = false
      · have hopen : openLedger key cut s.storage = migrate key cut s.storage r := by
          simp [openLedger, openFromLegacy, hheader, hlegacy, hreads]
        rw [hopen] at hstep
        refine h.owes_of_moves key hlegacy ?_ (by rw [hstep]) ?_
        · rw [hstep]
          exact (h.migrated key cut hlegacy).1
        · simp [OpensBlind, hheader, hreads, hlegacy]
      · have hopen : (openLedger key cut s.storage).1 = s.storage := by
          have hstopped := openLedger_stopped key cut hheader hreads
          dsimp only [backfillStep] at hstopped
          split at hstopped
          next storage ledger state heq => cases hstopped
          next storage outcome _ heq =>
            rw [heq]
            exact congrArg BackfillSite.storage hstopped
        exact hended s.storage rfl (Or.inl rfl) (by rw [hstep, hopen]) fun hopens =>
          hreads ⟨hopens.2.1, hopens.2.2.1⟩

lemma owes_of_update {a : BackfillAction} {f : BackfillState → BackfillState}
    (hstep : backfillStep key s a = s.update f) (hblind : ¬ OpensBlind s.storage a)
    (hf : ∀ state : BackfillState, state.Sound →
      (f state).Sound ∧ state.archived ⊆ (f state).archived) : StepOwes key s a := by
  refine owes_of_kept key ?_ (by rw [hstep]; exact List.Subset.refl _) hblind
  rw [hstep]
  refine ⟨h.keys, h.record, fun ledger state hsession => ?_⟩
  obtain ⟨⟨ledger', state'⟩, hopen, heq⟩ := Option.map_eq_some_iff.mp hsession
  obtain ⟨rfl, rfl⟩ := Prod.mk.inj heq
  have hknows := h.session _ _ hopen
  obtain ⟨hsound, hkept⟩ := hf state' hknows.sound
  exact ⟨hsound, hknows.archived, List.Subset.trans hknows.kept hkept⟩

lemma owes_save (fate : SaveFate) : StepOwes key s (.save fate) := by
  cases hsession : s.session with
  | none =>
    have hstep : backfillStep key s (.save fate) = s := by
      simp [backfillStep, saveLedger, hsession]
    exact owes_of_kept key (by rw [hstep]; exact h) (by rw [hstep]; exact List.Subset.refl _) (by rintro ⟨⟩)
  | some session =>
    obtain ⟨ledger, state⟩ := session
    have hknows := h.session ledger state hsession
    have hsaved := hknows.saved
    have hkeys : ((savedRows s.storage.rows ledger state).map Prod.fst).Nodup := by
      rw [savedRows]
      split
      · exact h.keys
      · exact applyDebtDiff_nodup h.keys _ _
    have harchived : s.archivedRows ⊆ idsIn .archived (savedRows s.storage.rows ledger state) :=
      fun id hid => (hknows.savedRows_archived id).mpr (Or.inl hid)
    have hstep : backfillStep key s (.save fate) =
        saveLedger ⟨s.storage, some (ledger, state)⟩ fate := by rw [← hsession]; rfl
    rw [saveLedger_eq] at hstep
    cases fate with
    | refused =>
      exact owes_of_kept key (by rw [hstep]; exact h.ended)
        (by rw [hstep]; exact List.Subset.refl _) (by rintro ⟨⟩)
    | diesBetween =>
      exact owes_of_kept key (by rw [hstep]; exact ⟨hkeys, h.record, by rintro _ _ ⟨⟩⟩)
        (by rw [hstep]; exact harchived) (by rintro ⟨⟩)
    | completes =>
      refine owes_of_kept key ?_ (by rw [hstep]; exact harchived) (by rintro ⟨⟩)
      rw [hstep]
      refine ⟨hkeys, h.record, ?_⟩
      rintro ledger state ⟨⟩
      exact hsaved

theorem owes (a : BackfillAction) : StepOwes key s a := by
  cases a with
  | openLedger cut => exact h.owes_openLedger key cut
  | migrateOneLegacyKey cut => exact h.owes_migrateOneLegacyKey key cut
  | enqueueDebts ids =>
    have hstep : backfillStep key s (.enqueueDebts ids) =
        s.update fun state => (enqueueDebts state ids).1 := rfl
    refine h.owes_of_update key hstep (nofun) fun state hsound => ?_
    obtain ⟨hnext, harchived⟩ := enqueueDebts_spec hsound ids
    exact ⟨hnext, by rw [harchived]; exact List.Subset.refl _⟩
  | settleDebt id =>
    have hstep : backfillStep key s (.settleDebt id) =
        s.update fun state => settleDebt state id := rfl
    refine h.owes_of_update key hstep (nofun) fun state hsound => ?_
    obtain ⟨hnext, hstart⟩ := settleDebt_spec hsound id
    exact ⟨hnext, hstart.subset⟩
  | dropDebt id =>
    have hstep : backfillStep key s (.dropDebt id) = s.update fun state => dropDebt state id := rfl
    refine h.owes_of_update key hstep (nofun) fun state hsound => ?_
    obtain ⟨hnext, harchived⟩ := dropDebt_spec hsound id
    exact ⟨hnext, by rw [harchived]; exact List.Subset.refl _⟩
  | save fate => exact h.owes_save key fate
  | kill => exact owes_of_kept key h.ended (List.Subset.refl _) (nofun)

end BackfillSite.Kept

lemma commitRegistry_kept {s : RegisteredSite} (h : s.site.Kept) (key : ScopeKey)
    (w : RegistryWrite) (diesAfter : Option ℕ) :
    (commitRegistry key s w diesAfter).site.Kept ∧
      (commitRegistry key s w diesAfter).site.archivedRows = s.site.archivedRows := by
  refine ⟨⟨h.keys, h.record, fun ledger state hsession => ?_⟩, rfl⟩
  dsimp only [commitRegistry] at hsession
  split at hsession
  · exact h.session ledger state hsession
  · cases hsession

lemma registeredStep_owes {s : RegisteredSite} (h : s.site.Kept) (key : ScopeKey)
    (a : RegisteredAction) : (NeverRefetches key s a ↔ HeaderAtHand s a) ∧
      (HeaderAtHand s a → (registeredStep key s a).site.Kept) := by
  have hcommit : ∀ w diesAfter, registeredStep key s a = commitRegistry key s w diesAfter →
      HeaderAtHand s a → (NeverRefetches key s a ↔ HeaderAtHand s a) ∧
        (HeaderAtHand s a → (registeredStep key s a).site.Kept) := by
    intro w diesAfter hstep hknown
    obtain ⟨hkept, harchived⟩ := commitRegistry_kept h key w diesAfter
    rw [← hstep] at hkept harchived
    have hsafe := neverRefetches_of_kept hkept (by rw [harchived]; exact List.Subset.refl _)
    exact ⟨iff_of_true hsafe hknown, fun _ => hkept⟩
  cases a with
  | backfill a => exact h.owes key a
  | rememberTarget active target diesAfter =>
    cases hwrite : rememberTarget active s.targets target with
    | none =>
      have hstep : registeredStep key s (.rememberTarget active target diesAfter) = s := by
        simp [registeredStep, hwrite]
      have hkept : (registeredStep key s (.rememberTarget active target diesAfter)).site.Kept := by
        rwa [hstep]
      exact ⟨iff_of_true (neverRefetches_of_kept hkept (by rw [hstep]; exact List.Subset.refl _))
        trivial, fun _ => hkept⟩
    | some w => exact hcommit w diesAfter (by simp [registeredStep, hwrite]) trivial
  | rememberOrganizationScopedTarget active isOrg target diesAfter =>
    exact hcommit _ diesAfter rfl trivial

/-- Over any run of registrations, evictions, openings, debt operations, saves and kills: archived
debts stay archived and known to every ledger opened exactly when no ledger is opened while the
header of a scope with archived records is missing. -/
theorem archived_never_refetched_iff (key : ScopeKey) (targets : List BackfillTarget)
    (legacy : Option { r : LegacyBackfillState // (r.pending ++ r.archived).Nodup })
    (as : List RegisteredAction) :
    StepRun.Along (registeredStep key) (NeverRefetches key) (.start targets legacy) as ↔
      StepRun.Along (registeredStep key) HeaderAtHand (.start targets legacy) as := by
  suffices hall : ∀ s : RegisteredSite, s.site.Kept →
      (StepRun.Along (registeredStep key) (NeverRefetches key) s as ↔
        StepRun.Along (registeredStep key) HeaderAtHand s as) by
    refine hall _ ⟨List.nodup_nil, fun r hr => ?_, nofun⟩
    obtain ⟨r', -, rfl⟩ := Option.map_eq_some_iff.mp hr
    exact r'.2
  induction as with
  | nil => simp
  | cons a as ih =>
    intro s hs
    obtain ⟨hiff, hkept⟩ := registeredStep_owes hs key a
    rw [StepRun.along_cons, StepRun.along_cons, hiff]
    exact and_congr_right fun hknown => ih _ (hkept hknown)

/-- A scope whose one conversation was archived before eight other scopes were registered. -/
def evictedRun : List RegisteredAction :=
  .rememberTarget (fun _ => true) ⟨"claude", "org-0"⟩ none ::
    [.backfill (.openLedger none), .backfill (.enqueueDebts [['a']]),
      .backfill (.settleDebt ['a']), .backfill (.save .completes), .backfill .kill] ++
    (["org-1", "org-2", "org-3", "org-4", "org-5", "org-6", "org-7", "org-8"].map fun scope =>
      .rememberTarget (fun _ => true) ⟨"claude", scope⟩ none)

/-- The ledger opened after the eviction no longer lists the archived conversation. -/
theorem evicted_scope_forgets : ¬ StepRun.Along (registeredStep ⟨"claude", "org-0"⟩)
    (NeverRefetches ⟨"claude", "org-0"⟩) (.start [] none)
      (evictedRun ++ [.backfill (.openLedger none)]) := by
  intro h
  obtain ⟨-, hopen, -⟩ := (StepRun.along_append _ _ _ _ _).mp h
  have hsession : (registeredStep ⟨"claude", "org-0"⟩ (StepRun.exec
      (registeredStep ⟨"claude", "org-0"⟩) (.start [] none) evictedRun)
        (.backfill (.openLedger none))).site.session = some (⟨[], [], 1⟩, ⟨[], []⟩) := by
    decide +kernel
  have harchived : ['a'] ∈ (registeredStep ⟨"claude", "org-0"⟩ (StepRun.exec
      (registeredStep ⟨"claude", "org-0"⟩) (.start [] none) evictedRun)
        (.backfill (.openLedger none))).site.archivedRows := by
    decide +kernel
  cases (hopen.1 _ _ hsession _ harchived).1

end ChatStasher
