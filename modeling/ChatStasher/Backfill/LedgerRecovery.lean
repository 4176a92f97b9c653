import ChatStasher.Backfill.Enumeration
import ChatStasher.Backfill.LegacyMove

/-! The repair of a scope whose debt rows were destroyed, and what the runs after it list again. -/
namespace ChatStasher.LedgerRecovery

/-- The note a repair leaves. -/
structure Relisted where
  since : ℤ
  recorded : ℕ
  held : ℕ
  deriving DecidableEq

/-- The header of a scope but for its counts: the cursors of its lists, the note of the last repair, and
the other fields `R`. -/
structure ListHeader (F R : Type*) where
  enumCursor : EnumCursor F
  chatgptEnumeration : Option ChatGptEnumeration
  relisted : Option Relisted
  rest : R
  deriving DecidableEq

/-- A scope with its storage and run, its header, and the ids that its store has held and let go. -/
structure Site (F R : Type*) where
  site : BackfillSite
  header : ListHeader F R
  gone : List Ident

/-- The platform and account of a scope. -/
structure ScopeKind where
  plan : ListPlan
  chatgpt : Bool
  workspaceScoped : Bool

inductive RecoveryRefusal
  | noLoss
  | stateUnreadable
  | storageUnavailable
  | notWritten
  deriving DecidableEq

section Recovery
variable {F R : Type*}

def heldRows (rows : DebtRows) : List Ident := idsIn .pending rows ++ idsIn .archived rows

def Site.held (s : Site F R) : List Ident := heldRows s.site.storage.rows

/-- `recoverLedgerLoss`: reset the main cursor and write the counts the store has. The debts may not be
readable, and the header's write may fail, landed or not. -/
def recoverLedgerLoss (s : Site F R) (now : ℤ) (readable : Bool) (write : Option Bool) :
    Site F R × Except RecoveryRefusal DebtLoss :=
  match s.site.storage.header with
  | none => (s, .error .stateUnreadable)
  | some counts =>
    if readable then
      let snapshot := readDebtSet s.site.storage.rows
      match debtLossBetween counts snapshot with
      | none => (s, .error .noLoss)
      | some loss =>
        let state : BackfillState := ⟨snapshot.pending, snapshot.archived⟩
        let written : Site F R :=
          { s with
            site.storage.header := some (headerOf state)
            header.enumCursor := .start
            header.relisted := some ⟨now, loss.recorded, loss.held⟩ }
        match write with
        | none => (written, .ok loss)
        | some landed => (if landed then written else s, .error .notWritten)
    else (s, .error .storageUnavailable)

def Site.idle (storage : LedgerStorage) (header : ListHeader F R) : Site F R :=
  ⟨⟨storage, none⟩, header, []⟩

end Recovery

section Runs
variable {F R : Type*} [DecidableEq F] (key : ScopeKey) (kind : ScopeKind)
variable (fingerprint : List Ident → F) (lists : AccountLists)

def ListHeader.enumeration (h : ListHeader F R) : ChatGptEnumeration :=
  h.chatgptEnumeration.getD newChatGptEnumeration

/-- A ChatGPT header without the further lists' cursors gets fresh ones when it is opened. -/
def ListHeader.opened (h : ListHeader F R) : ListHeader F R :=
  if kind.chatgpt then { h with chatgptEnumeration := some h.enumeration } else h

inductive Action
  | openLedger (cut : Option Interrupt)
  /-- A page of the main list is answered and what it brings is saved. -/
  | mainPage (fate : SaveFate)
  /-- A page of one of the further lists, while the ids in `parkedEmpty` are parked. -/
  | auxPage (parkedEmpty : List Ident) (fate : SaveFate)
  /-- The body of a debt of the run was archived, or is not to be had. -/
  | settleDebt (id : Ident)
  | dropDebt (id : Ident)
  | save (fate : SaveFate)
  /-- The attempt of a run that was refused to repair its scope. -/
  | recover (now : ℤ) (readable : Bool) (write : Option Bool)
  | kill

def Site.saved (s : Site F R) (ledger : Ledger) (state : BackfillState) (header : ListHeader F R)
    (fate : SaveFate) : Site F R :=
  let site := saveLedger ⟨s.site.storage, some (ledger, state)⟩ fate
  { site
    header := match fate with
      | .completes => header
      | _ => s.header
    gone := (s.gone ++ s.held).filter fun id => id ∉ heldRows site.storage.rows }

def Site.stopped (s : Site F R) : Site F R := { s with site.session := none }

def step (s : Site F R) : Action → Site F R
  | .openLedger cut => { s with site := backfillStep key s.site (.openLedger cut) }
  | .mainPage fate =>
    match s.site.session with
    | none => s
    | some (ledger, state) =>
      if s.header.enumCursor.done then s
      else
        let page := lists.mainPage s.header.enumCursor
        match readMainPage kind.plan fingerprint s.header.enumCursor page with
        | none => s.stopped
        | some enumCursor =>
          s.saved ledger (enqueueDebts state page.ids).1
            { s.header.opened kind with enumCursor } fate
  | .auxPage parkedEmpty fate =>
    match s.site.session with
    | none => s
    | some (ledger, state) =>
      if kind.chatgpt && s.header.enumCursor.complete &&
          state.pending.all fun id => id ∈ parkedEmpty then
        match auxSource kind.workspaceScoped s.header.enumeration with
        | none => s
        | some source =>
          match readAuxPage lists s.header.enumeration source with
          | none => s.stopped
          | some (enumeration, ids) =>
            s.saved ledger (enqueueDebts state ids).1
              { s.header with chatgptEnumeration := some enumeration } fate
      else s
  | .settleDebt id =>
    { s with site := s.site.update fun state =>
        if id ∈ state.pending then settleDebt state id else state }
  | .dropDebt id => { s with site := s.site.update fun state => dropDebt state id }
  | .save fate =>
    match s.site.session with
    | none => s
    | some (ledger, state) => s.saved ledger state (s.header.opened kind) fate
  | .recover now readable write =>
    match s.site.session with
    | none => (recoverLedgerLoss s now readable write).1
    | some _ => s
  | .kill => s.stopped

def Names (h : ListHeader F R) (id : Ident) : Prop :=
  id ≠ [] ∧ ((lists.mainPages kind.plan fingerprint).Names h.enumCursor id ∨
    kind.chatgpt = true ∧ lists.AuxName kind.workspaceScoped h.enumeration id)

def ListNames (id : Ident) : Prop :=
  id ≠ [] ∧ ((lists.mainPages kind.plan fingerprint).Names .start id ∨
    kind.chatgpt = true ∧ lists.AuxName kind.workspaceScoped newChatGptEnumeration id)

def ListHeader.Read (h : ListHeader F R) : Prop :=
  h.enumCursor.done = true ∧
    (kind.chatgpt = true → auxSource kind.workspaceScoped h.enumeration = none)

end Runs

section Names
variable {F R : Type*} {kind : ScopeKind} {fingerprint : List Ident → F}
variable {lists : AccountLists} {h : ListHeader F R} {id : Ident}

@[simp] lemma opened_enumeration (h : ListHeader F R) : (h.opened kind).enumeration = h.enumeration := by
  unfold ListHeader.opened
  split_ifs <;> rfl

@[simp] lemma opened_enumCursor (h : ListHeader F R) : (h.opened kind).enumCursor = h.enumCursor := by
  unfold ListHeader.opened
  split_ifs <;> rfl

variable [DecidableEq F]

lemma names_opened : Names kind fingerprint lists (h.opened kind) id ↔
    Names kind fingerprint lists h id := by
  simp [Names]

lemma not_names_of_read (hread : h.Read kind) : ¬ Names kind fingerprint lists h id := by
  rintro ⟨-, hmain | ⟨hchatgpt, haux⟩⟩
  · exact PagedList.not_names_of_done hread.1 hmain
  · exact not_auxName_of_no_source (hread.2 hchatgpt) id haux

lemma names_mainPage {enumCursor : EnumCursor F} (hopen : h.enumCursor.done = false)
    (hread : readMainPage kind.plan fingerprint h.enumCursor (lists.mainPage h.enumCursor) =
      some enumCursor) :
    Names kind fingerprint lists h id ↔
      id ∈ (lists.mainPage h.enumCursor).ids.filter (fun id => id ≠ []) ∨
        Names kind fingerprint lists { h.opened kind with enumCursor } id := by
  have hmain := @PagedList.names_iff _ _ (lists.mainPages kind.plan fingerprint) _ _ id hopen hread
  have henumeration :
      ({ h.opened kind with enumCursor } : ListHeader F R).enumeration = h.enumeration :=
    opened_enumeration h
  unfold Names
  rw [hmain, henumeration, List.mem_filter, decide_eq_true_eq]
  exact ⟨fun ⟨hne, hor⟩ => by tauto, fun hor => by tauto⟩

lemma names_auxPage {source : AuxSource} {enumeration : ChatGptEnumeration} {ids : List Ident}
    (hchatgpt : kind.chatgpt = true)
    (hsource : auxSource kind.workspaceScoped h.enumeration = some source)
    (hread : readAuxPage lists h.enumeration source = some (enumeration, ids)) :
    Names kind fingerprint lists h id ↔ id ∈ ids.filter (fun id => id ≠ []) ∨
      Names kind fingerprint lists { h with chatgptEnumeration := some enumeration } id := by
  have haux := auxName_iff hsource hread id
  unfold Names
  rw [haux, List.mem_filter, decide_eq_true_eq]
  have henumeration : ({ h with chatgptEnumeration := some enumeration } : ListHeader F R).enumeration =
      enumeration := rfl
  rw [henumeration]
  simp only [hchatgpt, true_and]
  constructor <;> intro hor <;> tauto

end Names

section Invariant
variable {F R : Type*} [DecidableEq F] {key : ScopeKey} {kind : ScopeKind}
variable {fingerprint : List Ident → F} {lists : AccountLists} {K : Ident → Prop} {s : Site F R}

/-- After a repair the ids in question are those the store holds, those still named, and those let go
since; and a run's memory has nothing the store has not. -/
structure Accounts (kind : ScopeKind) (fingerprint : List Ident → F) (lists : AccountLists)
    (K : Ident → Prop) (s : Site F R) : Prop where
  header : s.site.storage.header.isSome
  rows : RowsOrdered s.site.storage.rows
  session : ∀ opened ∈ s.site.session, Tracks s.site.storage.rows opened.1 opened.2 ∧
    ∀ id ∈ opened.2.held, id ∈ s.held
  apart : ∀ id ∈ s.gone, id ∉ s.held
  covers : ∀ id, K id ↔ id ∈ s.held ∨ Names kind fingerprint lists s.header id ∨ id ∈ s.gone
  main : ∀ id, id ≠ [] → (lists.mainPages kind.plan fingerprint).Names .start id → K id
  cursor : ∀ id, (lists.mainPages kind.plan fingerprint).Names s.header.enumCursor id →
    (lists.mainPages kind.plan fingerprint).Names .start id

lemma mem_heldRows_saved {rows : DebtRows} {ledger : Ledger} {state : BackfillState}
    (hrows : RowsOrdered rows) (h : Tracks rows ledger state) (id : Ident) :
    id ∈ heldRows (savedRows rows ledger state) ↔ id ∈ state.held := by
  have hpending := (filter_mem_append_perm (hrows.idsIn_nodup .pending) h.sound.pending).mem_iff (a := id)
  unfold heldRows BackfillState.held
  rw [savedRows_pending hrows h, savedRows_archived hrows h, List.mem_append, hpending, List.mem_append]

lemma Accounts.stopped (h : Accounts kind fingerprint lists K s) :
    Accounts kind fingerprint lists K s.stopped :=
  { h with session := fun opened hopened => (Option.not_mem_none opened hopened).elim }

/-- A save of what the run has in memory, with a header whose cursors have moved past what it took on. -/
lemma Accounts.saved (h : Accounts kind fingerprint lists K s) {ledger : Ledger}
    {state : BackfillState} {header : ListHeader F R}
    (htracks : Tracks s.site.storage.rows ledger state)
    (hheld : ∀ id ∈ state.held, id ∈ s.held ∨ Names kind fingerprint lists s.header id)
    (hnext : ∀ id, Names kind fingerprint lists header id → Names kind fingerprint lists s.header id)
    (hpassed : ∀ id, Names kind fingerprint lists s.header id →
      Names kind fingerprint lists header id ∨ id ∈ state.held)
    (hcursor : ∀ id, (lists.mainPages kind.plan fingerprint).Names header.enumCursor id →
      (lists.mainPages kind.plan fingerprint).Names s.header.enumCursor id) (fate : SaveFate) :
    Accounts kind fingerprint lists K (s.saved ledger state header fate) := by
  have hmem := mem_heldRows_saved h.rows htracks
  have hlocal : ∀ id, id ∈ s.held → (id ∈ (s.gone ++ s.held).filter fun id =>
      id ∉ heldRows (savedRows s.site.storage.rows ledger state)) ∨ id ∈ state.held := by
    intro id hid
    by_cases hstays : id ∈ state.held
    · exact .inr hstays
    · refine .inl (List.mem_filter.mpr ⟨List.mem_append_right _ hid, ?_⟩)
      rwa [decide_eq_true_eq, hmem]
  have hgone : ∀ id, id ∈ s.gone → (id ∈ (s.gone ++ s.held).filter fun id =>
      id ∉ heldRows (savedRows s.site.storage.rows ledger state)) ∨ id ∈ state.held := by
    intro id hid
    by_cases hstays : id ∈ state.held
    · exact .inr hstays
    · refine .inl (List.mem_filter.mpr ⟨List.mem_append_left _ hid, ?_⟩)
      rwa [decide_eq_true_eq, hmem]
  have hback : ∀ id, (id ∈ (s.gone ++ s.held).filter fun id =>
      id ∉ heldRows (savedRows s.site.storage.rows ledger state)) → K id := by
    intro id hid
    rw [h.covers]
    rcases List.mem_append.mp (List.mem_filter.mp hid).1 with hid | hid
    · exact .inr (.inr hid)
    · exact .inl hid
  have hfrom : ∀ id ∈ state.held, K id := by
    intro id hid
    rw [h.covers]
    rcases hheld id hid with hid | hid
    · exact .inl hid
    · exact .inr (.inl hid)
  unfold Site.saved
  rw [saveLedger_eq]
  cases fate with
  | refused =>
    refine ⟨h.header, h.rows, fun opened hopened => (Option.not_mem_none opened hopened).elim, ?_,
      fun id => ?_, h.main, h.cursor⟩
    · exact fun id hid => of_decide_eq_true (List.mem_filter.mp hid).2
    · rw [h.covers id]
      refine or_congr_right (or_congr_right ⟨fun hid => ?_, fun hid => ?_⟩)
      · exact List.mem_filter.mpr ⟨List.mem_append_left _ hid, decide_eq_true (h.apart id hid)⟩
      · obtain ⟨hin, hnot⟩ := List.mem_filter.mp hid
        exact (List.mem_append.mp hin).resolve_right (of_decide_eq_true hnot)
  | diesBetween =>
    refine ⟨h.header, (savedRows_ordered h.rows htracks |>.1),
      fun opened hopened => (Option.not_mem_none opened hopened).elim, ?_, fun id => ?_, h.main,
      h.cursor⟩
    · exact fun id hid => of_decide_eq_true (List.mem_filter.mp hid).2
    · constructor
      · intro hK
        rcases (h.covers id).mp hK with hid | hid | hid
        · exact (hlocal id hid).elim (fun hid => .inr (.inr hid)) fun hid => .inl ((hmem id).mpr hid)
        · exact .inr (.inl hid)
        · exact (hgone id hid).elim (fun hid => .inr (.inr hid)) fun hid => .inl ((hmem id).mpr hid)
      · rintro (hid | hid | hid)
        · exact hfrom id ((hmem id).mp hid)
        · exact (h.covers id).mpr (.inr (.inl hid))
        · exact hback id hid
  | completes =>
    refine ⟨rfl, (savedRows_ordered h.rows htracks).1, ?_, ?_, fun id => ?_, h.main,
      fun id hid => h.cursor id (hcursor id hid)⟩
    · rintro opened ⟨⟩
      exact ⟨savedLedger_tracks h.rows htracks, fun id hid => (hmem id).mpr hid⟩
    · exact fun id hid => of_decide_eq_true (List.mem_filter.mp hid).2
    · constructor
      · intro hK
        rcases (h.covers id).mp hK with hid | hid | hid
        · exact (hlocal id hid).elim (fun hid => .inr (.inr hid)) fun hid => .inl ((hmem id).mpr hid)
        · exact (hpassed id hid).elim (fun hid => .inr (.inl hid)) fun hid =>
            .inl ((hmem id).mpr hid)
        · exact (hgone id hid).elim (fun hid => .inr (.inr hid)) fun hid => .inl ((hmem id).mpr hid)
      · rintro (hid | hid | hid)
        · exact hfrom id ((hmem id).mp hid)
        · exact (h.covers id).mpr (.inr (.inl (hnext id hid)))
        · exact hback id hid

lemma Accounts.page (h : Accounts kind fingerprint lists K s) {ledger : Ledger} {state : BackfillState}
    (hsession : (ledger, state) ∈ s.site.session) {header : ListHeader F R} {ids : List Ident}
    (hparts : ∀ id, Names kind fingerprint lists s.header id ↔
      id ∈ ids.filter (fun id => id ≠ []) ∨ Names kind fingerprint lists header id)
    (hcursor : ∀ id, (lists.mainPages kind.plan fingerprint).Names header.enumCursor id →
      (lists.mainPages kind.plan fingerprint).Names s.header.enumCursor id) (fate : SaveFate) :
    Accounts kind fingerprint lists K (s.saved ledger (enqueueDebts state ids).1 header fate) := by
  obtain ⟨htracks, hmemory⟩ := h.session _ hsession
  refine h.saved (htracks.enqueueDebts ids) (fun id hid => ?_) (fun id hid => ?_) (fun id hid => ?_)
    hcursor fate
  · rcases (held_enqueueDebts state ids).mp hid with hid | hid
    · exact .inl (hmemory id hid)
    · exact .inr ((hparts id).mpr (.inl hid))
  · exact (hparts id).mpr (.inr hid)
  · rcases (hparts id).mp hid with hid | hid
    · exact .inr ((held_enqueueDebts state ids).mpr (.inr hid))
    · exact .inl hid

lemma Accounts.opened (h : Accounts kind fingerprint lists K s) (cut : Option Interrupt) :
    Accounts kind fingerprint lists K (step key kind fingerprint lists s (.openLedger cut)) := by
  obtain ⟨counts, hcounts⟩ := Option.isSome_iff_exists.mp h.header
  have hstopped : ∀ t, t = s.stopped → Accounts kind fingerprint lists K t := fun t ht => ht ▸ h.stopped
  by_cases hstops : stopsAt cut .loadHeader = true
  · exact hstopped _ (by simp [step, backfillStep, openLedger, hstops, Site.stopped])
  · cases hopen : openHeaderLedger key cut s.site.storage counts with
    | opened ledger state =>
      obtain ⟨rfl, rfl⟩ := openHeaderLedger_opened hopen
      simp only [step, backfillStep, openLedger, hstops, hcounts, hopen]
      refine { h with session := ?_ }
      rintro opened ⟨⟩
      refine ⟨tracks_of_readDebtSet h.rows, fun id hid => ?_⟩
      rwa [readDebtSet_sorted h.rows.sorted] at hid
    | refused r =>
      exact hstopped _ (by simp [step, backfillStep, openLedger, hstops, hcounts, hopen, Site.stopped])
    | interrupted =>
      exact hstopped _ (by simp [step, backfillStep, openLedger, hstops, hcounts, hopen, Site.stopped])

lemma Accounts.updated (h : Accounts kind fingerprint lists K s) {f : BackfillState → BackfillState}
    (htracks : ∀ ledger state, Tracks s.site.storage.rows ledger state →
      Tracks s.site.storage.rows ledger (f state))
    (hheld : ∀ state, ∀ id ∈ (f state).held, id ∈ state.held) :
    Accounts kind fingerprint lists K { s with site := s.site.update f } := by
  refine { h with session := ?_ }
  intro opened hopened
  obtain ⟨⟨ledger, state⟩, hsession, rfl⟩ := Option.map_eq_some_iff.mp hopened
  obtain ⟨ht, hmemory⟩ := h.session _ hsession
  exact ⟨htracks ledger state ht, fun id hid => hmemory id (hheld state id hid)⟩

lemma Accounts.recovered (h : Accounts kind fingerprint lists K s) (now : ℤ) (readable : Bool) (write : Option Bool) :
    Accounts kind fingerprint lists K (recoverLedgerLoss s now readable write).1 := by
  unfold recoverLedgerLoss
  split
  · exact h
  · split_ifs
    · dsimp only
      split
      · exact h
      · have hwritten : ∀ loss : DebtLoss, Accounts kind fingerprint lists K { s with
            site.storage.header := some (headerOf
              ⟨(readDebtSet s.site.storage.rows).pending, (readDebtSet s.site.storage.rows).archived⟩)
            header.enumCursor := .start
            header.relisted := some ⟨now, loss.recorded, loss.held⟩ } := by
          intro loss
          refine ⟨rfl, h.rows, h.session, h.apart, fun id => ?_, h.main, fun id hid => hid⟩
          constructor
          · intro hK
            rcases (h.covers id).mp hK with hid | ⟨hne, hmain | haux⟩ | hid
            · exact .inl hid
            · exact .inr (.inl ⟨hne, .inl (h.cursor id hmain)⟩)
            · exact .inr (.inl ⟨hne, .inr haux⟩)
            · exact .inr (.inr hid)
          · rintro (hid | ⟨hne, hmain | haux⟩ | hid)
            · exact (h.covers id).mpr (.inl hid)
            · exact h.main id hne hmain
            · exact (h.covers id).mpr (.inr (.inl ⟨hne, .inr haux⟩))
            · exact (h.covers id).mpr (.inr (.inr hid))
        split
        · exact hwritten _
        · split_ifs
          · exact hwritten _
          · exact h
    · exact h

theorem Accounts.step (h : Accounts kind fingerprint lists K s) (a : Action) :
    Accounts kind fingerprint lists K (step key kind fingerprint lists s a) := by
  cases a with
  | openLedger cut => exact h.opened cut
  | kill => exact h.stopped
  | settleDebt id =>
    refine h.updated (fun ledger state ht => ?_) fun state id' hid => ?_
    · split_ifs
      · exact ht.settleDebt id
      · exact ht
    · split_ifs at hid with hpending
      · unfold settleDebt BackfillState.held at hid
        rcases List.mem_append.mp hid with hid | hid
        · exact List.mem_append_left _ (List.mem_of_mem_erase hid)
        · split_ifs at hid
          · exact List.mem_append_right _ hid
          · rcases List.mem_append.mp hid with hid | hid
            · exact List.mem_append_right _ hid
            · exact List.mem_singleton.mp hid ▸ List.mem_append_left _ hpending
      · exact hid
  | dropDebt id =>
    refine h.updated (fun ledger state ht => ht.dropDebt id) fun state id' hid => ?_
    exact (List.mem_append.mp hid).elim (fun hid => List.mem_append_left _ (List.mem_of_mem_erase hid))
      fun hid => List.mem_append_right _ hid
  | recover now readable write =>
    unfold LedgerRecovery.step
    cases s.site.session with
    | none => exact h.recovered now readable write
    | some opened => exact h
  | save fate =>
    unfold LedgerRecovery.step
    cases hsession : s.site.session with
    | none => exact h
    | some opened =>
      obtain ⟨ledger, state⟩ := opened
      obtain ⟨htracks, hmemory⟩ := h.session _ hsession
      exact h.saved htracks (fun id hid => .inl (hmemory id hid)) (fun id => names_opened.mp)
        (fun id hid => .inl (names_opened.mpr hid)) (fun id hid => by rwa [opened_enumCursor] at hid)
        fate
  | mainPage fate =>
    unfold LedgerRecovery.step
    cases hsession : s.site.session with
    | none => exact h
    | some opened =>
      obtain ⟨ledger, state⟩ := opened
      dsimp only
      split_ifs with hdone
      · exact h
      · cases hread : readMainPage kind.plan fingerprint s.header.enumCursor
            (lists.mainPage s.header.enumCursor) with
        | none => exact h.stopped
        | some enumCursor =>
          have hopen : s.header.enumCursor.done = false := by simpa using hdone
          exact h.page hsession (fun id => names_mainPage hopen hread)
            (fun id hid => .later hopen hread hid) fate
  | auxPage parkedEmpty fate =>
    unfold LedgerRecovery.step
    cases hsession : s.site.session with
    | none => exact h
    | some opened =>
      obtain ⟨ledger, state⟩ := opened
      dsimp only
      split_ifs with hturn
      · cases hsource : auxSource kind.workspaceScoped s.header.enumeration with
        | none => exact h
        | some source =>
          cases hread : readAuxPage lists s.header.enumeration source with
          | none => simpa only [hsource, hread] using h.stopped
          | some page =>
            obtain ⟨enumeration, ids⟩ := page
            simp only [Bool.and_eq_true] at hturn
            simpa only [hsource, hread] using
              h.page hsession (fun id => names_auxPage hturn.1.1 hsource hread) (fun id hid => hid) fate
      · exact h

omit [DecidableEq F] in
lemma recoverLedgerLoss_ok {t : Site F R} {now : ℤ} {loss : DebtLoss}
    (hrec : recoverLedgerLoss s now true none = (t, .ok loss)) :
    t = { s with
      site.storage.header := some ⟨(readDebtSet s.site.storage.rows).pending.length,
        (readDebtSet s.site.storage.rows).archived.length⟩
      header := { s.header with
        enumCursor := .start
        relisted := some ⟨now, loss.recorded, loss.held⟩ } } := by
  unfold recoverLedgerLoss at hrec
  split at hrec
  · cases hrec
  · simp only [if_true] at hrec
    split at hrec
    · cases hrec
    · cases hrec
      rfl

omit [DecidableEq F] in
lemma recoverLedgerLoss_again (hcounts : s.site.storage.header =
      some ⟨(readDebtSet s.site.storage.rows).pending.length,
        (readDebtSet s.site.storage.rows).archived.length⟩)
    (now : ℤ) (readable : Bool) (write : Option Bool) :
    (recoverLedgerLoss s now readable write).1 = s := by
  have hagree : debtLossBetween ⟨(readDebtSet s.site.storage.rows).pending.length,
      (readDebtSet s.site.storage.rows).archived.length⟩ (readDebtSet s.site.storage.rows) = none :=
    if_pos (le_refl _)
  cases readable with
  | false => simp [recoverLedgerLoss, hcounts]
  | true => simp [recoverLedgerLoss, hcounts, hagree]

end Invariant

/-- A repair changes the main cursor, its note and the counts only, and a second one changes nothing.
Once the runs after it have no page left to read, every id that the account's lists name is held again
exactly if each of them was still held, or was still to be listed from the cursors the repair left, and
has not been let go since. -/
theorem recovery_complete_iff {F R : Type*} [DecidableEq F] (key : ScopeKey) (kind : ScopeKind)
    (fingerprint : List Ident → F) (lists : AccountLists) {storage : LedgerStorage}
    {header : ListHeader F R} {now : ℤ} {loss : DebtLoss} {t : Site F R}
    (hrows : RowsOrdered storage.rows)
    (hrec : recoverLedgerLoss (.idle storage header) now true none = (t, .ok loss)) :
    (t.site.storage = { storage with header := some ⟨(readDebtSet storage.rows).pending.length,
        (readDebtSet storage.rows).archived.length⟩ } ∧
      t.header = { header with
        enumCursor := .start
        relisted := some ⟨now, loss.recorded, loss.held⟩ }) ∧
    (∀ now readable write, (recoverLedgerLoss t now readable write).1 = t) ∧
    ∀ as : List Action,
      (StepRun.exec (step key kind fingerprint lists) t as).header.Read kind →
        ((∀ id, ListNames kind fingerprint lists id →
            id ∈ (StepRun.exec (step key kind fingerprint lists) t as).held) ↔
          ∀ id, ListNames kind fingerprint lists id →
            (id ∈ heldRows storage.rows ∨ Names kind fingerprint lists t.header id) ∧
              id ∉ (StepRun.exec (step key kind fingerprint lists) t as).gone) := by
  have ht := recoverLedgerLoss_ok hrec
  have haccounts : Accounts kind fingerprint lists
      (fun id => id ∈ heldRows storage.rows ∨ Names kind fingerprint lists t.header id) t := by
    subst ht
    exact
      { header := rfl
        rows := hrows
        session := fun opened hopened => (Option.not_mem_none opened hopened).elim
        apart := fun id hid => (List.not_mem_nil hid).elim
        covers := fun id => or_congr_right (or_iff_left List.not_mem_nil).symm
        main := fun id hne hmain => .inr ⟨hne, .inl hmain⟩
        cursor := fun id hid => hid }
  refine ⟨by subst ht; exact ⟨rfl, rfl⟩, by subst ht; exact recoverLedgerLoss_again rfl,
    fun as hread => ?_⟩
  have hrun := @StepRun.invariant_all _ _ (step key kind fingerprint lists)
    (Accounts kind fingerprint lists
      fun id => id ∈ heldRows storage.rows ∨ Names kind fingerprint lists t.header id)
    (fun s a h => h.step a) t haccounts as
  refine forall_congr' fun id => forall_congr' fun _ => ⟨fun hheld => ?_, fun ⟨hknown, hkept⟩ => ?_⟩
  · exact ⟨(hrun.covers id).mpr (.inl hheld), fun hgone => hrun.apart id hgone hheld⟩
  · rcases (hrun.covers id).mp hknown with hheld | hnames | hgone
    · exact hheld
    · exact absurd hnames (not_names_of_read hread)
    · exact absurd hgone hkept

/-- A workspace-less ChatGPT scope whose main list names one conversation and whose archived list
another. -/
def oneArchived : AccountLists where
  main offset _ _ := ⟨if offset = 0 then [['m']] else [], none, none, none⟩
  archived offset := if offset = 0 then [['a']] else []
  projects _ := ([], none)
  conversations _ _ := ([], none)

def chatGptKind : ScopeKind := ⟨⟨false, false, false, false, 28⟩, true, false⟩

/-- Both lists were read to their ends, and then every row was destroyed. -/
def wiped : Site (List Ident) Unit :=
  .idle ⟨[], some ⟨0, 2⟩, none⟩
    ⟨⟨1, true, none, none, none, [[['m']]]⟩, some ⟨⟨1, true, some [['a']]⟩, ⟨none, false, []⟩⟩, none, ()⟩

def relisting : List Action := [.openLedger none, .mainPage .completes, .mainPage .completes]

def chatGptKey : ScopeKey := ⟨"chatgpt", "default"⟩

/-- The repaired scope, with nothing held and the archived list read. -/
def repaired : Site (List Ident) Unit := (recoverLedgerLoss wiped 0 true none).1

lemma wiped_rows : RowsOrdered wiped.site.storage.rows := ⟨List.Pairwise.nil, List.nodup_nil⟩

lemma relisting_read : (StepRun.exec (step chatGptKey chatGptKind id oneArchived) repaired
    relisting).header.Read chatGptKind := ⟨by decide +kernel, fun _ => by rfl⟩

theorem recovery_complete_wiped :
    (∀ id', ListNames chatGptKind id oneArchived id' →
        id' ∈ (StepRun.exec (step chatGptKey chatGptKind id oneArchived) repaired relisting).held) ↔
      ∀ id', ListNames chatGptKind id oneArchived id' →
        (id' ∈ heldRows wiped.site.storage.rows ∨
            Names chatGptKind id oneArchived repaired.header id') ∧
          id' ∉ (StepRun.exec (step chatGptKey chatGptKind id oneArchived) repaired relisting).gone :=
  (recovery_complete_iff chatGptKey chatGptKind id oneArchived wiped_rows
    (rfl : recoverLedgerLoss (.idle wiped.site.storage wiped.header) 0 true none =
      (repaired, .ok ⟨2, 0, 2⟩))).2.2 relisting relisting_read

theorem archived_list_not_relisted :
    ¬ ∀ (lists : AccountLists) (storage : LedgerStorage) (header : ListHeader (List Ident) Unit)
        (t : Site (List Ident) Unit) (loss : DebtLoss) (as : List Action),
      RowsOrdered storage.rows → recoverLedgerLoss (.idle storage header) 0 true none = (t, .ok loss) →
      (∀ a ∈ as, ∀ id, a ≠ .dropDebt id) →
      (StepRun.exec (step chatGptKey chatGptKind id lists) t as).header.Read chatGptKind →
      ∀ id', ListNames chatGptKind id lists id' →
        id' ∈ (StepRun.exec (step chatGptKey chatGptKind id lists) t as).held := by
  intro h
  have hname : ListNames chatGptKind id oneArchived ['a'] :=
    ⟨by decide, .inr ⟨rfl, .inl (.here rfl (by decide))⟩⟩
  have hrec : recoverLedgerLoss (.idle wiped.site.storage wiped.header) 0 true none =
      (repaired, .ok ⟨2, 0, 2⟩) := rfl
  have hheld := h oneArchived _ _ repaired ⟨2, 0, 2⟩ relisting wiped_rows hrec
    (by simp [relisting]) relisting_read _ hname
  exact absurd hheld (by decide +kernel)

end ChatStasher.LedgerRecovery
