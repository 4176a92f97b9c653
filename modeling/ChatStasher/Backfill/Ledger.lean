import ChatStasher.Backfill.DebtStore

/-! The backfill's ledger: the debts in memory, what a save writes of them, and how a ledger is
opened again. -/
namespace ChatStasher

/-- The debts of a run in memory. -/
structure BackfillState where
  pending : List Ident
  archived : List Ident
  deriving DecidableEq

/-- One turn of the loop of `enqueueDebts`, with the ids added so far. -/
def enqueueDebt (acc : BackfillState × List Ident) (id : Ident) : BackfillState × List Ident :=
  if id = [] ∨ id ∈ acc.1.archived ∨ id ∈ acc.1.pending then acc
  else ({ acc.1 with pending := acc.1.pending ++ [id] }, acc.2 ++ [id])

/-- Merge enumerated ids into the debt set; an archived id is never enqueued again. -/
def enqueueDebts (state : BackfillState) (ids : List Ident) : BackfillState × List Ident :=
  ids.foldl enqueueDebt (state, [])

def settleDebt (state : BackfillState) (id : Ident) : BackfillState where
  pending := state.pending.erase id
  archived := if id ∈ state.archived then state.archived else state.archived ++ [id]

def dropDebt (state : BackfillState) (id : Ident) : BackfillState :=
  { state with pending := state.pending.erase id }

/-- The header, as far as it speaks of the debts. -/
structure BackfillHeader where
  pendingCount : ℕ
  archivedCount : ℕ
  deriving DecidableEq

def headerOf (state : BackfillState) : BackfillHeader :=
  ⟨state.pending.length, state.archived.length⟩

/-- What was last persisted, in the order of insertion. -/
structure Ledger where
  pending : List Ident
  archived : List Ident
  nextSeq : ℕ
  deriving DecidableEq

def Ledger.ofSnapshot (snapshot : DebtSetSnapshot) : Ledger :=
  ⟨snapshot.pending, snapshot.archived, snapshot.nextSeq⟩

/-- What moved since the last save. An id that left pending for archived was settled, not dropped. -/
def Ledger.diffAgainst (ledger : Ledger) (state : BackfillState) : DebtDiff where
  enqueue := state.pending.filter fun id => id ∉ ledger.pending
  settle := state.archived.filter fun id => id ∉ ledger.archived
  drop := ledger.pending.filter fun id => id ∉ state.pending ∧ id ∉ state.archived

def setAdd (l : List Ident) (id : Ident) : List Ident := if id ∈ l then l else l ++ [id]

/-- The baseline after the transaction has committed. -/
def Ledger.advance (ledger : Ledger) (diff : DebtDiff) : Ledger where
  pending := ((diff.enqueue.foldl setAdd ledger.pending).filter fun id => id ∉ diff.settle).filter
    fun id => id ∉ diff.drop
  archived := diff.settle.foldl setAdd ledger.archived
  nextSeq := ledger.nextSeq + diff.enqueue.length + diff.settle.length

/-- A record of the layout that held the header and all ids in one. -/
structure LegacyBackfillState where
  pending : List Ident
  archived : List Ident
  deriving DecidableEq

structure ScopeKey where
  platform : String
  scope : String

def stateKey (key : ScopeKey) : String := "cs_backfill_v2:" ++ key.platform ++ ":" ++ key.scope

def legacyStateKey (key : ScopeKey) : String :=
  "cs_backfill_v1:" ++ key.platform ++ ":" ++ key.scope

inductive RefusalReason
  | stateUnreadable
  | storageUnavailable
  | ledgerMismatch
  deriving DecidableEq

/-- Why a run may not start. -/
structure LedgerRefusal where
  reason : RefusalReason
  detail : String
  deriving DecidableEq

/-- Ids the header recorded that the store does not hold. -/
structure DebtLoss where
  recorded : ℕ
  held : ℕ
  missing : ℕ
  deriving DecidableEq

def debtLossBetween (header : BackfillHeader) (snapshot : DebtSetSnapshot) : Option DebtLoss :=
  let recorded := header.pendingCount + header.archivedCount
  let held := snapshot.pending.length + snapshot.archived.length
  if held ≥ recorded then none else some ⟨recorded, held, recorded - held⟩

def debtLossDetail (key : ScopeKey) (header : BackfillHeader) (snapshot : DebtSetSnapshot)
    (loss : DebtLoss) : String :=
  "the header at " ++ stateKey key ++ " records " ++ toString header.pendingCount ++
    " pending and " ++ toString header.archivedCount ++ " archived (" ++ toString loss.recorded ++
    " in all), and the debt store holds " ++ toString snapshot.pending.length ++ " and " ++
    toString snapshot.archived.length ++ " (" ++ toString loss.held ++ " in all) — " ++
    toString loss.missing ++ " recorded conversation id(s) are not there"

/-- `none` when a move was exact: the same pending sequence and the same archived set. -/
def compareSets (pending archived : List Ident) (readBack : DebtSetSnapshot) : Option String :=
  if pending.length ≠ readBack.pending.length then
    some (toString readBack.pending.length ++ " of " ++ toString pending.length ++
      " pending id(s) came back")
  else match (pending.zip readBack.pending).findIdx? fun p => p.1 ≠ p.2 with
  | some i => some ("pending id at position " ++ toString i ++ " came back different")
  | none =>
    let expected := archived.dedup
    if expected.length ≠ archived.length then
      some ("the pre-W18 record held " ++ toString (archived.length - expected.length) ++
        " duplicate archived id(s)")
    else if readBack.archived.length ≠ expected.length then
      some (toString readBack.archived.length ++ " of " ++ toString expected.length ++
        " archived id(s) came back")
    else if readBack.archived.any fun id => id ∉ expected then
      some "an archived id came back that was not in the pre-W18 record"
    else none

/-- What is on disk for one platform and scope. -/
structure LedgerStorage where
  rows : DebtRows
  header : Option BackfillHeader
  legacy : Option LegacyBackfillState
  deriving DecidableEq

/-- The storage operations of an attempt to open a ledger or to finish its move. -/
inductive OpenOp
  | loadHeader
  | readDebts
  | loadLegacy
  | replaceDebts
  | readBack
  | saveHeader
  | loadBack
  | removeLegacy
  deriving DecidableEq

/-- Where an attempt fails or dies, and whether that operation takes effect all the same. -/
structure Interrupt where
  op : OpenOp
  landed : Bool

/-- A run that may start, a refusal, or an attempt that ended without an answer. -/
inductive LedgerOpen
  | opened (ledger : Ledger) (state : BackfillState)
  | refused (r : LedgerRefusal)
  | interrupted
  deriving DecidableEq

section Open
variable (key : ScopeKey) (cut : Option Interrupt)

def stopsAt (op : OpenOp) : Bool := cut.any fun c => c.op = op

def landsAt (op : OpenOp) : Bool := cut.any fun c => c.op = op && c.landed

def openHeaderLedger (s : LedgerStorage) (header : BackfillHeader) : LedgerOpen :=
  if stopsAt cut .readDebts then .refused ⟨.storageUnavailable,
    "the debt set could not be read from IndexedDB; without it there is no stop-and-resume"⟩
  else
    let snapshot := readDebtSet s.rows
    match debtLossBetween header snapshot with
    | some loss => .refused ⟨.ledgerMismatch, debtLossDetail key header snapshot loss⟩
    | none => .opened (.ofSnapshot snapshot) ⟨snapshot.pending, snapshot.archived⟩

def moveRefused (what : String) : LedgerOpen :=
  .refused ⟨.stateUnreadable, "the pre-W18 record at " ++ legacyStateKey key ++ " " ++ what ++
    "; it has been left untouched and NOT treated as an empty debt set"⟩

/-- Carry a record of the old layout over: debts, read-back, header, read-back, and only then the
removal of the old record. -/
def migrate (s : LedgerStorage) (legacy : LegacyBackfillState) : LedgerStorage × LedgerOpen :=
  let replaced := { s with rows := replaceDebtSet s.rows legacy.pending legacy.archived }
  if stopsAt cut .replaceDebts then
    (if landsAt cut .replaceDebts then replaced else s,
      moveRefused key "could not be carried over (the debt store refused the write)")
  else if stopsAt cut .readBack then
    (replaced, moveRefused key "was written to the debt store but could not be read back")
  else
    let readBack := readDebtSet replaced.rows
    match compareSets legacy.pending legacy.archived readBack with
    | some mismatch => (replaced, moveRefused key ("did not survive the move (" ++ mismatch ++ ")"))
    | none =>
      let moved := { replaced with
        header := some ⟨legacy.pending.length, legacy.archived.length⟩ }
      if stopsAt cut .saveHeader then
        (if landsAt cut .saveHeader then moved else replaced,
          moveRefused key "could not be moved into the new layout")
      else if stopsAt cut .loadBack then
        (moved, moveRefused key "was moved but the new header did not read back")
      else if stopsAt cut .removeLegacy then
        (if landsAt cut .removeLegacy then { moved with legacy := none } else moved, .interrupted)
      else ({ moved with legacy := none },
        .opened (.ofSnapshot readBack) ⟨readBack.pending, readBack.archived⟩)

def openFromLegacy (s : LedgerStorage) : LedgerStorage × LedgerOpen :=
  if stopsAt cut .loadLegacy then (s, .interrupted)
  else match s.legacy with
  | none => (s, .opened ⟨[], [], 1⟩ ⟨[], []⟩)
  | some legacy => migrate key cut s legacy

/-- Read one scope's state, moving a record of the old layout if that is what is there. -/
def openLedger (s : LedgerStorage) : LedgerStorage × LedgerOpen :=
  if stopsAt cut .loadHeader then (s, .interrupted)
  else match s.header with
  | some header => (s, openHeaderLedger key cut s header)
  | none => openFromLegacy key cut s

/-- Finish a move that was interrupted between its header and its last step. -/
def completeInterruptedMigration (s : LedgerStorage) (legacy : LegacyBackfillState) :
    LedgerStorage × Option LedgerRefusal :=
  if stopsAt cut .readDebts then
    (s, some ⟨.storageUnavailable, "the pre-W18 record at " ++ legacyStateKey key ++
      " sits beside a new-layout record whose debt set could not be read from IndexedDB; " ++
      "nothing has been removed"⟩)
  else match compareSets legacy.pending legacy.archived (readDebtSet s.rows) with
  | some mismatch =>
    (s, some ⟨.stateUnreadable, "the pre-W18 record at " ++ legacyStateKey key ++
      " sits beside a new-layout record and the two do not agree (" ++ mismatch ++
      "); it has been left untouched"⟩)
  | none =>
    if stopsAt cut .removeLegacy && !landsAt cut .removeLegacy then (s, none)
    else ({ s with legacy := none }, none)

/-- One key of the old layout: a move to finish beside a header, else an ordinary move. -/
def migrateOneLegacyKey (s : LedgerStorage) : LedgerStorage :=
  match s.legacy, s.header with
  | none, _ => s
  | some legacy, some _ => (completeInterruptedMigration key cut s legacy).1
  | some _, none => (openLedger key cut s).1

end Open

/-- What becomes of a save: its transaction is refused, the worker dies before its header is
written, or it completes. -/
inductive SaveFate
  | refused
  | diesBetween
  | completes
  deriving DecidableEq

/-- The storage and the ledger that is open, with its state in memory. -/
structure BackfillSite where
  storage : LedgerStorage
  session : Option (Ledger × BackfillState)
  deriving DecidableEq

/-- `Ledger.save`: the debts first, the header second. A save that fails ends its run. -/
def saveLedger (s : BackfillSite) (fate : SaveFate) : BackfillSite :=
  match s.session with
  | none => s
  | some (ledger, state) =>
    let diff := ledger.diffAgainst state
    let rows :=
      if diff.isEmpty then s.storage.rows
      else applyDebtDiff s.storage.rows diff ledger.nextSeq
    match fate with
    | .refused => { s with session := none }
    | .diesBetween => ⟨{ s.storage with rows }, none⟩
    | .completes =>
      ⟨{ s.storage with rows, header := some (headerOf state) },
        some (if diff.isEmpty then ledger else ledger.advance diff, state)⟩

/-- Steps of the worker: opening attempts, the debt operations, saves, and its death. -/
inductive BackfillAction
  | openLedger (cut : Option Interrupt)
  | migrateOneLegacyKey (cut : Option Interrupt)
  | enqueueDebts (ids : List Ident)
  | settleDebt (id : Ident)
  | dropDebt (id : Ident)
  | save (fate : SaveFate)
  | kill

def BackfillSite.update (s : BackfillSite) (f : BackfillState → BackfillState) : BackfillSite :=
  { s with session := s.session.map fun (ledger, state) => (ledger, f state) }

def backfillStep (key : ScopeKey) (s : BackfillSite) : BackfillAction → BackfillSite
  | .openLedger cut =>
    match openLedger key cut s.storage with
    | (storage, .opened ledger state) => ⟨storage, some (ledger, state)⟩
    | (storage, _) => ⟨storage, none⟩
  | .migrateOneLegacyKey cut => ⟨migrateOneLegacyKey key cut s.storage, none⟩
  | .enqueueDebts ids => s.update fun state => (enqueueDebts state ids).1
  | .settleDebt id => s.update fun state => settleDebt state id
  | .dropDebt id => s.update fun state => dropDebt state id
  | .save fate => saveLedger s fate
  | .kill => { s with session := none }

def BackfillSite.fresh : BackfillSite := ⟨⟨[], none, none⟩, none⟩

end ChatStasher
