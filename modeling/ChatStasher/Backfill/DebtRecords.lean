import ChatStasher.Backfill.DebtStore

/-! The debt store's records as they are stored, with the facts that a list gave about a
conversation, and the transactions that write them. -/
namespace ChatStasher.DebtRecords

/-- A member of a stored value, as the readers tell values apart. -/
inductive Scalar
  | text (t : Ident)
  | number (n : ℚ)
  | bool (b : Bool)
  | other
  deriving DecidableEq

inductive DebtTimeSource
  | listUpdate
  | listCreate
  deriving DecidableEq

def DebtTimeSource.name : DebtTimeSource → Ident
  | .listUpdate => "list-update".toList
  | .listCreate => "list-create".toList

structure DebtTime where
  at_ : ℚ
  source : DebtTimeSource
  deriving DecidableEq

/-- A listing's known members and the rest of it, none where a member is absent. -/
structure ConversationListing where
  title : Option Scalar
  starred : Option Scalar
  createTime : Option Scalar
  modifyTime : Option Scalar
  rest : Ident
  deriving DecidableEq

/-- A stored listing: an object, or anything else. -/
inductive StoredListing
  | object (listing : ConversationListing)
  | other
  deriving DecidableEq

inductive StoredProject
  | null
  | text (t : Ident)
  | object (id name : Scalar)
  | other
  deriving DecidableEq

structure ChatGptDebtProvenance where
  source : Scalar
  project : StoredProject
  archived : Scalar
  deriving DecidableEq

/-- A stored provenance: an object, or anything else. -/
inductive StoredProvenance
  | object (provenance : ChatGptDebtProvenance)
  | other
  deriving DecidableEq

/-- What a record holds beside its platform, scope and id. -/
structure DebtRecord where
  state : DebtState
  seq : ℕ
  at_ : Option Scalar
  atFrom : Option Scalar
  listing : Option StoredListing
  chatgptProvenance : Option StoredProvenance
  deriving DecidableEq

abbrev Rows := List (Ident × DebtRecord)

section Readers

/-- The source that a stored member names. -/
def debtTimeSource : Option Scalar → Option DebtTimeSource
  | some (.text t) =>
    if t = DebtTimeSource.listUpdate.name then some .listUpdate
    else if t = DebtTimeSource.listCreate.name then some .listCreate
    else none
  | _ => none

def timeInRow (row : DebtRecord) : Option DebtTime :=
  match row.at_ with
  | some (.number n) =>
    if n ≤ 0 then none else (debtTimeSource row.atFrom).map fun source => ⟨n, source⟩
  | _ => none

def Scalar.textIfThere : Option Scalar → Bool
  | none | some (.text _) => true
  | _ => false

def Scalar.boolIfThere : Option Scalar → Bool
  | none | some (.bool _) => true
  | _ => false

def Scalar.instantIfThere : Option Scalar → Bool
  | none | some (.text _) | some (.number _) => true
  | _ => false

def listingInRow (row : DebtRecord) : Option ConversationListing :=
  match row.listing with
  | some (.object listing) =>
    if Scalar.textIfThere listing.title && Scalar.boolIfThere listing.starred &&
        Scalar.instantIfThere listing.createTime && Scalar.instantIfThere listing.modifyTime then
      some listing
    else none
  | _ => none

def StoredProject.ok : StoredProject → Bool
  | .null => true
  | .text t => t = "unknown".toList
  | .object (.text _) (.text _) => true
  | _ => false

def isChatGptProvenance : Option StoredProvenance → Bool
  | some (.object row) =>
    (row.source = .text "main".toList || row.source = .text "archived".toList ||
      row.source = .text "project".toList) && row.project.ok &&
      match row.archived with
      | .bool _ => true
      | _ => false
  | _ => false

end Readers

section Diff

/-- One `applyDebtDiff`: the difference, where its numbers start, what it knows of the ids'
provenances, and the ids whose provenance it is to write. -/
structure DiffCall where
  diff : DebtDiff
  nextSeq : ℕ
  provenance : Ident → Option StoredProvenance
  provenanceDirty : List Ident

def owedRow (call : DiffCall) (e : Ident × ℕ) : Ident × DebtRecord :=
  (e.1, ⟨.pending, e.2, none, none, none, call.provenance e.1⟩)

/-- The record of a settled id, with what the row before says of the conversation. -/
def settledRow (call : DiffCall) (had : Option DebtRecord) (e : Ident × ℕ) : DebtRecord :=
  let time := had.bind timeInRow
  { state := .archived
    seq := e.2
    at_ := time.map fun time => .number time.at_
    atFrom := time.map fun time => .text time.source.name
    listing := (had.bind listingInRow).map .object
    chatgptProvenance := (call.provenance e.1).or (had.bind DebtRecord.chatgptProvenance) }

def settleRow (call : DiffCall) (rows : Rows) (e : Ident × ℕ) : Rows :=
  KeyedList.put rows (e.1, settledRow call (rows.lookup e.1) e)

def provenanceRow (call : DiffCall) (rows : Rows) (id : Ident) : Rows :=
  match rows.lookup id with
  | some had =>
    if isChatGptProvenance (call.provenance id) then
      KeyedList.put rows (id, { had with chatgptProvenance := call.provenance id })
    else rows
  | none => rows

/-- The transaction of `applyDebtDiff`, with every field of the records. -/
def applyDebtDiff (rows : Rows) (call : DiffCall) : Rows :=
  let diff := call.diff
  let deletes := diff.drop.filter fun id => id ∉ diff.enqueue
  let rows := ((diff.enqueue.zipIdx call.nextSeq).map (owedRow call)).foldl KeyedList.put rows
  let rows := rows.filter fun r => r.1 ∉ deletes
  let rows := (diff.settle.zipIdx (call.nextSeq + diff.enqueue.length)).foldl (settleRow call) rows
  let dirty := call.provenanceDirty.filter fun id =>
    id ∉ diff.enqueue ++ diff.settle && decide (id ∉ deletes)
  dirty.foldl (provenanceRow call) rows

end Diff

section Recorders

/-- A call of `recordDebtTimes` or `recordDebtListings`, with what it is to record. -/
inductive Recorder
  | times (found : Ident → Option DebtTime)
  | listings (found : Ident → Option ConversationListing)

/-- The record that the call writes for a row that it has read, if it writes one. -/
def Recorder.write : Recorder → Ident → DebtRecord → Option DebtRecord
  | .times found, id, row =>
    if (timeInRow row).isSome then none
    else (found id).map fun time =>
      { row with at_ := some (.number time.at_), atFrom := some (.text time.source.name) }
  | .listings found, id, row =>
    if (listingInRow row).isSome then none
    else (found id).map fun listing => { row with listing := some (.object listing) }

def Recorder.puts (recorder : Recorder) (read : Rows) : Rows :=
  read.filterMap fun e => (recorder.write e.1 e.2).map fun record => (e.1, record)

/-- Where a recorder's call stands; one that returned says how many rows it wrote, if it could. -/
inductive Phase
  | called
  | read (rows : Rows)
  | returned (written : Option ℕ)

structure Site where
  rows : Rows
  phase : Phase

/-- A difference is committed, or the call reads the rows or commits what it writes, if it can. -/
inductive Event
  | diff (call : DiffCall)
  | turn (ok : Bool)

def step (recorder : Recorder) (s : Site) : Event → Site
  | .diff call => { s with rows := applyDebtDiff s.rows call }
  | .turn ok =>
    match s.phase with
    | .called =>
      if ok then
        if recorder.puts s.rows = [] then { s with phase := .returned (some 0) }
        else { s with phase := .read s.rows }
      else { s with phase := .returned none }
    | .read read =>
      if ok then
        { rows := (recorder.puts read).foldl KeyedList.put s.rows
          phase := .returned (some (recorder.puts read).length) }
      else { s with phase := .returned none }
    | .returned _ => s

end Recorders

end ChatStasher.DebtRecords
