import Mathlib.Data.Char
import Mathlib.Data.List.Lex
import Mathlib.Data.Prod.Lex
import ChatStasher.Inbox.Bundle
import ChatStasher.Library.KeyedList

/-! The deletion control stream: its records and the policy they fold into. -/
namespace ChatStasher.Deletion
open Inbox (Text utf8)

inductive ControlAction
  | hide
  | unhide
  | purge
  | redact
  deriving DecidableEq

inductive ControlScope
  | session
  | sessionForever
  | contentThroughCutoff (recordedCutoff : Text)
  deriving DecidableEq

structure ControlEvent where
  schema : Text
  operationId : Text
  recordedAt : Text
  action : ControlAction
  targetMachine : Text
  sessionId : Text
  actorMachine : Text
  scope : ControlScope
  reason : Option Text
  deriving DecidableEq

def controlSchema : Text := "chat-stasher/deletion-control/1".toList

def maxReasonBytes : ℕ := 80

def maxOperationIdBytes : ℕ := 128

/-- Why a record is refused. -/
inductive InvalidRecord
  | schema
  | operationId
  | recordedAt
  | name (field : String)
  | reason
  | cutoff
  | scope
  deriving DecidableEq

/-- The instant that an RFC 3339 text names, as the date library reads it. -/
abbrev ReadInstant := Text → Option ℤ

abbrev Identity := Text × Text

namespace ControlEvent

def identity (e : ControlEvent) : Identity := (e.targetMachine, e.sessionId)

def validName (value : Text) : Bool :=
  !value.isEmpty && value.all (fun c => c ≠ '/' && c ≠ '\\') && value ≠ ".".toList &&
    value ≠ "..".toList

def validReason (reason : Text) : Bool :=
  (utf8 reason).length ≤ maxReasonBytes && reason.all fun c => c ≠ '\n' && c ≠ '\r'

/-- The action carries the scope that goes with it. -/
def checkScope (e : ControlEvent) : Except InvalidRecord Unit :=
  match e.action, e.scope with
  | .hide, .session => .ok ()
  | .unhide, .session => .ok ()
  | .purge, .sessionForever => .ok ()
  | .redact, .contentThroughCutoff recordedCutoff =>
    if recordedCutoff.isEmpty then .error .cutoff else .ok ()
  | _, _ => .error .scope

def validate (instant : ReadInstant) (e : ControlEvent) : Except InvalidRecord Unit :=
  if e.schema ≠ controlSchema then .error .schema
  else if e.operationId.isEmpty ∨ maxOperationIdBytes < (utf8 e.operationId).length then
    .error .operationId
  else if (instant e.recordedAt).isNone then .error .recordedAt
  else if !validName e.targetMachine then .error (.name "target_machine")
  else if !validName e.sessionId then .error (.name "session_id")
  else if !validName e.actorMachine then .error (.name "actor_machine")
  else if e.reason.any fun reason => !validReason reason then .error .reason
  else e.checkScope

/-- Records are ordered by instant, then by operation id. A record that was validated names an
instant; the other case keeps the order total. -/
def parseInstant (instant : ReadInstant) (e : ControlEvent) : ℤ := (instant e.recordedAt).getD 0

def orderKey (instant : ReadInstant) (e : ControlEvent) : ℤ ×ₗ Text :=
  toLex (e.parseInstant instant, e.operationId)

end ControlEvent

inductive Visibility
  | visible
  | hidden
  | purged
  | redactedThroughCutoff (recordedCutoff : Text)
  deriving DecidableEq

def Visibility.omittedFromReaders : Visibility → Bool
  | visible => false
  | _ => true

structure ControlPolicy where
  state : List (Identity × Visibility)
  eventCount : ℕ
  deriving DecidableEq

namespace ControlPolicy

def visibility (policy : ControlPolicy) (identity : Identity) : Visibility :=
  (policy.state.lookup identity).getD .visible

def omittedFromReaders (policy : ControlPolicy) (identity : Identity) : Bool :=
  (policy.visibility identity).omittedFromReaders

end ControlPolicy

inductive FoldError
  | conflict (operationId : Text)
  | invalid (why : InvalidRecord)
  deriving DecidableEq

/-- A purged identity stays purged; any other one goes where a record leads. -/
def unlessPurged (outcome : Visibility) : Option Visibility → Visibility
  | some .purged => .purged
  | _ => outcome

def applyEvent (state : List (Identity × Visibility)) (e : ControlEvent) :
    List (Identity × Visibility) :=
  match e.action with
  | .purge => KeyedList.put state (e.identity, .purged)
  | .redact =>
    match e.scope with
    | .contentThroughCutoff recordedCutoff =>
      KeyedList.upsert state e.identity (unlessPurged (.redactedThroughCutoff recordedCutoff))
    | _ => state
  | .unhide => KeyedList.upsert state e.identity (unlessPurged .visible)
  | .hide => KeyedList.upsert state e.identity (unlessPurged .hidden)

/-- Every record once: a replay is skipped, and one operation id with two different records is a
conflict. -/
def uniqueEvents (instant : ReadInstant) :
    List (Text × ControlEvent) → List ControlEvent → Except FoldError (List (Text × ControlEvent))
  | unique, [] => .ok unique
  | unique, e :: events =>
    match e.validate instant with
    | .error why => .error (.invalid why)
    | .ok () =>
      match unique.lookup e.operationId with
      | some prior =>
        if prior = e then uniqueEvents instant unique events else .error (.conflict e.operationId)
      | none => uniqueEvents instant (KeyedList.put unique (e.operationId, e)) events

def inOrder (instant : ReadInstant) (events : List ControlEvent) : List ControlEvent :=
  events.insertionSort fun a b => a.orderKey instant ≤ b.orderKey instant

def policyOf (ordered : List ControlEvent) : ControlPolicy where
  state := ordered.foldl applyEvent []
  eventCount := ordered.length

/-- Fold records from any number of streams into one effective policy. -/
def foldEvents (instant : ReadInstant) (events : List ControlEvent) :
    Except FoldError ControlPolicy :=
  match uniqueEvents instant [] events with
  | .error e => .error e
  | .ok unique => .ok (policyOf (inOrder instant ((KeyedList.inKeyOrder unique).map Prod.snd)))

end ChatStasher.Deletion

/-! The control streams read from a destination: which copy of each machine's stream is read. -/
namespace ChatStasher.Deletion
open Inbox (Text isWhitespace trim)

/-- Why a stream cannot be read to the end. -/
inductive StreamUnreadable
  | notUtf8
  | record (lineNo : ℕ)
  | trailingWhitespace (lineNo : ℕ)
  | invalid (lineNo : ℕ) (why : InvalidRecord)
  deriving DecidableEq

/-- The readers a stream is parsed with: of UTF-8, of one JSON record, of an instant. -/
structure StreamReader where
  decodeUtf8 : Bytes → Option Text
  record : Text → Option ControlEvent
  instant : ReadInstant

/-- The lines of a text: what a line feed ends loses its ending, the rest is kept as it is. -/
def textLines (text : Text) : List Text :=
  let parts := text.splitOn '\n'
  parts.dropLast.map (fun line => if line.getLast? = some '\r' then line.dropLast else line) ++
    (parts.getLast?.filter (· ≠ [])).toList

/-- Parse the lines from a line number on; a single malformed one makes the stream unreadable. -/
def parseLines (R : StreamReader) : ℕ → List Text → Except StreamUnreadable (List ControlEvent)
  | _, [] => .ok []
  | lineNo, line :: lines =>
    if (trim line).isEmpty then parseLines R (lineNo + 1) lines
    else
      match R.record line with
      | none => .error (.record lineNo)
      | some event =>
        if line.rdropWhile isWhitespace ≠ line then .error (.trailingWhitespace lineNo)
        else
          match event.validate R.instant with
          | .error why => .error (.invalid lineNo why)
          | .ok () =>
            match parseLines R (lineNo + 1) lines with
            | .error e => .error e
            | .ok events => .ok (event :: events)

def parseEvents (R : StreamReader) (bytes : Bytes) :
    Except StreamUnreadable (List ControlEvent) :=
  match R.decodeUtf8 bytes with
  | none => .error .notUtf8
  | some text => parseLines R 1 (textLines text)

def metaDir : Text := "meta".toList

def fileName : Text := "deletion-control-v1.jsonl".toList

/-- An entry of a snapshot tree; without data when its pack cannot be read. -/
structure Node where
  path : List Text
  isFile : Bool
  data : Option Bytes
  deriving DecidableEq

/-- A snapshot; without a tree when it cannot be listed. -/
structure Snapshot where
  id : Text
  time : ℤ
  tree : Option (List Node)
  deriving DecidableEq

structure Host where
  name : Text
  snapshots : List Snapshot
  newestFirst : snapshots.Pairwise fun a b => b.time ≤ a.time

/-- Match a path by its trailing components and return the machine partition. -/
def controlStreamMachine (path : List Text) : Option Text :=
  match path.reverse with
  | file :: machine :: dir :: _ => if dir = metaDir ∧ file = fileName then some machine else none
  | _ => none

structure ArchiveControlRead where
  events : List ControlEvent
  sources : ℕ
  unreadablePaths : List (Text × StreamUnreadable)
  skippedSnapshots : List (Text × Text)
  unestablishedHosts : List Text
  deriving DecidableEq

/-- What is read so far, and the machines whose stream was met. -/
structure Walk where
  out : ArchiveControlRead
  seenMachines : List Text
  deriving DecidableEq

def Walk.start : Walk := ⟨⟨[], 0, [], [], []⟩, []⟩

/-- One entry of a listed tree; an error names the machine whose stream cannot be dumped. -/
def readEntry (R : StreamReader) (w : Walk) (node : Node) : Except Text Walk :=
  if !node.isFile then .ok w
  else
    match controlStreamMachine node.path with
    | none => .ok w
    | some machine =>
      if machine ∈ w.seenMachines then .ok w
      else
        match node.data with
        | none => .error machine
        | some bytes =>
          match parseEvents R bytes with
          | .ok events => .ok {
              out := { w.out with
                sources := w.out.sources + 1
                events := w.out.events ++ events }
              seenMachines := machine :: w.seenMachines }
          | .error e => .ok {
              out := { w.out with unreadablePaths := w.out.unreadablePaths ++ [(machine, e)] }
              seenMachines := machine :: w.seenMachines }

def readHost (R : StreamReader) (host : Text) : Walk → List Snapshot → Except Text Walk
  | w, [] => .ok { w with
      out := { w.out with unestablishedHosts := w.out.unestablishedHosts ++ [host] } }
  | w, snap :: snaps =>
    match snap.tree with
    | none => readHost R host { w with
        out := { w.out with
          skippedSnapshots := w.out.skippedSnapshots ++ [(host, snap.id.take 8)] } } snaps
    | some entries => entries.foldlM (readEntry R) w

def collectArchiveControl (R : StreamReader) (hosts : List Host) :
    Except Text ArchiveControlRead :=
  match hosts.foldlM (fun w host => readHost R host.name w host.snapshots) Walk.start with
  | .error machine => .error machine
  | .ok w => .ok w.out

end ChatStasher.Deletion
