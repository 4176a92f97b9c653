import ChatStasher.GrokBot.Reader
import ChatStasher.Library.Sorting

/-! A session folded from its record lines, and the two views it is composed into. -/

namespace SortedMap
variable {K V W : Type*} [LinearOrder K]

def mapValues (m : SortedMap K V) (f : K → V → W) : SortedMap K W :=
  ⟨m.entries.map fun e => (e.1, f e.1 e.2), List.pairwise_map.mpr (m.sorted.imp id)⟩

lemma get_mapValues (m : SortedMap K V) (f : K → V → W) (k : K) :
    (m.mapValues f).get k = (m.get k).map (f k) := by
  ext w
  rw [get_eq_some_iff, mapValues, List.mem_map, Option.map_eq_some_iff]
  constructor
  · rintro ⟨⟨k', v⟩, hmem, heq⟩
    obtain ⟨rfl, rfl⟩ := Prod.mk.inj heq
    exact ⟨v, get_eq_some_iff.mpr hmem, rfl⟩
  · rintro ⟨v, hget, rfl⟩
    exact ⟨(k, v), get_eq_some_iff.mp hget, rfl⟩

end SortedMap

namespace ChatStasher.Opencode
open Deletion (textLines)
open GrokBot (Value)
open Inbox (Text trim)
open SortByKey

def sessionV1Schema : Text := "chat-stasher.opencode.session.v1".toList

def sessionV2Schema : Text := "chat-stasher.opencode.session.v2".toList

inductive RecordKind
  | session
  | message
  | part
  deriving DecidableEq

namespace RecordKind

/-- The place of a kind among the keys of a map. -/
def rank : RecordKind → ℕ
  | session => 0
  | message => 1
  | part => 2

lemma rank_injective : Function.Injective rank := by
  intro a b h
  cases a <;> cases b <;> first | rfl | cases h

instance : LinearOrder RecordKind := LinearOrder.lift' rank rank_injective

def fromStr (raw : Text) : Option RecordKind :=
  if raw = "session".toList then some .session
  else if raw = "message".toList then some .message
  else if raw = "part".toList then some .part
  else none

end RecordKind

abbrev RecordKey := RecordKind ×ₗ Text

inductive BodyView
  | current
  | includeDeleted
  deriving DecidableEq

inductive AssemblyError
  | notJson
  | foreignShape (found : Text)
  | corruptRecord (why : Text)
  | missingSession
  | missingOrder (what : String)
  | sessionIdMismatch (found : Text)

/-- How a stored body is decoded, a line parsed, and a payload hashed. -/
structure RecordReader where
  lossy : Bytes → Text
  parse : Text → Option Value
  payloadDigest : Value → Text

/-- The last version of a record; a tombstone keeps the payload it masks. -/
structure FoldedRecord where
  payload : Option Value
  deleted : Bool

structure Assembly where
  nativeSession : Option Text
  records : SortedMap RecordKey FoldedRecord

namespace Assembly

def checkSession (a : Assembly) (found : Text) : Except AssemblyError Unit :=
  match a.nativeSession with
  | some expected => if expected ≠ found then .error (.sessionIdMismatch found) else .ok ()
  | none => .ok ()

end Assembly

section Fold

abbrev ObservedRows := SortedMap RecordKey Value

def strField (value : Value) (field : String) : Option Text := (value.get field).bind Value.asStr

def arrayField (value : Value) (field : String) : List Value :=
  ((value.get field).bind Value.asArray).getD []

def stripParts : Value → Value
  | .object members => .object (members.filter fun m => m.1 ≠ "parts".toList)
  | other => other

def observeParts (why : String) (observation : ObservedRows) :
    List Value → Except AssemblyError ObservedRows
  | [] => .ok observation
  | part :: parts =>
    match strField part "id" with
    | none => .error (.corruptRecord why.toList)
    | some id => observeParts why (observation.insert (toLex (.part, id)) part) parts

def observeMessages (observation : ObservedRows) : List Value → Except AssemblyError ObservedRows
  | [] => .ok observation
  | message :: messages =>
    match strField message "id" with
    | none => .error (.corruptRecord "a message row has no id".toList)
    | some id =>
      match observeParts "a part row has no id"
          (observation.insert (toLex (.message, id)) (stripParts message))
          (arrayField message "parts") with
      | .error e => .error e
      | .ok observation => observeMessages observation messages

/-- The session row of a complete observation, under its id. -/
def observedSession (value : Value) : Except AssemblyError (Text × Value) :=
  match value.get "session" with
  | none => .error (.corruptRecord "a v1 observation carries no session row".toList)
  | some sessionRow =>
    match strField sessionRow "id" with
    | none => .error (.corruptRecord "the session row has no id".toList)
    | some sessionId => .ok (sessionId, sessionRow)

/-- Every row of a complete observation. -/
def observedRows (value : Value) (session : Text × Value) : Except AssemblyError ObservedRows :=
  match observeMessages (SortedMap.empty.insert (toLex (.session, session.1)) session.2)
      (arrayField value "messages") with
  | .error e => .error e
  | .ok observation =>
    observeParts "an orphan part row has no id" observation (arrayField value "orphan_parts")

/-- Every record that a complete observation does not hold is deleted, then it overwrites its own. -/
def overwrite (records : SortedMap RecordKey FoldedRecord) (observation : ObservedRows) :
    SortedMap RecordKey FoldedRecord :=
  (observation.entries.map fun e => (e.1, (⟨some e.2, false⟩ : FoldedRecord))).foldl
    (fun m e => m.insert e.1 e.2)
    (records.mapValues fun key record =>
      if (observation.get key).isNone then { record with deleted := true } else record)

def feedV1Observation (a : Assembly) (value : Value) : Except AssemblyError Assembly :=
  match observedSession value with
  | .error e => .error e
  | .ok session =>
    match a.checkSession session.1 with
    | .error e => .error e
    | .ok () =>
      match observedRows value session with
      | .error e => .error e
      | .ok observation => .ok { a with records := overwrite a.records observation }

variable (R : RecordReader)

def feedV2Record (a : Assembly) (value : Value) : Except AssemblyError Assembly :=
  match strField value "session" with
  | none => .error (.corruptRecord "a record line carries no session id".toList)
  | some native =>
    match a.checkSession native with
    | .error e => .error e
    | .ok () =>
      match (strField value "kind").bind RecordKind.fromStr with
      | none => .error (.corruptRecord "a record line carries no known kind".toList)
      | some kind =>
        match strField value "record_id" with
        | none => .error (.corruptRecord "a record line carries no record id".toList)
        | some recordId =>
          let key : RecordKey := toLex (kind, recordId)
          if ((value.get "deleted").bind Value.asBool).getD false then
            .ok { a with
              records := a.records.insert key ⟨(a.records.get key).bind FoldedRecord.payload, true⟩ }
          else
            match (value.get "payload").filter fun payload => !payload.isNull with
            | none =>
              .error (.corruptRecord "a non-deleted record line carries no payload".toList)
            | some payload =>
              if (strField value "record_sha256").any (· ≠ R.payloadDigest payload) then
                .error (.corruptRecord
                  "the record's declared hash does not match its payload".toList)
              else .ok { a with records := a.records.insert key ⟨some payload, false⟩ }

def feedValue (a : Assembly) (value : Value) : Except AssemblyError Assembly :=
  match strField value "schema" with
  | none => .error (.foreignShape "<missing>".toList)
  | some schema =>
    if schema = sessionV1Schema then feedV1Observation a value
    else if schema = sessionV2Schema then feedV2Record R a value
    else .error (.foreignShape schema)

def feedLine (a : Assembly) (line : Text) : Except AssemblyError Assembly :=
  match R.parse line with
  | none => .error .notJson
  | some value => feedValue R a value

def feedLines (a : Assembly) : List Text → Except AssemblyError Assembly
  | [] => .ok a
  | line :: lines =>
    match feedLine R a line with
    | .error e => .error e
    | .ok a => feedLines a lines

def bodyLines (body : Bytes) : List Text :=
  ((textLines (R.lossy body)).map trim).filter fun line => !line.isEmpty

def feedBodies (a : Assembly) (bodies : List Bytes) : Except AssemblyError Assembly :=
  feedLines R a (bodies.flatMap (bodyLines R))

end Fold

section Compose

structure SelectedRow where
  id : Text
  deleted : Bool
  payload : Value

namespace SelectedRow

def timeCreated (row : SelectedRow) : ℤ :=
  ((row.payload.get "time_created").bind Value.asI64).getD (-2 ^ 63)

def messageId (row : SelectedRow) : Option Text := strField row.payload "message_id"

def messageKey (row : SelectedRow) : ℤ ×ₗ Text := toLex (row.timeCreated, row.id)

def partKey (row : SelectedRow) : Text ×ₗ ℤ ×ₗ Text :=
  toLex (row.messageId.getD [], toLex (row.timeCreated, row.id))

end SelectedRow

/-- The rows of one kind for one view; one without a payload is refused. -/
def selectFrom (kind : RecordKind) (view : BodyView) :
    List (RecordKey × FoldedRecord) → Except AssemblyError (List SelectedRow)
  | [] => .ok []
  | (key, record) :: records =>
    if (ofLex key).1 ≠ kind then selectFrom kind view records
    else if view ≠ .includeDeleted ∧ record.deleted then selectFrom kind view records
    else
      match record.payload with
      | none => .error (.corruptRecord
          ("record `".toList ++ (ofLex key).2 ++ "` is emitted without a payload".toList))
      | some payload =>
        match selectFrom kind view records with
        | .error e => .error e
        | .ok rows => .ok (⟨(ofLex key).2, record.deleted, payload⟩ :: rows)

/-- Parts of a selected message go to it, the others are orphans. -/
def attach (messageIds : List Text) :
    SortedMap Text (List SelectedRow) × List SelectedRow → List SelectedRow →
      Except AssemblyError (SortedMap Text (List SelectedRow) × List SelectedRow)
  | acc, [] => .ok acc
  | (attachments, orphans), row :: parts =>
    match row.messageId with
    | none => .error (.missingOrder "part.message_id")
    | some messageId =>
      if messageId ∈ messageIds then
        attach messageIds (attachments.insert messageId
          ((attachments.get messageId).getD [] ++ [row]), orphans) parts
      else attach messageIds (attachments, orphans ++ [row]) parts

/-- The rows that a view is written from. -/
structure Composed where
  session : Value
  messages : List (SelectedRow × List SelectedRow)
  orphanParts : List SelectedRow

def sessionPayload (a : Assembly) : Option Value :=
  (a.records.entries.find? fun e => (ofLex e.1).1 = .session).bind fun e => e.2.payload

def compose (a : Assembly) (view : BodyView) : Except AssemblyError Composed :=
  match sessionPayload a with
  | none => .error .missingSession
  | some session =>
    match selectFrom .message view a.records.entries with
    | .error e => .error e
    | .ok messageRows =>
      let messages := sortByKey SelectedRow.messageKey messageRows
      match selectFrom .part view a.records.entries with
      | .error e => .error e
      | .ok partRows =>
        let parts := sortByKey SelectedRow.partKey partRows
        match attach (messages.map SelectedRow.id) (.empty, []) parts with
        | .error e => .error e
        | .ok (attachments, orphans) =>
          .ok ⟨session, messages.map fun row => (row, (attachments.get row.id).getD []), orphans⟩

end Compose

end ChatStasher.Opencode
