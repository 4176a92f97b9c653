import ChatStasher.Import.ChatgptTreeSpec

/-! Reading a ChatGPT export: each conversation of the document becomes a record or a named failure,
and the tree of a record is read from its own nodes. -/
namespace ChatStasher.ChatgptExport
open Inbox (Text)
open GrokBot (Value)

section Definitions

def conversationPath : Text := "conversations[]".toList
def nodePath : Text := "conversations[].mapping[]".toList
def messagePath : Text := "conversations[].mapping[].message".toList
def contentPath : Text := "conversations[].mapping[].message.content".toList
def authorPath : Text := "conversations[].mapping[].message.author".toList

def conversationKeys : List String :=
  ["conversation_id", "create_time", "current_node", "id", "mapping", "title", "update_time"]
def nodeKeys : List String := ["children", "id", "message", "parent"]
def messageKeys : List String :=
  ["author", "content", "create_time", "id", "recipient", "update_time"]
def authorKeys : List String := ["name", "role"]
def contentKeys : List String := ["content_type", "parts"]
def idKeys : List String := ["conversation_id", "id"]

abbrev Members := List (Text × Value)

def member (object : Members) (key : String) : Option Value := object.lookup key.toList

def kindOf : Value → Text
  | .null => "null".toList
  | .bool _ => "a boolean".toList
  | .number _ => "a number".toList
  | .string _ => "a string".toList
  | .array _ => "an array".toList
  | .object _ => "an object".toList

def carriedAs (key : String) (value : Value) : Text :=
  '`' :: key.toList ++ "` is carried as ".toList ++ kindOf value

inductive ConversationFailureReason
  | notAnObject (found : Text)
  | idNotReadable (why : Text)
  | mappingAbsent
  | mappingNull
  | mappingNotAnObject (found : Text)
  | nodeNotAnObject (found : Text)

structure ConversationFailure where
  id : Option Text
  reason : ConversationFailureReason

structure ConversationRecord where
  id : Text
  created : RecordedTime
  updated : RecordedTime
  title : Field Text
  currentNode : CurrentNodeReading
  nodes : List NodeRecord
  tree : TreeReading

/-- The records, the failures and the tally of what was not read, as one export is read. -/
structure Reader where
  conversations : List ConversationRecord
  failures : List ConversationFailure
  unreadable : Text → ℕ

def Reader.default : Reader := ⟨[], [], fun _ => 0⟩

/-- A value of which each object has each of its keys once, as a parsed map has. -/
inductive Keyed : Value → Prop
  | null : Keyed .null
  | bool (b : Bool) : Keyed (.bool b)
  | number (digits : Text) : Keyed (.number digits)
  | string (text : Text) : Keyed (.string text)
  | array {items : List Value} (h : ∀ item ∈ items, Keyed item) : Keyed (.array items)
  | object {members : Members} (hkeys : (members.map Prod.fst).Nodup)
      (h : ∀ m ∈ members, Keyed m.2) : Keyed (.object members)

/-- Why some bytes are no JSON document; `eof` says that the input stopped part-way. -/
structure JsonError where
  eof : Bool
  why : Text

/-- What the code takes from the JSON crate. -/
structure JsonReader where
  fromSlice : Bytes → Except JsonError Value
  keyed : ∀ bytes document, fromSlice bytes = .ok document → Keyed document
  /-- The whole part of a number as a float, if it is finite and an `i64`. -/
  wholeFloat : Text → Option ℤ

variable (J : JsonReader)

def minPlausibleSeconds : ℤ := 1577836800
def maxPlausibleSeconds : ℤ := 4102444800

def epochSeconds (digits : Text) : Option (ℤ × TimeUnit) := do
  let whole ← ((Value.number digits).asI64.or (J.wholeFloat digits)).filter fun value => 0 < value
  if minPlausibleSeconds ≤ whole ∧ whole ≤ maxPlausibleSeconds then return (whole, .seconds)
  else if minPlausibleSeconds * 1000 ≤ whole ∧ whole ≤ maxPlausibleSeconds * 1000 then
    return (whole / 1000, .milliseconds)
  else none

def Reader.note (reader : Reader) (path : Text) : Reader :=
  { reader with
    unreadable := fun p => if p = path then reader.unreadable p + 1 else reader.unreadable p }

def Reader.noteUnrecognised (reader : Reader) (object : Members) (known : List String)
    (path : Text) : Reader :=
  object.foldl (fun reader m =>
    if m.1 ∈ known.map String.toList then reader else reader.note (path ++ '.' :: m.1)) reader

def wrongShape {T : Type} (path : Text) (key : String) (carried : Text) : Field T :=
  .unreadable (path ++ '.' :: key.toList ++ ": `".toList ++ key.toList ++
    "` is carried as ".toList ++ carried)

def text (object : Members) (key : String) (path : Text) : Field Text :=
  match member object key with
  | none => .absent
  | some .null => .null
  | some (.string text) => .value text
  | some other => wrongShape path key (kindOf other)

def Reader.stringList (reader : Reader) (object : Members) (key : String) (path : Text) :
    Reader × Field (List Text) :=
  match member object key with
  | none => (reader, .absent)
  | some .null => (reader, .null)
  | some (.array items) =>
    let entry := path ++ '.' :: key.toList ++ "[]".toList
    let read := items.foldl (fun (read : Reader × List Text) item =>
      match item.asStr with
      | some text => (read.1, read.2 ++ [text])
      | none => (read.1.note entry, read.2)) (reader, [])
    (read.1, .value read.2)
  | some other => (reader, wrongShape path key (kindOf other))

def Reader.recordedTime (reader : Reader) (object : Members) (key : String) (path : Text) :
    Reader × RecordedTime :=
  match member object key with
  | none => (reader, .unknown ('`' :: key.toList ++ "` is absent".toList))
  | some .null => (reader, .unknown ('`' :: key.toList ++ "` is null".toList))
  | some (.number digits) =>
    match epochSeconds J digits with
    | some (unix, unit) => (reader, .known unix unit)
    | none =>
      (reader.note (path ++ '.' :: key.toList), .unknown ('`' :: key.toList ++
        "` is a number outside the seconds and milliseconds ranges ".toList ++
        "this build reads, so its unit is not a guess this build will make".toList))
  | some other => (reader.note (path ++ '.' :: key.toList), .unknown (carriedAs key other))

def parts (content : Members) : Field (List PartReading) :=
  match member content "parts" with
  | none => .absent
  | some .null => .null
  | some (.array items) => .value (items.map fun
    | .string text => .text text
    | other => .structured (kindOf other))
  | some other => wrongShape contentPath "parts" (kindOf other)

/-- The role and the name of the author. -/
def Reader.author (reader : Reader) (object : Members) : Reader × Field Text × Field Text :=
  match member object "author" with
  | none => (reader, .absent, .absent)
  | some .null => (reader, .null, .null)
  | some (.object author) =>
    (reader.noteUnrecognised author authorKeys authorPath, text author "role" authorPath,
      text author "name" authorPath)
  | some other =>
    (reader.note authorPath, .unreadable (carriedAs "author" other),
      .unreadable (carriedAs "author" other))

/-- The kind of the content and its parts. -/
def Reader.content (reader : Reader) (object : Members) :
    Reader × Field Text × Field (List PartReading) :=
  match member object "content" with
  | none => (reader, .absent, .absent)
  | some .null => (reader, .null, .null)
  | some (.object content) =>
    (reader.noteUnrecognised content contentKeys contentPath,
      text content "content_type" contentPath, parts content)
  | some other =>
    (reader.note contentPath, .unreadable (carriedAs "content" other),
      .unreadable (carriedAs "content" other))

def Reader.message (reader : Reader) (object : Members) : Reader × MessageRecord :=
  let reader := reader.noteUnrecognised object messageKeys messagePath
  let (reader, authorRole, authorName) := reader.author object
  let (reader, contentType, parts) := reader.content object
  let (reader, time) := reader.recordedTime J object "create_time" messagePath
  let (reader, updated) := reader.recordedTime J object "update_time" messagePath
  (reader,
    { id := text object "id" messagePath
      time
      updated
      authorRole
      authorName
      recipient := text object "recipient" messagePath
      contentType
      parts })

def Reader.messageSlot (reader : Reader) (object : Members) : Reader × MessageSlot :=
  match member object "message" with
  | none => (reader, .absent)
  | some .null => (reader, .none)
  | some (.object message) =>
    let (reader, message) := reader.message J message
    (reader, .message message)
  | some other => (reader, .unreadable (carriedAs "message" other))

def parentOf (object : Members) : ParentLink :=
  match member object "parent" with
  | none => .absent
  | some .null => .root
  | some (.string parent) => .node parent
  | some other => .unreadable (carriedAs "parent" other)

/-- The `id` field of a node, noted where it is not the key. -/
def Reader.statedId (reader : Reader) (key : Text) (object : Members) : Reader × Field Text :=
  match text object "id" nodePath with
  | .value stated =>
    (if stated ≠ key then reader.note (nodePath ++ ".id".toList) else reader, .value stated)
  | other => (reader, other)

def Reader.node (reader : Reader) (key : Text) (object : Members) : Reader × NodeRecord :=
  let reader := reader.noteUnrecognised object nodeKeys nodePath
  let (reader, statedId) := reader.statedId key object
  let (reader, children) := reader.stringList object "children" nodePath
  let (reader, message) := reader.messageSlot J object
  (reader, { id := key, statedId, parent := parentOf object, children, message })

/-- The nodes of a mapping; an entry that is no object fails the conversation. -/
def Reader.nodes (reader : Reader) :
    Members → Reader × Except ConversationFailureReason (List NodeRecord)
  | [] => (reader, .ok [])
  | (key, .object object) :: rest =>
    let (reader, node) := reader.node J key object
    let (reader, nodes) := Reader.nodes reader rest
    (reader, nodes.map (node :: ·))
  | (_, value) :: _ => (reader, .error (.nodeNotAnObject (kindOf value)))

/-- The ids that are stated, with their keys, and the keys that are null. -/
def statedIds (object : Members) :
    List String → Except ConversationFailureReason (List (String × Text) × List String)
  | [] => .ok ([], [])
  | key :: keys =>
    match member object key with
    | none => statedIds object keys
    | some .null => (statedIds object keys).map fun found => (found.1, key :: found.2)
    | some (.string id) =>
      if id.isEmpty then
        .error (.idNotReadable ('`' :: key.toList ++ "` is an empty string".toList))
      else (statedIds object keys).map fun found => ((key, id) :: found.1, found.2)
    | some other => .error (.idNotReadable (carriedAs key other))

def conversationId (object : Members) : Except ConversationFailureReason Text := do
  match ← statedIds object idKeys with
  | ([], []) =>
    .error (.idNotReadable "carries neither `conversation_id` nor `id`".toList)
  | ([], null) =>
    .error (.idNotReadable ('`' :: "`, `".toList.intercalate (null.map String.toList) ++
      "` is null".toList))
  | (first :: rest, _) =>
    match rest with
    | second :: _ =>
      if first.2 ≠ second.2 then
        .error (.idNotReadable ('`' :: first.1.toList ++ "` and `".toList ++ second.1.toList ++
          "` disagree, and this build does not choose between two ids".toList))
      else return first.2
    | [] => return first.2

def Reader.fail (reader : Reader) (id : Option Text) (reason : ConversationFailureReason) :
    Reader :=
  { reader with failures := reader.failures ++ [⟨id, reason⟩] }

def currentNodeOf (object : Members) : CurrentNodeReading :=
  match member object "current_node" with
  | none => .absent
  | some .null => .null
  | some (.string node) => .named node
  | some other => .unreadable (carriedAs "current_node" other)

def Reader.conversation (reader : Reader) (entry : Value) : Reader :=
  match entry with
  | .object object =>
    let reader := reader.noteUnrecognised object conversationKeys conversationPath
    match conversationId object with
    | .error reason => reader.fail none reason
    | .ok id =>
      match member object "mapping" with
      | none => reader.fail (some id) .mappingAbsent
      | some .null => reader.fail (some id) .mappingNull
      | some (.object mapping) =>
        match reader.nodes J mapping with
        | (reader, .error reason) => reader.fail (some id) reason
        | (reader, .ok nodes) =>
          let (tree, currentNode) := readTree nodes (currentNodeOf object)
          let (reader, created) := reader.recordedTime J object "create_time" conversationPath
          let (reader, updated) := reader.recordedTime J object "update_time" conversationPath
          let title := text object "title" conversationPath
          { reader with
            conversations :=
              reader.conversations ++ [{ id, created, updated, title, currentNode, nodes, tree }] }
      | some other => reader.fail (some id) (.mappingNotAnObject (kindOf other))
  | other => reader.fail none (.notAnObject (kindOf other))

inductive ExportFailure
  | notReadToTheEnd (why : Text)
  | notJson (why : Text)
  | notAnExport (found : Text)

/-- The conversation entries of a document: the elements of an array, or one object. -/
def entries : Value → Option (List Value)
  | .array items => some items
  | .object members => some [.object members]
  | _ => none

def parseExport (bytes : Bytes) : Except ExportFailure Reader :=
  match J.fromSlice bytes with
  | .error error => .error (if error.eof then .notReadToTheEnd error.why else .notJson error.why)
  | .ok (.array items) => .ok (items.foldl (Reader.conversation J) Reader.default)
  | .ok (.object members) => .ok (Reader.default.conversation J (.object members))
  | .ok other => .error (.notAnExport (kindOf other))

end Definitions

end ChatStasher.ChatgptExport
