import ChatStasher.Deletion.Control

/-! JSON values as the Grok Bot reader sees them, and what names a secret exchange in one. -/
namespace ChatStasher.GrokBot
open Inbox (Text)

/-- A parsed JSON value; a number keeps the digits it was written with. -/
inductive Value
  | null
  | bool (b : Bool)
  | number (digits : Text)
  | string (text : Text)
  | array (items : List Value)
  | object (members : List (Text × Value))

namespace Value

def get (value : Value) (key : String) : Option Value :=
  match value with
  | .object members => members.lookup key.toList
  | _ => none

def pointer (value : Value) (keys : List String) : Option Value :=
  keys.foldl (fun found key => found.bind (get · key)) (some value)

def asStr : Value → Option Text
  | .string text => some text
  | _ => none

def asBool : Value → Option Bool
  | .bool b => some b
  | _ => none

def asArray : Value → Option (List Value)
  | .array items => some items
  | _ => none

def isNull : Value → Bool
  | .null => true
  | _ => false

/-- `str::parse` for a number without a sign, below a bound. -/
def parseBelow (bound : ℕ) (digits : Text) : Option ℕ :=
  if digits ≠ [] ∧ digits.all Char.isDigit then
    let n := Nat.ofDigitChars 10 digits 0
    if n < bound then some n else none
  else none

def asU64 : Value → Option ℕ
  | .number digits => parseBelow (2 ^ 64) digits
  | _ => none

def asI64 : Value → Option ℤ
  | .number ('-' :: digits) => (parseBelow (2 ^ 63 + 1) digits).map fun n => -(n : ℤ)
  | .number digits => (parseBelow (2 ^ 63) digits).map Int.ofNat
  | _ => none

def ofU64 (n : ℕ) : Value := .number (Nat.toDigits 10 n)

def escapeChar (c : Char) : Text :=
  let hex (n : ℕ) : Char := ("0123456789abcdef".toList).getD n '0'
  match c.toNat with
  | 0x22 => "\\\"".toList
  | 0x5C => "\\\\".toList
  | 0x08 => "\\b".toList
  | 0x09 => "\\t".toList
  | 0x0A => "\\n".toList
  | 0x0C => "\\f".toList
  | 0x0D => "\\r".toList
  | n => if n < 0x20 then "\\u00".toList ++ [hex (n / 16), hex (n % 16)] else [c]

def quoted (text : Text) : Text := "\"".toList ++ text.flatMap escapeChar ++ "\"".toList

mutual

/-- `serde_json::to_writer`: the value without any blank. -/
def compact : Value → Text
  | .null => "null".toList
  | .bool true => "true".toList
  | .bool false => "false".toList
  | .number digits => digits
  | .string text => quoted text
  | .array items => "[".toList ++ compactItems items ++ "]".toList
  | .object members => "\x7b".toList ++ compactMembers members ++ "\x7d".toList

def compactItems : List Value → Text
  | [] => []
  | [item] => compact item
  | item :: next :: items => compact item ++ ',' :: compactItems (next :: items)

def compactMembers : List (Text × Value) → Text
  | [] => []
  | [(key, value)] => quoted key ++ ':' :: compact value
  | (key, value) :: next :: members =>
    quoted key ++ ':' :: compact value ++ ',' :: compactMembers (next :: members)

end

def secretKey (key : Text) : Bool :=
  key = "secretRequest".toList || key = "secretProvided".toList

mutual

/-- Whether a record names a credential exchange anywhere in its JSON. -/
def namesASecretExchange : Value → Bool
  | .object members => anyMemberNames members
  | .array items => anyItemNames items
  | _ => false

def anyMemberNames : List (Text × Value) → Bool
  | [] => false
  | (key, value) :: members =>
    (secretKey key || namesASecretExchange value) || anyMemberNames members

def anyItemNames : List Value → Bool
  | [] => false
  | item :: items => namesASecretExchange item || anyItemNames items

end

mutual

/-- A value with every string in it blotted out; its keys, numbers and marks stay. -/
def withoutStrings : Value → Value
  | .null => .null
  | .bool b => .bool b
  | .number digits => .number digits
  | .string _ => .string []
  | .array items => .array (itemsWithoutStrings items)
  | .object members => .object (membersWithoutStrings members)

def itemsWithoutStrings : List Value → List Value
  | [] => []
  | item :: items => withoutStrings item :: itemsWithoutStrings items

def membersWithoutStrings : List (Text × Value) → List (Text × Value)
  | [] => []
  | (key, value) :: members => (key, withoutStrings value) :: membersWithoutStrings members

end

lemma parseBelow_toDigits {bound n : ℕ} (h : n < bound) :
    parseBelow bound (Nat.toDigits 10 n) = some n := by
  have hne : Nat.toDigits 10 n ≠ [] := Nat.toDigits_ne_nil
  have hall : (Nat.toDigits 10 n).all Char.isDigit := List.all_eq_true.mpr fun c hc =>
    Nat.isDigit_of_mem_toDigits (by decide) (by decide) hc
  rw [parseBelow, if_pos ⟨hne, hall⟩]
  simp only [Nat.ofDigitChars_ten_toDigits, if_pos h]

lemma asU64_ofU64 {n : ℕ} (h : n < 2 ^ 64) : (ofU64 n).asU64 = some n := parseBelow_toDigits h

lemma asU64_lt {value : Value} {n : ℕ} (h : value.asU64 = some n) : n < 2 ^ 64 := by
  cases value with
  | number digits =>
    rw [asU64, parseBelow] at h
    split at h
    · dsimp only at h
      split at h
      next hlt => exact Option.some.inj h ▸ hlt
      next => cases h
    · cases h
  | _ => cases h

mutual

lemma namesASecretExchange_withoutStrings : ∀ value : Value,
    namesASecretExchange (withoutStrings value) = namesASecretExchange value
  | .null => rfl
  | .bool _ => rfl
  | .number _ => rfl
  | .string _ => rfl
  | .array items => anyItemNames_withoutStrings items
  | .object members => anyMemberNames_withoutStrings members

lemma anyItemNames_withoutStrings : ∀ items : List Value,
    anyItemNames (itemsWithoutStrings items) = anyItemNames items
  | [] => rfl
  | item :: items => by
    rw [itemsWithoutStrings, anyItemNames, anyItemNames, namesASecretExchange_withoutStrings item,
      anyItemNames_withoutStrings items]

lemma anyMemberNames_withoutStrings : ∀ members : List (Text × Value),
    anyMemberNames (membersWithoutStrings members) = anyMemberNames members
  | [] => rfl
  | (key, value) :: members => by
    rw [membersWithoutStrings, anyMemberNames, anyMemberNames,
      namesASecretExchange_withoutStrings value, anyMemberNames_withoutStrings members]

end

lemma lookup_membersWithoutStrings (members : List (Text × Value)) (key : Text) :
    (membersWithoutStrings members).lookup key = (members.lookup key).map withoutStrings := by
  induction members with
  | nil => rfl
  | cons member members ih =>
    obtain ⟨k, value⟩ := member
    rw [membersWithoutStrings, List.lookup_cons, List.lookup_cons, ih]
    split <;> rfl

lemma get_withoutStrings (value : Value) (key : String) :
    value.withoutStrings.get key = (value.get key).map withoutStrings := by
  cases value with
  | object members => exact lookup_membersWithoutStrings members _
  | _ => rfl

lemma itemsWithoutStrings_eq_map (items : List Value) :
    itemsWithoutStrings items = items.map withoutStrings := by
  induction items with
  | nil => rfl
  | cons item items ih => rw [itemsWithoutStrings, ih, List.map_cons]

@[simp] lemma asU64_withoutStrings (value : Value) : value.withoutStrings.asU64 = value.asU64 := by
  cases value <;> rfl

@[simp] lemma asBool_withoutStrings (value : Value) :
    value.withoutStrings.asBool = value.asBool := by
  cases value <;> rfl

lemma asStr_withoutStrings (value : Value) :
    value.withoutStrings.asStr.isSome = value.asStr.isSome := by
  cases value <;> rfl

lemma asArray_withoutStrings (value : Value) :
    value.withoutStrings.asArray = value.asArray.map (List.map withoutStrings) := by
  cases value with
  | array items => exact congrArg some (itemsWithoutStrings_eq_map items)
  | _ => rfl

end Value

end ChatStasher.GrokBot

/-! The reader of an archived Grok Bot session: which variant of a position is rendered, and how. -/
namespace ChatStasher.GrokBot
open Inbox (Text trim)
open Deletion (textLines)
open KeyedList

/-- What the reader is given: the parser of JSON texts, of RFC 3339 instants, and a number as an `f64`
cut to an integer. -/
structure ReplicaReader where
  parse : Text → Option Value
  rfc3339 : Text → Option ℤ
  truncated : Text → Option ℤ

inductive Role
  | user
  | assistant
  | system
  | tool
  | unknown
  deriving DecidableEq

def Role.fromStr (value : Text) : Option Role :=
  let lower := value.map Char.toLower
  if lower ∈ ["user".toList, "human".toList] then some .user
  else if lower ∈ ["assistant".toList, "model".toList, "gemini".toList] then some .assistant
  else if lower = "system".toList then some .system
  else if lower ∈ ["tool".toList, "function".toList] then some .tool
  else none

inductive TimeSource
  | exactly
  | inferred (how : Text)
  deriving DecidableEq

inductive MessageTime
  | known (unix : ℤ) (source : TimeSource)
  | unknown (why : Text)
  deriving DecidableEq

structure AttachmentRef where
  name : Option Text
  mediaType : Option Text
  bytes : Option ℕ
  deriving DecidableEq

inductive Block
  | text (text : Text)
  | toolCall (name : Option Text) (inputSummary : Text) (outputBytes : Option ℕ)
  | attachmentRef (attachment : AttachmentRef)
  deriving DecidableEq

structure Message where
  role : Role
  time : MessageTime
  blocks : List Block
  deriving DecidableEq

structure Conversation where
  messages : List Message
  messageTotal : ℕ
  unrenderedLines : ℕ
  unrecognizedLines : ℕ
  attachments : List AttachmentRef
  sequenceGapRuns : List (ℕ × ℕ)
  partialSource : Bool
  deriving DecidableEq

def Conversation.new : Conversation := ⟨[], 0, 0, 0, [], [], false⟩

def Conversation.pushMessage (conversation : Conversation) (message : Message) : Conversation :=
  { conversation with
    messageTotal := conversation.messageTotal + 1
    messages := conversation.messages ++ [message] }

/-- A text field as the reader claims it: present, a string, non-empty. -/
def textField (value : Option Value) : Option Text := (value.bind Value.asStr).filter (· ≠ [])

def entries (value : Option Value) : List Value := (value.bind Value.asArray).getD []

section Render
variable (R : ReplicaReader)

def epochTime (raw : ℤ) : MessageTime :=
  if 946684800 ≤ raw ∧ raw ≤ 4102444800 then
    .known raw (.inferred "numeric epoch seconds".toList)
  else if 946684800000 ≤ raw ∧ raw ≤ 4102444800000 then
    .known (raw / 1000) (.inferred "numeric epoch milliseconds".toList)
  else .unknown "the recorded timestamp is outside the supported time window".toList

def messageTime : Option Value → MessageTime
  | none => .unknown "the message has no recorded timestamp".toList
  | some value =>
    match value with
    | .string text =>
      match R.rfc3339 text with
      | some unix => .known unix .exactly
      | none => .unknown "the recorded timestamp could not be interpreted".toList
    | .number digits =>
      match value.asI64.or (R.truncated digits) with
      | some raw => epochTime raw
      | none => .unknown "the recorded timestamp could not be interpreted".toList
    | _ => .unknown "the recorded timestamp could not be interpreted".toList

/-- The speaker of a `message` record. -/
def messageRole (record : Value) : Role :=
  match ((record.get "role").bind Value.asStr).bind Role.fromStr with
  | some role => role
  | none =>
    if (record.get "fromUser").any fun value => !value.isNull then .user
    else if (record.get "fromAgent").any fun value => !value.isNull then .assistant
    else if ((record.pointer ["author", "kind"]).bind Value.asStr).any fun kind =>
      (Role.fromStr kind).isSome then .assistant
    else .unknown

/-- `kind: message`: one turn of the transcript. -/
def renderMessage (record : Value) (conversation : Conversation) : Conversation :=
  match (textField (record.get "content")).or (textField (record.get "richText")) with
  | none => conversation
  | some text => conversation.pushMessage
    ⟨messageRole record, messageTime R (record.get "timestampMs"), [.text text]⟩

/-- `kind: notice`: a platform banner. -/
def renderNotice (record : Value) (conversation : Conversation) : Conversation :=
  match textField (record.get "text") with
  | none => conversation
  | some text => conversation.pushMessage
    ⟨.system, messageTime R (record.get "timestampMs"), [.text text]⟩

/-- `kind: user-attachment`: the person's upload. -/
def renderUserAttachment (record : Value) (conversation : Conversation) : Conversation :=
  let attachment : AttachmentRef :=
    ⟨(record.get "file_name").bind Value.asStr, none, (record.get "byteSize").bind Value.asU64⟩
  let listed := { conversation with attachments := conversation.attachments ++ [attachment] }
  listed.pushMessage
    ⟨.user, messageTime R (record.get "timestampMs"), [.attachmentRef attachment]⟩

def toolCall (name : String) (summary : Option Text) : Block :=
  .toolCall (some name.toList) (summary.getD "no input recorded".toList) none

def approvalFields : List String := ["summary", "reason", "command", "status"]
def askFields : List String := ["action", "target", "status"]
def boxFields : List String := ["boxInstruction", "boxResolution"]

def joinedFields (value : Value) (keys : List String) : Option Text :=
  let parts := keys.filterMap fun key => textField (value.get key)
  if parts.isEmpty then none else some (List.intercalate " · ".toList parts)

/-- The joined readable fields of the approval gate, with the title of the delegation it names. -/
def approvalSummary (approval : Value) : Option Text :=
  let summary := joinedFields approval approvalFields
  match textField (approval.pointer ["subagent", "title"]) with
  | some title =>
    match summary with
    | some joined => some (joined ++ " · ".toList ++ title)
    | none => some title
  | none => summary

/-- The one text block of a widget: prompt, help text, option labels and the resolution. -/
def widgetText (record widget : Value) : Option Text :=
  let lines := (textField (widget.get "prompt")).toList ++
    (textField (widget.get "helpText")).toList ++
    (entries (widget.get "options")).filterMap fun option => textField (option.get "label")
  let resolution :=
    match textField (record.get "respondedValue") with
    | some answer => ["answered: ".toList ++ answer]
    | none =>
      if (record.get "widgetSkipped").bind Value.asBool = some true then ["(skipped)".toList]
      else []
  let all := lines ++ resolution
  if all.isEmpty then none else some (List.intercalate ['\n'] all)

def sentBlocks (record message : Value) : List Block :=
  let words := (textField (message.get "content")).or (textField (message.get "alt"))
  let widget := ((message.get "widget").filter (!·.isNull)).bind (widgetText record)
  let approval := (message.get "approval").filter (!·.isNull)
  let ask := (message.get "ask").filter (!·.isNull)
  let images := (entries (message.get "images")).map fun image =>
    Block.attachmentRef
      ⟨(textField (image.get "alt")).or (textField (image.get "url")), none, none⟩
  let deliveries := ["file_name", "url"].filterMap fun key => textField (message.get key)
  (words.map Block.text).toList ++ (widget.map Block.text).toList ++
    (approval.map fun value => toolCall "approval" (approvalSummary value)).toList ++
    (ask.map fun value => toolCall "ask" (joinedFields value askFields)).toList ++
    images ++ deliveries.map fun name => .attachmentRef ⟨some name, none, none⟩

/-- `kind: send-message`: the bot-to-user direction. -/
def renderSendMessage (record : Value) (conversation : Conversation) : Conversation :=
  let sent := (((record.get "message").filter (!·.isNull)).map (sentBlocks record)).getD []
  let box :=
    if (record.get "boxInstruction").isSome || (record.get "boxResolution").isSome then
      [toolCall "box" (joinedFields record boxFields)]
    else []
  let blocks := sent ++ box
  if blocks.isEmpty then conversation
  else conversation.pushMessage
    ⟨.assistant, messageTime R (record.get "timestampMs"), blocks⟩

/-- The order of the stamps of a call; what has no readable stamp comes first. -/
def atMsLe : Option ℤ → Option ℤ → Bool
  | none, _ => true
  | some _, none => false
  | some a, some b => a ≤ b

/-- What was spoken under one key of a call: the entries with a readable text, stamped. -/
def spokenUnder (textKey : String) (role : Value → Role) (items : List Value) :
    List (Option ℤ × Message) :=
  items.filterMap fun item => (textField (item.get textKey)).map fun text =>
    ((item.get "atMs").bind Value.asI64, ⟨role item, messageTime R (item.get "atMs"), [.text text]⟩)

/-- `kind: voice-call`: the description, then the turns and nudges in the order of their stamps. -/
def renderVoiceCall (record : Value) (conversation : Conversation) : Conversation :=
  let described :=
    match textField (record.pointer ["call", "description"]) with
    | none => conversation
    | some description => conversation.pushMessage
      ⟨.unknown, messageTime R (record.get "timestampMs"), [.text description]⟩
  let speaker (turn : Value) : Role :=
    (((turn.get "speaker").bind Value.asStr).bind Role.fromStr).getD .unknown
  let spoken :=
    spokenUnder R "text" speaker (entries (record.pointer ["conversation", "turns"])) ++
      spokenUnder R "request" (fun _ => .assistant)
        (entries (record.pointer ["conversation", "nudges"]))
  (spoken.mergeSort fun a b => atMsLe a.1 b.1).foldl
    (fun conversation at_ => conversation.pushMessage at_.2) described

/-- Render the picked variant of one seq; the secret rule comes ahead of every kind. -/
def renderRecord (conversation : Conversation) (record : Value) : Conversation :=
  match (record.get "kind").bind Value.asStr with
  | none => { conversation with unrecognizedLines := conversation.unrecognizedLines + 1 }
  | some kind =>
    if record.namesASecretExchange then
      { conversation with unrenderedLines := conversation.unrenderedLines + 1 }
    else if kind = "message".toList then renderMessage R record conversation
    else if kind = "notice".toList then renderNotice R record conversation
    else if kind = "user-attachment".toList then renderUserAttachment R record conversation
    else if kind = "send-message".toList then renderSendMessage R record conversation
    else if kind = "voice-call".toList then renderVoiceCall R record conversation
    else if kind = "at".toList then conversation
    else if kind = "event".toList then
      { conversation with unrenderedLines := conversation.unrenderedLines + 1 }
    else { conversation with unrecognizedLines := conversation.unrecognizedLines + 1 }

/-- What the walk over the lines gathers: the variants of each seq in the order of the body, the last
measurement line and the number of lines that are no record. -/
structure Walk where
  records : List (ℕ × List Value)
  measurement : Option Value
  unrecognized : ℕ

def Walk.start : Walk := ⟨[], none, 0⟩

/-- A parsed line: a measurement, a record under its seq, or nothing the reader knows. -/
def Walk.take (walk : Walk) (record : Value) : Walk :=
  if (record.get "_chat_stasher").isSome then { walk with measurement := some record }
  else
    match (record.get "seq").bind Value.asU64 with
    | none => { walk with unrecognized := walk.unrecognized + 1 }
    | some sequence =>
      if ((record.get "kind").bind Value.asStr).isNone then
        { walk with unrecognized := walk.unrecognized + 1 }
      else
        { walk with
          records := upsert walk.records sequence fun variants => variants.getD [] ++ [record] }

def walkLine (walk : Walk) (line : Text) : Walk :=
  if (trim line).isEmpty then walk
  else
    match R.parse line with
    | none => { walk with unrecognized := walk.unrecognized + 1 }
    | some record => walk.take record

def walkBody (body : Text) : Walk := (textLines body).foldl (walkLine R) Walk.start

def complete (variant : Value) : Bool :=
  (variant.get "isStreaming").bind Value.asBool = some false

/-- The variant of one seq that is rendered: the last complete one, or the last one. -/
def pickVariant (variants : List Value) : Option Value :=
  (variants.reverse.find? complete).or variants.getLast?

/-- A position extends the last run, or starts a new one. -/
def extendRuns (runs : List (ℕ × ℕ)) (position : ℕ) : List (ℕ × ℕ) :=
  match runs.getLast? with
  | some (start, last) =>
    if min (last + 1) (2 ^ 64 - 1) = position then runs.dropLast ++ [(start, position)]
    else runs ++ [(position, position)]
  | none => [(position, position)]

def gapRuns (gaps : Option Value) : List (ℕ × ℕ) :=
  let positions := (entries gaps).filterMap Value.asU64
  ((positions.mergeSort (· ≤ ·)).destutter (· ≠ ·)).foldl extendRuns []

/-- The records that are rendered, one for each seq in ascending order. -/
def shownRecords (walk : Walk) : List Value :=
  (inKeyOrder walk.records).filterMap fun group => pickVariant group.2

/-- The conversation that the gathered records and the last measurement are rendered to. -/
def conversationOf (walk : Walk) : Conversation :=
  let rendered := (shownRecords walk).foldl (renderRecord R)
    { Conversation.new with unrecognizedLines := walk.unrecognized }
  match walk.measurement.bind (·.get "_chat_stasher") with
  | none => rendered
  | some measurement =>
    { rendered with
      sequenceGapRuns := gapRuns (measurement.get "sequence_gaps")
      partialSource := (measurement.get "partial_replica").bind Value.asBool = some true }

def normalizeBody (body : Text) : Conversation := conversationOf R (walkBody R body)

end Render

end ChatStasher.GrokBot
