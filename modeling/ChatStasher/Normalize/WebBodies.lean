import ChatStasher.GrokBot.Reader
import ChatStasher.Library.Lists

/-! The reader of archived web conversations: the branch of a claude.ai or ChatGPT body that it
takes for the conversation, the messages that it renders, and what it counts. -/
namespace ChatStasher.Normalize
open Inbox (Text utf8)
open GrokBot (Value Role MessageTime AttachmentRef ReplicaReader messageTime)
open Unseen

abbrev Members := List (Text × Value)

section Model

inductive Block
  | text (text : Text)
  | codeBlock (language : Option Text) (code : Text)
  | thinking (text : Text)
  | toolCall (name : Option Text) (inputSummary : Text) (outputBytes : Option ℕ)
  | attachmentRef (attachment : AttachmentRef)
  deriving DecidableEq

structure Message where
  role : Role
  time : MessageTime
  blocks : List Block
  deriving DecidableEq

structure Conversation where
  messages : List Message
  messageTotal : ℕ
  unrenderedLines : ℕ
  branchNodes : ℕ
  canonicalFollowsActive : Bool
  attachments : List AttachmentRef
  deriving DecidableEq

def Conversation.new : Conversation := ⟨[], 0, 0, 0, true, []⟩

def Conversation.pushMessage (conversation : Conversation) (message : Message) : Conversation :=
  { conversation with
    messageTotal := conversation.messageTotal + 1
    messages := conversation.messages ++ [message] }

def Conversation.countUnrendered (conversation : Conversation) : Conversation :=
  { conversation with unrenderedLines := conversation.unrenderedLines + 1 }

def Conversation.lostActive (conversation : Conversation) : Conversation :=
  { conversation with canonicalFollowsActive := false }

end Model

section Blocks

def member (map : Members) (key : String) : Option Value := map.lookup key.toList

def memberText (map : Members) (key : String) : Option Text := (member map key).bind Value.asStr

def compactJson : Option Value → Text
  | some (.string text) => text
  | some value => value.compact
  | none => "no input recorded".toList

def attachmentFromMap (map : Members) : AttachmentRef where
  name := (((member map "name").or (member map "filename")).or (member map "file_name")).bind
    Value.asStr
  mediaType :=
    (((member map "mime_type").or (member map "media_type")).or (member map "content_type")).bind
      Value.asStr
  bytes := ((member map "bytes").or (member map "size")).bind Value.asU64

/-- What some content holds: its blocks, and the attachments that it names. -/
structure Content where
  blocks : List Block
  attachments : List AttachmentRef

def Content.none : Content := ⟨[], []⟩

def Content.one (block : Block) : Content := ⟨[block], []⟩

def Content.append (a b : Content) : Content :=
  ⟨a.blocks ++ b.blocks, a.attachments ++ b.attachments⟩

def ofOption (block : Option Block) : Content := (block.map Content.one).getD Content.none

/-- An object of a kind that is known by name; `none` for any other. -/
def blockOfKind (map : Members) : Option Content :=
  match memberText map "type" with
  | none => none
  | some kind =>
    if kind ∈ ["text".toList, "output_text".toList] then
      some (ofOption ((memberText map "text").map .text))
    else if kind ∈ ["thinking".toList, "reasoning".toList] then
      some (ofOption ((((member map "thinking").or (member map "text")).bind Value.asStr).map
        .thinking))
    else if kind ∈ ["tool_use".toList, "tool_call".toList, "function_call".toList] then
      let input := ((member map "input").or (member map "arguments")).or (member map "content")
      some (.one (.toolCall (memberText map "name") (compactJson input) .none))
    else if kind ∈ ["tool_result".toList, "function_result".toList] then
      let name := ((member map "tool_use_id").or (member map "name")).bind Value.asStr
      some (.one (.toolCall name "tool result".toList
        ((member map "content").map fun value => (utf8 (compactJson (some value))).length)))
    else if kind ∈ ["image".toList, "attachment".toList, "file".toList] then
      some ⟨[.attachmentRef (attachmentFromMap map)], [attachmentFromMap map]⟩
    else none

/-- The attachments that an object of no known kind lists. -/
def listedAttachments (map : Members) : List AttachmentRef :=
  match (member map "attachments").bind Value.asArray with
  | some items => items.filterMap fun item =>
    match item with
    | .object map => some (attachmentFromMap map)
    | _ => .none
  | none => []

mutual

def blocksFromContent : Value → Content
  | .string text => .one (.text text)
  | .array items => blocksFromItems items
  | .object map =>
    match memberText map "text" with
    | some text => .one (.text text)
    | none =>
      match memberText map "code" with
      | some code =>
        let language := ((member map "language").or (member map "lang")).bind Value.asStr
        .one (.codeBlock language code)
      | none =>
        match blockOfKind map with
        | some content => content
        | none =>
          match blocksFromParts map with
          | some content => content
          | none => ⟨[], listedAttachments map⟩
  | _ => .none

def blocksFromItems : List Value → Content
  | [] => .none
  | item :: items => (blocksFromContent item).append (blocksFromItems items)

/-- The blocks of the `parts` of an object, if it is a list. -/
def blocksFromParts : List (Text × Value) → Option Content
  | [] => none
  | (key, value) :: rest =>
    if key = "parts".toList then
      match value with
      | .array items => some (blocksFromItems items)
      | _ => none
    else blocksFromParts rest

end

end Blocks

section Generic

variable (R : ReplicaReader)

/-- The call that a record of its own stands for. -/
def toolRecord (value : Value) (time : MessageTime) : Option Message :=
  match (value.get "type").bind Value.asStr with
  | none => none
  | some kind =>
    if kind ∈ ["function_call".toList, "tool_call".toList, "custom_tool_call".toList,
        "web_search_call".toList] then
      some ⟨.tool, time, [.toolCall
        (((value.get "name").or (value.get "function")).bind Value.asStr)
        (compactJson ((value.get "arguments").or (value.get "input")))
        ((value.get "output").map fun value => (utf8 (compactJson (some value))).length)]⟩
    else none

def messageFromValue (value : Value) (time : MessageTime) : Option Message × List AttachmentRef :=
  match toolRecord value time with
  | some message => (some message, [])
  | none =>
    let author := (value.get "author").bind fun a => a.get "role"
    match (((value.get "role").or author).bind Value.asStr).bind Role.fromStr with
    | none => (none, [])
    | some role =>
      let content := blocksFromContent ((value.get "content").getD value)
      (if content.blocks.isEmpty then none else some ⟨role, time, content.blocks⟩,
        content.attachments)

/-- A record's message rendered, or the record counted. -/
def Conversation.add (conversation : Conversation) (read : Option Message × List AttachmentRef) :
    Conversation :=
  let conversation := { conversation with attachments := conversation.attachments ++ read.2 }
  match read.1 with
  | some message => conversation.pushMessage message
  | none => conversation.countUnrendered

def normalizeGeneric (value : Value) (conversation : Conversation) : Conversation :=
  let messages :=
    match value with
    | .array messages => some messages
    | value => (value.get "messages").bind Value.asArray
  match messages with
  | none => conversation.countUnrendered
  | some messages => messages.foldl (fun conversation item =>
      conversation.add (messageFromValue item (messageTime R (item.get "timestamp")))) conversation

/-- The body of an archived line: what its raw text parses to, or the line itself. -/
def payload (value : Value) : Option Value :=
  match (value.pointer ["raw", "text"]).bind Value.asStr with
  | some text => R.parse text
  | none => some value

end Generic

section ChatGpt

variable (R : ReplicaReader)

/-- The ids of the active branch from a cursor on, and whether it ends at a node with no parent. -/
def chatgptChain (mapping : Members) (chain : List Text) : Option Text → List Text × Bool
  | none => (chain, true)
  | some id =>
    if _ : id ∈ chain then (chain, false)
    else
      match _ : mapping.lookup id with
      | none => (chain, false)
      | some node =>
        chatgptChain mapping (chain ++ [id]) ((node.get "parent").bind Value.asStr)
termination_by unseen (mapping.map Prod.fst) chain
decreasing_by
  rename_i hnew hnode
  obtain ⟨before, after, rfl, -⟩ := List.lookup_eq_some_iff.mp hnode
  exact unseen_lt (by simp) hnew (fun _ => List.mem_append_left _) (by simp)

/-- What is made of the message of a node. -/
def chatgptMessage (message : Value) : Option Message × List AttachmentRef :=
  match ((((message.get "author").bind fun author => author.get "role").bind Value.asStr).bind
      Role.fromStr) with
  | none => (none, [])
  | some role =>
    let content := blocksFromContent ((message.get "content").getD message)
    (if content.blocks.isEmpty then none
      else some ⟨role, messageTime R (message.get "create_time"), content.blocks⟩,
      content.attachments)

/-- A node of the active branch; one without a message is known to be empty. -/
def chatgptNode (mapping : Members) (conversation : Conversation) (id : Text) : Conversation :=
  match mapping.lookup id with
  | none => conversation
  | some node =>
    match (node.get "message").filter fun message => !message.isNull with
    | none => conversation
    | some message => conversation.add (chatgptMessage R message)

def normalizeChatgpt (value : Value) (conversation : Conversation) : Conversation :=
  match payload R value with
  | none => conversation.countUnrendered.lostActive
  | some raw =>
    match raw.get "mapping" with
    | some (.object mapping) =>
      match (raw.get "current_node").bind Value.asStr with
      | none => conversation.countUnrendered.lostActive
      | some current =>
        let (chain, whole) := chatgptChain mapping [] (some current)
        let conversation := if whole then conversation else conversation.lostActive
        let conversation :=
          { conversation with
            branchNodes := conversation.branchNodes + (mapping.length - chain.length) }
        chain.reverse.foldl (chatgptNode R mapping) conversation
    | _ => (normalizeGeneric R raw conversation).lostActive

end ChatGpt

section Claude

variable (R : ReplicaReader)

def claudeParentKeys : List String := ["parent_message_uuid", "parent_uuid"]

def claudeParent (message : Value) : Option Text :=
  claudeParentKeys.findSome? fun key =>
    ((message.get key).bind Value.asStr).filter fun parent => !parent.isEmpty

def uuidOf (message : Value) : Option Text := (message.get "uuid").bind Value.asStr

/-- The message under an id; a later one takes the place of an earlier one. -/
def claudeById (messages : List Value) (id : Text) : Option Value :=
  messages.reverse.find? fun message => uuidOf message = some id

lemma claudeById_spec {messages : List Value} {id : Text} {message : Value}
    (h : claudeById messages id = some message) : message ∈ messages ∧ uuidOf message = some id :=
  ⟨List.mem_reverse.mp (List.mem_of_find?_eq_some h), by simpa using List.find?_some h⟩

/-- The ids from a cursor up to where the body carries no parent; `none` where they come back. -/
def claudeChainFrom (messages : List Value) (chain : List Text) : Option Text → Option (List Text)
  | none => some chain
  | some id =>
    match _ : claudeById messages id with
    | none => some chain
    | some message =>
      if _ : id ∈ chain then none
      else claudeChainFrom messages (chain ++ [id]) (claudeParent message)
termination_by unseen (messages.filterMap uuidOf) chain
decreasing_by
  rename_i hnode hnew
  obtain ⟨hmem, huuid⟩ := claudeById_spec hnode
  exact unseen_lt (List.mem_filterMap.mpr ⟨_, hmem, huuid⟩) hnew
    (fun _ => List.mem_append_left _) (by simp)

/-- The ids of the branch, oldest first; `none` where the leaf is not in the body or the links come
back. -/
def claudeChain (messages : List Value) (leaf : Text) : Option (List Text) :=
  match claudeChainFrom messages [] (some leaf) with
  | none => none
  | some chain => if chain.isEmpty then none else some chain.reverse

/-- The messages of the active branch, oldest first, and the conversation with what is off it
counted. -/
def claudeActiveThread (raw : Value) (messages : List Value) (conversation : Conversation) :
    List Value × Conversation :=
  if !messages.any fun message => (claudeParent message).isSome then (messages, conversation)
  else
    let leaf := ((raw.get "current_leaf_message_uuid").bind Value.asStr).filter
      fun leaf => !leaf.isEmpty
    match leaf.bind (claudeChain messages) with
    | none => (messages, conversation.lostActive)
    | some chain =>
      let thread := chain.filterMap (claudeById messages)
      (thread, { conversation with
        branchNodes := conversation.branchNodes + (messages.length - thread.length) })

def claudeMessage (item : Value) : Option Message × List AttachmentRef :=
  match (((item.get "sender").or (item.get "role")).bind Value.asStr).bind Role.fromStr with
  | none => (none, [])
  | some role =>
    let content := blocksFromContent (((item.get "content").or (item.get "text")).getD item)
    let time := (item.get "created_at").or (item.get "updated_at")
    (if content.blocks.isEmpty then none else some ⟨role, messageTime R time, content.blocks⟩,
      content.attachments)

def normalizeClaudeWeb (value : Value) (conversation : Conversation) : Conversation :=
  match payload R value with
  | none => conversation.countUnrendered.lostActive
  | some raw =>
    match raw.get "chat_messages" with
    | some (.array messages) =>
      let (thread, conversation) := claudeActiveThread raw messages conversation
      thread.foldl (fun conversation item => conversation.add (claudeMessage R item)) conversation
    | _ => (normalizeGeneric R raw conversation).lostActive

end Claude

end ChatStasher.Normalize
