import ChatStasher.Library.JsonText
import ChatStasher.Library.ParentChain

/-! Whether a response carries a whole conversation tree: the walk from the current leaf along the
parent links, for claude.ai and for DeepSeek. -/
namespace ChatStasher.DetailTrees
open JsonText ParentChain

inductive DetailOutcome
  | nonEmpty
  | emptyUnverified
  | treeIncomplete
  deriving DecidableEq

/-- `none` where the response does not have the shape that the plan knows. -/
abbrev DetailResult := Option DetailOutcome

def nonEmptyString? : Option Value → Option Units
  | some (.string s) => if s = [] then none else some s
  | _ => none

section Claude

/-- What the walk reads of a message; an index that is no number is `none`. -/
structure ClaudeMessage (N : Type*) where
  uuid : Units
  parent : Option Units
  index : Option N
  deriving DecidableEq

/-- Why a tree is not known to be whole. -/
inductive ClaudeRefusal
  | notJson
  | notAnObject
  | noChatMessages
  | messageNotAnObject
  | noUuid
  | noCurrentLeaf
  | leafNotCarried
  | chainRevisits
  | notTheBranchRoot
  deriving DecidableEq

def claudeParentKeys : List String := ["parent_message_uuid", "parent_uuid"]

def claudeParentOf (message : Value) : Option Units :=
  claudeParentKeys.findSome? fun key => nonEmptyString? (message.field key)

variable {N : Type*} (num : Units → N)

def number? : Option Value → Option N
  | some (.number digits) => some (num digits)
  | _ => none

def claudeMessage (message : Value) : Except ClaudeRefusal (ClaudeMessage N) :=
  match message with
  | .object _ =>
    match nonEmptyString? (message.field "uuid") with
    | some uuid => .ok ⟨uuid, claudeParentOf message, number? num (message.field "index")⟩
    | none => .error .noUuid
  | _ => .error .messageNotAnObject

/-- The messages, or what is wrong with the first one that cannot be read. -/
def claudeMessages : List Value → Except ClaudeRefusal (List (ClaudeMessage N))
  | [] => .ok []
  | v :: vs =>
    match claudeMessage num v with
    | .error e => .error e
    | .ok m =>
      match claudeMessages vs with
      | .error e => .error e
      | .ok ms => .ok (m :: ms)

/-- The map from uuids to messages; a later message takes the place of an earlier one. -/
def byUuid (messages : List (ClaudeMessage N)) (uuid : Units) : Option (ClaudeMessage N) :=
  messages.reverse.find? fun m => m.uuid = uuid

def claudeNode (messages : List (ClaudeMessage N)) (uuid : Units) : Node Units :=
  match byUuid messages uuid with
  | none => .absent
  | some message =>
    match message.parent with
    | none => .root
    | some parent => .link parent

variable [LinearOrder N] [Zero N]

/-- `claudeAbsentParentIsBranchRoot`: every absent parent is the one that the walk stopped at, and
the message that named it has index 0 or a sibling with a smaller index. -/
def absentParentIsBranchRoot (messages : List (ClaudeMessage N)) (chain : List Units)
    (absentParent : Units) : Bool :=
  (messages.all fun m => m.parent.all fun parent =>
    (byUuid messages parent).isSome || parent = absentParent) &&
  match chain.getLast?.bind (byUuid messages) with
  | none => false
  | some root =>
    match root.index with
    | none => false
    | some index =>
      index = 0 || (0 < index && messages.any fun m =>
        m.uuid ≠ root.uuid && m.parent = some absentParent && m.index.any (· < index))

def claudeBranch (fuel : ℕ) (messages : List (ClaudeMessage N)) (leaf : Units) :
    Option (Except ClaudeRefusal (List Units)) :=
  (walk (claudeNode messages) fuel [] leaf).map fun
    | .root chain => .ok chain.reverse
    | .absent chain parent =>
      if absentParentIsBranchRoot messages chain parent then .ok chain.reverse
      else .error .notTheBranchRoot
    | .revisit => .error .chainRevisits
    -- No link of this kind cannot be followed.
    | .broken => .error .chainRevisits

def parseClaudeDetailTree (fuel : ℕ) (text : Units) :
    Option (Except ClaudeRefusal (List Units)) :=
  match JsonText.parse text with
  | none => some (.error .notJson)
  | some (.object members) =>
    match (Value.object members).field "chat_messages" with
    | some (.array values) =>
      match claudeMessages num values with
      | .error e => some (.error e)
      | .ok messages =>
        match nonEmptyString? ((Value.object members).field "current_leaf_message_uuid") with
        | none => some (.error .noCurrentLeaf)
        | some leaf =>
          if (byUuid messages leaf).isNone then some (.error .leafNotCarried)
          else claudeBranch fuel messages leaf
    | _ => some (.error .noChatMessages)
  | some _ => some (.error .notAnObject)

def parseClaudeDetailPage (fuel : ℕ) (text : Units) : Option DetailResult :=
  match JsonText.parse text with
  | some (.object members) =>
    match (Value.object members).field "chat_messages" with
    | some (.array []) => some (some .emptyUnverified)
    | some (.array _) =>
      (parseClaudeDetailTree num fuel text).map fun
        | .ok _ => some .nonEmpty
        | .error _ => some .treeIncomplete
    | _ => some none
  | _ => some none

end Claude

section DeepSeek

/-- What the walk reads of a message; only `null` is no parent. -/
structure DeepSeekMessage (N : Type*) where
  messageId : N
  parent : Node N

/-- Why a tree is not known to be whole: the check cannot be made, or it fails. -/
inductive DeepSeekRefusal
  | unreadable
  | incomplete
  deriving DecidableEq

variable {N : Type*} (num : Units → N) (finite : N → Bool)

def finiteNumber? (v : Option Value) : Option N := (number? num v).filter finite

def deepSeekParentOf (message : Value) : Node N :=
  match message.field "parent_id" with
  | some .null => .root
  | v =>
    match finiteNumber? num finite v with
    | some parent => .link parent
    | none => .broken

variable [DecidableEq N]

def byId (messages : List (DeepSeekMessage N)) (messageId : N) : Option (DeepSeekMessage N) :=
  messages.find? fun m => m.messageId = messageId

/-- The messages after those that have been read, or what is wrong with the first one that cannot
be. -/
def deepSeekMessages : List (DeepSeekMessage N) → List Value →
    Except DeepSeekRefusal (List (DeepSeekMessage N))
  | read, [] => .ok read
  | read, .object members :: vs =>
    match finiteNumber? num finite ((Value.object members).field "message_id") with
    | none => .error .unreadable
    | some messageId =>
      if (byId read messageId).isSome then .error .incomplete
      else deepSeekMessages
        (read ++ [⟨messageId, deepSeekParentOf num finite (.object members)⟩]) vs
  | _, _ :: _ => .error .unreadable

def deepSeekNode (messages : List (DeepSeekMessage N)) (messageId : N) : Node N :=
  match byId messages messageId with
  | none => .absent
  | some message => message.parent

def deepSeekBranch (fuel : ℕ) (messages : List (DeepSeekMessage N)) (leaf : N) :
    Option (Except DeepSeekRefusal Unit) :=
  (walk (deepSeekNode messages) fuel [] leaf).map fun
    | .root _ => .ok ()
    | _ => .error .incomplete

/-- `data.biz_data`. -/
def bizData (body : Value) : Option Value :=
  match body.field "data" with
  | some (.object data) =>
    match (Value.object data).field "biz_data" with
    | some (.object biz) => some (.object biz)
    | _ => none
  | _ => none

def parseDeepSeekDetailTree (fuel : ℕ) (text : Units) : Option (Except DeepSeekRefusal Unit) :=
  match (JsonText.parse text).bind bizData with
  | none => some (.error .unreadable)
  | some biz =>
    match biz.field "chat_messages", biz.field "chat_session" with
    | some (.array values), some (.object session) =>
      match finiteNumber? num finite ((Value.object session).field "current_message_id") with
      | none => some (.error .unreadable)
      | some leaf =>
        match deepSeekMessages num finite [] values with
        | .error e => some (.error e)
        | .ok messages =>
          if (byId messages leaf).isNone then some (.error .incomplete)
          else deepSeekBranch fuel messages leaf
    | _, _ => some (.error .unreadable)

def parseDeepSeekDetailPage (fuel : ℕ) (text : Units) : Option DetailResult :=
  match (JsonText.parse text).bind bizData with
  | none => some none
  | some biz =>
    match biz.field "chat_messages" with
    | some (.array []) => some (some .emptyUnverified)
    | some (.array _) =>
      (parseDeepSeekDetailTree num finite fuel text).map fun
        | .ok _ => some .nonEmpty
        | .error .unreadable => none
        | .error .incomplete => some .treeIncomplete
    | _ => some none

end DeepSeek

end ChatStasher.DetailTrees
