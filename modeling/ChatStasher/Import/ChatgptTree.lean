import ChatStasher.GrokBot.Reader
import ChatStasher.Library.Lists

/-! The tree of a ChatGPT export: the nodes of a mapping as they are recorded, and what their own
links say about it. -/
namespace ChatStasher.ChatgptExport
open Inbox (Text)
open Unseen

section Records

/-- A field of the export: its value, a stated absence, no field at all, or a shape that is not
read. -/
inductive Field (T : Type)
  | value (v : T)
  | null
  | absent
  | unreadable (why : Text)

inductive TimeUnit
  | seconds
  | milliseconds

inductive RecordedTime
  | known (unix : ℤ) (unit : TimeUnit)
  | unknown (why : Text)

inductive PartReading
  | text (piece : Text)
  | structured (found : Text)

structure MessageRecord where
  id : Field Text
  time : RecordedTime
  updated : RecordedTime
  authorRole : Field Text
  authorName : Field Text
  recipient : Field Text
  contentType : Field Text
  parts : Field (List PartReading)

/-- The string parts in their order; none where the list was not read. -/
def MessageRecord.text (message : MessageRecord) : Option Text :=
  match message.parts with
  | .value parts => some (parts.flatMap fun
    | .text piece => piece
    | .structured _ => [])
  | _ => none

def MessageRecord.isATurn (message : MessageRecord) : Bool :=
  match message.authorRole with
  | .value role =>
    role = "user".toList ∨ role = "assistant".toList ∨ role = "system".toList ∨
      role = "tool".toList
  | _ => false

inductive MessageSlot
  | message (message : MessageRecord)
  | none
  | absent
  | unreadable (why : Text)

def MessageSlot.isMessage : MessageSlot → Bool
  | message _ => true
  | _ => false

inductive ParentLink
  | root
  | absent
  | node (id : Text)
  | unreadable (why : Text)

def ParentLink.key : ParentLink → Option Text
  | node id => some id
  | _ => Option.none

def ParentLink.isRoot : ParentLink → Bool
  | root => true
  | absent => true
  | _ => false

/-- An entry of the mapping, under the key that links name. -/
structure NodeRecord where
  id : Text
  statedId : Field Text
  parent : ParentLink
  children : Field (List Text)
  message : MessageSlot

inductive CurrentNodeReading
  | named (id : Text)
  | absent
  | null
  | unreadable (why : Text)
  | unresolved (id : Text)

end Records

section Readings

/-- The walk from an end up to its root, as it is measured. -/
structure Branch where
  «end» : Text
  nodes : ℕ
  turns : ℕ
  characters : ℕ

/-- Branches are compared by their characters, then by their turns, then by their nodes. -/
def Branch.rank (branch : Branch) : ℕ ×ₗ (ℕ ×ₗ ℕ) :=
  toLex (branch.characters, toLex (branch.turns, branch.nodes))

structure TreeFacts where
  nodes : ℕ
  messages : ℕ
  roots : ℕ
  leaves : ℕ
  longestBranch : Branch
  currentBranch : Option Branch

structure MissingNodes where
  nodes : ℕ
  messages : ℕ
  unresolvedParents : ℕ
  unresolvedChildren : ℕ
  unresolvedCurrentNode : Bool
  cyclic : Bool

inductive TreeReading
  | consistent (facts : TreeFacts)
  | missingNodes (missing : MissingNodes)
  | noNodes

end Readings

section Walks

variable (nodes : List NodeRecord)

/-- The node under a key; a later node would take the place of an earlier one. -/
def nodeAt (id : Text) : Option NodeRecord := nodes.reverse.find? fun node => node.id = id

variable {nodes}

lemma nodeAt_spec {id : Text} {node : NodeRecord} (h : nodeAt nodes id = some node) :
    node ∈ nodes ∧ node.id = id :=
  ⟨List.mem_reverse.mp (List.mem_of_find?_eq_some h), by simpa using List.find?_some h⟩

lemma mem_keys_of_nodeAt {id : Text} {node : NodeRecord} (h : nodeAt nodes id = some node) :
    id ∈ nodes.map NodeRecord.id := by
  obtain ⟨hmem, rfl⟩ := nodeAt_spec h
  exact List.mem_map_of_mem hmem

variable (nodes)

/-- Whether the walk on from a cursor comes to a key that it has seen. -/
def revisits (seen : List Text) : Option Text → Bool
  | none => false
  | some id =>
    match _ : nodeAt nodes id with
    | none => false
    | some node =>
      if _ : id ∈ seen then true else revisits (id :: seen) node.parent.key
termination_by unseen (nodes.map NodeRecord.id) seen
decreasing_by
  exact unseen_lt (mem_keys_of_nodeAt ‹_›) ‹_› (fun _ => List.mem_cons_of_mem _) List.mem_cons_self

def hasACycle : Bool := nodes.any fun node => revisits nodes [node.id] node.parent.key

/-- The nodes on the walk up from a cursor, the end first. -/
def chainFrom (seen : List Text) : Option Text → List NodeRecord
  | none => []
  | some id =>
    match _ : nodeAt nodes id with
    | none => []
    | some node =>
      if _ : id ∈ seen then [] else node :: chainFrom (id :: seen) node.parent.key
termination_by unseen (nodes.map NodeRecord.id) seen
decreasing_by
  exact unseen_lt (mem_keys_of_nodeAt ‹_›) ‹_› (fun _ => List.mem_cons_of_mem _) List.mem_cons_self

def NodeRecord.turnText (node : NodeRecord) : Option Text :=
  match node.message with
  | .message message =>
    if message.isATurn then message.text.filter fun text => !(Inbox.trim text).isEmpty else none
  | _ => none

def countTurn (counts : ℕ × ℕ) (node : NodeRecord) : ℕ × ℕ :=
  match node.turnText with
  | some text => (counts.1 + 1, counts.2 + text.length)
  | none => counts

/-- The branch that ends at a key. -/
def branchOf (id : Text) : Branch :=
  let chain := chainFrom nodes [] (some id)
  let counts := chain.foldl countTurn (0, 0)
  ⟨id, chain.length, counts.1, counts.2⟩

end Walks

section Tree

structure LinkCounts where
  unresolvedParents : ℕ
  unresolvedChildren : ℕ
  namedAsParent : List Text

def LinkCounts.countParent (nodes : List NodeRecord) (counts : LinkCounts) :
    ParentLink → LinkCounts
  | .node id =>
    if (nodeAt nodes id).isSome then { counts with namedAsParent := id :: counts.namedAsParent }
    else { counts with unresolvedParents := counts.unresolvedParents + 1 }
  | .unreadable _ => { counts with unresolvedParents := counts.unresolvedParents + 1 }
  | _ => counts

/-- A list of children that was not read says nothing about what it names. -/
def LinkCounts.countChildren (nodes : List NodeRecord) (counts : LinkCounts) :
    Field (List Text) → LinkCounts
  | .value children =>
    children.foldl (fun counts child =>
      if (nodeAt nodes child).isSome then counts
      else { counts with unresolvedChildren := counts.unresolvedChildren + 1 }) counts
  | _ => counts

def linkCounts (nodes : List NodeRecord) : LinkCounts :=
  nodes.foldl (fun counts node =>
    (counts.countParent nodes node.parent).countChildren nodes node.children) ⟨0, 0, []⟩

def keys (nodes : List NodeRecord) : List Text :=
  (nodes.map NodeRecord.id).dedup.insertionSort (· ≤ ·)

/-- `Iterator::max_by`: the last of the greatest. -/
def maxByRank (branches : List Branch) : Option Branch :=
  branches.foldl (fun best branch =>
    match best with
    | none => some branch
    | some left => if branch.rank < left.rank then some left else some branch) none

/-- What a conversation's own links say, and its current node, resolved. -/
def readTree (nodes : List NodeRecord) (current : CurrentNodeReading) :
    TreeReading × CurrentNodeReading :=
  let counts := linkCounts nodes
  let unresolvedCurrentNode : Bool :=
    match current with
    | .named id => (nodeAt nodes id).isNone
    | _ => false
  let current :=
    match current with
    | .named id => if unresolvedCurrentNode then .unresolved id else .named id
    | other => other
  let messages := (nodes.filter fun node => node.message.isMessage).length
  let cyclic := hasACycle nodes
  if counts.unresolvedParents > 0 ∨ counts.unresolvedChildren > 0 ∨ unresolvedCurrentNode ∨
      cyclic then
    (.missingNodes
      { nodes := nodes.length
        messages
        unresolvedParents := counts.unresolvedParents
        unresolvedChildren := counts.unresolvedChildren
        unresolvedCurrentNode
        cyclic }, current)
  else if nodes.isEmpty then (.noNodes, current)
  else
    let leaves := (keys nodes).filter fun id => id ∉ counts.namedAsParent
    match maxByRank (leaves.map (branchOf nodes)) with
    | none => (.noNodes, current)
    | some longestBranch =>
      (.consistent
        { nodes := nodes.length
          messages
          roots := (nodes.filter fun node => node.parent.isRoot).length
          leaves := leaves.length
          longestBranch
          currentBranch :=
            match current with
            | .named id => some (branchOf nodes id)
            | _ => none }, current)

end Tree

end ChatStasher.ChatgptExport
