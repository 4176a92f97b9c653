import ChatStasher.Export.Namespace

/-! `seal_export_file` as the file operations of many calls over one stage. -/
namespace ChatStasher.Export
open Inbox (Text)

/-- A content address: the platform and the digest that names the directory. -/
abbrev Address (D : Type) := Text × D

/-- A file's content, and the calls that have opened it for writing. -/
structure Inode where
  bytes : Bytes
  openers : List ℕ
  deriving DecidableEq

/-- What one call did. -/
inductive SealOutcome
  | installed (deliveredName : Text)
  | alreadyArchived (heldName : Text)
  deriving DecidableEq

/-- The operation a call does next; files are named by their inodes. -/
inductive Phase
  /-- `held_object` -/
  | hashed
  /-- the size of the object found -/
  | found (heldName : Text)
  /-- `path.exists()` -/
  | installing
  /-- `tmp.exists()` -/
  | probing
  /-- `remove_file` before the copy -/
  | clearing
  /-- `File::create` -/
  | creating
  | copying (file : ℕ) (copied : Bytes)
  /-- `rename` -/
  | naming (file : ℕ)
  /-- `remove_file` before the error return -/
  | discarding
  /-- `read_export_index` -/
  | indexing (outcome : SealOutcome)
  | appending (outcome : SealOutcome) (written : ℕ)
  | ended (outcome : SealOutcome)
  /-- an error return of the code's own checks -/
  | refused
  /-- an error return because an operation failed -/
  | stopped
  deriving DecidableEq

/-- A call behind its hash pass; `late` records whether its object was known to be archived by
then. -/
structure Call (D : Type) where
  machine : Text
  platform : Text
  deliveredName : Text
  contentSha256 : D
  bytes : ℕ
  late : Bool
  phase : Phase
  deriving DecidableEq

namespace Call
variable {D : Type}

def address (call : Call D) : Address D := (call.platform, call.contentSha256)

def row (call : Call D) : ExportFileRow D :=
  ⟨exportIndexSchema, call.machine, call.platform, call.contentSha256, call.bytes, .raw⟩

end Call

structure ExportStage (H : Sha256) where
  dirs : Address H.Digest → List (Text × ℕ)
  inodes : ℕ → Inode
  fresh : ℕ
  indexes : Text → Option Bytes
  calls : ℕ → Option (Call H.Digest)
  /-- The addresses some call has returned `Ok` for. -/
  archived : List (Address H.Digest)

/-- What the calls do in some order. A call that is killed does nothing any more. -/
inductive ExportAction
  /-- the hash pass has read `content` from the source -/
  | start (c : ℕ) (machine platform deliveredName : Text) (content : Bytes)
  /-- the next operation, where the source has no part in it -/
  | next (c : ℕ)
  /-- some bytes of the source, as they are now, are copied -/
  | copy (c : ℕ) (chunk : Bytes)
  /-- some bytes of the index row are written -/
  | append (c : ℕ) (count : ℕ)
  | fail (c : ℕ)

/-- Write at an offset; what lies between the end of the file and the offset reads as zeros. -/
def writeAt (bytes : Bytes) (offset : ℕ) (chunk : Bytes) : Bytes :=
  bytes.take offset ++ List.replicate (offset - bytes.length) 0 ++ chunk ++
    bytes.drop (offset + chunk.length)

namespace ExportStage
variable {H : Sha256} (s : ExportStage H)

def move (c : ℕ) (call : Call H.Digest) (phase : Phase) : ExportStage H :=
  { s with calls := Function.update s.calls c (some { call with phase := phase }) }

def setDir (a : Address H.Digest) (entries : List (Text × ℕ)) : ExportStage H :=
  { s with dirs := Function.update s.dirs a entries }

def setInode (i : ℕ) (inode : Inode) : ExportStage H :=
  { s with inodes := Function.update s.inodes i inode }

def setIndex (machine : Text) (content : Bytes) : ExportStage H :=
  { s with indexes := Function.update s.indexes machine (some content) }

lemma setInode_inodes (i : ℕ) (inode : Inode) :
    (s.setInode i inode).inodes = Function.update s.inodes i inode := rfl

lemma setDir_dirs (a : Address H.Digest) (entries : List (Text × ℕ)) :
    (s.setDir a entries).dirs = Function.update s.dirs a entries := rfl

/-- `remove_file` of a name; a name that is not there is no failure of the call. -/
def unlink (a : Address H.Digest) (name : Text) : ExportStage H :=
  s.setDir a ((s.dirs a).filter fun e => e.1 ≠ name)

end ExportStage

section Steps
variable {H : Sha256} (F : IndexFormat H.Digest)

def rowLine (call : Call H.Digest) : Bytes := F.line call.row

def nextOperation (s : ExportStage H) (c : ℕ) (call : Call H.Digest) : ExportStage H :=
  let entries := s.dirs call.address
  let tmp := tempName call.deliveredName
  match call.phase with
  | .hashed =>
    match heldObject entries with
    | .absent => s.move c call .installing
    | .held name => s.move c call (.found name)
    | .several => s.move c call .refused
  | .found name =>
    match entries.lookup name with
    | none => s.move c call .refused
    | some i =>
      if (s.inodes i).bytes.length ≠ call.bytes then s.move c call .refused
      else s.move c call (.indexing (.alreadyArchived name))
  | .installing =>
    if (entries.lookup call.deliveredName).isSome then s.move c call .refused
    else s.move c call .probing
  | .probing =>
    if (entries.lookup tmp).isSome then s.move c call .clearing else s.move c call .creating
  | .clearing => (s.unlink call.address tmp).move c call .creating
  | .creating =>
    match entries.lookup tmp with
    | some i =>
      -- The file that is there is opened and cut to nothing, whoever else has it open.
      (s.setInode i ⟨[], c :: (s.inodes i).openers⟩).move c call (.copying i [])
    | none =>
      { ((s.setInode s.fresh ⟨[], [c]⟩).setDir call.address
          (KeyedList.put entries (tmp, s.fresh))).move c call (.copying s.fresh []) with
        fresh := s.fresh + 1 }
  | .copying i copied =>
    -- The source is at its end.
    if H.digest copied ≠ call.contentSha256 ∨ copied.length ≠ call.bytes then
      s.move c call .discarding
    else s.move c call (.naming i)
  | .naming _ =>
    match entries.lookup tmp with
    | none => s.move c call .discarding
    | some i =>
      -- Whatever the temp name stands for by now is put in the object's place.
      (s.setDir call.address (KeyedList.put (entries.filter fun e => e.1 ≠ tmp)
        (call.deliveredName, i))).move c call (.indexing (.installed call.deliveredName))
  | .discarding => (s.unlink call.address tmp).move c call .refused
  | .indexing outcome =>
    match readExportIndex F call.machine (s.indexes call.machine) with
    | none => s.move c call .refused
    | some state =>
      if state.rows.any fun row =>
          row.platform == call.platform && decide (row.contentSha256 = call.contentSha256) then
        { s.move c call (.ended outcome) with archived := call.address :: s.archived }
      else s.move c call (.appending outcome 0)
  | .appending outcome written =>
    if written = (rowLine F call).length then
      { s.move c call (.ended outcome) with archived := call.address :: s.archived }
    else s
  | .ended _ => s
  | .refused => s
  | .stopped => s

/-- How a failing operation ends a call: a copy is discarded first. What fails of the clearing up
is ignored. -/
def failed : Phase → Phase
  | .clearing => .creating
  | .discarding => .refused
  | .creating => .discarding
  | .copying _ _ => .discarding
  | .naming _ => .discarding
  | .ended outcome => .ended outcome
  | .refused => .refused
  | _ => .stopped

def exportStep (s : ExportStage H) : ExportAction → ExportStage H
  | .start c machine platform deliveredName content =>
    match s.calls c with
    | some _ => s
    | none =>
      let call : Call H.Digest :=
        ⟨machine, platform, deliveredName, H.digest content, content.length, false, .refused⟩
      if (validatePlatform platform).isSome || !machineUsable machine ||
          (validateDeliveredName deliveredName).isSome || content.isEmpty then
        s.move c call .refused
      else s.move c { call with late := decide (call.address ∈ s.archived) } .hashed
  | .next c =>
    match s.calls c with
    | some call => nextOperation F s c call
    | none => s
  | .copy c chunk =>
    match s.calls c with
    | some call =>
      match call.phase with
      | .copying i copied =>
        (s.setInode i { s.inodes i with
          bytes := writeAt (s.inodes i).bytes copied.length chunk }).move c call
            (.copying i (copied ++ chunk))
      | _ => s
    | none => s
  | .append c count =>
    match s.calls c with
    | some call =>
      match call.phase with
      | .appending outcome written =>
        (s.setIndex call.machine ((s.indexes call.machine).getD [] ++
          ((rowLine F call).drop written).take count)).move c call
            (.appending outcome (min (written + count) (rowLine F call).length))
      | _ => s
    | none => s
  | .fail c =>
    match s.calls c with
    | some call => s.move c call (failed call.phase)
    | none => s

def emptyStage : ExportStage H := ⟨fun _ => [], fun _ => ⟨[], []⟩, 0, fun _ => none, fun _ => none, []⟩

end Steps

end ChatStasher.Export
