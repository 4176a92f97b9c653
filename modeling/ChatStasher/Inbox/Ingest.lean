import ChatStasher.Inbox.Seal
import ChatStasher.Library.KeyedList
import ChatStasher.Library.Tasks
import ChatStasher.Library.StepRun
import Mathlib.Data.Char
import Mathlib.Data.List.Lex

/-! The inbox: files that producers publish, and the processes that seal and retire them. -/
namespace ChatStasher.Inbox

variable {H : Sha256} (R : Reader H)

def exportSuffix : FileName := ".jsonl".toList

def isExportFile (name : FileName) : Bool := exportSuffix.isSuffixOf name

def SourceFile.text : SourceFile → Text
  | (name, none) => name
  | (name, some line) => name ++ '#' :: (toString line).toList

/-- What one inbox file asks to be sealed: every line of an export that is not blank, numbered from
one, or the file as it is. -/
def payloads (name : FileName) (bytes : Bytes) : List (SourceFile × Bytes) :=
  if isExportFile name then
    (((bytes.splitOn newline).zipIdx 1).filter fun line => !line.1.isEmpty).map fun line =>
      ((name, some line.2), line.1)
  else [((name, none), bytes)]

/-- Validate and parse one payload of a file. Only the line of an export passes a fingerprint on. -/
def openPayload (payload : SourceFile × Bytes) : Option (SealCall H) :=
  if payload.1.2.isSome then do
    let checked ← checkBundleParsed R payload.2
    let parsed ← parseBundle R payload.1.text payload.2
    return ⟨payload.1, payload.2, checked.fingerprint, none, parsed, .parsed⟩
  else do
    let parsed ← parseBundle R payload.1.text payload.2
    return ⟨payload.1, payload.2, none, none, parsed, .parsed⟩

/-- A fetched file, the payloads still to seal, and whether one of them was an error. -/
structure Item where
  name : FileName
  bytes : Bytes
  todo : List (SourceFile × Bytes)
  failed : Bool
  deriving DecidableEq

/-- A process at work on the inbox or answering a delivery; the lists hold what is left of the
listing. -/
inductive Consumer (H : Sha256)
  | idle
  | ingesting (rest : List FileName)
  | holding (item : Item) (rest : List FileName)
  | sealing (item : Item) (rest : List FileName) (call : SealCall H)
  | delivering (call : SealCall H)
  deriving DecidableEq

/-- The inbox directory, the stage, its write lock and the processes; and, to tell what happened,
every file published and retired and every delivery that was answered with an outcome. -/
structure InboxSite (H : Sha256) where
  inbox : List (FileName × Bytes)
  stage : Stage H
  lock : Option ℕ
  consumers : ℕ → Consumer H
  published : List (FileName × Bytes)
  retired : List (FileName × Bytes)
  answered : List (SealCall H × SealOutcome H)

/-- A producer renames a file into the inbox; a process starts on the inbox or on a delivery, does
its next operation, which may fail, or is killed. -/
inductive InboxAction
  | publish (name : FileName) (bytes : Bytes)
  | ingest (p : ℕ)
  | deliver (p : ℕ) (name : Text) (payload : Bytes) (fingerprint accountKey : Option Text)
  | work (p : ℕ) (succeeds : Bool)
  | kill (p : ℕ)
  deriving DecidableEq

namespace InboxSite

def empty : InboxSite H := ⟨[], .empty, none, fun _ => .idle, [], [], []⟩

def become (s : InboxSite H) (p : ℕ) (consumer : Consumer H) : InboxSite H :=
  { s with consumers := Function.update s.consumers p consumer }

/-- The kernel drops the lock of a process that returns from a seal or dies. -/
def release (s : InboxSite H) (p : ℕ) : InboxSite H :=
  { s with lock := Mutex.release s.lock p }

/-- Rename whatever the inbox now has under the name out of it. -/
def retire (s : InboxSite H) (name : FileName) : InboxSite H :=
  match s.inbox.lookup name with
  | none => s
  | some bytes =>
    { s with
      inbox := s.inbox.filter fun file => file.1 ≠ name
      retired := s.retired ++ [(name, bytes)] }

end InboxSite

def Item.finish (item : Item) : Except SealError (SealOutcome H) → Item
  | .ok _ => item
  | .error _ => { item with failed := true }

def answersOf (call : SealCall H) : Except SealError (SealOutcome H) → List (SealCall H × SealOutcome H)
  | .ok outcome => [(call, outcome)]
  | .error _ => []

/-- One operation of a seal. A process that finds the lock taken polls it again. -/
def sealWork (machine : Text) (s : InboxSite H) (p : ℕ) (call : SealCall H) (succeeds : Bool)
    (goOn : SealCall H → Consumer H) (after : Except SealError (SealOutcome H) → Consumer H)
    (answers : Except SealError (SealOutcome H) → List (SealCall H × SealOutcome H)) :
    InboxSite H :=
  if call.holdsLock = false ∧ succeeds = true ∧ s.lock ≠ none then s
  else
    match advanceSeal R machine s.stage call succeeds with
    | (stage, .running call) => { s with stage, lock := some p }.become p (goOn call)
    | (stage, .returned result) =>
      { (s.release p).become p (after result) with stage, answered := s.answered ++ answers result }

/-- Take up the next file, seal the next payload, or retire the file: seal first, retire second. -/
def work (machine : Text) (s : InboxSite H) (p : ℕ) (succeeds : Bool) : InboxSite H :=
  match s.consumers p with
  | .idle => s
  | .ingesting [] => s.become p .idle
  | .ingesting (name :: rest) =>
    match (if succeeds then s.inbox.lookup name else none) with
    | none => s.become p (.ingesting rest)
    | some bytes => s.become p (.holding ⟨name, bytes, payloads name bytes, false⟩ rest)
  | .holding item rest =>
    match item.todo with
    | payload :: todo =>
      match openPayload R payload with
      | none => s.become p (.holding { item with todo, failed := true } rest)
      | some call => s.become p (.sealing { item with todo } rest call)
    | [] =>
      let s := s.become p (.ingesting rest)
      if item.failed = false ∧ succeeds then s.retire item.name else s
  | .sealing item rest call =>
    sealWork R machine s p call succeeds (.sealing item rest)
      (fun result => .holding (item.finish result) rest) fun _ => []
  | .delivering call =>
    sealWork R machine s p call succeeds .delivering (fun _ => .idle) (answersOf call)

def inboxStep (machine : Text) (s : InboxSite H) : InboxAction → InboxSite H
  | .publish name bytes =>
    { s with
      inbox := KeyedList.put s.inbox (name, bytes)
      published := s.published ++ [(name, bytes)] }
  | .ingest p =>
    match s.consumers p with
    | .idle => s.become p (.ingesting ((KeyedList.inKeyOrder s.inbox).map Prod.fst))
    | _ => s
  | .deliver p name payload fingerprint accountKey =>
    match s.consumers p, checkBundleParsed R payload with
    | .idle, some _ =>
      match parseBundle R name payload with
      | some parsed =>
        s.become p (.delivering ⟨(name, none), payload, fingerprint, accountKey, parsed, .parsed⟩)
      | none => s
    | _, _ => s
  | .work p succeeds => work R machine s p succeeds
  | .kill p => (s.become p .idle).release p

end ChatStasher.Inbox
