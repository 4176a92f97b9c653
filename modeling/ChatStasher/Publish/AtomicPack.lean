import ChatStasher.Store.Names

/-! Atomic publication of repository files: a temporary file, a read-back check and a rename. -/
namespace ChatStasher

/-- Which repository file type a publication is for. -/
inductive FileKind
  | pack
  | index
  | snapshot
  deriving DecidableEq

def FileKind.noun : FileKind → String
  | .pack => "a pack"
  | .index => "an index file"
  | .snapshot => "a snapshot file"

/-- `final_path` and `tmp_path`; both sit in the directory that the kind and the id name. -/
inductive PackPath (D : Type)
  | final (kind : FileKind) (id : D)
  | tmp (kind : FileKind) (id : D) (now : ℕ) (random : ℕ)
  deriving DecidableEq

/-- What a successful publication did. -/
inductive Published
  | renamed
  | alreadyPresent
  deriving DecidableEq

/-- Why a publication stopped. -/
inductive PublishError
  | io (error : String)
  | verifyMismatch
  | collision
  deriving DecidableEq

def PublishError.describe (kind : FileKind) : PublishError → String
  | .io error => error
  | .verifyMismatch => kind.noun ++
      " read back from the destination did not hash to its id, so it was not published"
  | .collision => "atomic publication stopped: a file already holds the name of " ++ kind.noun ++
      " with different bytes; it was not touched. Someone has written a formal name wrong; " ++
      "a person needs to look"

def failureWords (stage cause : String) : String := stage ++ " failed: " ++ cause

def missingCause : String := "a directory or file the destination should hold was missing"

def connectionCause : String := "the connection to the destination failed or was interrupted"

def readBackMissing : String := failureWords "reading the temporary file back" missingCause

def unreachableWords (kind : FileKind) (error : String) : String :=
  "the destination could not be reached for the upload of " ++ kind.noun ++ " (" ++ error ++ ")"

/-- What the attempts of one upload come to when none succeeds. -/
def uploadFailed (kind : FileKind) (attempts : ℕ) (last : String) (left : ℕ) : String :=
  let cleanup :=
    if left = 0 then "the temporary files the failed attempt(s) left were removed"
    else toString left ++ " temporary file(s) could not be removed right now because the " ++
      "destination was unreachable; a later push removes them (after 7 days at the latest)"
  "uploading " ++ kind.noun ++ " to the destination failed after " ++ toString attempts ++
    " attempt(s): " ++ last ++ ". Nothing was published under a final name, and " ++ cleanup ++
    ". The next push tries again"

/-- The backend's reply to one request. A request that answers an error may still have been carried
out. A write names its temporary file, and `left` is what it leaves there. -/
structure Reply where
  error : Option String
  applied : Bool
  now : ℕ
  random : ℕ
  left : Option Bytes

def Reply.carriedOut (r : Reply) : Bool := r.error.isNone || r.applied

inductive CleanUp
  | succeeded (p : Published)
  | failed (f : PublishError)
  deriving DecidableEq

/-- Where a publication stands, by the request it makes next. -/
inductive PublishPhase (D : Type)
  | connecting
  | drawing
  | writing
  | discarding (failure : PublishError)
  | reading
  | checking
  | installing
  | rechecking (error : String)
  | settling
  | unlinking
  | taking (after : CleanUp)
  | reconnecting (after : CleanUp) (wanted : List (PackPath D))
  | cleaning (after : CleanUp) (wanted left : List (PackPath D))
  | retrying
  | answered (r : Except String Published)

def PublishPhase.isWriting {D : Type} : PublishPhase D → Bool
  | writing => true
  | _ => false

variable (H : Sha256)

/-- One `write_bytes` of a publisher. `changed` says that a request of it changed what its final
name holds, `lostInstall` that a rename installed its file and was answered with an error. -/
structure Publication where
  owner : ℕ
  kind : FileKind
  id : H.Digest
  bytes : Bytes
  attempt : ℕ
  tmp : PackPath H.Digest
  last : String
  left : ℕ
  phase : PublishPhase H.Digest
  changed : Bool
  lostInstall : Bool

abbrev PackFiles := PackPath H.Digest → Option Bytes

variable {H}

def Publication.finalPath (t : Publication H) : PackPath H.Digest := .final t.kind t.id

/-- What one request leaves: the files, what its publisher still has to remove, the publication,
and the temporary files that it wrote or asked to delete. -/
structure PublishTurn (H : Sha256) where
  files : PackFiles H
  pending : List (PackPath H.Digest)
  task : Publication H
  created : List (PackPath H.Digest)
  deleted : List (PackPath H.Digest)

def deleteFile (files : PackFiles H) (path : PackPath H.Digest) (reply : Reply) : PackFiles H :=
  if reply.carriedOut then Function.update files path none else files

/-- Over SFTP a rename refuses a target that exists; on a local file system it replaces it. -/
def renameFile (overwrites : Bool) (files : PackFiles H) (source target : PackPath H.Digest)
    (reply : Reply) : PackFiles H × Option String :=
  match files source with
  | none => (files, some (reply.error.getD
      (failureWords "renaming the temporary file into place" missingCause)))
  | some b =>
    if !overwrites && (files target).isSome then
      (files, some (reply.error.getD
        (failureWords "renaming the temporary file into place" connectionCause)))
    else if reply.carriedOut then
      (Function.update (Function.update files source none) target (some b), reply.error)
    else (files, reply.error)

namespace Publication

def fail (t : Publication H) (f : PublishError) : Publication H :=
  { t with phase := .taking (.failed f) }

def succeed (t : Publication H) (pending : List (PackPath H.Digest)) (p : Published) :
    Publication H :=
  { t with phase := if pending.isEmpty then .answered (.ok p) else .taking (.succeeded p) }

/-- After a clean-up that could not remove `left`. -/
def finish (t : Publication H) (attempts : ℕ) (after : CleanUp) (left : ℕ) : Publication H :=
  match after with
  | .succeeded p => { t with phase := .answered (.ok p) }
  | .failed f =>
    let last := f.describe t.kind
    { t with
      last, left
      phase := if t.attempt < attempts then .retrying
        else .answered (.error (uploadFailed t.kind attempts last left)) }

/-- `publish_with_retry`, one request at a time. -/
def turn (overwrites : Bool) (attempts : ℕ) (files : PackFiles H)
    (pending : List (PackPath H.Digest)) (t : Publication H) (reply : Reply) : PublishTurn H :=
  let moveOn (t' : Publication H) : PublishTurn H := ⟨files, pending, t', [], []⟩
  match t.phase with
  | .connecting =>
    match reply.error with
    | none => moveOn { t with phase := .drawing }
    | some e => moveOn { t with phase := .answered (.error (unreachableWords t.kind e)) }
  | .drawing =>
    match reply.error with
    | none => moveOn { t with phase := .writing }
    | some e => moveOn { t with phase := .answered (.error e) }
  | .writing =>
    let tmp := .tmp t.kind t.id reply.now reply.random
    let phase := match reply.error with
      | none => .reading
      | some e => .discarding (.io e)
    ⟨Function.update files tmp reply.left, pending, { t with tmp, phase }, [tmp], []⟩
  | .discarding failure =>
    ⟨deleteFile files t.tmp reply, pending, t.fail failure, [], [t.tmp]⟩
  | .reading =>
    match reply.error, files t.tmp with
    | some e, _ => moveOn (t.fail (.io e))
    | none, none => moveOn (t.fail (.io readBackMissing))
    | none, some b =>
      if H.digest b = t.id then moveOn { t with phase := .checking }
      else moveOn { t with phase := .discarding .verifyMismatch }
  | .checking =>
    match reply.error with
    | some e => moveOn (t.fail (.io e))
    | none =>
      moveOn { t with phase := if (files t.finalPath).isSome then .settling else .installing }
  | .installing =>
    let (files', error) := renameFile overwrites files t.tmp t.finalPath reply
    let t := { t with
      lostInstall := t.lostInstall ||
        (error.isSome && (files t.finalPath).isNone && (files' t.finalPath).isSome) }
    match error with
    | none => ⟨files', pending, t.succeed pending .renamed, [], []⟩
    | some e => ⟨files', pending, { t with phase := .rechecking e }, [], []⟩
  | .rechecking e =>
    -- A check that itself fails is an unknown: the rename's own error is reported.
    if reply.error.isNone && (files t.finalPath).isSome then moveOn { t with phase := .settling }
    else moveOn (t.fail (.io e))
  | .settling =>
    match reply.error, files t.finalPath with
    | some e, _ => moveOn (t.fail (.io e))
    | none, none => moveOn (t.fail (.io readBackMissing))
    | none, some b =>
      if H.digest b = t.id then moveOn { t with phase := .unlinking }
      else moveOn { t with phase := .answered (.error (PublishError.collision.describe t.kind)) }
  | .unlinking =>
    let t' := match reply.error with
      | none => t.succeed pending .alreadyPresent
      | some e => t.fail (.io e)
    ⟨deleteFile files t.tmp reply, pending, t', [], [t.tmp]⟩
  | .taking after =>
    ⟨files, [], { t with phase := .reconnecting after (pending ++ [t.tmp]) }, [], []⟩
  | .reconnecting after wanted =>
    match reply.error with
    | none => moveOn { t with phase := .cleaning after wanted [] }
    | some _ => ⟨files, pending ++ wanted, t.finish attempts after wanted.length, [], []⟩
  | .cleaning after (path :: wanted) left =>
    let left := if reply.error.isNone then left else left ++ [path]
    ⟨deleteFile files path reply, pending, { t with phase := .cleaning after wanted left }, [],
      [path]⟩
  | .cleaning after [] left =>
    ⟨files, pending ++ left, t.finish attempts after left.length, [], []⟩
  | .retrying =>
    match reply.error with
    | none => moveOn { t with attempt := t.attempt + 1, phase := .drawing }
    | some e => moveOn { t with phase := .answered (.error
        (uploadFailed t.kind attempts (unreachableWords t.kind e) t.left)) }
  | .answered _ => moveOn t

end Publication

/-- A backend directory and the publications under way on it. Each publisher keeps what it could not
remove; `created` and `deleted` are the names each publisher wrote temporary files under and asked
to delete. -/
structure PublishSite (H : Sha256) where
  files : PackFiles H
  pending : ℕ → List (PackPath H.Digest)
  tasks : List (Publication H)
  created : List (ℕ × PackPath H.Digest)
  deleted : List (ℕ × PackPath H.Digest)

def PublishSite.start (files : PackFiles H) : PublishSite H := ⟨files, fun _ => [], [], [], []⟩

/-- A publication begins, the `i`-th one makes its next request, a publisher's process dies. -/
inductive PublishAction (H : Sha256)
  | publish (owner : ℕ) (kind : FileKind) (id : H.Digest) (bytes : Bytes)
  | proceed (i : ℕ) (reply : Reply)
  | kill (owner : ℕ)

/-- How a backend directory renames, and how often an upload is tried. -/
structure PublishSetup where
  overwrites : Bool
  attempts : ℕ

def publishStep (setup : PublishSetup) (s : PublishSite H) : PublishAction H → PublishSite H
  | .publish owner kind id bytes =>
    { s with tasks := s.tasks ++
        [⟨owner, kind, id, bytes, 1, .final kind id, "", 0, .connecting, false, false⟩] }
  | .proceed i reply =>
    match s.tasks[i]? with
    | none => s
    | some t =>
      let r := t.turn setup.overwrites (max setup.attempts 1) s.files (s.pending t.owner) reply
      let changed := t.changed || decide (r.files t.finalPath ≠ s.files t.finalPath)
      { files := r.files
        pending := Function.update s.pending t.owner r.pending
        tasks := s.tasks.set i { r.task with changed }
        created := s.created ++ r.created.map (t.owner, ·)
        deleted := s.deleted ++ r.deleted.map (t.owner, ·) }
  | .kill owner =>
    { s with
      pending := Function.update s.pending owner []
      tasks := s.tasks.filter fun t => t.owner ≠ owner }

/-- The name that a publication draws for its next temporary file is one that nobody has drawn and
that the directory does not have. -/
def DrawsFresh (s : PublishSite H) : PublishAction H → Prop
  | .proceed i reply => ∀ t ∈ s.tasks[i]?, t.phase.isWriting = true →
      PackPath.tmp t.kind t.id reply.now reply.random ∉ s.created.map Prod.snd ∧
        s.files (.tmp t.kind t.id reply.now reply.random) = none
  | _ => True

instance DrawsFresh.decidable (s : PublishSite H) : ∀ a, Decidable (DrawsFresh s a)
  | .proceed i reply => inferInstanceAs (Decidable (∀ t ∈ s.tasks[i]?, t.phase.isWriting = true →
      PackPath.tmp t.kind t.id reply.now reply.random ∉ s.created.map Prod.snd ∧
        s.files (.tmp t.kind t.id reply.now reply.random) = none))
  | .publish _ _ _ _ | .kill _ => isTrue trivial

end ChatStasher
