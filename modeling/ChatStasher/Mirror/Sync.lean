import ChatStasher.Bytes
import ChatStasher.Library.KeyedList
import ChatStasher.Library.StepRun

/-! A mirror sync round: the listings, the copy in two phases, the closure check and the record it
saves, with pushes landing on the destination meanwhile. -/
namespace ChatStasher.Mirror

inductive FileKind
  | config
  | key
  | index
  | snapshot
  | pack
  deriving DecidableEq

/-- The order in which missing files are copied. -/
def FileKind.rank : FileKind → ℕ
  | .config => 0
  | .key => 1
  | .index => 2
  | .snapshot => 3
  | .pack => 4

/-- A file as a listing of the destination names it. -/
structure PlannedFile (D : Type) where
  kind : FileKind
  id : D
  size : ℕ
  deriving DecidableEq

abbrev MirrorFiles (D : Type) := List ((FileKind × D) × Bytes)

/-- The repository format, as far as a round reads it: what an index file names, which packs the
trees of a snapshot reference, and whether some bytes read as a pack by their header. -/
structure RepositoryFormat (H : Sha256) where
  readIndex : Bytes → Option (List H.Digest)
  packsOf : H.Digest → List H.Digest
  headerReads : H.Digest → Bytes → Bool

/-- What a pack check said of a pack that something flagged. -/
inductive PackError
  | unreadableHeader
  | unusable
  deriving DecidableEq

inductive PackClass
  | torn
  | stranded
  | corrupt
  | failClosed
  deriving DecidableEq

/-- The one classification of a flagged pack; `none` for the names is an index that could not be
read, and `none` for the check a pack that verified. -/
def classifyPack (namedByIndex : Option Bool) (check : Option PackError) : PackClass :=
  match namedByIndex, check with
  | some false, none => .stranded
  | _, none => .failClosed
  | none, some _ => .failClosed
  | some true, some _ => .corrupt
  | some false, some .unreadableHeader => .torn
  | some false, some .unusable => .failClosed

inductive HardClass
  | sourceCorrupt
  | localWrite
  | oversizeListing
  | diskQuery
  deriving DecidableEq

inductive RoundEnd
  | budgetSpent
  | diskBelowThreshold
  | remoteRead
  deriving DecidableEq

inductive StopCause
  | pause (ended : RoundEnd)
  | hard (failure : HardClass)
  deriving DecidableEq

def mirrorConnections : ℕ := 2

def maxWholeFileBytes : ℕ := 2 ^ 34

/-- The copy of a round: this phase's unclaimed files, those of the tail phase, and the files two
workers are at with the attempts they have made. -/
structure Copying (D : Type) where
  planned : List (PlannedFile D)
  queue : List (PlannedFile D)
  later : List (PlannedFile D)
  tail : Bool
  inFlight : List (PlannedFile D × ℕ)
  missing : ℕ
  downloaded : ℕ
  torn : List (PlannedFile D)
  stop : Option StopCause
  deriving DecidableEq

inductive RoundStage (D : Type)
  | listing (kinds : List FileKind) (planned : List (PlannedFile D))
  | copying (c : Copying D)
  deriving DecidableEq

/-- `mirror-state.json`. -/
structure MirrorState (D : Type) where
  finishedAtUnix : ℕ
  mirrorOf : String
  closureComplete : List D
  snapshotsOnRemote : ℕ
  remoteTotalBytes : ℕ
  deriving DecidableEq

inductive MirrorStateRead (D : Type)
  | missing
  | unreadable
  | present (state : MirrorState D)

def snapshotCovered {D : Type} [DecidableEq D] (state : MirrorStateRead D)
    (expectedMirrorOf : String) (snapshotId : D) : Bool :=
  match state with
  | .present state => state.mirrorOf = expectedMirrorOf && snapshotId ∈ state.closureComplete
  | _ => false

/-- Why no closure is claimed. -/
inductive ClosureAnomaly
  | notOpened
  | indexUnreadable
  | packsAbsent (count : ℕ)
  deriving DecidableEq

section Files
variable {D : Type}

def totalBytes (files : List (PlannedFile D)) : ℕ := (files.map fun f => f.size).sum

variable [DecidableEq D]

def namesIn (files : MirrorFiles D) (kind : FileKind) : List D :=
  (files.filter fun f => f.1.1 = kind).map fun f => f.1.2

def fileAt (files : MirrorFiles D) (kind : FileKind) (id : D) : Option Bytes :=
  files.lookup (kind, id)

def listKind (remote : List (PlannedFile D)) (kind : FileKind) : List (PlannedFile D) :=
  remote.filter fun f => f.kind = kind

end Files

section Survey
variable {H : Sha256} (format : RepositoryFormat H)

def mirrorIndexedPackNames (mirror : MirrorFiles H.Digest) : Option (List H.Digest) :=
  ((namesIn mirror .index).mapM fun id => (fileAt mirror .index id).bind format.readIndex).map
    List.flatten

def closureSnapshotIds (mirror : MirrorFiles H.Digest) (opens : Bool) :
    List H.Digest × Option ClosureAnomaly :=
  if !opens then ([], some .notOpened)
  else match mirrorIndexedPackNames format mirror with
  | none => ([], some .indexUnreadable)
  | some indexed =>
    let absent := indexed.filter fun id => id ∉ namesIn mirror .pack
    if absent.isEmpty then (namesIn mirror .snapshot, none)
    else ([], some (.packsAbsent absent.length))

/-- The verdict on a pack whose bytes failed their own name twice: `none` is torn debris. -/
def classifyFailedPack (mirror : MirrorFiles H.Digest) (opens : Bool) (file : PlannedFile H.Digest)
    (bytes : Bytes) : Option HardClass :=
  let indexed := if opens then mirrorIndexedPackNames format mirror else none
  let check : PackError := if format.headerReads file.id bytes then .unusable else .unreadableHeader
  match classifyPack (indexed.map fun names => file.id ∈ names) (some check) with
  | .torn => none
  | _ => some .sourceCorrupt

end Survey

section Copy
variable {H : Sha256}

/-- Whether a local file is present and verified: the config against the destination's copy, every
other file against its own name. -/
def isPresent (mirror : MirrorFiles H.Digest) (remoteConfig : Bytes) (file : PlannedFile H.Digest) :
    Bool :=
  match fileAt mirror file.kind file.id with
  | none => false
  | some bytes =>
    if file.kind = .config then bytes = remoteConfig else H.digest bytes = file.id

def queueLe (a b : PlannedFile H.Digest) : Prop :=
  a.kind.rank < b.kind.rank ∨ a.kind.rank = b.kind.rank ∧ a.size ≤ b.size

instance queueLe.decidable : DecidableRel (queueLe (H := H)) :=
  fun _ _ => inferInstanceAs (Decidable (_ ∨ _))

def inMetaPhase (file : PlannedFile H.Digest) : Bool := decide (file.kind.rank ≤ 2)

/-- The start of the copy, unless the destination is no repository or there is no room. `free` is
what the volume answered. -/
def startCopy (mirror : MirrorFiles H.Digest) (planned : List (PlannedFile H.Digest))
    (remoteConfig : Option Bytes) (free : Option ℕ) (minFreeBytes : ℕ) :
    Option (Copying H.Digest) := do
  guard ((listKind planned .config).length = 1)
  let remoteConfig ← remoteConfig
  let missing := planned.filter fun f => !isPresent mirror remoteConfig f
  let free ← free
  guard (totalBytes missing + minFreeBytes ≤ free)
  let queue := missing.insertionSort queueLe
  pure { planned, queue := queue.filter inMetaPhase, later := queue.filter fun f => !inMetaPhase f
         tail := false, inFlight := [], missing := missing.length, downloaded := 0, torn := []
         stop := none }

def Copying.setStop (c : Copying H.Digest) (cause : StopCause) : Copying H.Digest :=
  { c with stop := some (c.stop.getD cause) }

/-- A worker claims the next file of the phase, unless the round has stopped or `roundEnd` ends it. -/
def Copying.claim (c : Copying H.Digest) (roundEnd : Option StopCause) : Copying H.Digest :=
  match c.queue with
  | [] => c
  | file :: queue =>
    if c.stop.isSome || decide (mirrorConnections ≤ c.inFlight.length) then c
    else match roundEnd with
    | some cause => c.setStop cause
    | none => { c with queue, inFlight := c.inFlight ++ [(file, 0)] }

/-- The barrier between the phases. -/
def Copying.nextPhase (c : Copying H.Digest) : Copying H.Digest :=
  if !c.tail && c.queue.isEmpty && c.inFlight.isEmpty && c.stop.isNone then
    { c with queue := c.later, later := [], tail := true }
  else c

/-- One read of a file in flight and what follows. `answer` is what the destination's backend
answered, `opens` whether the mirror opens for a survey and `written` whether a local write went
through. -/
def copyOne (format : RepositoryFormat H) (mirror : MirrorFiles H.Digest) (c : Copying H.Digest)
    (i : ℕ) (answer : Option Bytes) (opens written : Bool) :
    MirrorFiles H.Digest × Copying H.Digest :=
  match c.inFlight[i]? with
  | none => (mirror, c)
  | some (file, attempt) =>
    let released := { c with inFlight := c.inFlight.eraseIdx i }
    let attempts := if file.kind = .config then 1 else 2
    if maxWholeFileBytes < file.size then (mirror, released.setStop (.hard .oversizeListing))
    else match answer with
    | none => (mirror, released.setStop (.pause .remoteRead))
    | some bytes =>
      if maxWholeFileBytes < bytes.length then
        (mirror, released.setStop (.hard .oversizeListing))
      else if file.kind = .config || H.digest bytes = file.id then
        if written then
          (KeyedList.put mirror ((file.kind, file.id), bytes),
            { released with downloaded := c.downloaded + 1 })
        else (mirror, released.setStop (.hard .localWrite))
      else if attempt + 1 = attempts then
        if file.kind = .pack then
          match classifyFailedPack format mirror opens file bytes with
          | some failure => (mirror, released.setStop (.hard failure))
          | none => (mirror, { released with torn := c.torn ++ [file] })
        else (mirror, released.setStop (.hard .sourceCorrupt))
      else (mirror, { c with inFlight := c.inFlight.set i (file, attempt + 1) })

/-- The end of a round whose queue is drained: the record to save. -/
def completedRecord (format : RepositoryFormat H) (mirrorOf : String)
    (mirror : MirrorFiles H.Digest) (c : Copying H.Digest) (opens : Bool) (now : ℕ) :
    Option (MirrorState H.Digest) :=
  if c.tail && c.queue.isEmpty && c.inFlight.isEmpty && c.stop.isNone &&
      decide (c.downloaded + c.torn.length = c.missing) then
    some
      { finishedAtUnix := now
        mirrorOf
        closureComplete := (closureSnapshotIds format mirror opens).1
        snapshotsOnRemote := (listKind c.planned .snapshot).length
        remoteTotalBytes := totalBytes c.planned }
  else none

end Copy

end ChatStasher.Mirror

/-! Sync rounds of one mirror while other clients push to its destination and either side loses
files. -/
namespace ChatStasher.Mirror

/-- The destination, the pushes under way with what each has yet to publish, the mirror directory,
the round in progress and every record saved so far. -/
structure MirrorSite (H : Sha256) where
  remote : List (PlannedFile H.Digest)
  pushes : List (List (PlannedFile H.Digest))
  mirror : MirrorFiles H.Digest
  round : Option (RoundStage H.Digest)
  saved : List (MirrorState H.Digest)

inductive MirrorAction (H : Sha256)
  | startRound
  | list (fails : Bool)
  | startCopy (remoteConfig : Option Bytes) (free : Option ℕ) (minFreeBytes : ℕ)
  | claim (roundEnd : Option StopCause)
  | nextPhase
  | copyOne (i : ℕ) (answer : Option Bytes) (opens written : Bool)
  | close (opens written : Bool) (now : ℕ)
  | kill
  | startPush (packs : List (H.Digest × ℕ)) (index snapshot : H.Digest × ℕ)
  | publish (i : ℕ)
  | lose (kind : FileKind) (id : H.Digest)
  | damage (kind : FileKind) (id : H.Digest) (bytes : Bytes)
  | remove (kind : FileKind) (id : H.Digest)

def listingOrder : List FileKind := [.config, .key, .index, .snapshot, .pack]

section Step
variable {H : Sha256}

/-- What a push publishes: its packs, then the index file naming them, then its snapshot. -/
def pushFiles (packs : List (H.Digest × ℕ)) (index snapshot : H.Digest × ℕ) :
    List (PlannedFile H.Digest) :=
  packs.map (fun p => ⟨.pack, p.1, p.2⟩) ++
    [⟨.index, index.1, index.2⟩, ⟨.snapshot, snapshot.1, snapshot.2⟩]

def addRemote (remote : List (PlannedFile H.Digest)) (file : PlannedFile H.Digest) :
    List (PlannedFile H.Digest) :=
  if remote.any fun f => f.kind = file.kind && f.id = file.id then remote else remote ++ [file]

variable (format : RepositoryFormat H) (mirrorOf : String)

def mirrorStep (s : MirrorSite H) : MirrorAction H → MirrorSite H
  | .startRound =>
    if s.round.isSome then s else { s with round := some (.listing listingOrder []) }
  | .list fails =>
    match s.round with
    | some (.listing (kind :: kinds) planned) =>
      { s with
        round :=
          if fails then none else some (.listing kinds (planned ++ listKind s.remote kind)) }
    | _ => s
  | .startCopy remoteConfig free minFreeBytes =>
    match s.round with
    | some (.listing [] planned) =>
      { s with
        round := (startCopy s.mirror planned remoteConfig free minFreeBytes).map .copying }
    | _ => s
  | .claim roundEnd =>
    match s.round with
    | some (.copying c) => { s with round := some (.copying (c.claim roundEnd)) }
    | _ => s
  | .nextPhase =>
    match s.round with
    | some (.copying c) => { s with round := some (.copying c.nextPhase) }
    | _ => s
  | .copyOne i answer opens written =>
    match s.round with
    | some (.copying c) =>
      let (mirror, c) := copyOne format s.mirror c i answer opens written
      { s with mirror, round := some (.copying c) }
    | _ => s
  | .close opens written now =>
    match s.round with
    | some (.copying c) =>
      if c.stop.isSome && c.inFlight.isEmpty then { s with round := none }
      else match completedRecord format mirrorOf s.mirror c opens now with
      | none => s
      | some state =>
        { s with round := none, saved := if written then s.saved ++ [state] else s.saved }
    | _ => s
  | .kill => { s with round := none }
  | .startPush packs index snapshot =>
    { s with pushes := s.pushes ++ [pushFiles packs index snapshot] }
  | .publish i =>
    match s.pushes[i]? with
    | some (file :: rest) =>
      { s with remote := addRemote s.remote file, pushes := s.pushes.set i rest }
    | _ => s
  | .lose kind id =>
    if kind = .index ∨ kind = .pack then
      { s with remote := s.remote.filter fun f => ¬ (f.kind = kind ∧ f.id = id) }
    else s
  -- Local files change only between rounds.
  | .damage kind id bytes =>
    if s.round.isSome ∨ (fileAt s.mirror kind id).isNone then s
    else { s with mirror := KeyedList.put s.mirror ((kind, id), bytes) }
  | .remove kind id =>
    if s.round.isSome then s
    else { s with mirror := s.mirror.filter fun f => f.1 ≠ (kind, id) }

def MirrorSite.fresh (remote : List (PlannedFile H.Digest)) : MirrorSite H :=
  ⟨remote, [], [], none, []⟩

end Step

section Conditions
variable {H : Sha256} (format : RepositoryFormat H)

def Intact (mirror : MirrorFiles H.Digest) (kind : FileKind) (id : H.Digest) : Prop :=
  ∃ bytes, fileAt mirror kind id = some bytes ∧ H.digest bytes = id

def NamedBy (index pack : H.Digest) : Prop :=
  ∃ bytes names, H.digest bytes = index ∧ format.readIndex bytes = some names ∧ pack ∈ names

def Covers (mirror : MirrorFiles H.Digest) (snapshot : H.Digest) : Prop :=
  Intact mirror .snapshot snapshot ∧ ∀ pack ∈ format.packsOf snapshot,
    (∃ index, Intact mirror .index index ∧ NamedBy format index pack) ∧ Intact mirror .pack pack

/-- Each pack of a listed snapshot is named by an index file that was listed or that the mirror
holds intact. -/
def NamesListed (mirror : MirrorFiles H.Digest) (planned : List (PlannedFile H.Digest)) : Prop :=
  ∀ f ∈ planned, f.kind = .snapshot → ∀ pack ∈ format.packsOf f.id,
    (∃ g ∈ planned, g.kind = .index ∧ NamedBy format g.id pack) ∨
      ∃ index, Intact mirror .index index ∧ NamedBy format index pack

def DamageListed (mirror : MirrorFiles H.Digest) (planned : List (PlannedFile H.Digest)) : Prop :=
  ∀ f ∈ planned, f.kind = .snapshot → ∀ pack ∈ format.packsOf f.id,
    pack ∈ namesIn mirror .pack →
      Intact mirror .pack pack ∨ ∃ g ∈ planned, g.kind = .pack ∧ g.id = pack

/-- The listings of a round cohere: at the snapshots with the index files before them, at the packs
with what the mirror holds. -/
def ListingsCohere (s : MirrorSite H) : MirrorAction H → Prop
  | .list _ =>
    match s.round with
    | some (.listing (.snapshot :: _) planned) =>
      NamesListed format s.mirror (planned ++ listKind s.remote .snapshot)
    | some (.listing (.pack :: _) planned) =>
      DamageListed format s.mirror (planned ++ listKind s.remote .pack)
    | _ => True
  | _ => True

end Conditions

end ChatStasher.Mirror
