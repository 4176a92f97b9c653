import ChatStasher.Activity.Index
import ChatStasher.Readback.Listing

/-! The three cumulative readers of an archive: one session for a caller, the sessions of one machine
for a visitor, and the sessions of every machine for a report. -/
namespace ChatStasher.Readback
open Activity (DuplicateShardPolicy)

def inferHarness (sessionId : Ident) : Option FileName :=
  let head := sessionId.takeWhile fun c => c ≠ '.' ∧ c ≠ '~'
  if head = [] then none else some head

def harnessIsOpencode (sessionId : Ident) : Bool := inferHarness sessionId = some "opencode".toList

structure ProvenanceObservation (H : Sha256) (Dimensions : Type) where
  sessionId : Ident
  dimensions : Dimensions
  bodyShardCount : ℕ
  bodySha256 : H.Digest
  bodyShardSequences : List ℕ

/-- How provenance files are parsed, and how the records of a snapshot source become a body. -/
structure ReadRules where
  H : Sha256
  Dimensions : Type
  isValid : Dimensions → Bool
  parseObservations : Bytes → Except String (List (ProvenanceObservation H Dimensions))
  projectSessionBody : Ident → List Bytes → Except String Bytes

abbrev ReadRules.Observation (rules : ReadRules) : Type :=
  ProvenanceObservation rules.H rules.Dimensions

/-- An archive as a reader opens it: its snapshots, the trees and files that can be read, and what the
control records omit, as the strict and the tolerant load answer. -/
structure Archive where
  snapshots : List Snapshot
  readable : TreeId → Bool
  dumpError : Node → Option String
  strictPolicy : Except String (Ident → Ident → Bool)
  tolerantPolicy : Except String (Ident → Ident → Bool)

inductive ReadError
  | noSnapshot (machine : Ident)
  | tree (snap : Snapshot) (tree : TreeId)
  | dump (why : String)
  | provenance (why : String)
  | control (why : String)
  | assembly (sessionId : Ident) (why : String)

section Provenance
variable {rules : ReadRules}

/-- The sequences whose exact bodies a valid observation binds. -/
def verifiedObservationSequences (sessionId : Ident) (observations : List rules.Observation)
    (shardBodies : List (Option ℕ × Bytes)) : List ℕ :=
  let bySequence := KeyedList.lastWins
    (shardBodies.filterMap fun shard => shard.1.map fun sequence => (sequence, shard.2))
  observations.foldl (fun verified observation =>
    let sequences := observation.bodyShardSequences
    if observation.sessionId ≠ sessionId ∨ sequences = [] ∨
        sequences.length ≠ observation.bodyShardCount ∨ 0 ∈ sequences ∨
        (sequences.zip sequences.tail).any (fun pair => pair.1 ≥ pair.2) ∨
        ¬ rules.isValid observation.dimensions then verified
    else
      match sequences.mapM fun sequence => bySequence.lookup sequence with
      | none => verified
      | some bodies =>
        if rules.H.digest bodies.flatten = observation.bodySha256 then verified ++ sequences
        else verified) []

/-- `repo.dump`. -/
def Archive.dump (archive : Archive) (node : Node) : Except ReadError Bytes :=
  match archive.dumpError node, node with
  | some why, _ => .error (.dump why)
  | none, .file bytes _ => .ok bytes
  | none, _ => .error (.dump "not a file")

/-- The observations of a provenance file whose dimensions are valid. -/
def loadObservations (rules : ReadRules) (archive : Archive) (node : Node) :
    Except ReadError (List rules.Observation) :=
  match archive.dump node with
  | .error e => .error e
  | .ok bytes =>
    match rules.parseObservations bytes with
    | .error why => .error (.provenance why)
    | .ok rows => .ok (rows.filter fun row => rules.isValid row.dimensions)

end Provenance

section Identity

abbrev ShardKey := ℕ ×ₗ FileName

/-- The sequence, the file name and the node of an archived shard. -/
structure HeldShard where
  sequence : Option ℕ
  shard : FileName
  node : Node

/-- `archive_shard_identity`: the sequence, if the name has one, and the whole path. -/
def shardIdentity (path : Path) (shard : FileName) : ShardKey × Option ℕ :=
  let sequence := parseShardSeq shard
  (toLex (sequence.getD u64Max, pathText path), sequence)

/-- Under which path a sequence was last seen, and the sequences seen under two. -/
structure SequencePaths (K : Type) where
  paths : List (K × FileName)
  ambiguous : List K

def SequencePaths.note {K : Type} [BEq K] (seen : SequencePaths K) (key : K)
    (path : FileName) : SequencePaths K where
  paths := (key, path) :: seen.paths
  ambiguous :=
    if (seen.paths.lookup key).any (· ≠ path) then key :: seen.ambiguous else seen.ambiguous

def Node.isFile : Node → Bool
  | .file .. => true
  | _ => false

end Identity

section Listing

def listed (snap : Snapshot) {A : Type} : Except TreeId A → Except ReadError A :=
  Except.mapError (ReadError.tree snap)

def fullEntries (archive : Archive) (snap : Snapshot) : Except ReadError (List (Path × Node)) :=
  listed snap (snap.ls archive.readable)

def fastPathStageToplevel : List FileName :=
  [sessionsDir, metaDir, "machine-logs".toList, "ext-status".toList, "import-raw".toList,
    "export-files".toList, ".ingest.lock".toList]

def provenanceFile : FileName := "provenance-v1.jsonl".toList

variable (readable : TreeId → Bool) (snap : Snapshot)

def child (at_ : Path) (dir : Node) (name : FileName) : Except TreeId (Option Node) :=
  match dir.subtree with
  | none => .ok none
  | some subtree =>
    if readable subtree then .ok (snap.entries.lookup (at_ ++ [name])) else .error subtree

/-- Follow directories only; anything else on the way asks for the full listing. -/
def stageFrom : Node → Path → Path → Except TreeId (Option Node)
  | stage, _, [] => .ok (some stage)
  | stage, at_, name :: rest =>
    match child readable snap at_ stage name with
    | .error tree => .error tree
    | .ok (some (.dir subtree)) => stageFrom (.dir subtree) (at_ ++ [name]) rest
    | .ok _ => .ok none

def namesAt (at_ : Path) : List FileName :=
  snap.entries.filterMap fun e =>
    match e.1.reverse with
    | name :: above => if above.reverse = at_ then some name else none
    | [] => none

def lsBelow (at_ : Path) (subtree : TreeId) : Except TreeId (List (Path × Node)) :=
  let below := snap.entries.filter fun e => at_ <+: e.1 ∧ e.1 ≠ at_
  match (subtree :: below.filterMap fun e => e.2.subtree).find? fun tree => !readable tree with
  | some tree => .error tree
  | none => .ok below

/-- The entries of one session below a stage's `sessions`. -/
def sessionEntriesAt (stage : Path) (sessions : Node) (machine session : Ident) :
    Except TreeId (List (Path × Node)) := do
  let base := stage ++ [sessionsDir]
  match ← child readable snap base sessions machine with
  | none => .ok []
  | some machineDir =>
    match ← child readable snap (base ++ [machine]) machineDir session with
    | some (.dir subtree) => lsBelow readable snap (base ++ [machine, session]) subtree
    | _ => .ok []

/-- The provenance file of a machine below a stage's `meta`. -/
def provenanceEntriesAt (stage : Path) (stageDir : Node) (machine : Ident) :
    Except TreeId (List (Path × Node)) := do
  match ← child readable snap stage stageDir metaDir with
  | none => .ok []
  | some metaNode =>
    match ← child readable snap (stage ++ [metaDir]) metaNode machine with
    | none => .ok []
    | some machineNode =>
      match ← child readable snap (stage ++ [metaDir, machine]) machineNode provenanceFile with
      | none => .ok []
      | some file => .ok [(stage ++ [metaDir, machine, provenanceFile], file)]

/-- What one stage root holds of the session, or that the full listing is needed. -/
def fastStageEntries (machine session : Ident) (wantProvenance : Bool) (stage : Path) :
    Except TreeId (Option (List (Path × Node))) := do
  match ← stageFrom readable snap (.dir snap.tree) [] stage with
  | none => .ok none
  | some stageDir =>
    match stageDir.subtree with
    | none => .ok none
    | some stageTree =>
      if !readable stageTree then .error stageTree
      else if (namesAt snap stage).any (· ∉ fastPathStageToplevel) then .ok none
      else
        match snap.entries.lookup (stage ++ [sessionsDir]) with
        | some (.dir sessions) => do
          let found ← sessionEntriesAt readable snap stage (.dir sessions) machine session
          let provenance ←
            if wantProvenance then provenanceEntriesAt readable snap stage stageDir machine
            else .ok []
          .ok (some (found ++ provenance))
        | _ => .ok none

def fastFrom (machine session : Ident) (wantProvenance : Bool) :
    List Path → Except TreeId (Option (List (Path × Node)))
  | [] => .ok (some [])
  | stage :: stages => do
    match ← fastStageEntries readable snap machine session wantProvenance stage with
    | none => .ok none
    | some found =>
      match ← fastFrom machine session wantProvenance stages with
      | none => .ok none
      | some more => .ok (some (found ++ more))

/-- `fast_session_entries`: only the directories of the session, where every stage root is shaped as
the writer shapes it. -/
def fastSessionEntries (machine session : Ident) (wantProvenance : Bool) :
    Except TreeId (Option (List (Path × Node))) :=
  if snap.paths = [] then .ok none
  else fastFrom readable snap machine session wantProvenance snap.paths

/-- The files of one snapshot that the read of one session can care about. -/
def snapshotSessionEntries (archive : Archive) (machine session : Ident) (wantProvenance : Bool)
    (snap : Snapshot) : Except ReadError (List (Path × Node)) := do
  match ← listed snap
      (fastSessionEntries archive.readable snap machine session wantProvenance) with
  | some found => .ok found
  | none => fullEntries archive snap

end Listing

section Session
variable (rules : ReadRules) (archive : Archive)

structure SessionWalk where
  held : List (ShardKey × HeldShard)
  sequences : SequencePaths ℕ
  observations : List rules.Observation
  metadataFound : Bool

def SessionWalk.start : SessionWalk rules := ⟨[], ⟨[], []⟩, [], false⟩

variable {rules}

/-- One entry of a snapshot's listing, for the read of one session. -/
def meetSessionEntry (machine session : Ident) (policy : DuplicateShardPolicy)
    (walk : SessionWalk rules) (e : Path × Node) : Except ReadError (SessionWalk rules) :=
  let (path, node) := e
  if !node.isFile then .ok walk
  else if policy.collapses && isProvenancePath path machine then
    if walk.metadataFound then .ok walk
    else do
      let rows ← loadObservations rules archive node
      .ok { walk with
        observations := rows.filter fun row => row.sessionId = session
        metadataFound := true }
  else
    match bucketShardPath path with
    | none => .ok walk
    | some (foundMachine, foundSession, shard) =>
      if foundMachine ≠ machine ∨ foundSession ≠ session then .ok walk
      else
        let (identity, sequence) := shardIdentity path shard
        .ok { walk with
          sequences := sequence.elim walk.sequences (walk.sequences.note · (pathText path))
          held := KeyedList.orInsert walk.held (identity, ⟨sequence, shard, node⟩) }

/-- The walk of a session over the snapshots of its machine, newest first. -/
def walkSession (entriesOf : Snapshot → Except ReadError (List (Path × Node)))
    (machine session : Ident) (policy : DuplicateShardPolicy) (snapshots : List Snapshot) :
    Except ReadError (SessionWalk rules) :=
  snapshots.foldlM (fun walk snap => do
    let entries ← entriesOf snap
    entries.foldlM (meetSessionEntry archive machine session policy) walk) (SessionWalk.start rules)

/-- A shard with its raw sequence, the sequence unless it is ambiguous, its name and its body. -/
structure DumpedShard where
  raw : Option ℕ
  nulled : Option ℕ
  name : FileName
  body : Bytes

/-- The shards of a walk in identity order, with their bodies. -/
def dumpHeld (walk : SessionWalk rules) : Except ReadError (List DumpedShard) :=
  (KeyedList.inKeyOrder walk.held).mapM fun (_, held) => do
    let body ← archive.dump held.node
    .ok ⟨held.sequence, held.sequence.filter (· ∉ walk.sequences.ambiguous), held.shard, body⟩

/-- The shards that the read keeps: no duplicate, unless an observation binds its sequence. -/
def selectShards (session : Ident) (policy : DuplicateShardPolicy) (walk : SessionWalk rules)
    (shards : List DumpedShard) : List DumpedShard :=
  let observedSequences := verifiedObservationSequences session walk.observations
    (shards.map fun shard => (shard.nulled, shard.body))
  let duplicates :=
    if policy.collapses then
      duplicateShardIndicesSequenced (shards.map fun shard => (shard.raw, shard.body))
    else []
  (shards.zipIdx.filter fun (shard, index) =>
    !(duplicates.contains index && !shard.nulled.any (observedSequences.contains ·))).map Prod.fst

/-- The body of a session and the digest of each shard it is made of, from the entries that a listing
gives. -/
def dumpSession (entriesOf : Snapshot → Except ReadError (List (Path × Node)))
    (snapshots : List Snapshot) (machine session : Ident) (policy : DuplicateShardPolicy) :
    Except ReadError (Option (Bytes × List (FileName × rules.H.Digest))) := do
  let walk ← @walkSession rules archive entriesOf machine session policy snapshots
  if walk.held.isEmpty then .ok none
  else do
    let shards ← dumpHeld archive walk
    let selected := selectShards session policy walk shards
    let hashes := selected.map fun shard => (shard.name, rules.H.digest shard.body)
    let bodies := selected.map DumpedShard.body
    if harnessIsOpencode session then
      match rules.projectSessionBody session bodies with
      | .error why => .error (.assembly session why)
      | .ok body => .ok (some (body, hashes))
    else .ok (some (bodies.flatten, hashes))

variable (rules)

/-- `dump_cumulative_session`. -/
def dumpCumulativeSession (snapshots : List Snapshot) (machine session : Ident)
    (policy : DuplicateShardPolicy) :
    Except ReadError (Option (Bytes × List (FileName × rules.H.Digest))) :=
  dumpSession archive (snapshotSessionEntries archive machine session policy.collapses) snapshots
    machine session policy

end Session

section Machine
variable (rules : ReadRules) (archive : Archive)

structure MachineWalk where
  held : List (Ident × List (ShardKey × HeldShard))
  sequences : SequencePaths (Ident × ℕ)
  observations : List (Ident × List rules.Observation)
  metadataLoaded : Bool

def MachineWalk.start : MachineWalk rules := ⟨[], ⟨[], []⟩, [], false⟩

variable {rules}

/-- One entry of a snapshot's listing, for the read of the sessions that are kept. -/
def meetMachineEntry (machine : Ident) (policy : DuplicateShardPolicy) (kept : Ident → Bool)
    (walk : MachineWalk rules) (e : Path × Node) : Except ReadError (MachineWalk rules) :=
  let (path, node) := e
  if !node.isFile then .ok walk
  else if policy.collapses && isProvenancePath path machine then
    if walk.metadataLoaded then .ok walk
    else do
      let rows ← loadObservations rules archive node
      .ok { walk with
        observations := rows.foldl (fun observations row =>
          KeyedList.upsert observations row.sessionId fun held => held.getD [] ++ [row])
            walk.observations
        metadataLoaded := true }
  else
    match bucketShardPath path with
    | none => .ok walk
    | some (foundMachine, session, shard) =>
      if foundMachine ≠ machine then .ok walk
      else if !kept session then .ok walk
      else
        let (identity, sequence) := shardIdentity path shard
        .ok { walk with
          sequences := sequence.elim walk.sequences fun sequence =>
            walk.sequences.note (session, sequence) (pathText path)
          held := KeyedList.upsert walk.held session fun held =>
            KeyedList.orInsert (held.getD []) (identity, ⟨sequence, shard, node⟩) }

/-- The bodies of a session's shards in identity order, with their raw sequences. -/
def shardBodies (held : List (ShardKey × HeldShard)) :
    Except ReadError (List (Option ℕ × Bytes)) :=
  (KeyedList.inKeyOrder held).mapM fun (_, shard) => do
    let body ← archive.dump shard.node
    .ok (shard.sequence, body)

/-- The sequence of a shard, unless more than one path of the session carries it. -/
def MachineWalk.published (walk : MachineWalk rules) (session : Ident) (sequence : Option ℕ) :
    Option ℕ :=
  sequence.filter fun sequence => (session, sequence) ∉ walk.sequences.ambiguous

def MachineWalk.observedSequences (walk : MachineWalk rules) (session : Ident)
    (bodies : List (Option ℕ × Bytes)) : List ℕ :=
  verifiedObservationSequences session ((walk.observations.lookup session).getD [])
    (bodies.map fun shard => (walk.published session shard.1, shard.2))

end Machine

section Visit
variable {rules : ReadRules} (archive : Archive)

def visitedShards (policy : DuplicateShardPolicy) (walk : MachineWalk rules) (session : Ident)
    (bodies : List (Option ℕ × Bytes)) : List (Option ℕ × Bytes) :=
  if policy.collapses then
    let duplicates := duplicateShardIndicesSequenced bodies
    let observedSequences := walk.observedSequences session bodies
    ((bodies.map fun shard => (walk.published session shard.1, shard.2)).zipIdx.filter
      fun (shard, index) =>
        !duplicates.contains index || shard.1.any (observedSequences.contains ·)).map Prod.fst
  else bodies

structure CumulativeSessionRead where
  sessions : ℕ
  snapshotsScanned : ℕ
  snapshotsInRepo : ℕ

variable (rules)

/-- `for_each_archived_session_shards_with_policy`: the calls of the visitor in order, and what was
read. -/
def forEachArchivedSessionShards (machine : Ident) (policy : DuplicateShardPolicy) :
    Except ReadError (List (Ident × List (Option ℕ × Bytes)) × CumulativeSessionRead) :=
  match archive.strictPolicy with
  | .error why => .error (.control why)
  | .ok omitted =>
    match (snapshotsByHostNewestFirst archive.snapshots).lookup machine with
    | none => .error (.noSnapshot machine)
    | some snapshots => do
      let walk ← snapshots.foldlM (fun walk snap => do
        let entries ← fullEntries archive snap
        entries.foldlM (meetMachineEntry archive machine policy fun session =>
          !omitted machine session) walk) (MachineWalk.start rules)
      let visits ← (KeyedList.inKeyOrder walk.held).mapM fun (session, held) => do
        let bodies ← shardBodies archive held
        .ok (session, visitedShards policy walk session bodies)
      .ok (visits, ⟨visits.length, snapshots.length, archive.snapshots.length⟩)

end Visit

section Report
variable (rules : ReadRules) (archive : Archive)

/-- One session of a report; `sha256` is the digest of its concatenated bodies. -/
structure SessionBackedUp where
  machine : Ident
  sessionId : Ident
  shardCount : ℕ
  concatBytes : ℕ
  sha256 : rules.H.Digest
  shardSha256 : List rules.H.Digest
  shardSequences : List (Option ℕ)
  shardBytes : List ℕ
  shardRunDuplicates : List (ℕ × ℕ)
  foldedShardIndices : List ℕ

structure MachineMerge where
  hostname : Ident
  newest : Snapshot
  sessions : List (SessionBackedUp rules)

structure ReadAllReport where
  snapshotsInRepo : ℕ
  incompleteMachines : List Ident
  warnings : List (Ident × Snapshot × TreeId)
  machines : List (MachineMerge rules)

/-- The concatenation of a session so far, with what the report tells of each shard in it. -/
structure Concatenation where
  concat : Bytes
  offsets : List ℕ
  sha256 : List rules.H.Digest
  bytes : List ℕ
  sequences : List (Option ℕ)
  runDuplicates : List (ℕ × ℕ)
  folded : List ℕ

variable {rules}

/-- The starts of the earlier runs of whole shards that hold the same bytes. -/
def runStarts (row : Concatenation rules) (body : Bytes) : List ℕ :=
  (row.offsets.zipIdx.filter fun (offset, _) =>
    (offset + body.length = row.concat.length ∨ offset + body.length ∈ row.offsets) ∧
      (row.concat.drop offset).take body.length = body ∧
        offset + body.length ≤ row.concat.length).map Prod.snd

def Concatenation.append (row : Concatenation rules) (sequence : Option ℕ) (body : Bytes) :
    Concatenation rules :=
  { row with
    runDuplicates :=
      row.runDuplicates ++ (runStarts row body).map fun start => (start, row.sha256.length)
    offsets := row.offsets ++ [row.concat.length]
    sha256 := row.sha256 ++ [rules.H.digest body]
    bytes := row.bytes ++ [body.length]
    sequences := row.sequences ++ [sequence]
    concat := row.concat ++ body }

/-- One shard of a session: a copy to fold is noted under either policy, and left out by one. -/
def addShard (policy : DuplicateShardPolicy) (walk : MachineWalk rules) (session : Ident)
    (wouldFold observedSequences : List ℕ) (row : Concatenation rules)
    (shard : (Option ℕ × Bytes) × ℕ) : Concatenation rules :=
  let ((raw, body), index) := shard
  let published := walk.published session raw
  if wouldFold.contains index && !published.any (observedSequences.contains ·) then
    let row := { row with folded := row.folded ++ [index] }
    if policy.collapses then row else row.append published body
  else row.append published body

def sessionBackedUp (policy : DuplicateShardPolicy) (machine : Ident) (walk : MachineWalk rules)
    (session : Ident) (bodies : List (Option ℕ × Bytes)) : SessionBackedUp rules :=
  let row := bodies.zipIdx.foldl (addShard policy walk session
    (duplicateShardIndicesSequenced bodies) (walk.observedSequences session bodies))
      ⟨[], [], [], [], [], [], []⟩
  ⟨machine, session, bodies.length, row.concat.length, rules.H.digest row.concat, row.sha256,
    row.sequences, row.bytes, row.runDuplicates, row.folded⟩

/-- The walk of one host for the report: a snapshot that cannot be listed is noted and passed over. -/
def walkHost (policy : DuplicateShardPolicy) (hostname : Ident) (kept : Ident → Bool)
    (read : MachineWalk rules × List (Ident × Snapshot × TreeId)) (snap : Snapshot) :
    Except ReadError (MachineWalk rules × List (Ident × Snapshot × TreeId)) :=
  match snap.ls archive.readable with
  | .error tree => .ok (read.1, read.2 ++ [(hostname, snap, tree)])
  | .ok entries => do
    let walk ← entries.foldlM (meetMachineEntry archive hostname policy kept) read.1
    .ok (walk, read.2)

def mergeHost (policy : DuplicateShardPolicy) (kept : Ident → Ident → Bool)
    (report : ReadAllReport rules) (grouped : Ident × List Snapshot) :
    Except ReadError (ReadAllReport rules) :=
  match grouped.2 with
  | [] => .ok report
  | newest :: older => do
    let hostname := newest.hostname
    let (walk, failed) ← (newest :: older).foldlM
      (walkHost archive policy hostname (kept hostname)) (MachineWalk.start rules, [])
    let sessions ← (KeyedList.inKeyOrder walk.held).mapM fun (session, held) => do
      let bodies ← shardBodies archive held
      .ok (sessionBackedUp policy hostname walk session bodies)
    .ok { report with
      incompleteMachines :=
        if failed = [] then report.incompleteMachines else hostname :: report.incompleteMachines
      warnings := report.warnings ++ failed
      machines := report.machines ++ [⟨hostname, newest, sessions⟩] }

variable (rules)

/-- `read_cumulative_sessions_inner`: every host, for the sessions that are wanted. -/
def readCumulativeSessions (wanted : Option (List (Ident × Ident))) (policy : DuplicateShardPolicy)
    (applyControlPolicy : Bool) : Except ReadError (ReadAllReport rules) :=
  match (if applyControlPolicy then archive.tolerantPolicy else .ok fun _ _ => false) with
  | .error why => .error (.control why)
  | .ok omitted => do
    let kept := fun machine session =>
      !omitted machine session && wanted.all fun wanted => wanted.contains (machine, session)
    let report ← (snapshotsByHostNewestFirst archive.snapshots).foldlM
      (mergeHost archive policy kept) ⟨archive.snapshots.length, [], [], []⟩
    .ok { report with machines := report.machines.insertionSort fun a b => a.hostname ≤ b.hostname }

end Report

end ChatStasher.Readback
