import ChatStasher.Archive.Site

/-! The change decision of a run-once pass: the metadata digest against the last one pushed. -/
namespace ChatStasher

abbrev MetaFile := FileName × Bytes

/-- The digest over sorted names and content digests. No two such lists are taken to share one, so
it is represented by what it is the digest of. -/
abbrev MetaDigest (D : Type) := List (FileName × D)

variable (H : Sha256)

/-- `compute_meta_hash`; `none` without any file. -/
def computeMetaHash (metadata machineLogs : List MetaFile) : Option (MetaDigest H.Digest) :=
  let files := metadata ++ machineLogs
  if files.isEmpty then none
  else some ((files.insertionSort fun a b => a.1 ≤ b.1).map fun f => (f.1, H.digest f.2))

section Record
variable {D : Type}

inductive PushedMetaRead (D : Type)
  | missing
  | unreadable (error : String)
  | present (hash : MetaDigest D)

/-- Whether the metadata has changed since the record was written. -/
def checkMetaChanged [DecidableEq D] (current : Option (MetaDigest D)) (read : PushedMetaRead D) :
    Bool :=
  match current, read with
  | none, .missing => false
  | none, .present _ => true
  | some _, .missing => true
  | _, .unreadable _ => true
  | some curr, .present prev => decide (curr ≠ prev)

def recordPushedMetaHash : Option (MetaDigest D) → PushedMetaRead D
  | some hash => .present hash
  | none => .missing

end Record

/-- Whether there is content to push, and whether shards or metadata changed. -/
def evaluateRunOnceChange (metadata machineLogs : List MetaFile) (pushed : PushedMetaRead H.Digest)
    (stageShards : ℕ) (shardsChanged : Bool) : Bool × Bool :=
  let hasMeta := !metadata.isEmpty
  let metaChanged := checkMetaChanged (computeMetaHash H metadata machineLogs) pushed
  let hasMachineLogs := !machineLogs.isEmpty
  (decide (0 < stageShards) || hasMeta || hasMachineLogs, shardsChanged || metaChanged)

section Spec
variable {H} {metadata machineLogs : List MetaFile} {pushed : PushedMetaRead H.Digest}

/-- Metadata counts as unchanged only if there is none and no record of any, or if its names and
contents are those of the record. -/
lemma checkMetaChanged_eq_false
    (h : checkMetaChanged (computeMetaHash H metadata machineLogs) pushed = false) :
    (metadata ++ machineLogs = [] ∧ pushed = .missing) ∨
      ∃ hash, pushed = .present hash ∧
        ∀ x, x ∈ hash ↔ ∃ f ∈ metadata ++ machineLogs, (f.1, H.digest f.2) = x := by
  unfold computeMetaHash at h
  dsimp only at h
  split at h
  next hempty =>
    cases pushed with
    | missing => exact Or.inl ⟨List.isEmpty_iff.mp hempty, rfl⟩
    | unreadable error => cases h
    | present hash => cases h
  next =>
    cases pushed with
    | missing => cases h
    | unreadable error => cases h
    | present hash =>
      simp only [checkMetaChanged, ne_eq, decide_eq_false_iff_not, not_not] at h
      refine Or.inr ⟨hash, rfl, fun x => ?_⟩
      rw [← h, List.mem_map]
      simp only [(List.perm_insertionSort _ _).mem_iff]

end Spec

end ChatStasher

/-! Run-once passes of several destinations on one machine, cut at their durable steps. -/
namespace ChatStasher

/-- What a collect pass meets at one record: the write it comes to, and whether the cursor was
reset. -/
structure RecordWork where
  write : Option (SessionKey × ℕ × ShardSource)
  reset : Bool

structure CollectReport where
  changedRecords : ℕ
  shardsWritten : ℕ
  machineLogGenerationsWritten : ℕ
  errors : ℕ

/-- Where a pass stands. Its collect, change decision, index update, metadata digest, backup and
record are steps of their own. -/
inductive PassPhase (D : Type)
  | started
  | collected (changed : Bool)
  | indexing
  | hashing
  | pushing (hash : Option (MetaDigest D))
  | recording (hash : Option (MetaDigest D))
  deriving DecidableEq

variable (H : Sha256)

def collectRecord (acc : CollectReport × Stage H.Digest) (r : RecordWork) :
    CollectReport × Stage H.Digest :=
  let (report, stage) := acc
  match r.write with
  | none => ({ report with changedRecords := report.changedRecords + r.reset.toNat }, stage)
  | some (key, bucketCap, source) =>
    match writeShardInDir H (stage.dir key) bucketCap source with
    | (none, d) => ({ report with errors := report.errors + 1 }, stage.setDir key d)
    | (some _, d) =>
      ({ report with
        changedRecords := report.changedRecords + 1
        shardsWritten := report.shardsWritten + 1 }, stage.setDir key d)

def countStageShards (stage : Stage H.Digest) : ℕ :=
  (stage.sessions.map fun key => (sealedShardEntries (stage.dir key)).length).sum

/-- The stage with its sessions, metadata and machine logs, the archives with their snapshots and
the metadata each copy carried, the machine's record of pushed metadata, the passes in flight, and
for each destination whether a reader has come to see a shard that its last copy did not take. -/
structure RunOnceSite where
  site : Site H
  metadata : List MetaFile
  machineLogs : List MetaFile
  copies : Ident → List (List MetaFile)
  pushed : PushedMetaRead H.Digest
  passes : List (Ident × PassPhase H.Digest)
  sealedSince : Ident → Bool

def RunOnceSite.fresh : RunOnceSite H :=
  ⟨.empty H, [], [], fun _ => [], .missing, [], fun _ => false⟩

/-- Steps of the `i`-th pass in flight, steps of other writers, and the death of a pass. -/
inductive RunOnceAction
  | start (dest : Ident)
  | startPush (dest : Ident)
  | collect (i : ℕ) (work : List RecordWork) (generations : List MetaFile) (fails : Bool)
  | decide (i : ℕ)
  | updateIndex (i : ℕ) (index : Option Bytes)
  | hash (i : ℕ) (writer : Bytes)
  | copy (i : ℕ) (stored : Option Ident)
  | record (i : ℕ) (saved : Bool)
  | kill (i : ℕ)
  | write (key : SessionKey) (bucketCap : ℕ) (source : ShardSource)
  | putMeta (file : MetaFile)
  | removeMeta (name : FileName)

variable {H}

def sealsMore (stage stage' : Stage H.Digest) : Bool :=
  stage'.sessions.any fun key =>
    decide (sealedShardEntries (stage'.dir key) ≠ sealedShardEntries (stage.dir key))

def RunOnceSite.setStage (s : RunOnceSite H) (stage : Stage H.Digest) : RunOnceSite H :=
  { s with
    site := { s.site with stage }
    sealedSince := fun dest => s.sealedSince dest || sealsMore s.site.stage stage }

/-- Whether a pass whose collect reported `changed` pushes nothing, `push_only_if_changed` being in
force. -/
def RunOnceSite.skips (s : RunOnceSite H) (changed : Bool) : Bool :=
  let (hasContent, changed) := evaluateRunOnceChange H s.metadata s.machineLogs s.pushed
    (countStageShards H s.site.stage) changed
  !(hasContent && changed)

def activityIndexName : FileName := "meta/activity-v1.jsonl".toList

def writerVersionName : FileName := "meta/writer.json".toList

/-- The pass's next step. `none` ends it, be it in success, as a NOOP or in an error. -/
def passStep (s : RunOnceSite H) (dest : Ident) :
    PassPhase H.Digest → RunOnceAction → RunOnceSite H × Option (PassPhase H.Digest)
  | .started, .collect _ work generations fails =>
    let (report, stage) := work.foldl (collectRecord H) (⟨0, 0, 0, 0⟩, s.site.stage)
    let report := { report with machineLogGenerationsWritten := generations.length }
    let s := { s.setStage stage with
      machineLogs := generations.foldl KeyedList.put s.machineLogs }
    if fails || decide (0 < report.errors) then (s, none)
    else (s, some (.collected (decide (0 < report.changedRecords) ||
      decide (0 < report.shardsWritten) || decide (0 < report.machineLogGenerationsWritten))))
  | .collected changed, .decide _ => (s, if s.skips changed then none else some .indexing)
  | .indexing, .updateIndex _ (some index) =>
    ({ s with metadata := KeyedList.put s.metadata (activityIndexName, index) }, some .hashing)
  | .indexing, .updateIndex _ none => (s, some .hashing)
  | .hashing, .hash _ writer =>
    let s := { s with metadata := KeyedList.put s.metadata (writerVersionName, writer) }
    (s, some (.pushing (computeMetaHash H s.metadata s.machineLogs)))
  | .pushing _, .copy _ none => (s, none)
  | .pushing hash, .copy _ (some id) =>
    ({ s with
      site := siteStep s.site (.push dest (some id))
      copies := Function.update s.copies dest ((s.metadata ++ s.machineLogs) :: s.copies dest)
      sealedSince := Function.update s.sealedSince dest false }, some (.recording hash))
  | .recording hash, .record _ saved =>
    ({ s with pushed := if saved then recordPushedMetaHash hash else s.pushed }, none)
  | phase, _ => (s, some phase)

/-- The `i`-th pass takes a step. -/
def RunOnceSite.advance (s : RunOnceSite H) (i : ℕ) (a : RunOnceAction) : RunOnceSite H :=
  match s.passes[i]? with
  | none => s
  | some (dest, phase) =>
    let (s, next) := passStep s dest phase a
    { s with passes := match next with
      | none => s.passes.eraseIdx i
      | some phase => s.passes.set i (dest, phase) }

def runOnceStep (s : RunOnceSite H) (a : RunOnceAction) : RunOnceSite H :=
  match a with
  | .start dest => { s with passes := s.passes ++ [(dest, .started)] }
  | .startPush dest => { s with passes := s.passes ++ [(dest, .hashing)] }
  | .collect i _ _ _ | .decide i | .updateIndex i _ | .hash i _ | .copy i _ | .record i _ =>
    s.advance i a
  | .kill i => { s with passes := s.passes.eraseIdx i }
  | .write key bucketCap source => s.setStage (siteStep s.site (.write key bucketCap source)).stage
  | .putMeta file => { s with metadata := KeyedList.put s.metadata file }
  | .removeMeta name => { s with metadata := s.metadata.filter fun f => f.1 ≠ name }

/-- Every shard a reader sees on the stage, and every metadata and machine-log file, is in the
destination's archive with the same bytes. -/
def NothingLeftBehind (s : RunOnceSite H) (dest : Ident) : Prop :=
  (∀ key ∈ s.site.stage.sessions, ∀ x ∈ sealedShardEntries (s.site.stage.dir key),
    ∃ snap ∈ s.site.archive dest, ∃ held ∈ snap.sessions, held.1 = key ∧ x.2 ∈ held.2) ∧
  ∀ f ∈ s.metadata ++ s.machineLogs, ∃ copy ∈ s.copies dest, f ∈ copy

instance NothingLeftBehind.decidable (s : RunOnceSite H) (dest : Ident) :
    Decidable (NothingLeftBehind s dest) :=
  inferInstanceAs (Decidable (_ ∧ _))

end ChatStasher
