import ChatStasher.Collect.Pass
import ChatStasher.Library.StepRun
import ChatStasher.Store.ShardList

/-! Runs of source writes and collect passes for several destinations over one stage. -/
namespace ChatStasher

variable (H : Sha256)

/-- The source as it stands, every version it has had, the session's stage directory, each
destination's debt for the source, and the hash cache. -/
structure CollectState (ι : Type) where
  source : SourceFile
  versions : List SourceFile
  dir : SessionDir
  debts : ι → Option (DebtEntry H.Digest)
  cache : Cache H

def CollectState.fresh (ι : Type) (source : SourceFile) : CollectState H ι :=
  ⟨source, [source], .empty, fun _ => none, none⟩

/-- How far a pass gets: to its end, or to its death between two durable writes. -/
inductive PassFate
  | completes
  | diesNumbered
  | diesSealed
  | diesFlushing
  deriving DecidableEq

inductive CollectAction (ι : Type)
  | write (version : SourceFile)
  | pass (dest : ι) (input : PassInput H.Digest) (fate : PassFate)

variable {ι : Type} [DecidableEq ι]

/-- The result of a pass for one destination, no manifest having been written yet. -/
def passResult (s : CollectState H ι) (dest : ι) (input : PassInput H.Digest) :
    Option (RecordOutcome H.Digest) × SessionDir × Cache H :=
  processRecordInner H input none none s.cache s.source s.dir (s.debts dest)

def collectStep (s : CollectState H ι) : CollectAction H ι → CollectState H ι
  | .write version => { s with source := version, versions := version :: s.versions }
  | .pass dest input fate =>
    let (out, dir, cache) := passResult H s dest input
    let debts := match out with
      | some o => Function.update s.debts dest (some o.entry)
      | none => s.debts
    match fate with
    | .completes => { s with dir, debts, cache }
    | .diesNumbered => { s with dir := { s.dir with counter := dir.counter } }
    | .diesSealed => { s with dir }
    | .diesFlushing => { s with dir, debts }

/-- The complete lines of all sealed shards concatenated in sequence order. -/
def sealedLines (d : SessionDir) : List Bytes :=
  (completeLines ((installedShards d).map Prod.snd).flatten).1

/-- Two versions of the source that `stat` cannot tell apart have the same bytes. -/
def Unaliased (versions : List SourceFile) : Prop :=
  ∀ u ∈ versions, ∀ v ∈ versions, u.identity = v.identity → u.mtimeNs.isSome → u.bytes = v.bytes

instance Unaliased.decidable (versions : List SourceFile) : Decidable (Unaliased versions) :=
  inferInstanceAs (Decidable (∀ u ∈ versions, ∀ v ∈ versions,
    u.identity = v.identity → u.mtimeNs.isSome → u.bytes = v.bytes))

end ChatStasher
