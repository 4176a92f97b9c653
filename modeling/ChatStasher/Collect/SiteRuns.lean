import ChatStasher.Archive.Site

/-! Runs of appends, passes, pushes and reclaims over one source and the site it is collected on. -/
namespace ChatStasher

/-- The record a source is collected as, and the machine that does it. -/
structure Watched where
  machine : Ident
  record : SessionRecord

def Watched.key (w : Watched) : SessionKey := ⟨w.machine, w.record.id⟩

variable (H : Sha256)

/-- The source with every version it has had, the site, each destination's debt for the source and
the manifest row its last pass started with, and the hash cache. -/
structure CollectSite where
  source : SourceFile
  versions : List SourceFile
  site : Site H
  debts : Ident → Option (DebtEntry H.Digest)
  rowAtStart : Ident → Option (ShardFact H.Digest)
  cache : Cache H

def CollectSite.fresh (source : SourceFile) : CollectSite H :=
  ⟨source, [source], .empty H, fun _ => none, fun _ => none, none⟩

/-- A pass starts by reading the manifest and comes to the source later; anything may happen in
between. -/
inductive CollectSiteAction
  | append (version : SourceFile)
  | start (dest : Ident)
  | pass (dest : Ident) (bucketCap : ℕ) (remoteFacts : Option (Option (ShardFact H.Digest)))
      (fate : PassFate)
  | site (a : SiteAction)

variable {H} (w : Watched)

/-- The pass's turn at the source. It reads the manifest once more if its debt is unverifiable. -/
def sitePassResult (s : CollectSite H) (dest : Ident) (bucketCap : ℕ)
    (remoteFacts : Option (Option (ShardFact H.Digest))) :
    Option (RecordOutcome H.Digest) × SessionDir × Cache H :=
  processRecordInner H ⟨w.record, w.machine, bucketCap, remoteFacts⟩ (s.rowAtStart dest)
    (some (manifestFact s.site.stage w.key)) s.cache s.source (s.site.stage.dir w.key)
    (s.debts dest)

def CollectSite.setDir (s : CollectSite H) (d : SessionDir) : CollectSite H :=
  { s with site := { s.site with stage := s.site.stage.setDir w.key d } }

def collectSiteStep (s : CollectSite H) : CollectSiteAction H → CollectSite H
  | .append version => { s with source := version, versions := version :: s.versions }
  | .start dest =>
    { s with
      rowAtStart := Function.update s.rowAtStart dest (manifestFact s.site.stage w.key) }
  | .pass dest bucketCap remoteFacts fate =>
    let (out, dir, cache) := sitePassResult w s dest bucketCap remoteFacts
    let debts := match out with
      | some o => Function.update s.debts dest (some o.entry)
      | none => s.debts
    match fate with
    | .completes => { s.setDir w dir with debts, cache }
    | .diesNumbered => s.setDir w { s.site.stage.dir w.key with counter := dir.counter }
    | .diesSealed => s.setDir w dir
    | .diesFlushing => { s.setDir w dir with debts }
  | .site a => { s with site := siteStep s.site a }

def OnStage (s : CollectSite H) (line : Bytes) : Prop :=
  ∃ f ∈ (s.site.stage.dir w.key).files, line ∈ (completeLines f.bytes).1

/-- The line lies in a shard that the destination's archive holds of the session. -/
def InArchive (s : CollectSite H) (dest : Ident) (line : Bytes) : Prop :=
  ∃ snap ∈ s.site.archive dest, ∃ held ∈ snap.sessions, held.1 = w.key ∧
    ∃ f ∈ held.2, line ∈ (completeLines f.bytes).1

instance OnStage.decidable (s : CollectSite H) (line : Bytes) : Decidable (OnStage w s line) :=
  inferInstanceAs (Decidable (∃ f ∈ (s.site.stage.dir w.key).files, line ∈ (completeLines f.bytes).1))

instance InArchive.decidable (s : CollectSite H) (dest : Ident) (line : Bytes) :
    Decidable (InArchive w s dest line) :=
  inferInstanceAs (Decidable (∃ snap ∈ s.site.archive dest, ∃ held ∈ snap.sessions, held.1 = w.key ∧
    ∃ f ∈ held.2, line ∈ (completeLines f.bytes).1))

end ChatStasher
