import ChatStasher.Collect.Facts
import ChatStasher.Library.PrefixScan

/-! A plain JSONL source file, the remembered prefix digest, and the delta read. -/
namespace ChatStasher

/-- One version of a source file: its content and what `stat` says besides its size. -/
structure SourceFile where
  bytes : Bytes
  mtimeNs : Option ℕ
  inode : ℕ
  deriving DecidableEq

structure FileIdentity where
  size : ℕ
  mtimeNs : Option ℕ
  inode : ℕ
  deriving DecidableEq

def SourceFile.identity (f : SourceFile) : FileIdentity := ⟨f.bytes.length, f.mtimeNs, f.inode⟩

/-- `HashCache::is_same_file`: an identity without a readable mtime matches nothing. -/
def isSameFile (stored current : FileIdentity) : Bool := stored.mtimeNs.isSome && stored == current

lemma isSameFile_iff {stored current : FileIdentity} :
    isSameFile stored current = true ↔ current.mtimeNs.isSome ∧ stored = current := by
  rw [isSameFile, Bool.and_eq_true, beq_iff_eq]
  constructor
  · rintro ⟨hsome, rfl⟩
    exact ⟨hsome, rfl⟩
  · rintro ⟨hsome, rfl⟩
    exact ⟨hsome, rfl⟩

/-- What the hash cache remembers for the source's path. -/
structure PrefixCacheEntry (D : Type) where
  file : FileIdentity
  offset : ℕ
  sha256 : D
  deriving DecidableEq

structure HashAnswer (D : Type) where
  sha256 : D
  bytesRead : ℕ
  fromCache : Bool

/-- The bytes a pass is about to commit, and whether they start from a validated cursor. -/
structure ReadData where
  sourceLen : ℕ
  baseOffset : ℕ
  bytes : Bytes
  bytesRead : ℕ
  prefixBytesValidated : ℕ
  reset : Bool

variable (H : Sha256)

/-- sha256 of the source's first `offset` bytes, from the cache or by reading. -/
def prefixSha256 (cache : Option (PrefixCacheEntry H.Digest)) (source : SourceFile) (offset : ℕ) :
    HashAnswer H.Digest × Option (PrefixCacheEntry H.Digest) :=
  let read := source.bytes.take offset
  let miss : HashAnswer H.Digest × Option (PrefixCacheEntry H.Digest) :=
    (⟨H.digest read, read.length, false⟩,
      if source.mtimeNs.isSome ∧ read.length = offset then
        some ⟨source.identity, offset, H.digest read⟩
      else cache)
  match cache with
  | some entry =>
    if entry.offset = offset ∧ isSameFile entry.file source.identity then
      (⟨entry.sha256, 0, true⟩, cache)
    else miss
  | none => miss

/-- Read what lies behind a cursor whose prefix still hashes to what it recorded, or everything.
The file keeps one version throughout, so neither re-stat nor re-check sends it round again. -/
def readJsonlDelta (cache : Option (PrefixCacheEntry H.Digest)) (source : SourceFile)
    (old : Option (OffsetEntry H.Digest)) (forceReset : Bool) :
    ReadData × Option (PrefixCacheEntry H.Digest) :=
  let before := source.bytes.length
  let full : ReadData := ⟨before, 0, source.bytes, before, 0, old.isSome⟩
  let reusable := old.filter fun entry =>
    !forceReset && !entry.compressed && entry.prefixLen == entry.offset &&
      decide (entry.offset ≤ before)
  match reusable with
  | none => (full, cache)
  | some entry =>
    let (read, cache) := prefixSha256 H cache source entry.offset
    if read.sha256 = entry.prefixSha256 then
      (⟨before, entry.offset, source.bytes.drop entry.offset, before - entry.offset,
        if read.fromCache then 0 else read.bytesRead, false⟩, cache)
    else (full, cache)

/-- The cursor at `offset`, unless the source turns out shorter than that. -/
def plainState (cache : Option (PrefixCacheEntry H.Digest)) (source : SourceFile) (offset : ℕ) :
    Option (OffsetEntry H.Digest × Option (PrefixCacheEntry H.Digest)) :=
  let (read, cache) := prefixSha256 H cache source offset
  if !read.fromCache && read.bytesRead != offset then none
  else some (⟨offset, offset, read.sha256, false⟩, cache)

end ChatStasher

/-! Where a pass starts to read: the stored cursor, or the position the stage already covers. -/
namespace ChatStasher

/-- The longest source line prefix present contiguously in the stage, in source bytes. -/
def coveredSourcePrefix (stage source : Bytes) : ℕ :=
  let stageLines := (completeLines stage).1
  let sourceLines := (completeLines source).1
  let sourceCompleteLen := (completeLines source).2
  if sourceLines = [] then 0
  else
    let best := PrefixScan.longestPrefixRun sourceLines stageLines
    if best = sourceLines.length then sourceCompleteLen
    else min ((sourceLines.take best).map fun line => line.length + 1).sum sourceCompleteLen

variable (H : Sha256)

/-- A starting cursor for a plain JSONL source from the shard bodies a stage already holds. -/
def jsonlPrefixEntryFromShards (source : SourceFile) (sealed : Bytes) :
    Option (OffsetEntry H.Digest) :=
  let probe := source.bytes.take (min source.bytes.length sealed.length)
  let offset := coveredSourcePrefix sealed probe
  if offset = 0 then none
  else some ⟨offset, offset, H.digest (probe.take offset), false⟩

/-- The stage's own sealed shards, expressed as a cursor; with nothing sealed, the retained
manifest row, if the source still begins with what it names. -/
def stagePrefixEntry (cache : Option (PrefixCacheEntry H.Digest)) (source : SourceFile)
    (d : SessionDir) (manifestFact : Option (ShardFact H.Digest)) :
    Option (OffsetEntry H.Digest) × Option (PrefixCacheEntry H.Digest) :=
  let sealedShards := stageSealedShards d
  if sealedShards = [] then
    match manifestFact with
    | none => (none, cache)
    | some fact =>
      if 0 < fact.concatBytes ∧ fact.concatBytes ≤ source.bytes.length then
        let (read, cache) := prefixSha256 H cache source fact.concatBytes
        if read.sha256 = fact.concatSha256 then
          (some ⟨fact.concatBytes, fact.concatBytes, fact.concatSha256, false⟩, cache)
        else (none, cache)
      else (none, cache)
  else (jsonlPrefixEntryFromShards H source sealedShards.flatten, cache)

def sessionStageLen (d : SessionDir) : ℕ := ((sealedShardEntries d).map (·.2.bytes.length)).sum

/-- The cursor a record with a stored debt should read from. -/
def cursorOrStageCoveredPosition (cache : Option (PrefixCacheEntry H.Digest))
    (source : SourceFile) (entry : DebtEntry H.Digest) (verified : Bool) (d : SessionDir)
    (manifestFact : Option (ShardFact H.Digest)) :
    OffsetEntry H.Digest × Option (PrefixCacheEntry H.Digest) :=
  if !verified then (entry.cursor, cache)
  else
    let consult :=
      if sessionStageLen d ≤ entry.cursor.offset then
        manifestFact.any fun fact => decide (entry.cursor.offset < fact.concatBytes)
      else true
    if consult then
      match stagePrefixEntry H cache source d manifestFact with
      | (some covered, cache) =>
        if entry.cursor.offset < covered.offset then (covered, cache) else (entry.cursor, cache)
      | (none, cache) => (entry.cursor, cache)
    else (entry.cursor, cache)

end ChatStasher
