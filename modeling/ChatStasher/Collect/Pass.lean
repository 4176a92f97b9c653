import ChatStasher.Collect.Source

/-! One collect pass over one plain JSONL record. -/
namespace ChatStasher

/-- What the scan says about a record: its session, whether provenance rows came with it, and
whether its root belongs to a store that moves files between roots. -/
structure SessionRecord where
  id : Ident
  hasProvenance : Bool
  movableRoot : Bool
  deriving DecidableEq

/-- What a pass for one record is given besides stage, manifest, source and debts. -/
structure PassInput (D : Type) where
  record : SessionRecord
  machine : Ident
  bucketCap : ℕ
  remoteFacts : Option (Option (ShardFact D))

/-- The result of `process_jsonl`: new cursor, lines handed to the writer, the sealed shard's name,
and whether the cursor was reset. -/
structure Processed (D : Type) where
  state : OffsetEntry D
  linesWritten : ℕ
  shard : Option FileName
  reset : Bool

def byteEqualityEstablishesEventIdentity (record : SessionRecord) : Bool :=
  record.movableRoot || !record.hasProvenance

variable (H : Sha256)

/-- Does the retained manifest summary prove that the archive already holds this framed payload? -/
def manifestHoldsThisFramed (manifestFact : Option (ShardFact H.Digest)) (framed : Bytes) : Bool :=
  manifestFact.any fun fact =>
    fact.concatBytes == framed.length && fact.concatSha256 == H.digest framed

def zeroCursor : OffsetEntry H.Digest := ⟨0, 0, H.digest [], false⟩

/-- Which writer the lines go through: the repeat-allowing one for validated appends and for a
fresh capture whose bytes cannot establish event identity, else the deduplicating one. -/
def allowsExactRepeat (record : SessionRecord) (old : Option (OffsetEntry H.Digest))
    (data : ReadData) : Bool :=
  (!data.reset && decide (0 < data.baseOffset)) ||
    (old.isNone && record.hasProvenance && !record.movableRoot)

abbrev Cache := Option (PrefixCacheEntry H.Digest)

/-- Seal the complete lines behind the cursor; `none` is the error return. -/
def processJsonl (input : PassInput H.Digest) (manifestFact : Option (ShardFact H.Digest))
    (cache : Cache H) (source : SourceFile) (d : SessionDir)
    (old : Option (OffsetEntry H.Digest)) (forceReset : Bool) :
    Option (Processed H.Digest) × SessionDir × Cache H :=
  let (data, cache) := readJsonlDelta H cache source old forceReset
  let (lines, committedDelta) := completeLines data.bytes
  let newOffset := data.baseOffset + committedDelta
  let matchesManifest := !forceReset && old.isSome && data.baseOffset == 0 && !lines.isEmpty &&
    byteEqualityEstablishesEventIdentity input.record &&
    manifestHoldsThisFramed H manifestFact (sealFramedLines lines)
  if matchesManifest then
    match plainState H cache source newOffset with
    | none => (none, d, cache)
    | some (state, cache) => (some ⟨state, 0, none, false⟩, d, cache)
  else
    let newState :=
      if lines.isEmpty && !data.reset then some (old.getD (zeroCursor H), cache)
      else plainState H cache source newOffset
    match newState with
    | none => (none, d, cache)
    | some (state, cache) =>
      if lines.isEmpty then (some ⟨state, 0, none, data.reset⟩, d, cache)
      else
        match writeShardInDir H d input.bucketCap
            (.store (sealFramedLines lines) .collect (allowsExactRepeat H input.record old data)) with
        | (none, d) => (none, d, cache)
        | (some write, d) =>
          (some ⟨state, lines.length, some write.filename, data.reset⟩, d, cache)

/-- The outcome of `process_record_inner` for a record that was read. -/
structure RecordOutcome (D : Type) where
  entry : DebtEntry D
  processed : Processed D

/-- The manifest row the pass goes by. A reclaim may have finished while the pass was in flight, so
an unverifiable debt is first a reason to read the changed manifest again. -/
def refreshManifestFacts (input : PassInput H.Digest) (manifestAtStart : Option (ShardFact H.Digest))
    (refreshed : Option (Option (ShardFact H.Digest))) (d : SessionDir)
    (stored : Option (DebtEntry H.Digest)) : Option (ShardFact H.Digest) :=
  match stored, refreshed with
  | some entry, some now =>
    if (verifyDebt H entry input.machine d input.remoteFacts manifestAtStart).isUnverifiable then now
    else manifestAtStart
  | _, _ => manifestAtStart

/-- Verify the stored debt, resolve the cursor, read and seal, and write the debt anew. The manifest
row is read at the start of the pass and, if the file changed meanwhile, once more as `refreshed`. -/
def processRecordInner (input : PassInput H.Digest) (manifestAtStart : Option (ShardFact H.Digest))
    (refreshed : Option (Option (ShardFact H.Digest))) (cache : Cache H) (source : SourceFile)
    (d : SessionDir) (stored : Option (DebtEntry H.Digest)) :
    Option (RecordOutcome H.Digest) × SessionDir × Cache H :=
  let manifestFact := refreshManifestFacts H input manifestAtStart refreshed d stored
  let unverifiable := stored.any fun entry =>
    (verifyDebt H entry input.machine d input.remoteFacts manifestFact).isUnverifiable
  let (old, cache) :=
    match stored with
    | some entry =>
      let (position, cache) :=
        cursorOrStageCoveredPosition H cache source entry (!unverifiable) d manifestFact
      (some position, cache)
    | none =>
      if input.record.hasProvenance && !input.record.movableRoot then (none, cache)
      else stagePrefixEntry H cache source d none
  match processJsonl H input manifestFact cache source d old unverifiable with
  | (none, d, cache) => (none, d, cache)
  | (some processed, d, cache) =>
    let shards :=
      match stored with
      | some previous =>
        if processed.shard.isNone && !unverifiable then previous.shards else shardFactInDir H d
      | none => shardFactInDir H d
    (some ⟨⟨input.machine, input.record.id, processed.state, shards⟩, processed⟩, d, cache)

end ChatStasher
