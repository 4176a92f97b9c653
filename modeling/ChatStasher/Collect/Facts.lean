import ChatStasher.Store.Names

/-! Shard facts, and how a stored debt discharges itself against stage, manifest and archive. -/
namespace ChatStasher

/-- The identity of one sealed shard. -/
structure ShardFingerprint (D : Type) where
  sequence : ℕ
  bytes : ℕ
  sha256 : D
  deriving DecidableEq

/-- The evidence a cursor produces on demand: the sealed shard set it is accountable for. -/
structure ShardFact (D : Type) where
  shardCount : ℕ
  concatBytes : ℕ
  concatSha256 : D
  shardIdentities : List (ShardFingerprint D)
  deriving DecidableEq

/-- A byte-offset read position in a source. -/
structure OffsetEntry (D : Type) where
  offset : ℕ
  prefixLen : ℕ
  prefixSha256 : D
  compressed : Bool
  deriving DecidableEq

abbrev Ident := List Char

/-- One source's outstanding debt to one destination. -/
structure DebtEntry (D : Type) where
  machine : Ident
  sessionId : Ident
  cursor : OffsetEntry D
  shards : ShardFact D
  deriving DecidableEq

inductive DebtVerdict
  | owedOnStage
  | settledInArchive
  | settledReclaimed
  | unverifiable (reason : String)
  deriving DecidableEq

def DebtVerdict.isUnverifiable : DebtVerdict → Bool
  | unverifiable _ => true
  | _ => false

variable (H : Sha256)

/-- The bodies of the sealed shards a reader sees, in sequence order. -/
def stageSealedShards (d : SessionDir) : List Bytes := (sortedEntries d).map fun e => e.2.bytes

def fingerprint (seq : ℕ) (body : Bytes) : ShardFingerprint H.Digest :=
  ⟨seq, body.length, H.digest body⟩

/-- Observe what the stage currently holds in one shard directory. -/
def shardFactInDir (d : SessionDir) : ShardFact H.Digest where
  shardCount := (sortedEntries d).length
  concatBytes := ((sortedEntries d).map fun e => e.2.bytes.length).sum
  concatSha256 := H.digest (stageSealedShards d).flatten
  shardIdentities := (sortedEntries d).map fun e => fingerprint H e.1 e.2.bytes

section Facts
variable {D : Type} [DecidableEq D]

/-- Sequences strictly increase from above `previous`, and none is 0. -/
def sequencesIncrease : ℕ → List (ShardFingerprint D) → Bool
  | _, [] => true
  | previous, shard :: rest =>
    if shard.sequence = 0 ∨ shard.sequence ≤ previous then false
    else sequencesIncrease shard.sequence rest

/-- `valid_shard_fact`; the digests are digests by their type. -/
def validShardFact (fact : ShardFact D) : Bool :=
  if fact.shardCount ≠ fact.shardIdentities.length ∨ fact.shardIdentities = [] then false
  else
    sequencesIncrease 0 fact.shardIdentities &&
      ((fact.shardIdentities.map ShardFingerprint.bytes).sum == fact.concatBytes &&
        (fact.shardCount != 1 ||
          fact.shardIdentities.head?.any fun shard => shard.sha256 == fact.concatSha256))

def sameShardPayload (left right : ShardFact D) : Bool :=
  left.shardCount == right.shardCount && left.concatBytes == right.concatBytes &&
    left.concatSha256 == right.concatSha256

def archiveContainsShards (archive debt : ShardFact D) : Bool :=
  if debt.shardIdentities = [] ∨ archive.shardIdentities = [] ∨ validShardFact archive = false ∨
      validShardFact debt = false then false
  else debt.shardIdentities.all fun expected => archive.shardIdentities.contains expected

/-- Whether the retained manifest row proves the debt was settled with the shard set the
reclaim's proof covered. -/
def retainedSummaryCovers (fact debt : ShardFact D) : Bool :=
  sameShardPayload fact debt || archiveContainsShards fact debt

end Facts

/-- Compare the recorded fingerprints with the files, pair by pair: whether all agree, and how many
bytes they cover. -/
def matchFingerprints :
    List (ℕ × StoredFile) → List (ShardFingerprint H.Digest) → ℕ → Option ℕ
  | (sequence, file) :: entries, shard :: rest, covered =>
    if sequence ≠ shard.sequence then none
    else if file.bytes.length ≠ shard.bytes ∨ H.digest file.bytes ≠ shard.sha256 then none
    else matchFingerprints entries rest (covered + shard.bytes)
  | _, _, covered => some covered

/-- The per-shard half of the coverage test; `none` sends the caller to the concatenation. -/
def dirCoversByFingerprints (entries : List (ℕ × StoredFile)) (fact : ShardFact H.Digest) :
    Option Bool :=
  if fact.shardIdentities.length ≠ fact.shardCount then none
  else if validShardFact fact = false then none
  else
    match matchFingerprints H entries fact.shardIdentities 0 with
    | none => some false
    | some covered => if covered ≠ fact.concatBytes then none else some true

/-- Does the directory still hold, unmodified, everything `fact` accounts for? -/
def dirCovers (d : SessionDir) (fact : ShardFact H.Digest) : Bool :=
  if (sealedShardEntries d).length < fact.shardCount then false
  else if fact.concatBytes = 0 then H.digest [] == fact.concatSha256
  else
    match dirCoversByFingerprints H (sortedEntries d) fact with
    | some covers => covers
    | none =>
      let covered := (stageSealedShards d).flatten.take fact.concatBytes
      if covered.length ≠ fact.concatBytes then false
      else H.digest covered == fact.concatSha256

/-- Check if a stored debt can be discharged without consulting the destination's archive. -/
def debtSettledLocally (entry : DebtEntry H.Digest) (machine : Ident) (d : SessionDir)
    (manifestFact : Option (ShardFact H.Digest)) : Option DebtVerdict :=
  if entry.machine ≠ machine then
    some (.unverifiable "cursor was written for a different machine partition")
  else if dirCovers H d entry.shards then some .owedOnStage
  else if sealedShardEntries d = [] ∧
      manifestFact.any (fun fact => retainedSummaryCovers fact entry.shards) then
    some .settledReclaimed
  else none

/-- Discharge a stored cursor against the authorities that can speak for this destination. The
archive's facts are `none` when it cannot be consulted, `some none` when it lacks the session. -/
def verifyDebt (entry : DebtEntry H.Digest) (machine : Ident) (d : SessionDir)
    (remoteFacts : Option (Option (ShardFact H.Digest)))
    (manifestFact : Option (ShardFact H.Digest)) : DebtVerdict :=
  match debtSettledLocally H entry machine d manifestFact with
  | some verdict => verdict
  | none =>
    match remoteFacts with
    | none =>
      .unverifiable "shards left the stage and the destination archive cannot be consulted"
    | some (some observed) =>
      if entry.shards.shardIdentities = [] ∧ sameShardPayload observed entry.shards then
        .settledInArchive
      else if archiveContainsShards observed entry.shards then .settledInArchive
      else
        .unverifiable "destination archive holds a different shard set than the cursor claims"
    | some none =>
      .unverifiable "destination archive does not hold the shard set the cursor claims"

end ChatStasher
