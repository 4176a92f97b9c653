import ChatStasher.Collect.Facts
import ChatStasher.Store.ShardList

/-! The activity index of one machine: a row for each session of its stage, derived from the body or
carried from the index before. -/
namespace ChatStasher.Activity

structure MeasuredBody (H : Sha256) where
  shardCount : ℕ
  concatSha256 : H.Digest
  deriving DecidableEq

/-- An index row; `content` is what is analysed from the lines and the observations. -/
structure ActivityRow (H : Sha256) (Provenance Content : Type) where
  sessionId : Ident
  sessionProvenance : Option Provenance
  measuredBody : Option (MeasuredBody H)
  content : Content
  deriving DecidableEq

/-- A line of a session's `shard-facts`, and what the state records of a shard. -/
structure ShardFact (H : Sha256) where
  seq : ℕ
  bytes : ℕ
  sha256 : H.Digest
  deriving DecidableEq

def factFor (H : Sha256) (shard : ℕ × Bytes) : ShardFact H :=
  ⟨shard.1, shard.2.length, H.digest shard.2⟩

def factAt {H : Sha256} (facts : List (ShardFact H)) (seq : ℕ) : Option (ShardFact H) :=
  facts.reverse.find? fun fact => fact.seq = seq

/-- How rows are built, merged and written: every function is pure, and a line that was written reads
as a row that is written alike under any session provenance. -/
structure RowRules (H : Sha256) where
  Content : Type
  Provenance : Type
  Observation : Type
  Text : Type
  Line : Type
  inferHarness : Ident → Option Ident
  harnessIsOpencode : Ident → Bool
  projectSessionBody : Ident → List Bytes → Option Bytes
  textLines : Bytes → List Text
  buildRow : Ident → Ident → Ident → List Text → Content
  mergeDimensions : Content → List Text → Content
  mergeVerifiedObservations : Content → Ident → List Observation → List (ℕ × Bytes) → Content
  unknownTime : Content → String → Content
  observationJson : Observation → Bytes
  toJsonl : ActivityRow H Provenance Content → Line
  parseRow : Line → Option (ActivityRow H Provenance Content)
  parse_toJsonl : ∀ row, ∃ back, parseRow (toJsonl row) = some back ∧
    back.sessionId = row.sessionId ∧ back.measuredBody = row.measuredBody ∧
      ∀ provenance, toJsonl { back with sessionProvenance := provenance } =
        toJsonl { row with sessionProvenance := provenance }

/-- A session directory of the stage. A recorded fact describes the shard it is for, as its writer
updates it with the file. -/
structure StageSession (H : Sha256) where
  id : Ident
  shards : List (ℕ × Bytes)
  facts : Option (List (ShardFact H))
  in_order : shards.Pairwise fun a b => a.1 < b.1
  facts_describe : ∀ lines ∈ facts, ∀ shard ∈ shards, ∀ fact ∈ factAt lines shard.1,
    fact = factFor H shard

section Build
variable {H : Sha256} (rules : RowRules H)

abbrev RowRules.Row : Type := ActivityRow H rules.Provenance rules.Content

/-- What a build reads of the stage; `recordedBodies` is `none` where the manifest is unreadable. -/
structure Stage where
  sessions : List (StageSession H)
  observations : List (Ident × rules.Observation)
  sessionProvenance : List (Ident × rules.Provenance)
  recordedBodies : Option (List (Ident × MeasuredBody H))
  ids_nodup : (sessions.map StageSession.id).Nodup

inductive DuplicateShardPolicy
  | collapse
  | keepAll
  deriving DecidableEq

def DuplicateShardPolicy.collapses : DuplicateShardPolicy → Bool
  | .collapse => true
  | .keepAll => false

def duplicatePolicyToken (policy : DuplicateShardPolicy) : String :=
  if policy.collapses then "collapse" else "keep-all"

structure ActivityIndexSessionState (H : Sha256) where
  shards : List (ShardFact H)
  measured : MeasuredBody H
  observations : Option H.Digest
  deriving DecidableEq

structure ActivityIndexState (H : Sha256) where
  format : ℕ
  policy : String
  sessions : List (Ident × ActivityIndexSessionState H)

def activityIndexStateFormat : ℕ := 3

inductive ActivityIndexBuild
  | fullRebuild
  | incrementalUpdate
  deriving DecidableEq

def resealedBodyWhy : String := "the session was re-sealed after the previous index row " ++
  "measured it, and the new body has been reclaimed from this stage"

def unboundPreviousRowWhy : String := "the previous index row cannot be bound to the body the " ++
  "manifest records for this session, so whether it describes the reclaimed body is unknown"

def reclaimedBodyWhy : String :=
  "the body was reclaimed from this stage and no earlier index row recorded its times"

variable {rules}

def Stage.observationsOf (stage : Stage rules) (sessionId : Ident) : List rules.Observation :=
  (stage.observations.filter fun e => e.1 = sessionId).map Prod.snd

def Stage.provenanceOf (stage : Stage rules) (sessionId : Ident) : Option rules.Provenance :=
  stage.sessionProvenance.reverse.lookup sessionId

/-- The row of a session in an index file, for `none` where there is no file. Lines that do not parse
are skipped and the last row of a session wins. -/
def readPreviousActivityRow (index : Option (List rules.Line)) (sessionId : Ident) :
    Option rules.Row :=
  index.bind fun lines =>
    (lines.filterMap rules.parseRow).reverse.find? fun row => row.sessionId = sessionId

def readActivityIndexState (state : Option (ActivityIndexState H)) :
    Option (ActivityIndexState H) :=
  state.filter fun state => state.format = activityIndexStateFormat

variable (rules)

def observationsFingerprint (observations : List rules.Observation) : Option H.Digest :=
  if observations.isEmpty then none
  else some (H.digest (sealFramedLines (observations.map rules.observationJson)))

def harnessForSession (sessionId : Ident) : Ident :=
  (rules.inferHarness sessionId).getD ['u', 'n', 'k', 'n', 'o', 'w', 'n']

/-- The provenance recorded at collection, else the one the previous row carried. -/
def stampSessionProvenance {rules : RowRules H} (stage : Stage rules) (sessionId : Ident)
    (previous : Option rules.Row) : Option rules.Provenance :=
  stage.provenanceOf sessionId <|> previous.bind fun row => row.sessionProvenance

def measure (H : Sha256) (shards : List (ℕ × Bytes)) : MeasuredBody H :=
  ⟨shards.length, H.digest (shards.flatMap Prod.snd)⟩

/-- What is analysed from a body and its observations. -/
def derivedContent (machine : Ident) (policy : DuplicateShardPolicy) (sessionId : Ident)
    (shards : List (ℕ × Bytes)) (observations : List rules.Observation) : Option rules.Content :=
  let duplicates :=
    if policy.collapses then
      duplicateShardIndicesSequenced (shards.map fun shard => (some shard.1, shard.2))
    else []
  let selected := ((shards.map Prod.snd).zipIdx.filter fun e => e.2 ∉ duplicates).map Prod.fst
  let lines? :=
    if rules.harnessIsOpencode sessionId then
      (rules.projectSessionBody sessionId selected).map rules.textLines
    else some (selected.flatMap rules.textLines)
  lines?.map fun lines =>
    let content := rules.mergeDimensions
      (rules.buildRow sessionId machine (harnessForSession rules sessionId) lines) lines
    if observations.isEmpty then content
    else rules.mergeVerifiedObservations content sessionId observations shards

/-- The recorded identity of every shard, if each agrees with the bytes; nothing otherwise. -/
def recordedShards (session : StageSession H) : List (ShardFact H) :=
  ((session.shards.mapM fun shard => session.facts.bind fun facts =>
    (factAt facts shard.1).filter fun fact => fact = factFor H shard)).getD []

def stateEntry (session : StageSession H) (observations : List rules.Observation) :
    Option (ActivityIndexSessionState H) :=
  let recorded := recordedShards session
  if !recorded.isEmpty && decide (recorded.length = session.shards.length) then
    some ⟨recorded, measure H session.shards, observationsFingerprint rules observations⟩
  else none

variable {rules}

/-- The row of a session with a body, and what the next build may know of it. -/
def derivedRow (machine : Ident) (policy : DuplicateShardPolicy) (stage : Stage rules)
    (session : StageSession H) (previous : Option rules.Row) :
    Option (rules.Row × Option (ActivityIndexSessionState H)) :=
  let observations := stage.observationsOf session.id
  (derivedContent rules machine policy session.id session.shards observations).map fun content =>
    (⟨session.id, stampSessionProvenance stage session.id previous,
      some (measure H session.shards), content⟩, stateEntry rules session observations)

/-- The row of a session without a body: the previous one while it is bound to the body that the
manifest records, otherwise a row that says why its times are unknown. -/
def bodylessRow (machine : Ident) (stage : Stage rules) (sessionId : Ident)
    (previous : Option rules.Row) : rules.Row :=
  let measured := previous.bind fun row => row.measuredBody
  let recorded := stage.recordedBodies.bind fun bodies => bodies.reverse.lookup sessionId
  let carried := previous.filter fun _ => measured.isSome && decide (measured = recorded)
  let reclaimed := recorded.isSome || stage.recordedBodies.isNone
  let empty := rules.buildRow sessionId machine (harnessForSession rules sessionId) []
  let fresh (content : rules.Content) : rules.Row := ⟨sessionId, none, none, content⟩
  let row :=
    match carried with
    | some row => row
    | none =>
      if previous.isSome then
        fresh (rules.unknownTime empty (if measured.isSome && recorded.isSome then resealedBodyWhy
          else unboundPreviousRowWhy))
      else if reclaimed then fresh (rules.unknownTime empty reclaimedBodyWhy)
      else fresh empty
  { row with sessionProvenance := stage.provenanceOf sessionId <|> row.sessionProvenance }

/-- The state entry a session may be carried with, where nothing it depends on has moved. -/
def carryableStateEntry (policy : DuplicateShardPolicy) (stage : Stage rules)
    (session : StageSession H) (previous : Option rules.Row)
    (state : Option (ActivityIndexState H)) : Option (ActivityIndexSessionState H) :=
  state.bind fun state => (state.sessions.lookup session.id).filter fun entry =>
    decide (state.policy = duplicatePolicyToken policy) &&
    ((previous.bind fun row => row.measuredBody).any fun measured => measured = entry.measured) &&
    decide (entry.shards.length = session.shards.length) && !session.shards.isEmpty &&
    (session.facts.any fun facts => (session.shards.zip entry.shards).all fun (shard, recorded) =>
      (factAt facts shard.1).any fun fact =>
        fact.seq = shard.1 && recorded.seq = shard.1 && fact.sha256 = recorded.sha256 &&
          fact.bytes = shard.2.length && recorded.bytes = shard.2.length) &&
    decide (observationsFingerprint rules (stage.observationsOf session.id) = entry.observations)

/-- One session's row and state entry, `none` where its body cannot be assembled. -/
def indexSession (mode : ActivityIndexBuild) (machine : Ident) (policy : DuplicateShardPolicy)
    (stage : Stage rules) (index : Option (List rules.Line)) (state : Option (ActivityIndexState H))
    (session : StageSession H) : Option (rules.Row × Option (ActivityIndexSessionState H)) :=
  let previous := readPreviousActivityRow index session.id
  if session.shards.isEmpty then some (bodylessRow machine stage session.id previous, none)
  else
    let carried :=
      match mode with
      | .incrementalUpdate => carryableStateEntry policy stage session previous state
      | .fullRebuild => none
    match carried, previous with
    | some entry, some row =>
      some ({ row with
        sessionProvenance := stage.provenanceOf session.id <|> row.sessionProvenance }, some entry)
    | _, _ => derivedRow machine policy stage session previous

def Stage.inOrder (stage : Stage rules) : List (StageSession H) :=
  (KeyedList.inKeyOrder (stage.sessions.map fun session => (session.id, session))).map Prod.snd

/-- What a build publishes, and the state it then writes; a failed read publishes nothing. -/
def buildActivityIndex (mode : ActivityIndexBuild) (machine : Ident) (policy : DuplicateShardPolicy)
    (stage : Stage rules) (index : Option (List rules.Line))
    (state : Option (ActivityIndexState H)) : Option (List rules.Line × ActivityIndexState H) :=
  let prior := readActivityIndexState state
  (stage.inOrder.mapM fun session =>
    (indexSession mode machine policy stage index prior session).map (session.id, ·)).map
    fun rows => (rows.map fun e => rules.toJsonl e.2.1,
      { format := activityIndexStateFormat
        policy := duplicatePolicyToken policy
        sessions := rows.filterMap fun e => e.2.2.map (e.1, ·) })

end Build

end ChatStasher.Activity
