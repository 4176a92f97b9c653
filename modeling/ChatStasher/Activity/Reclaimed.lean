import ChatStasher.Activity.TimeAnalysis
import ChatStasher.Reclaim.Manifest

/-! The activity index over runs that seal shards, reclaim bodies and build: when its rows speak for
every shard that was ever sealed. -/
namespace ChatStasher.Activity

/-- One session: every shard ever sealed for it, and those that are on the stage. Its facts are of
shards that were sealed. -/
structure SealedSession (H : Sha256) where
  id : Ident
  sealed : List (ℕ × Bytes)
  staged : List (ℕ × Bytes)
  facts : Option (List (ShardFact H))
  capturedStart : Option CapturedStart
  in_order : sealed.Pairwise fun a b => a.1 < b.1
  staged_suffix : staged <:+ sealed
  facts_known : ∀ lines ∈ facts, ∀ fact ∈ lines, ∃ shard ∈ sealed, fact = factFor H shard

namespace SealedSession
variable {H : Sha256}

lemma eq_of_seq (session : SealedSession H) {a b : ℕ × Bytes} (ha : a ∈ session.sealed)
    (hb : b ∈ session.sealed) (hseq : a.1 = b.1) : a = b := by
  have hnodup : (session.sealed.map Prod.fst).Nodup :=
    (List.pairwise_map.mpr session.in_order).imp fun h => Nat.ne_of_lt h
  exact List.inj_on_of_nodup_map hnodup ha hb hseq

/-- The session as a build finds it. -/
def onStage (session : SealedSession H) : StageSession H where
  id := session.id
  shards := session.staged
  facts := session.facts
  in_order := session.in_order.sublist session.staged_suffix.sublist
  facts_describe lines hlines shard hshard fact hfact := by
    have hmem := List.mem_reverse.mp (List.mem_of_find?_eq_some hfact)
    have hseq : fact.seq = shard.1 := by simpa using List.find?_some hfact
    obtain ⟨other, hother, rfl⟩ := session.facts_known lines hlines fact hmem
    rw [session.eq_of_seq hother (session.staged_suffix.subset hshard) hseq]

/-- A session directory without a body. -/
def created (H : Sha256) (id : Ident) (capturedStart : Option CapturedStart) : SealedSession H where
  id
  sealed := []
  staged := []
  facts := none
  capturedStart
  in_order := List.Pairwise.nil
  staged_suffix := List.suffix_refl _
  facts_known := nofun

/-- Seal one shard under a sequence above all earlier ones; its fact may fail to be recorded. -/
def sealShard (session : SealedSession H) (seq : ℕ) (bytes : Bytes) (recorded : Bool) :
    SealedSession H :=
  if hseq : ∀ shard ∈ session.sealed, shard.1 < seq then
    { session with
      sealed := session.sealed ++ [(seq, bytes)]
      staged := session.staged ++ [(seq, bytes)]
      facts :=
        if recorded then some (session.facts.getD [] ++ [factFor H (seq, bytes)])
        else session.facts
      in_order := List.pairwise_append.mpr ⟨session.in_order, List.pairwise_singleton _ _,
        fun a ha b hb => by
          obtain rfl := List.mem_singleton.mp hb
          exact hseq a ha⟩
      staged_suffix := by
        obtain ⟨before, hbefore⟩ := session.staged_suffix
        exact ⟨before, by rw [← List.append_assoc, hbefore]⟩
      facts_known := by
        have hold : ∀ lines ∈ session.facts, ∀ fact ∈ lines,
            ∃ shard ∈ session.sealed ++ [(seq, bytes)], fact = factFor H shard := by
          intro lines hlines fact hfact
          obtain ⟨shard, hshard, heq⟩ := session.facts_known lines hlines fact hfact
          exact ⟨shard, List.mem_append_left _ hshard, heq⟩
        intro lines hlines fact hfact
        split at hlines
        · obtain rfl := Option.some.inj hlines
          rcases List.mem_append.mp hfact with hfact | hfact
          · cases hfacts : session.facts with
            | none => simp [hfacts] at hfact
            | some old =>
              rw [hfacts, Option.getD_some] at hfact
              exact hold old hfacts fact hfact
          · obtain rfl := List.mem_singleton.mp hfact
            exact ⟨_, List.mem_append_right _ List.mem_cons_self, rfl⟩
        · exact hold lines hlines fact hfact }
  else session

/-- Remove the leading `removed` shards from the stage; the facts leave with the last of them. -/
def reclaim (session : SealedSession H) (removed : ℕ) : SealedSession H :=
  { session with
    staged := session.staged.drop removed
    facts := if 0 < removed ∧ session.staged.length ≤ removed then none else session.facts
    staged_suffix := (List.drop_suffix _ _).trans session.staged_suffix
    facts_known := by
      intro lines hlines
      split at hlines
      · cases hlines
      · exact session.facts_known lines hlines }

@[simp] lemma onStage_id (session : SealedSession H) : session.onStage.id = session.id := rfl

@[simp] lemma onStage_shards (session : SealedSession H) :
    session.onStage.shards = session.staged := rfl

@[simp] lemma sealShard_id (session : SealedSession H) (seq : ℕ) (bytes : Bytes) (recorded : Bool) :
    (session.sealShard seq bytes recorded).id = session.id := by
  rw [sealShard]
  split <;> rfl

@[simp] lemma reclaim_id (session : SealedSession H) (removed : ℕ) :
    (session.reclaim removed).id = session.id := rfl

lemma sealShard_cases (session : SealedSession H) (seq : ℕ) (bytes : Bytes) (recorded : Bool) :
    session.sealShard seq bytes recorded = session ∨
      ((session.sealShard seq bytes recorded).sealed = session.sealed ++ [(seq, bytes)] ∧
        (session.sealShard seq bytes recorded).staged = session.staged ++ [(seq, bytes)]) := by
  rw [sealShard]
  split
  · exact Or.inr ⟨rfl, rfl⟩
  · exact Or.inl rfl

end SealedSession

section Manifest
variable (H : Sha256)

/-- What a manifest row says of a body. -/
def bodyFact (shards : List (ℕ × Bytes)) : ChatStasher.ShardFact H.Digest where
  shardCount := shards.length
  concatBytes := (shards.flatMap Prod.snd).length
  concatSha256 := H.digest (shards.flatMap Prod.snd)
  shardIdentities := shards.map fun shard => fingerprint H shard.1 shard.2

/-- The summary of a session's body on the stage. -/
def manifestRow (machine : Ident) (sealedAtUnix : ℤ) (session : SealedSession H) :
    SessionManifest H.Digest where
  sessionId := session.id
  machine
  shardCount := session.staged.length
  concatBytes := (session.staged.flatMap Prod.snd).length
  concatSha256 := H.digest (session.staged.flatMap Prod.snd)
  shardIdentities := session.staged.map fun shard => fingerprint H shard.1 shard.2
  sealedAtUnix
  capturedStart := session.capturedStart

/-- The summaries of the sessions that have a body on the stage. -/
def generateManifest (machine : Ident) (sealedAtUnix : ℤ) (sessions : List (SealedSession H)) :
    List (SessionManifest H.Digest) :=
  ((sessions.filter fun session => !session.staged.isEmpty).map
    (manifestRow H machine sealedAtUnix)).insertionSort fun a b => a.sessionId ≤ b.sessionId

variable {H}

def stageManifestBodies (rows : Option (List (SessionManifest H.Digest))) :
    List (Ident × MeasuredBody H) :=
  ((rows.getD []).filter fun row => 0 < row.shardCount).map fun row =>
    (row.sessionId, ⟨row.shardCount, row.concatSha256⟩)

end Manifest

section Site
variable {H : Sha256} (reader : SessionReader H)

/-- One machine's stage with its manifest, its index and the state of the last build. -/
structure ReclaimSite where
  sessions : List (SealedSession H)
  observations : List (Ident × reader.Observation)
  sessionProvenance : List (Ident × reader.Provenance)
  manifest : Option (List (SessionManifest H.Digest))
  index : Option (List reader.Line)
  state : Option (ActivityIndexState H)
  ids_nodup : (sessions.map SealedSession.id).Nodup

/-- A reclaim removes of each session as many leading shards as it has proven; of all sessions alike it
first refreshes the manifest. -/
inductive ReclaimAction
  | newSession (sessionId : Ident) (capturedStart : Option CapturedStart)
  | sealShard (sessionId : Ident) (seq : ℕ) (bytes : Bytes) (recorded : Bool)
  | reclaim (sealedAtUnix : ℤ) (removed : Ident → ℕ)
  | observe (observations : List (Ident × reader.Observation))
      (sessionProvenance : List (Ident × reader.Provenance))
  | build (mode : ActivityIndexBuild) (policy : DuplicateShardPolicy) (cut : BuildCut)

abbrev SessionReader.readRow (index : Option (List reader.Line)) (sessionId : Ident) :
    Option reader.rules.Row := @readPreviousActivityRow H reader.rules index sessionId

variable {reader}

abbrev ReclaimSite.previousRow (s : ReclaimSite reader) (sessionId : Ident) :
    Option reader.rules.Row := reader.readRow s.index sessionId

def ReclaimSite.stage (s : ReclaimSite reader) : Stage reader.rules where
  sessions := s.sessions.map SealedSession.onStage
  observations := s.observations
  sessionProvenance := s.sessionProvenance
  recordedBodies := some (stageManifestBodies s.manifest)
  ids_nodup := by
    rw [List.map_map]
    exact s.ids_nodup

def ReclaimSite.newSession (s : ReclaimSite reader) (sessionId : Ident)
    (capturedStart : Option CapturedStart) : ReclaimSite reader :=
  if h : sessionId ∈ s.sessions.map SealedSession.id then s
  else
    { s with
      sessions := s.sessions ++ [.created H sessionId capturedStart]
      ids_nodup := by
        rw [List.map_append, List.nodup_append']
        exact ⟨s.ids_nodup, List.nodup_singleton _, by simpa [SealedSession.created] using h⟩ }

/-- Every session through an operation that keeps its id. -/
def ReclaimSite.mapSessions (s : ReclaimSite reader) (f : SealedSession H → SealedSession H)
    (hf : ∀ session, (f session).id = session.id) : ReclaimSite reader :=
  { s with
    sessions := s.sessions.map f
    ids_nodup := by
      rw [List.map_map, show SealedSession.id ∘ f = SealedSession.id from funext hf]
      exact s.ids_nodup }

def reclaimStep (machine : Ident) (s : ReclaimSite reader) :
    ReclaimAction reader → ReclaimSite reader
  | .newSession sessionId capturedStart => s.newSession sessionId capturedStart
  | .sealShard sessionId seq bytes recorded =>
    s.mapSessions (fun session =>
        if session.id = sessionId then session.sealShard seq bytes recorded else session)
      fun session => by split <;> simp
  | .reclaim sealedAtUnix removed =>
    { s.mapSessions (fun session => session.reclaim (removed session.id)) fun _ => rfl with
      manifest := some (refreshManifest s.manifest (generateManifest H machine sealedAtUnix
        s.sessions)) }
  | .observe observations sessionProvenance => { s with observations, sessionProvenance }
  | .build mode policy cut =>
    match cut, buildActivityIndex mode machine policy s.stage s.index s.state with
    | .beforeState, some (index, _) => { s with index := some index }
    | .complete, some (index, state) => { s with index := some index, state := some state }
    | _, _ => s

variable (reader) in
def ReclaimSite.empty : ReclaimSite reader := ⟨[], [], [], none, none, none, List.nodup_nil⟩

/-- What a build may say of a session is of its whole body: every shard ever sealed is on the stage; or
none is, and the index row bound to the manifest's record is bound to the record of them all. -/
def SealedSession.Whole (session : SealedSession H) (manifest : Option (List (SessionManifest
    H.Digest))) (previous : Option reader.rules.Row) : Prop :=
  session.staged = session.sealed ∨ session.staged = [] ∧
    ∀ row ∈ previous, ∀ measured ∈ row.measuredBody,
      (stageManifestBodies manifest).reverse.lookup session.id = some measured →
        measured = measure H session.sealed

/-- No build publishes while an earlier reclaim has left it a part of a body only. -/
def BuildsWhole (s : ReclaimSite reader) : ReclaimAction reader → Prop
  | .build _ _ cut => cut ≠ .beforeIndex → ∀ session ∈ s.sessions,
      reader.harnessIsOpencode session.id = false →
        session.Whole s.manifest (s.previousRow session.id)
  | _ => True

/-- A published row either declares a gap or has the times of every shard ever sealed; one carried for
a session without a body was measured from exactly the shards that the manifest records. -/
structure RowTruthful (s : ReclaimSite reader) (session : SealedSession H) (row : reader.rules.Row) :
    Prop where
  times : row.content.1.timeSource.declaresGap = false →
    row.content.1.Agrees (reader.bodyTimes session.id session.sealed)
  carried : session.staged = [] → ∀ measured, row.measuredBody = some measured →
    ∃ shards, measured = measure H shards ∧ row.content.1 = reader.bodyTimes session.id shards ∧
      RowSays (s.manifest.getD []) session.id (bodyFact H shards)

def PublishesTruth (machine : Ident) (s : ReclaimSite reader) : ReclaimAction reader → Prop
  | .build mode policy cut => cut ≠ .beforeIndex → ∀ index state,
      buildActivityIndex mode machine policy s.stage s.index s.state = some (index, state) →
        ∀ session ∈ s.sessions, reader.harnessIsOpencode session.id = false → ∀ row,
          reader.readRow (some index) session.id = some row → RowTruthful s session row
  | _ => True

end Site

end ChatStasher.Activity
