import ChatStasher.Reclaim.Stage

/-! One machine with its stage and the archives it pushes to, under writes, pushes and reclaims. -/
namespace ChatStasher

/-- One pushed snapshot: the files it stores below each session directory. -/
structure Snapshot where
  id : Ident
  sessions : List (SessionKey × List StoredFile)

def takeSnapshot {D : Type} (stage : Stage D) (id : Ident) : Snapshot :=
  ⟨id, stage.sessions.map fun key => (key, (stage.dir key).files)⟩

/-- What `bucket_shard_path` takes for a shard: any file name with the suffix. -/
def isShardName (name : FileName) : Bool := decide (shardSuffix <:+ name)

def storeSeqOf (name : FileName) : ℕ := (parseShardSeq name).getD u64Max

variable (H : Sha256)

/-- One session as the newest snapshot holds it, `none` if it holds no shard of it. -/
def sessionBackedUp (held : SessionKey × List StoredFile) : Option (Candidate H.Digest) :=
  let shards := (held.2.filter fun f => isShardName f.path.name).insertionSort fun a b =>
    storeSeqOf a.path.name ≤ storeSeqOf b.path.name
  if shards = [] then none
  else
    let concat := (shards.map StoredFile.bytes).flatten
    some ⟨held.1, shards.length, concat.length, H.digest concat⟩

/-- `read_latest_per_machine` of an archive only this machine pushes to. -/
def readLatestPerMachine (snapshots : List Snapshot) : List (MachineMerge H.Digest) :=
  (snapshots.head?.map fun newest =>
    ⟨newest.id, newest.sessions.filterMap (sessionBackedUp H)⟩).toList

/-- The machine's stage, and each destination's snapshots, newest first. -/
structure Site where
  stage : Stage H.Digest
  archive : Ident → List Snapshot

def Site.empty : Site H := ⟨.empty, fun _ => []⟩

/-- A destination as a reclaim finds it: its health, and the error or the warnings of the read. -/
structure Declared where
  name : Ident
  health : DestinationHealth
  read : Except String (List String)

structure ReclaimRun where
  declared : List Declared
  apply : Bool
  mirror : Option MirrorHoldback
  mapsPersist : Bool
  now : ℤ

inductive SiteAction
  | write (key : SessionKey) (bucketCap : ℕ) (source : ShardSource)
  | push (dest : Ident) (stored : Option Ident)
  | reclaim (run : ReclaimRun)

variable {H}

/-- The destinations handed to a reclaim, each with what its archive answers. -/
def Site.named (s : Site H) (run : ReclaimRun) : List (NamedStore H.Digest) :=
  run.declared.map fun dest =>
    ⟨dest.name, dest.health,
      dest.read.map fun warnings => ⟨readLatestPerMachine H (s.archive dest.name), warnings⟩⟩

def Site.reclaimStage (s : Site H) (run : ReclaimRun) :
    Option (ReclaimReport H.Digest) × Stage H.Digest :=
  ChatStasher.reclaimStage H s.stage (s.named run) run.apply run.mirror run.mapsPersist run.now

/-- A push that fails stores nothing. -/
def siteStep (s : Site H) : SiteAction → Site H
  | .write key bucketCap source =>
    { s with stage := s.stage.setDir key (writeShardInDir H (s.stage.dir key) bucketCap source).2 }
  | .push _ none => s
  | .push dest (some id) =>
    { s with archive := Function.update s.archive dest (takeSnapshot s.stage id :: s.archive dest) }
  | .reclaim run => { s with stage := (s.reclaimStage run).2 }

def Site.shards (s : Site H) (key : SessionKey) : List (ℕ × Bytes) :=
  (sortedEntries (s.stage.dir key)).map fun e => (e.1, e.2.bytes)

/-- One session sealed once, pushed, and reclaimed against the destination's newest snapshot. -/
def sealPushReclaim (id : Ident) (body : Bytes) : List SiteAction :=
  [.write ⟨['m'], ['s']⟩ 20 (.store body .collect false), .push ['d'] (some id),
    .reclaim ⟨[⟨['d'], .healthy, .ok []⟩], true, none, true, 0⟩]

end ChatStasher

/-! What holds of a site in every run, and what one step does to a session's shards and row. -/
namespace ChatStasher

variable {H : Sha256}

/-- The stage is sound and every session directory was written by the shard writer alone. -/
structure SiteSound (s : Site H) : Prop where
  stage : StageSound s.stage
  holds : ∀ key, ∃ shards, Holds (s.stage.dir key) shards

/-- The reclaim gets past every check, so that it deletes. -/
def Site.Deletes (s : Site H) (run : ReclaimRun) : Prop :=
  run.apply = true ∧ run.mapsPersist = true ∧
    (proveCandidates ((surveyCandidates H s.stage).map SurveyedSession.expectation) (s.named run)
      run.mirror).refused = false

instance Site.Deletes.decidable (s : Site H) (run : ReclaimRun) : Decidable (s.Deletes run) :=
  inferInstanceAs (Decidable (_ ∧ _))

lemma Holds.withoutSealed {d : SessionDir} {shards : List (ℕ × Bytes)} (h : Holds d shards) :
    Holds d.withoutSealed (shards.filter fun p => ¬ p.1 < 10 ^ 6) := by
  refine ⟨?_, h.sorted.sublist List.filter_sublist,
    fun p hp => h.pos p (List.mem_of_mem_filter hp), ?_⟩
  · have hmap : (d.files.filter fun f => parseShardSeq f.path.name = none).map
        (fun f => (shardNumber f.path.name, f.bytes)) =
        (d.files.map fun f => (shardNumber f.path.name, f.bytes)).filter
          fun p => p.1.filter (fun seq => decide (seq < 10 ^ 6)) = none := by
      rw [List.filter_map]
      refine congrArg _ (List.filter_congr fun f _ => ?_)
      simp only [Function.comp_apply, parseShardSeq_eq_number]
    rw [SessionDir.withoutSealed, hmap, h.files, List.filter_map]
    refine congrArg _ (List.filter_congr fun p _ => ?_)
    simp [Option.filter_eq_none_iff]
  · rcases h.counter with ⟨hc, rfl⟩ | ⟨seq, hc, hle⟩
    · exact Or.inl ⟨hc, rfl⟩
    · exact Or.inr ⟨seq, hc, fun p hp => hle p (List.mem_of_mem_filter hp)⟩

lemma Holds.write_exists {d : SessionDir} {shards : List (ℕ × Bytes)} (h : Holds d shards)
    (cap : ℕ) (source : ShardSource) :
    ∃ shards', Holds (writeShardInDir H d cap source).2 shards' := by
  rcases h.writeShard H cap source with ⟨-, -, hd, -⟩ | ⟨-, hw⟩
  · exact ⟨shards, hd.symm ▸ h⟩
  · rw [hw]
    exact ⟨_, h.sealNext cap source.raw⟩

lemma SiteSound.empty : SiteSound (.empty H) :=
  ⟨StageSound.empty, fun _ => ⟨[], Holds.empty⟩⟩

lemma SiteSound.reclaimStage {s : Site H} (h : SiteSound s) (run : ReclaimRun) :
    (¬ s.Deletes run ∧ (s.reclaimStage run).2 = s.stage) ∨
      (s.Deletes run ∧ ClearedFor (fun _ => True) s.stage (s.reclaimStage run).2) := by
  have hspec := reclaimStage_spec h.stage (s.named run) run.apply run.mirror run.mapsPersist run.now
  by_cases hdeletes : s.Deletes run
  · exact Or.inr ⟨hdeletes, Eq.mp (if_pos hdeletes) hspec⟩
  · exact Or.inl ⟨hdeletes, Eq.mp (if_neg hdeletes) hspec⟩

lemma mem_takeSnapshot {stage : Stage H.Digest} {id : Ident}
    {held : SessionKey × List StoredFile} (h : held ∈ (takeSnapshot stage id).sessions) :
    held.2 = (stage.dir held.1).files := by
  obtain ⟨key, -, rfl⟩ := List.mem_map.mp h
  rfl

lemma sessionBackedUp_spec {held : SessionKey × List StoredFile} {obs : Candidate H.Digest}
    (h : sessionBackedUp H held = some obs) :
    ∃ files : List StoredFile, files.Perm (held.2.filter fun f => isShardName f.path.name) ∧
      obs.shardCount = files.length ∧ obs.sha256 = H.digest (files.map StoredFile.bytes).flatten := by
  simp only [sessionBackedUp] at h
  split at h
  next => cases h
  next =>
    rw [← Option.some.inj h]
    exact ⟨_, List.perm_insertionSort _ _, rfl, rfl⟩

/-- The newest of the snapshots holds the candidate's session with the candidate's triple. -/
def NewestHolds (snapshots : List Snapshot) (cand : Candidate H.Digest) : Prop :=
  ∃ newest older, snapshots = newest :: older ∧ ∃ held ∈ newest.sessions, held.1 = cand.key ∧
    ∃ obs, sessionBackedUp H held = some obs ∧ SameTriple obs cand

section Consulted
variable {snapshots : List Snapshot} {dest : NamedStore H.Digest} {read : Except String (List String)}
  {map : List (SessionKey × Candidate H.Digest)} {proofs : List (Ident × Ident)}

lemma consult_ready
    (harchive : dest.archive = read.map fun warnings => ⟨readLatestPerMachine H snapshots, warnings⟩)
    (hready : consultDestination dest = .ready map proofs) :
    read = .ok [] ∧
      map = KeyedList.lastWins ((readLatestPerMachine H snapshots).flatMap fun m =>
        m.sessions.map fun s => (s.key, s)) ∧
      proofs = KeyedList.lastWins ((readLatestPerMachine H snapshots).flatMap fun m =>
        m.sessions.map fun s => (s.key.machine, m.snapshotId)) := by
  cases read with
  | error error => simp [consultDestination, harchive, Except.map] at hready
  | ok warnings =>
    simp only [consultDestination, harchive, Except.map] at hready
    split at hready
    next => cases hready
    next hcomplete =>
      obtain ⟨rfl, rfl⟩ := DestinationRead.ready.inj hready
      refine ⟨?_, rfl, rfl⟩
      simpa [ReadAllReport.complete, List.isEmpty_iff] using hcomplete

lemma mem_readLatestPerMachine {m : MachineMerge H.Digest}
    (h : m ∈ readLatestPerMachine H snapshots) :
    ∃ newest older, snapshots = newest :: older ∧
      m = ⟨newest.id, newest.sessions.filterMap (sessionBackedUp H)⟩ := by
  cases snapshots with
  | nil => simp [readLatestPerMachine] at h
  | cons newest older => exact ⟨newest, older, rfl, by simpa [readLatestPerMachine] using h⟩

lemma mem_of_lookup_lastWins {α β : Type*} [DecidableEq α] [BEq α] [LawfulBEq α]
    {l : List (α × β)} {a : α} {b : β}
    (h : (KeyedList.lastWins l).lookup a = some b) : (a, b) ∈ l := by
  obtain ⟨l₁, l₂, hsplit, -⟩ := List.lookup_eq_some_iff.mp h
  exact KeyedList.mem_of_mem_lastWins (hsplit ▸ List.mem_append_right l₁ List.mem_cons_self)

/-- A destination that proves its candidates was read to the end, and its newest snapshot holds
each of them. -/
lemma ProvesAll.newestHolds {candidates : List (Candidate H.Digest)}
    (h : ProvesAll candidates dest)
    (harchive : dest.archive = read.map fun warnings => ⟨readLatestPerMachine H snapshots, warnings⟩) :
    read = .ok [] ∧ ∀ cand ∈ candidates, NewestHolds snapshots cand := by
  obtain ⟨map, proofs, hready, hproved⟩ := h
  obtain ⟨hread, rfl, -⟩ := consult_ready harchive hready
  refine ⟨hread, fun cand hcand => ?_⟩
  obtain ⟨obs, hlookup, htriple⟩ := hproved cand hcand
  obtain ⟨m, hm, hsession⟩ := List.mem_flatMap.mp (mem_of_lookup_lastWins hlookup)
  obtain ⟨session, hin, heq⟩ := List.mem_map.mp hsession
  obtain ⟨hkey, rfl⟩ := Prod.mk.inj heq
  obtain ⟨newest, older, rfl, rfl⟩ := mem_readLatestPerMachine hm
  obtain ⟨held, hheld, hback⟩ := List.mem_filterMap.mp hin
  refine ⟨newest, older, rfl, held, hheld, ?_, session, hback, htriple⟩
  rw [← hkey]
  simp only [sessionBackedUp] at hback
  split at hback
  next => cases hback
  next => rw [← Option.some.inj hback]

end Consulted

lemma Site.Deletes.exists_consulted {s : Site H} {run : ReclaimRun} (h : s.Deletes run) :
    ∃ declared ∈ run.declared, declared.health.isDegraded = false := by
  obtain ⟨dest, hdest, hhealth⟩ := (proveCandidates_passes.mp h.2.2).1
  obtain ⟨declared, hdeclared, rfl⟩ := List.mem_map.mp hdest
  exact ⟨declared, hdeclared, hhealth⟩

theorem Site.Deletes.newest_holds {s : Site H} {run : ReclaimRun} (h : s.Deletes run)
    (hs : SiteSound s) {declared : Declared} (hdeclared : declared ∈ run.declared)
    (hhealth : declared.health.isDegraded = false) {key : SessionKey} (hne : s.shards key ≠ []) :
    ∃ newest older, s.archive declared.name = newest :: older ∧
      ∃ held ∈ newest.sessions, held.1 = key ∧ ∃ obs, sessionBackedUp H held = some obs ∧
        SameTriple obs (surveySession H s.stage key).expectation := by
  have hbody : sortedEntries (s.stage.dir key) ≠ [] := fun hnil => hne (by rw [Site.shards, hnil]; rfl)
  have hcand : (surveySession H s.stage key).expectation ∈
      (surveyCandidates H s.stage).map SurveyedSession.expectation :=
    List.mem_map_of_mem (mem_surveyCandidates.mpr ⟨key, hs.stage.mem_sessions hbody, hbody, rfl⟩)
  obtain ⟨-, hall⟩ := ((proveCandidates_passes.mp h.2.2).2.1 _ (List.mem_map_of_mem hdeclared)
    hhealth).newestHolds rfl
  exact hall _ hcand

lemma SiteSound.setDir {s : Site H} (h : SiteSound s) (key : SessionKey) {d : SessionDir}
    (hd : ∃ shards, Holds d shards) : SiteSound { s with stage := s.stage.setDir key d } := by
  refine ⟨h.stage.setDir key d, fun key' => ?_⟩
  dsimp only
  rw [s.stage.dir_setDir]
  split
  next => exact hd
  next => exact h.holds key'

theorem siteStep_sound {s : Site H} (h : SiteSound s) (a : SiteAction) :
    SiteSound (siteStep s a) := by
  cases a with
  | write key bucketCap source =>
    obtain ⟨shards, hd⟩ := h.holds key
    exact h.setDir key (hd.write_exists bucketCap source)
  | push dest stored => cases stored <;> exact ⟨h.stage, h.holds⟩
  | reclaim run =>
    rcases h.reclaimStage run with ⟨-, hsame⟩ | ⟨-, hcleared⟩
    · simp only [siteStep, hsame]
      exact ⟨h.stage, h.holds⟩
    · refine ⟨hcleared.sound, fun key => ?_⟩
      obtain ⟨shards, hd⟩ := h.holds key
      simp only [siteStep, (hcleared.cleared key trivial).1]
      exact ⟨_, hd.withoutSealed⟩

theorem site_runs_sound (actions : List SiteAction) :
    SiteSound (StepRun.exec siteStep (.empty H) actions) := by
  have hstep : ∀ (s : Site H) (a : SiteAction), SiteSound s → SiteSound (siteStep s a) :=
    fun _ a h => siteStep_sound h a
  exact StepRun.invariant_all hstep SiteSound.empty actions

end ChatStasher
