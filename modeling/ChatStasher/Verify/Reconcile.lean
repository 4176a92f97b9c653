import ChatStasher.Archive.Site

/-! L3: the expected manifest against what all snapshots of an archive hold together. -/
namespace ChatStasher

/-- Where an expectation comes from: the bodies on the stage, or the summary retained of them. -/
inductive ExpectationBasis
  | derivedFromStageBody
  | storedManifest
  deriving DecidableEq

/-- One session's expected digest triple, or why there is none to compare with. -/
structure SessionExpectation (D : Type) where
  key : SessionKey
  triple : Except String (Candidate D)
  basis : ExpectationBasis

inductive SessionOutcome (D : Type)
  | isMatch
  | missingInArchive
  | absentFromMirrorCopy
  | shardCountMismatch (expected observed : ℕ)
  | byteLengthMismatch (expected observed : ℕ)
  | shaMismatch (expected observed : D)
  | unverifiable (reason : String)
  deriving DecidableEq

/-- One session's outcome, and what was observed of it. -/
structure ReconcileRow (D : Type) where
  key : SessionKey
  outcome : SessionOutcome D
  observed : Option (Candidate D)
  basis : ExpectationBasis

variable (H : Sha256)

/-- The expectations the stored manifests give, read under the machine whose file they are in. -/
def storedExpectations (stage : Stage H.Digest) : List (SessionKey × SessionExpectation H.Digest) :=
  stage.manifests.flatMap fun (machine, rows) => rows.map fun row =>
    let key : SessionKey := ⟨machine, row.sessionId⟩
    (key, ⟨key, .ok ⟨key, row.shardCount, row.concatBytes, row.concatSha256⟩, .storedManifest⟩)

/-- One session directory: a body takes precedence over the stored row, and a directory with
neither is unverifiable. -/
def expectSession (stage : Stage H.Digest)
    (map : List (SessionKey × SessionExpectation H.Digest)) (key : SessionKey) :
    List (SessionKey × SessionExpectation H.Digest) :=
  let entries := sortedEntries (stage.dir key)
  if entries ≠ [] then
    let concat := (entries.map fun e => e.2.bytes).flatten
    KeyedList.put map
      (key, ⟨key, .ok ⟨key, entries.length, concat.length, H.digest concat⟩, .derivedFromStageBody⟩)
  else if key ∈ map.map Prod.fst then map
  else
    let reason := if (stage.manifest key.machine).isSome then
      "reclaimed session missing from stored manifest" else "stored manifest is missing"
    KeyedList.put map (key, ⟨key, .error reason, .storedManifest⟩)

/-- `load_expected_manifest`; no baseline at all is an error. -/
def loadExpectedManifest (stage : Stage H.Digest) :
    Except String (List (SessionExpectation H.Digest)) :=
  let map := stage.sessions.foldl (expectSession H stage)
    (KeyedList.lastWins (storedExpectations H stage))
  if map = [] then
    .error "L3 baseline: stage body is gone and no stored summary exists; nothing to reconcile against"
  else
    .ok ((map.map Prod.snd).insertionSort fun a b =>
      toLex (a.key.machine, a.key.session) ≤ toLex (b.key.machine, b.key.session))

def archiveEntry (key : SessionKey) (f : StoredFile) : ArchiveEntry :=
  let dir := "sessions/".toList ++ key.machine ++ '/' :: key.session
  ⟨dir ++ (f.path.bucket.elim [] fun bucket => '/' :: bucket) ++ '/' :: f.path.name, f.path.name,
    f.bytes⟩

def Snapshot.entries (snapshot : Snapshot) (key : SessionKey) : List ArchiveEntry :=
  ((snapshot.sessions.filter fun held => held.1 = key).flatMap fun held =>
    held.2.filter fun f => isShardName f.path.name).map (archiveEntry key)

/-- `read_cumulative_sessions_raw` for one session: the union over the snapshots, all copies kept. -/
def readCumulativeSessionRaw (snapshots : List Snapshot) (key : SessionKey) :
    Option (Candidate H.Digest) :=
  let shards := dumpCumulativeSession (fun _ => []) false (snapshots.map (·.entries key))
  if shards = [] then none
  else
    let concat := (shards.map ArchiveEntry.body).flatten
    some ⟨key, shards.length, concat.length, H.digest concat⟩

variable {H}

/-- The verdict on one session; an offline mirror copy says nothing by not holding it. -/
def reconcileSession (offlineMirror : Bool) (expected : SessionExpectation H.Digest)
    (observed : Option (Candidate H.Digest)) : SessionOutcome H.Digest :=
  match expected.triple with
  | .error reason => .unverifiable reason
  | .ok exp =>
    match observed with
    | none => if offlineMirror then .absentFromMirrorCopy else .missingInArchive
    | some obs =>
      if obs.shardCount ≠ exp.shardCount then .shardCountMismatch exp.shardCount obs.shardCount
      else if obs.concatBytes ≠ exp.concatBytes then
        .byteLengthMismatch exp.concatBytes obs.concatBytes
      else if obs.sha256 ≠ exp.sha256 then .shaMismatch exp.sha256 obs.sha256
      else .isMatch

/-- `reconcile_manifest` against an archive whose snapshots are all of `hostname`; only sessions of
that partition are read back. -/
def reconcileManifest (hostname : Ident) (offlineMirror : Bool) (stage : Stage H.Digest)
    (snapshots : List Snapshot) : Except String (List (ReconcileRow H.Digest)) :=
  (loadExpectedManifest H stage).map fun expectations => expectations.map fun expected =>
    let observed :=
      if expected.triple.isOk ∧ expected.key.machine = hostname then
        readCumulativeSessionRaw H snapshots expected.key
      else none
    ⟨expected.key, reconcileSession offlineMirror expected observed, observed, expected.basis⟩

end ChatStasher

/-! Which verdict a session gets after writes, pushes and reclaims. -/
namespace ChatStasher

variable {H : Sha256}

section Expected
variable {stage : Stage H.Digest}

def Expects (map : List (SessionKey × SessionExpectation H.Digest)) (key : SessionKey)
    (triple : Candidate H.Digest) : Prop :=
  (∃ x ∈ map, x.1 = key) ∧ ∀ x ∈ map, x.1 = key → x.2.triple = .ok triple

/-- Looking at one directory settles its own session by its body, if it has one, and leaves every
other session's expectation, and its own where there is no body. -/
lemma Expects.expectSession {map : List (SessionKey × SessionExpectation H.Digest)}
    {key : SessionKey} {triple : Candidate H.Digest} (h : Expects map key triple)
    (key' : SessionKey)
    (hkey : key' = key → sortedEntries (stage.dir key) ≠ [] →
      triple = (surveySession H stage key).expectation) :
    Expects (expectSession H stage map key') key triple := by
  obtain ⟨⟨x, hx, hxkey⟩, hall⟩ := h
  have hput : ∀ e : SessionExpectation H.Digest,
      (key' = key → e.triple = .ok triple) → Expects (KeyedList.put map (key', e)) key triple := by
    intro e he
    refine ⟨?_, fun y hy hykey => ?_⟩
    · by_cases heq : key' = key
      · exact ⟨_, KeyedList.mem_put.mpr (Or.inl rfl), heq⟩
      · exact ⟨x, KeyedList.mem_put.mpr (Or.inr ⟨hx, fun hxe => heq (hxe.symm.trans hxkey)⟩), hxkey⟩
    · rcases KeyedList.mem_put.mp hy with rfl | ⟨hy, -⟩
      · exact he hykey
      · exact hall y hy hykey
  simp only [ChatStasher.expectSession]
  split
  next hbody =>
    refine hput _ fun heq => ?_
    subst heq
    rw [hkey rfl hbody]
    rfl
  next =>
    split
    next => exact ⟨⟨x, hx, hxkey⟩, hall⟩
    next hnew =>
      refine hput _ fun heq => ?_
      exact absurd (List.mem_map.mpr ⟨x, hx, hxkey.trans heq.symm⟩) hnew

lemma expects_body (map : List (SessionKey × SessionExpectation H.Digest)) {key : SessionKey}
    (hne : sortedEntries (stage.dir key) ≠ []) {keys : List SessionKey} (hkey : key ∈ keys) :
    Expects (keys.foldl (expectSession H stage) map) key (surveySession H stage key).expectation := by
  induction keys using List.reverseRecOn with
  | nil => cases hkey
  | append_singleton keys last ih =>
    rw [List.foldl_append, List.foldl_cons, List.foldl_nil]
    by_cases heq : last = key
    · subst heq
      simp only [expectSession, if_pos hne]
      refine ⟨⟨_, KeyedList.mem_put.mpr (Or.inl rfl), rfl⟩, fun x hx hxkey => ?_⟩
      rcases KeyedList.mem_put.mp hx with rfl | ⟨-, hbad⟩
      · rfl
      · exact absurd hxkey hbad
    · have hmem : key ∈ keys := by
        rcases List.mem_append.mp hkey with hmem | hmem
        · exact hmem
        · exact absurd (List.mem_singleton.mp hmem).symm heq
      exact (ih hmem).expectSession last fun _ _ => rfl

lemma Expects.foldl {map : List (SessionKey × SessionExpectation H.Digest)} {key : SessionKey}
    {triple : Candidate H.Digest} (h : Expects map key triple)
    (hnil : sortedEntries (stage.dir key) = []) (keys : List SessionKey) :
    Expects (keys.foldl (ChatStasher.expectSession H stage) map) key triple := by
  induction keys using List.reverseRecOn with
  | nil => exact h
  | append_singleton keys last ih =>
    rw [List.foldl_append, List.foldl_cons, List.foldl_nil]
    exact ih.expectSession last fun _ hne => absurd hnil hne

def ShardFact.toCandidate {D : Type} (key : SessionKey) (fact : ShardFact D) : Candidate D :=
  ⟨key, fact.shardCount, fact.concatBytes, fact.concatSha256⟩

lemma expects_stored (h : StageSound stage) {key : SessionKey} {fact : ShardFact H.Digest}
    (hfact : manifestFact stage key = some fact) :
    Expects (KeyedList.lastWins (storedExpectations H stage)) key (fact.toCandidate key) := by
  have hstored : ∀ x, x ∈ storedExpectations H stage ↔ ∃ machine rows, 
      (machine, rows) ∈ stage.manifests ∧ ∃ row ∈ rows, x = (⟨machine, row.sessionId⟩,
        ⟨⟨machine, row.sessionId⟩, .ok (row.toFact.toCandidate ⟨machine, row.sessionId⟩),
          .storedManifest⟩) := by
    intro x
    simp only [storedExpectations, List.mem_flatMap, List.mem_map, Prod.exists]
    constructor
    · rintro ⟨machine, rows, hmem, row, hrow, rfl⟩
      exact ⟨machine, rows, hmem, row, hrow, rfl⟩
    · rintro ⟨machine, rows, hmem, row, hrow, rfl⟩
      exact ⟨machine, rows, hmem, row, hrow, rfl⟩
  obtain ⟨row, hrow, hsession, rfl⟩ := h.manifestFact_eq_some.mp hfact
  cases hrows : stage.manifest key.machine with
  | none => simp [hrows] at hrow
  | some rows =>
    rw [hrows] at hrow
    have hmem := (KeyedList.lookup_eq_some_iff_mem h.machines).mp hrows
    constructor
    · have hkeys : key ∈ (KeyedList.lastWins (storedExpectations H stage)).map Prod.fst := by
        refine KeyedList.key_mem_foldl_put (Or.inr (List.mem_map.mpr ⟨_, (hstored _).mpr
          ⟨_, _, hmem, row, hrow, rfl⟩, ?_⟩))
        rw [hsession]
      obtain ⟨x, hx, hkey⟩ := List.mem_map.mp hkeys
      exact ⟨x, hx, hkey⟩
    · intro x hx hkey
      obtain ⟨machine, rows', hmem', row', hrow', rfl⟩ :=
        (hstored x).mp (KeyedList.mem_of_mem_lastWins hx)
      subst hkey
      have hrows' := (KeyedList.lookup_eq_some_iff_mem h.machines).mpr hmem'
      have hsame : manifestFact stage ⟨machine, row'.sessionId⟩ = some row'.toFact :=
        h.manifestFact_eq_some.mpr ⟨row', by rw [Stage.manifest, hrows']; exact hrow', rfl, rfl⟩
      rw [Option.some.inj (hsame.symm.trans hfact)]

lemma expectation_key (keys : List SessionKey) {x : SessionKey × SessionExpectation H.Digest}
    (hx : x ∈ keys.foldl (expectSession H stage)
      (KeyedList.lastWins (storedExpectations H stage))) : x.2.key = x.1 := by
  induction keys using List.reverseRecOn with
  | nil =>
    have hstored := KeyedList.mem_of_mem_lastWins hx
    simp only [storedExpectations, List.mem_flatMap, List.mem_map] at hstored
    obtain ⟨-, -, row, -, rfl⟩ := hstored
    rfl
  | append_singleton keys last ih =>
    rw [List.foldl_append, List.foldl_cons, List.foldl_nil] at hx
    simp only [expectSession] at hx
    split at hx
    next =>
      rcases KeyedList.mem_put.mp hx with rfl | ⟨hx, -⟩
      · rfl
      · exact ih hx
    next =>
      split at hx
      next => exact ih hx
      next =>
        rcases KeyedList.mem_put.mp hx with rfl | ⟨hx, -⟩
        · rfl
        · exact ih hx

lemma loadExpectedManifest_of_expects {key : SessionKey} {triple : Candidate H.Digest}
    (h : Expects (stage.sessions.foldl (expectSession H stage)
      (KeyedList.lastWins (storedExpectations H stage))) key triple) :
    ∃ expectations, loadExpectedManifest H stage = .ok expectations ∧
      (∃ e ∈ expectations, e.key = key) ∧ ∀ e ∈ expectations, e.key = key → e.triple = .ok triple := by
  obtain ⟨⟨x, hx, hkey⟩, hall⟩ := h
  refine ⟨_, if_neg (List.ne_nil_of_mem hx), ⟨x.2, ?_, ?_⟩, fun e he hekey => ?_⟩
  · exact (List.mem_insertionSort _).mpr (List.mem_map_of_mem hx)
  · exact (expectation_key _ hx).trans hkey
  · obtain ⟨y, hy, rfl⟩ := List.mem_map.mp ((List.mem_insertionSort _).mp he)
    exact hall y hy ((expectation_key _ hy).symm.trans hekey)

theorem loadExpectedManifest_spec (h : StageSound stage) {key : SessionKey}
    {triple : Candidate H.Digest}
    (htriple : sortedEntries (stage.dir key) ≠ [] ∧ triple = (surveySession H stage key).expectation ∨
      sortedEntries (stage.dir key) = [] ∧ ∃ fact, manifestFact stage key = some fact ∧
        triple = fact.toCandidate key) :
    ∃ expectations, loadExpectedManifest H stage = .ok expectations ∧
      (∃ e ∈ expectations, e.key = key) ∧ ∀ e ∈ expectations, e.key = key → e.triple = .ok triple := by
  apply loadExpectedManifest_of_expects
  rcases htriple with ⟨hne, rfl⟩ | ⟨hnil, fact, hfact, rfl⟩
  · exact expects_body _ hne (h.mem_sessions hne)
  · exact (expects_stored h hfact).foldl hnil _

end Expected

section Verdict
variable {stage : Stage H.Digest} {key : SessionKey} {triple : Candidate H.Digest}

/-- A session of the partition that was read gets a row, and it matches exactly when the archive's
triple is the expected one. -/
lemma reconcileManifest_row (offlineMirror : Bool) (snapshots : List Snapshot)
    (hload : ∃ expectations, loadExpectedManifest H stage = .ok expectations ∧
      (∃ e ∈ expectations, e.key = key) ∧
      ∀ e ∈ expectations, e.key = key → e.triple = .ok triple) :
    ∃ rows, reconcileManifest key.machine offlineMirror stage snapshots = .ok rows ∧
      (∃ row ∈ rows, row.key = key) ∧ ∀ row ∈ rows, row.key = key →
        (row.outcome = .isMatch ↔
          ∃ obs, readCumulativeSessionRaw H snapshots key = some obs ∧ SameTriple obs triple) := by
  obtain ⟨expectations, hload, ⟨e, he, hkey⟩, hall⟩ := hload
  refine ⟨_, by rw [reconcileManifest, hload]; rfl, ⟨_, List.mem_map_of_mem he, hkey⟩, ?_⟩
  intro row hrow hrowkey
  obtain ⟨e, he, rfl⟩ := List.mem_map.mp hrow
  dsimp only at hrowkey ⊢
  have hobserved : (if e.triple.isOk = true ∧ e.key.machine = key.machine then
      readCumulativeSessionRaw H snapshots e.key else none) = readCumulativeSessionRaw H snapshots key := by
    rw [hall e he hrowkey, hrowkey]
    simp [Except.isOk, Except.toBool]
  rw [hobserved, reconcileSession, hall e he hrowkey]
  dsimp only
  cases readCumulativeSessionRaw H snapshots key with
  | none => cases offlineMirror <;> simp
  | some obs =>
    simp only [SameTriple, Option.some.injEq, exists_eq_left']
    repeat' split
    all_goals simp_all

lemma readCumulativeSessionRaw_eq (snapshots : List Snapshot) (key : SessionKey) :
    readCumulativeSessionRaw H snapshots key =
      let shards := heldEntries (snapshots.map (·.entries key))
      if shards = [] then none
      else some ⟨key, shards.length, (shards.map ArchiveEntry.body).flatten.length,
        H.digest (shards.map ArchiveEntry.body).flatten⟩ := by
  have hdump : dumpCumulativeSession (fun _ => []) false (snapshots.map (·.entries key)) =
      heldEntries (snapshots.map (·.entries key)) := by
    simp [dumpCumulativeSession]
  simp only [readCumulativeSessionRaw, hdump]

end Verdict

end ChatStasher
