import ChatStasher.Archive.Site

/-! One reclaim cut at its reads, consults and deletions, with shard writers running in between. -/
namespace ChatStasher

/-- One session's enumeration, each shard with the file the survey read for it. -/
structure Enumerated where
  key : SessionKey
  read : List (ℕ × StoredFile)

/-- A consulted destination with its archive as it was when read. -/
structure Answer where
  declared : Declared
  snapshots : List Snapshot

inductive ReclaimTask
  | summary (machine : Ident)
  | session (e : Enumerated)
  | file (key : SessionKey) (path : ShardPath)

/-- What the reclaim does next: enumerate a session, read a shard it enumerated, consult a
destination, or carry out the removal. -/
inductive ReclaimPhase
  | surveying (todo : List SessionKey)
  | reading (key : SessionKey) (unread : List (ℕ × ShardPath)) (read : List (ℕ × StoredFile))
      (todo : List SessionKey)
  | consulting (todo : List Declared)
  | removing (todo : List ReclaimTask)
  | stopped

variable (H : Sha256)

/-- The site, the shard writes in flight, how far the reclaim has come, and the shard files it has
removed. -/
structure RacedSite where
  site : Site H
  writes : List (SessionKey × Writing)
  phase : ReclaimPhase
  surveyed : List Enumerated
  answers : List Answer
  removed : List (SessionKey × StoredFile)

def RacedSite.start (site : Site H) (writes : List (SessionKey × Writing)) : RacedSite H :=
  ⟨site, writes, .surveying site.stage.sessions, [], [], []⟩

def Enumerated.session (e : Enumerated) : SurveyedSession H.Digest :=
  let concat := (e.read.map fun x => x.2.bytes).flatten
  ⟨⟨e.key, e.read.length, concat.length, H.digest concat⟩, e.read.map Prod.fst⟩

def Answer.named (a : Answer) : NamedStore H.Digest :=
  ⟨a.declared.name, a.declared.health,
    a.declared.read.map fun warnings => ⟨readLatestPerMachine H a.snapshots, warnings⟩⟩

variable {H}

def RacedSite.proof (s : RacedSite H) (mirror : Option MirrorHoldback) : ProofReport :=
  proveCandidates (s.surveyed.map fun e => (e.session H).expectation) (s.answers.map (·.named H))
    mirror

def reclaimCandidates (surveyed : List Enumerated) : List Enumerated :=
  (surveyed.insertionSort fun a b =>
    toLex (a.key.machine, a.key.session) ≤ toLex (b.key.machine, b.key.session)).filter
      fun e => !e.read.isEmpty

/-- Machine by machine: the summary first, then the sessions. -/
def reclaimTasks (candidates : List Enumerated) : List ReclaimTask :=
  (candidates.map fun e => e.key.machine).dedup.flatMap fun machine =>
    .summary machine ::
      (candidates.filter fun e => e.key.machine = machine).map ReclaimTask.session

def RacedSite.setDir (s : RacedSite H) (key : SessionKey) (d : SessionDir) : RacedSite H :=
  { s with site := { s.site with stage := s.site.stage.setDir key d } }

/-- The enumeration that `reclaim_session_body` deletes from, made when the session's turn comes. -/
def provenFiles (d : SessionDir) (e : Enumerated) : List ReclaimTask :=
  ((sealedShardEntries d).filter fun x => (e.read.map Prod.fst).contains x.1).map
    fun x => .file e.key x.2.path

def removalStep (now : ℤ) (s : RacedSite H) (todo : List ReclaimTask) : ReclaimTask → RacedSite H
  | .summary machine =>
    let fresh := generateManifestAt H s.site.stage machine now
    let stage := s.site.stage.setManifest machine
      (refreshManifest (s.site.stage.manifest machine) fresh)
    { s with site := { s.site with stage }, phase := .removing todo }
  | .session e =>
    { s with phase := .removing (provenFiles (s.site.stage.dir e.key) e ++ todo) }
  | .file key path =>
    let d := s.site.stage.dir key
    let gone := d.files.filter fun f => f.path = path
    { s.setDir key { d with files := d.files.filter fun f => f.path ≠ path } with
      removed := s.removed ++ gone.map (key, ·), phase := .removing todo }

/-- The reclaim's next operation. A shard that cannot be read fails the survey; what a degraded
destination would answer is never looked at. -/
def reclaimTurn (run : ReclaimRun) (s : RacedSite H) : RacedSite H :=
  match s.phase with
  | .surveying [] =>
    let candidates := reclaimCandidates s.surveyed
    { s with
      surveyed := candidates
      phase := if candidates.isEmpty then .stopped else .consulting run.declared }
  | .surveying (key :: todo) =>
    let entries := (sortedEntries (s.site.stage.dir key)).map fun e => (e.1, e.2.path)
    { s with phase := .reading key entries [] todo }
  | .reading key [] read todo =>
    { s with surveyed := s.surveyed ++ [⟨key, read⟩], phase := .surveying todo }
  | .reading key ((seq, path) :: unread) read todo =>
    match (s.site.stage.dir key).files.find? fun f => f.path = path with
    | none => { s with phase := .stopped }
    | some f => { s with phase := .reading key unread (read ++ [(seq, f)]) todo }
  | .consulting (dest :: todo) =>
    { s with answers := s.answers ++ [⟨dest, s.site.archive dest.name⟩], phase := .consulting todo }
  | .consulting [] =>
    if (s.proof run.mirror).refused || !run.apply || !run.mapsPersist then
      { s with phase := .stopped }
    else { s with phase := .removing (reclaimTasks s.surveyed) }
  | .removing [] => { s with phase := .stopped }
  | .removing (task :: todo) => removalStep run.now s todo task
  | .stopped => s

inductive RacedAction
  | reclaim
  | start (key : SessionKey) (source : ShardSource) (bucketCap : ℕ)
  | proceed (i : ℕ)
  | crash (i : ℕ)
  | push (dest : Ident) (stored : Option Ident)

/-- One operation of the reclaim, of a writer or of a push. -/
def racedStep (run : ReclaimRun) (s : RacedSite H) : RacedAction → RacedSite H
  | .reclaim => reclaimTurn run s
  | .start key source bucketCap =>
    let r := beginWrite H (s.site.stage.dir key) source bucketCap
    { s.setDir key r.dir with writes := s.writes ++ (r.writing.map (key, ·)).toList }
  | .proceed i =>
    match s.writes[i]? with
    | none => s
    | some (key, w) =>
      let r := advanceWrite (s.site.stage.dir key) w
      { s.setDir key r.dir with
        writes := match r.writing with
          | none => s.writes.eraseIdx i
          | some w => s.writes.set i (key, w) }
  | .crash i => { s with writes := s.writes.eraseIdx i }
  | .push dest stored => { s with site := siteStep s.site (.push dest stored) }

/-- The number the write's next operation installs a shard under, if that is an install. -/
def Writing.target (w : Writing) : Option ℕ :=
  match w.phase with
  | .staged seq => if w.source.isInbox then some seq else none
  | .checked seq => some seq
  | _ => none

/-- A write's install finds no shard of its number in the session's directory. -/
def InstallsFree (s : RacedSite H) : RacedAction → Prop
  | .proceed i => ∀ write ∈ s.writes[i]?, ∀ seq ∈ write.2.target,
      seq ∉ (s.site.stage.dir write.1).shardNumbers
  | _ => True

instance InstallsFree.decidable (s : RacedSite H) : ∀ a, Decidable (InstallsFree s a)
  | .proceed i => inferInstanceAs (Decidable (∀ write ∈ s.writes[i]?, ∀ seq ∈ write.2.target,
      seq ∉ (s.site.stage.dir write.1).shardNumbers))
  | .reclaim | .start _ _ _ | .crash _ | .push _ _ => isTrue trivial

end ChatStasher

/-! Whether the retained row of a session still names what earlier reclaims removed. -/
namespace ChatStasher

variable {H : Sha256}

def RowNames (s : Site H) (key : SessionKey) (id : ShardFingerprint H.Digest) : Prop :=
  ∃ fact, manifestFact s.stage key = some fact ∧ id ∈ fact.shardIdentities

/-- The identity is that of a sealed shard which a reclaim of the run removed from the stage. -/
def RemovedIn (H : Sha256) (actions : List SiteAction) (key : SessionKey)
    (id : ShardFingerprint H.Digest) : Prop :=
  ∃ before run after, actions = before ++ .reclaim run :: after ∧
    let s := StepRun.exec siteStep (.empty H) before
    ∃ p ∈ s.shards key, p ∉ (siteStep s (.reclaim run)).shards key ∧ fingerprint H p.1 p.2 = id

/-- The identities a reader derives from the shards on the stage now. -/
def Site.identities (s : Site H) (key : SessionKey) : List (ShardFingerprint H.Digest) :=
  (shardFactInDir H (s.stage.dir key)).shardIdentities

/-- A reclaim that deletes finds no session with a body whose row names a shard that is gone. -/
def TakesFirst (s : Site H) : SiteAction → Prop
  | .reclaim run => s.Deletes run → ∀ key, s.shards key ≠ [] → ∀ id, RowNames s key id →
      id ∈ s.identities key
  | _ => True

section Valid

lemma sequencesIncrease_map {shards : List (ℕ × Bytes)} (hsorted : shards.Pairwise fun a b => a.1 < b.1)
    {previous : ℕ} (habove : ∀ p ∈ shards, previous < p.1) :
    sequencesIncrease previous (shards.map fun p => fingerprint H p.1 p.2) = true := by
  induction shards generalizing previous with
  | nil => rfl
  | cons p shards ih =>
    obtain ⟨hlt, hrest⟩ := List.pairwise_cons.mp hsorted
    have hp := habove p List.mem_cons_self
    have hbad : ¬ (p.1 = 0 ∨ p.1 ≤ previous) := by omega
    simpa [sequencesIncrease, fingerprint, hbad] using ih hrest hlt

lemma validShardFact_factOf {shards : List (ℕ × Bytes)}
    (hsorted : shards.Pairwise fun a b => a.1 < b.1) (hpos : ∀ p ∈ shards, 0 < p.1)
    (hne : shards ≠ []) : validShardFact (factOf H shards) = true := by
  have hbytes : ((shards.map fun p => fingerprint H p.1 p.2).map ShardFingerprint.bytes).sum =
      (shardBytes shards).length := by
    rw [length_shardBytes, List.map_map]
    rfl
  have hsingle : (shards.length != 1 || (shards.map fun p => fingerprint H p.1 p.2).head?.any
      fun shard => shard.sha256 == H.digest (shardBytes shards)) = true := by
    match shards, hne with
    | [p], _ => simp [shardBytes, fingerprint]
    | p :: q :: rest, _ => simp
  simp only [validShardFact, factOf, List.length_map, ne_eq, not_true_eq_false, List.map_eq_nil_iff,
    hne, or_self, if_false, sequencesIncrease_map hsorted hpos, Bool.true_and, hbytes, beq_self_eq_true]
  exact hsingle

end Valid

section Step
variable {s : Site H}

lemma shards_eq_nil {key : SessionKey} : s.shards key = [] ↔ sortedEntries (s.stage.dir key) = [] :=
  List.map_eq_nil_iff

lemma mem_identities {key : SessionKey} {id : ShardFingerprint H.Digest} :
    id ∈ s.identities key ↔ ∃ p ∈ s.shards key, fingerprint H p.1 p.2 = id := by
  simp [Site.identities, Site.shards, shardFactInDir]

lemma siteStep_row (h : SiteSound s) (a : SiteAction) (key : SessionKey) :
    manifestFact (siteStep s a).stage key = manifestFact s.stage key ∨
      ∃ run, a = .reclaim run ∧ s.Deletes run ∧ s.shards key ≠ [] ∧
        manifestFact (siteStep s a).stage key = some (shardFactInDir H (s.stage.dir key)) := by
  cases a with
  | write key' bucketCap source => exact Or.inl (manifestFact_setDir _ _ _ _)
  | push dest stored => cases stored <;> exact Or.inl rfl
  | reclaim run =>
    rcases h.reclaimStage run with ⟨-, hsame⟩ | ⟨hdeletes, hcleared⟩
    · exact Or.inl (by rw [siteStep, hsame])
    · have hfact := (hcleared.cleared key trivial).2
      by_cases hnil : sortedEntries (s.stage.dir key) = []
      · exact Or.inl (by rw [siteStep, hfact, if_neg (not_not.mpr hnil)])
      · exact Or.inr ⟨run, rfl, hdeletes, fun hs => hnil (shards_eq_nil.mp hs),
          by rw [siteStep, hfact, if_pos hnil]⟩

lemma removes_iff (h : SiteSound s) (run : ReclaimRun) (key : SessionKey) (p : ℕ × Bytes) :
    (p ∈ s.shards key ∧ p ∉ (siteStep s (.reclaim run)).shards key) ↔
      s.Deletes run ∧ p ∈ s.shards key := by
  rcases h.reclaimStage run with ⟨hnot, hsame⟩ | ⟨hdeletes, hcleared⟩
  · have hshards : (siteStep s (.reclaim run)).shards key = s.shards key := by
      rw [Site.shards, siteStep, hsame, Site.shards]
    simp [hshards, hnot]
  · have hshards : (siteStep s (.reclaim run)).shards key = [] := by
      rw [shards_eq_nil, siteStep, (hcleared.cleared key trivial).1, sortedEntries_withoutSealed]
    simp [hshards, hdeletes]

lemma RowNames.step (h : SiteSound s) {a : SiteAction} (ha : TakesFirst s a) {key : SessionKey}
    {id : ShardFingerprint H.Digest} (hid : RowNames s key id) : RowNames (siteStep s a) key id := by
  rcases siteStep_row h a key with hsame | ⟨run, rfl, hdeletes, hne, hrow⟩
  · rwa [RowNames, hsame]
  · exact ⟨_, hrow, ha hdeletes key hne id hid⟩

lemma siteStep_rowsValid (h : SiteSound s)
    (hvalid : ∀ key, ∀ fact ∈ manifestFact s.stage key, validShardFact fact = true) (a : SiteAction)
    (key : SessionKey) :
    ∀ fact ∈ manifestFact (siteStep s a).stage key, validShardFact fact = true := by
  rcases siteStep_row h a key with hsame | ⟨run, rfl, hdeletes, hne, hrow⟩
  · rw [hsame]
    exact hvalid key
  · obtain ⟨shards, hd⟩ := h.holds key
    have hmap : s.shards key = readable shards := hd.sortedEntries_map
    rw [hrow, hd.shardFactInDir_eq]
    rintro fact ⟨⟩
    exact validShardFact_factOf hd.readable_sorted
      (fun p hp => hd.pos p (List.mem_of_mem_filter hp)) (hmap ▸ hne)

end Step

section Runs

lemma removedIn_concat (actions : List SiteAction) (a : SiteAction) (key : SessionKey)
    (id : ShardFingerprint H.Digest) :
    RemovedIn H (actions ++ [a]) key id ↔ RemovedIn H actions key id ∨
      ∃ run, a = .reclaim run ∧ (StepRun.exec siteStep (.empty H) actions).Deletes run ∧
        id ∈ (StepRun.exec siteStep (.empty H) actions).identities key := by
  constructor
  · rintro ⟨before, run, after, heq, p, hp, hgone, rfl⟩
    obtain rfl | ⟨init, last, rfl⟩ := List.eq_nil_or_concat after
    · obtain ⟨rfl, ha⟩ := List.append_inj' heq rfl
      obtain rfl : a = .reclaim run := by simpa using ha
      have hremoves := (removes_iff (site_runs_sound actions) run key p).mp ⟨hp, hgone⟩
      exact Or.inr ⟨run, rfl, hremoves.1, mem_identities.mpr ⟨p, hp, rfl⟩⟩
    · have heq' : actions ++ [a] = (before ++ .reclaim run :: init) ++ [last] := by simp [heq]
      obtain ⟨rfl, -⟩ := List.append_inj' heq' rfl
      exact Or.inl ⟨before, run, init, rfl, p, hp, hgone, rfl⟩
  · rintro (⟨before, run, after, rfl, hremoved⟩ | ⟨run, rfl, hdeletes, hid⟩)
    · exact ⟨before, run, after ++ [a], by simp, hremoved⟩
    · obtain ⟨p, hp, rfl⟩ := mem_identities.mp hid
      exact ⟨actions, run, [], rfl, p, hp,
        ((removes_iff (site_runs_sound actions) run key p).mpr ⟨hdeletes, hp⟩).2, rfl⟩

lemma site_rows_valid (actions : List SiteAction) (key : SessionKey) :
    ∀ fact ∈ manifestFact (StepRun.exec siteStep (.empty H) actions).stage key,
      validShardFact fact = true := by
  induction actions using List.reverseRecOn generalizing key with
  | nil => simp [manifestFact, Site.empty, Stage.empty, Stage.manifest]
  | append_singleton actions a ih =>
    rw [StepRun.exec_concat]
    exact siteStep_rowsValid (site_runs_sound actions) ih a key

lemma removedIn_of_rowNames (actions : List SiteAction) {key : SessionKey}
    {id : ShardFingerprint H.Digest}
    (hid : RowNames (StepRun.exec siteStep (.empty H) actions) key id) :
    RemovedIn H actions key id := by
  induction actions using List.reverseRecOn with
  | nil =>
    obtain ⟨fact, hfact, -⟩ := hid
    simp [manifestFact, Site.empty, Stage.empty, Stage.manifest] at hfact
  | append_singleton actions a ih =>
    rw [StepRun.exec_concat] at hid
    rw [removedIn_concat]
    rcases siteStep_row (site_runs_sound actions) a key with hsame | ⟨run, rfl, hdeletes, -, hrow⟩
    · rw [RowNames, hsame] at hid
      exact Or.inl (ih hid)
    · obtain ⟨fact, hfact, hmem⟩ := hid
      obtain rfl := Option.some.inj (hfact.symm.trans hrow)
      exact Or.inr ⟨run, rfl, hdeletes, hmem⟩

lemma rowNames_reclaim {s : Site H} (h : SiteSound s) {run : ReclaimRun} (hdeletes : s.Deletes run)
    {key : SessionKey} (hne : s.shards key ≠ []) (id : ShardFingerprint H.Digest) :
    RowNames (siteStep s (.reclaim run)) key id ↔ id ∈ s.identities key := by
  rcases h.reclaimStage run with ⟨hnot, -⟩ | ⟨-, hcleared⟩
  · exact absurd hdeletes hnot
  · have hfact := (hcleared.cleared key trivial).2
    rw [if_pos fun hnil => hne (shards_eq_nil.mpr hnil)] at hfact
    simp only [RowNames, siteStep, hfact, Option.some.injEq, exists_eq_left', Site.identities]

lemma rowNames_of_removedIn (actions : List SiteAction)
    (hfirst : StepRun.Along siteStep TakesFirst (.empty H) actions) {key : SessionKey}
    {id : ShardFingerprint H.Digest} (hid : RemovedIn H actions key id) :
    RowNames (StepRun.exec siteStep (.empty H) actions) key id := by
  induction actions using List.reverseRecOn with
  | nil =>
    obtain ⟨before, run, after, heq, -⟩ := hid
    simp at heq
  | append_singleton actions a ih =>
    obtain ⟨hinit, hlast, -⟩ := (StepRun.along_append siteStep TakesFirst _ _ _).mp hfirst
    have hs := site_runs_sound (H := H) actions
    rw [StepRun.exec_concat]
    rcases (removedIn_concat actions a key id).mp hid with hid | ⟨run, rfl, hdeletes, hid⟩
    · exact (ih hinit hid).step hs hlast
    · obtain ⟨p, hp, -⟩ := mem_identities.mp hid
      exact (rowNames_reclaim hs hdeletes (List.ne_nil_of_mem hp) id).mpr hid

lemma verifyDebt_of_rowNames {s : Site H} {key : SessionKey}
    (hrow : ∀ fact ∈ manifestFact s.stage key, validShardFact fact = true)
    (hempty : s.shards key = []) {entry : DebtEntry H.Digest}
    (hmachine : entry.machine = key.machine) (hvalid : validShardFact entry.shards = true)
    (hnamed : ∀ id ∈ entry.shards.shardIdentities, RowNames s key id)
    (remoteFacts : Option (Option (ShardFact H.Digest))) :
    verifyDebt H entry key.machine (s.stage.dir key) remoteFacts (manifestFact s.stage key) =
      .settledReclaimed := by
  have hnil : sealedShardEntries (s.stage.dir key) = [] := by
    have hlen := (List.perm_insertionSort (fun a b : ℕ × StoredFile => a.1 ≤ b.1)
      (sealedShardEntries (s.stage.dir key))).length_eq
    rw [← List.length_eq_zero_iff, ← hlen]
    exact congrArg List.length (shards_eq_nil.mp hempty)
  obtain ⟨hcount, hids⟩ : entry.shards.shardCount = entry.shards.shardIdentities.length ∧
      entry.shards.shardIdentities ≠ [] := by
    by_contra hbad
    rw [not_and_or, not_not] at hbad
    simp [validShardFact, hbad] at hvalid
  have huncovered : dirCovers H (s.stage.dir key) entry.shards = false := by
    have hpos : 0 < entry.shards.shardCount := hcount ▸ List.length_pos_of_ne_nil hids
    rw [dirCovers, hnil, if_pos (by simpa using hpos)]
  obtain ⟨id, hid⟩ := List.exists_mem_of_ne_nil _ hids
  obtain ⟨fact, hfact, hmem⟩ := hnamed id hid
  have hcovers : archiveContainsShards fact entry.shards = true := by
    have hall : entry.shards.shardIdentities.all (fun expected =>
        fact.shardIdentities.contains expected) = true := by
      refine List.all_eq_true.mpr fun expected hexpected => ?_
      obtain ⟨fact', hfact', hmem'⟩ := hnamed expected hexpected
      obtain rfl := Option.some.inj (hfact.symm.trans hfact')
      exact List.contains_iff_mem.mpr hmem'
    rw [archiveContainsShards, if_neg, hall]
    simp [hids, List.ne_nil_of_mem hmem, hrow fact hfact, hvalid]
  have hlocal : debtSettledLocally H entry key.machine (s.stage.dir key)
      (manifestFact s.stage key) = some .settledReclaimed := by
    simp [debtSettledLocally, hmachine, huncovered, hnil, hfact, retainedSummaryCovers, hcovers]
  simp only [verifyDebt, hlocal]

/-- In every run, all that reclaims removed stays named by the rows in every state on the way
exactly when no reclaim takes a session a second time; and then a debt that names nothing else is
answered from the row once the session's directory is empty. -/
theorem removed_shards_stay_named (actions : List SiteAction) :
    ((∀ reached, reached <+: actions → ∀ key id, RemovedIn H reached key id →
        RowNames (StepRun.exec siteStep (.empty H) reached) key id) ↔
      StepRun.Along siteStep TakesFirst (.empty H) actions) ∧
    (StepRun.Along siteStep TakesFirst (.empty H) actions → ∀ key (entry : DebtEntry H.Digest)
      (remoteFacts : Option (Option (ShardFact H.Digest))),
      let s := StepRun.exec siteStep (.empty H) actions
      entry.machine = key.machine → validShardFact entry.shards = true →
      (∀ id ∈ entry.shards.shardIdentities, RemovedIn H actions key id) → s.shards key = [] →
      verifyDebt H entry key.machine (s.stage.dir key) remoteFacts (manifestFact s.stage key) =
        .settledReclaimed) := by
  refine ⟨⟨fun hkept => ?_, fun hfirst reached hreached key id hid => ?_⟩, ?_⟩
  · induction actions using List.reverseRecOn with
    | nil => trivial
    | append_singleton actions a ih =>
      have hinit := ih fun reached hreached =>
        hkept reached (hreached.trans (List.prefix_append actions [a]))
      refine (StepRun.along_append siteStep TakesFirst _ _ _).mpr ⟨hinit, ?_, trivial⟩
      cases a with
      | reclaim run =>
        intro hdeletes key hne id hid
        refine (rowNames_reclaim (site_runs_sound actions) hdeletes hne id).mp ?_
        have hnamed := hkept _ (List.prefix_refl _) key id
          ((removedIn_concat actions _ key id).mpr (Or.inl (removedIn_of_rowNames actions hid)))
        rwa [StepRun.exec_concat] at hnamed
      | write key bucketCap source => trivial
      | push dest stored => trivial
  · obtain ⟨rest, rfl⟩ := hreached
    exact rowNames_of_removedIn reached
      ((StepRun.along_append siteStep TakesFirst _ _ _).mp hfirst).1 hid
  · intro hfirst key entry remoteFacts s hmachine hvalid hnamed hempty
    exact verifyDebt_of_rowNames (site_rows_valid actions key) hempty hmachine hvalid
      (fun id hid => rowNames_of_removedIn actions hfirst (hnamed id hid)) remoteFacts

lemma removedIn_sealPushReclaim (rest : List SiteAction) :
    RemovedIn .verbatim (sealPushReclaim ['a'] [97, 10] ++ rest) ⟨['m'], ['s']⟩
      (fingerprint .verbatim 1 [97, 10]) :=
  ⟨(sealPushReclaim ['a'] [97, 10]).take 2, _, rest, rfl, (1, [97, 10]), by decide +kernel,
    by decide +kernel, rfl⟩

theorem removed_shards_stay_named_once :
    let actions := sealPushReclaim ['a'] [97, 10]
    let s := StepRun.exec siteStep (.empty .verbatim) actions
    let entry : DebtEntry Sha256.verbatim.Digest :=
      ⟨['m'], ['s'], ⟨2, 2, [97, 10], false⟩, factOf .verbatim [(1, [97, 10])]⟩
    StepRun.Along siteStep TakesFirst (.empty .verbatim) actions ∧
      verifyDebt .verbatim entry ['m'] (s.stage.dir ⟨['m'], ['s']⟩) none
        (manifestFact s.stage ⟨['m'], ['s']⟩) = .settledReclaimed := by
  intro actions s entry
  have hfirst : StepRun.Along siteStep TakesFirst (.empty .verbatim) actions := by
    refine ⟨trivial, trivial, ?_, trivial⟩
    rintro - key - id ⟨fact, hfact, -⟩
    cases hfact
  have hnamed : ∀ id ∈ entry.shards.shardIdentities,
      RemovedIn .verbatim actions ⟨['m'], ['s']⟩ id := by
    intro id hid
    obtain rfl : id = fingerprint .verbatim 1 [97, 10] := by simpa [entry, factOf] using hid
    simpa using removedIn_sealPushReclaim []
  exact ⟨hfirst, (removed_shards_stay_named actions).2 hfirst ⟨['m'], ['s']⟩ entry none rfl
    (by decide +kernel) hnamed (by decide +kernel)⟩

/-- A session that grew after a reclaim and is reclaimed again: its row forgets the first shard, and
the debt that names it cannot be settled any more. -/
theorem second_reclaim_forgets_the_first :
    let actions := sealPushReclaim ['a'] [97, 10] ++ sealPushReclaim ['b'] [98, 10]
    let s := StepRun.exec siteStep (.empty .verbatim) actions
    let entry : DebtEntry Sha256.verbatim.Digest :=
      ⟨['m'], ['s'], ⟨2, 2, [97, 10], false⟩, factOf .verbatim [(1, [97, 10])]⟩
    RemovedIn .verbatim actions ⟨['m'], ['s']⟩ (fingerprint .verbatim 1 [97, 10]) ∧
      ¬ RowNames s ⟨['m'], ['s']⟩ (fingerprint .verbatim 1 [97, 10]) ∧
      s.shards ⟨['m'], ['s']⟩ = [] ∧
      (verifyDebt .verbatim entry ['m'] (s.stage.dir ⟨['m'], ['s']⟩) none
        (manifestFact s.stage ⟨['m'], ['s']⟩)).isUnverifiable = true := by
  intro actions s entry
  have hrow : manifestFact s.stage ⟨['m'], ['s']⟩ = some (factOf .verbatim [(2, [98, 10])]) := by
    decide +kernel
  refine ⟨removedIn_sealPushReclaim _, ?_, by decide +kernel, by decide +kernel⟩
  rintro ⟨fact, hfact, hid⟩
  obtain rfl := Option.some.inj (hfact.symm.trans hrow)
  revert hid
  decide

end Runs

end ChatStasher
