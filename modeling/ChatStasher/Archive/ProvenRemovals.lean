import ChatStasher.Archive.RacedReclaim
import ChatStasher.Store.SequenceRuns

/-! What a reclaim removes while shards are written: nothing that it did not survey and prove. -/
namespace ChatStasher

variable {H : Sha256}

section Dir
variable {d d' : SessionDir}

/-- A writer's operation adds one shard at most, under a number that no shard there had. -/
def Gains (d d' : SessionDir) : Prop :=
  ∃ new : Option (ℕ × StoredFile), sealedShardEntries d' = sealedShardEntries d ++ new.toList ∧
    ∀ x ∈ new, ∀ y ∈ sealedShardEntries d, x.1 ≠ y.1

lemma Gains.of_shardFiles (h : d'.shardFiles = d.shardFiles) : Gains d d' :=
  ⟨none, by rw [(shardNumbers_congr h).2, Option.toList_none, List.append_nil], by simp⟩

lemma Gains.refl (d : SessionDir) : Gains d d := .of_shardFiles rfl

lemma seq_mem_shardNumbers {x : ℕ × StoredFile} (hx : x ∈ sealedShardEntries d) :
    x.1 ∈ d.shardNumbers := by
  obtain ⟨hf, hname, -⟩ := mem_sealedShardEntries.mp hx
  exact SessionDir.mem_shardNumbers.mpr ⟨x.2, hf, hname⟩

lemma AddsShard.gains {r : WriteStep} {seq : ℕ} (h : AddsShard d r seq)
    (hfree : seq ∉ d.shardNumbers) : Gains d r.dir := by
  obtain ⟨f, hfiles⟩ := h.files
  have hnumber : shardNumber f.path.name = some seq := by
    have hnumbers := h.numbers
    rw [r.dir.shardNumbers_eq, hfiles, List.filterMap_append, ← d.shardNumbers_eq] at hnumbers
    have hlast := List.append_cancel_left hnumbers
    cases hf : shardNumber f.path.name <;> simp_all
  refine ⟨(parseShardSeq f.path.name).map (·, f), ?_, ?_⟩
  · rw [sealedShardEntries_eq r.dir, hfiles, List.filterMap_append, ← sealedShardEntries_eq]
    cases hparse : parseShardSeq f.path.name <;> simp [hparse]
  · intro x hx y hy heq
    obtain ⟨n, hn, rfl⟩ := Option.map_eq_some_iff.mp hx
    obtain rfl : n = seq := Option.some.inj ((shardNumber_of_parse hn).symm.trans hnumber)
    have hseq : n = y.1 := heq
    exact hfree (hseq ▸ seq_mem_shardNumbers hy)

/-- Every operation of a write gains the directory at most one shard, if its install finds the
number free. -/
lemma advanceWrite_gains (d : SessionDir) (w : Writing)
    (hfree : ∀ seq ∈ w.target, seq ∉ d.shardNumbers) : Gains d (advanceWrite d w).dir := by
  have hinstall : ∀ seq, seq ∉ d.shardNumbers → Gains d (installShard d w seq).dir := by
    intro seq hseq
    rcases installShard_spec d w hseq with ⟨hkeep, -⟩ | hadd
    · exact .of_shardFiles hkeep.files
    · exact hadd.gains hseq
  have hcheck : ∀ seq, Gains d (checkTarget d w seq).dir := by
    intro seq
    rw [checkTarget]
    split <;> exact .refl d
  cases hphase : w.phase with
  | counted highWater =>
    simp only [advanceWrite, hphase]
    exact .of_shardFiles rfl
  | numbered seq =>
    simp only [advanceWrite, hphase]
    split
    · exact hcheck seq
    · exact .of_shardFiles (shardFiles_installTmp ..)
  | staged seq =>
    simp only [advanceWrite, hphase]
    split
    next hinbox => exact hinstall seq (hfree seq (by simp [Writing.target, hphase, hinbox]))
    next => exact hcheck seq
  | checked seq =>
    simp only [advanceWrite, hphase]
    exact hinstall seq (hfree seq (by simp [Writing.target, hphase]))

def PathsApart (d : SessionDir) : Prop := ((sealedShardEntries d).map fun x => x.2.path).Nodup

lemma name_of_mem {x : ℕ × StoredFile} (hx : x ∈ sealedShardEntries d) :
    x.2.path.name = shardFilename x.1 := (mem_sealedShardEntries.mp hx).2.1

lemma entry_paths_sublist (d : SessionDir) :
    ((sealedShardEntries d).map fun x => x.2.path).Sublist d.paths := by
  rw [sealedShardEntries, SessionDir.paths]
  induction d.files with
  | nil => exact .slnil
  | cons f files ih =>
    cases hf : parseShardSeq f.path.name with
    | none =>
      rw [List.filterMap_cons, hf]
      exact ih.cons _
    | some seq =>
      rw [List.filterMap_cons, hf]
      exact ih.cons_cons _

lemma PathsApart.eq_of_path (h : PathsApart d) {x : ℕ × StoredFile}
    (hx : x ∈ sealedShardEntries d) {f : StoredFile} (hf : f ∈ d.files) (hpath : f.path = x.2.path) :
    f = x.2 := by
  have hentry : (x.1, f) ∈ sealedShardEntries d := by
    obtain ⟨-, hname, hlt⟩ := mem_sealedShardEntries.mp hx
    exact mem_sealedShardEntries.mpr ⟨hf, hpath ▸ hname, hlt⟩
  exact congrArg Prod.snd (List.inj_on_of_nodup_map h hentry hx hpath)

lemma PathsApart.gains (h : PathsApart d) (hgains : Gains d d') : PathsApart d' := by
  obtain ⟨new, hnew, hapart⟩ := hgains
  rw [PathsApart, hnew, List.map_append]
  cases new with
  | none =>
    rw [Option.toList_none, List.map_nil, List.append_nil]
    exact h
  | some x =>
    refine List.nodup_append.mpr ⟨h, by simp, ?_⟩
    intro a ha b hb hab
    obtain ⟨y, hy, rfl⟩ := List.mem_map.mp ha
    simp only [Option.toList_some, List.map_cons, List.map_nil, List.mem_singleton] at hb
    have hx : x ∈ sealedShardEntries d' := hnew ▸ List.mem_append_right _ (List.mem_singleton_self x)
    have hname : shardFilename y.1 = shardFilename x.1 := by
      rw [← name_of_mem hy, ← name_of_mem hx, hab, hb]
    exact hapart x rfl y hy (shardFilename_injective hname).symm

lemma PathsApart.remove (h : PathsApart d) (path : ShardPath) :
    PathsApart { d with files := d.files.filter fun f => f.path ≠ path } :=
  h.sublist ((List.filter_sublist.filterMap _).map _)

/-- The entries are in the directory, and with them every entry of their numbers. -/
def Covers (d : SessionDir) (entries : List (ℕ × StoredFile)) : Prop :=
  entries ⊆ sealedShardEntries d ∧
    ∀ x ∈ sealedShardEntries d, x.1 ∈ entries.map Prod.fst → x ∈ entries

lemma Covers.gains {entries : List (ℕ × StoredFile)} (h : Covers d entries)
    (hgains : Gains d d') : Covers d' entries := by
  obtain ⟨new, hnew, hapart⟩ := hgains
  refine ⟨fun x hx => hnew ▸ List.mem_append_left _ (h.1 hx), fun x hx hseq => ?_⟩
  rw [hnew, List.mem_append, Option.mem_toList] at hx
  rcases hx with hx | hx
  · exact h.2 x hx hseq
  · obtain ⟨y, hy, hyx⟩ := List.mem_map.mp hseq
    exact absurd hyx.symm (hapart x hx y (h.1 hy))

end Dir

section Phase
variable {run : ReclaimRun} {s s' : RacedSite H}

/-- The proof went through with every declared destination's answer in hand. -/
def RacedSite.Proved (run : ReclaimRun) (s : RacedSite H) : Prop :=
  (s.proof run.mirror).refused = false ∧ s.answers.map Answer.declared = run.declared

/-- Each surveyed session was enumerated once, and the directory has not lost any of it since. -/
def RacedSite.Intact (s : RacedSite H) (todo : List SessionKey) : Prop :=
  (s.surveyed.map Enumerated.key ++ todo).Nodup ∧
    ∀ e ∈ s.surveyed, Covers (s.site.stage.dir e.key) e.read

def TaskSound (s : RacedSite H) : ReclaimTask → Prop
  | .summary _ => True
  | .session e => e ∈ s.surveyed ∧ Covers (s.site.stage.dir e.key) e.read
  | .file key path => ∃ e ∈ s.surveyed, e.key = key ∧
      ∃ x ∈ e.read, x ∈ sealedShardEntries (s.site.stage.dir key) ∧ x.2.path = path

/-- Two tasks that do not get into each other's way. -/
def TasksApart : ReclaimTask → ReclaimTask → Prop
  | .session a, .session b => a.key ≠ b.key
  | .session a, .file key _ => a.key ≠ key
  | .file key _, .session b => key ≠ b.key
  | .file key path, .file key' path' => ¬ (key = key' ∧ path = path')
  | _, _ => True

def ReclaimSound (run : ReclaimRun) (s : RacedSite H) : ReclaimPhase → Prop
  | .surveying todo => (s.answers = [] ∧ s.removed = []) ∧ s.Intact todo
  | .reading key unread read todo => (s.answers = [] ∧ s.removed = []) ∧ s.Intact (key :: todo) ∧
      ∃ rest, unread = rest.map (fun x => (x.1, x.2.path)) ∧
        Covers (s.site.stage.dir key) (read ++ rest)
  | .consulting todo => s.removed = [] ∧ s.answers.map Answer.declared ++ todo = run.declared ∧
      s.Intact []
  | .removing todo => s.Proved run ∧ (∀ t ∈ todo, TaskSound s t) ∧ todo.Pairwise TasksApart
  | .stopped => s.removed = [] ∨ s.Proved run

/-- What holds of the race in every state, whichever phase the reclaim is in. -/
structure RaceSound (run : ReclaimRun) (s : RacedSite H) : Prop where
  paths : ∀ key, PathsApart (s.site.stage.dir key)
  removed : ∀ r ∈ s.removed, ∃ e ∈ s.surveyed, e.key = r.1 ∧ r.2 ∈ e.read.map Prod.snd
  answers : ∀ a ∈ s.answers, a.snapshots <:+ s.site.archive a.declared.name
  phase : ReclaimSound run s s.phase

/-- Nobody but the reclaim moves it on, and writers and pushes only ever add. -/
structure Beside (s s' : RacedSite H) : Prop where
  phase : s'.phase = s.phase
  surveyed : s'.surveyed = s.surveyed
  answers : s'.answers = s.answers
  removed : s'.removed = s.removed
  dirs : ∀ key, Gains (s.site.stage.dir key) (s'.site.stage.dir key)
  archive : ∀ dest, s.site.archive dest <:+ s'.site.archive dest

lemma Beside.intact (h : Beside s s') {todo : List SessionKey} (hs : s.Intact todo) :
    s'.Intact todo :=
  ⟨h.surveyed.symm ▸ hs.1, fun e he => (hs.2 e (h.surveyed ▸ he)).gains (h.dirs e.key)⟩

lemma Beside.proved (h : Beside s s') (hs : s.Proved run) : s'.Proved run := by
  rw [RacedSite.Proved, RacedSite.proof, h.surveyed, h.answers]
  exact hs

lemma Beside.taskSound (h : Beside s s') {t : ReclaimTask} (ht : TaskSound s t) :
    TaskSound s' t := by
  cases t with
  | summary machine => trivial
  | session e => exact ⟨h.surveyed.symm ▸ ht.1, ht.2.gains (h.dirs e.key)⟩
  | file key path =>
    obtain ⟨e, he, hkey, x, hx, hin, hpath⟩ := ht
    obtain ⟨new, hnew, -⟩ := h.dirs key
    exact ⟨e, h.surveyed.symm ▸ he, hkey, x, hx, hnew ▸ List.mem_append_left _ hin, hpath⟩

lemma Beside.phaseSound (h : Beside s s') {phase : ReclaimPhase} (hs : ReclaimSound run s phase) :
    ReclaimSound run s' phase := by
  cases phase with
  | surveying todo => exact ⟨by rw [h.answers, h.removed]; exact hs.1, h.intact hs.2⟩
  | reading key unread read todo =>
    obtain ⟨hempty, hintact, rest, hrest, hcovers⟩ := hs
    exact ⟨by rw [h.answers, h.removed]; exact hempty, h.intact hintact, rest, hrest,
      hcovers.gains (h.dirs key)⟩
  | consulting todo =>
    exact ⟨h.removed.trans hs.1, by rw [h.answers]; exact hs.2.1, h.intact hs.2.2⟩
  | removing todo => exact ⟨h.proved hs.1, fun t ht => h.taskSound (hs.2.1 t ht), hs.2.2⟩
  | stopped => exact hs.imp (fun hnil => h.removed.trans hnil) h.proved

lemma RaceSound.beside (hs : RaceSound run s) (h : Beside s s') : RaceSound run s' := by
  refine ⟨fun key => (hs.paths key).gains (h.dirs key), ?_, ?_, ?_⟩
  · rw [h.removed, h.surveyed]
    exact hs.removed
  · rw [h.answers]
    exact fun a ha => (hs.answers a ha).trans (h.archive _)
  · rw [h.phase]
    exact h.phaseSound hs.phase

end Phase

section Writers
variable {run : ReclaimRun} {s : RacedSite H}

lemma Beside.setDir {key : SessionKey} {d : SessionDir} (hd : Gains (s.site.stage.dir key) d)
    (writes : List (SessionKey × Writing)) : Beside s { s.setDir key d with writes } := by
  refine ⟨rfl, rfl, rfl, rfl, fun key' => ?_, fun _ => List.suffix_refl _⟩
  simp only [RacedSite.setDir, Stage.dir_setDir]
  split
  next heq => exact heq ▸ hd
  next => exact .refl _

lemma racedStep_beside {a : RacedAction} (ha : a ≠ .reclaim) (hfree : InstallsFree s a) :
    Beside s (racedStep run s a) := by
  have hrefl : Beside s s := ⟨rfl, rfl, rfl, rfl, fun _ => .refl _, fun _ => List.suffix_refl _⟩
  cases a with
  | reclaim => exact absurd rfl ha
  | start key source cap =>
    exact .setDir (.of_shardFiles (beginWrite_spec H _ source cap).1) _
  | proceed i =>
    simp only [racedStep]
    cases hwrite : s.writes[i]? with
    | none => exact hrefl
    | some write => exact .setDir (advanceWrite_gains _ _ (hfree write hwrite)) _
  | crash i => exact ⟨rfl, rfl, rfl, rfl, hrefl.dirs, hrefl.archive⟩
  | push dest stored =>
    cases stored with
    | none => exact hrefl
    | some id =>
      refine ⟨rfl, rfl, rfl, rfl, hrefl.dirs, fun dest' => ?_⟩
      simp only [racedStep, siteStep, Function.update_apply]
      split
      next heq => exact heq ▸ List.suffix_cons _ _
      next => exact List.suffix_refl _

end Writers

section Reclaim
variable {run : ReclaimRun} {s : RacedSite H}

lemma RacedSite.Intact.candidates (h : s.Intact []) :
    RacedSite.Intact { s with surveyed := reclaimCandidates s.surveyed } [] := by
  have hsub : reclaimCandidates s.surveyed ⊆ s.surveyed := fun e he =>
    (List.perm_insertionSort _ _).subset (List.mem_of_mem_filter he)
  refine ⟨?_, fun e he => h.2 e (hsub he)⟩
  have hnodup := h.1
  rw [List.append_nil] at hnodup ⊢
  refine (List.filter_sublist.map _).nodup ?_
  exact ((List.perm_insertionSort _ _).map _).nodup_iff.mpr hnodup

lemma RacedSite.Intact.tasks (h : s.Intact []) :
    (∀ t ∈ reclaimTasks s.surveyed, TaskSound s t) ∧
      (reclaimTasks s.surveyed).Pairwise TasksApart := by
  have hnodup := h.1
  rw [List.append_nil] at hnodup
  constructor
  · intro t ht
    obtain ⟨machine, -, ht⟩ := List.mem_flatMap.mp ht
    rcases List.mem_cons.mp ht with rfl | ht
    · trivial
    · obtain ⟨e, he, rfl⟩ := List.mem_map.mp ht
      have hmem := List.mem_of_mem_filter he
      exact ⟨hmem, h.2 e hmem⟩
  · refine List.pairwise_flatMap.mpr ⟨fun machine _ => ?_, ?_⟩
    · refine List.pairwise_cons.mpr ⟨fun t _ => by cases t <;> trivial, ?_⟩
      have hkeys : ((s.surveyed.filter fun e => e.key.machine = machine).map Enumerated.key).Nodup :=
        (List.filter_sublist.map _).nodup hnodup
      rw [List.pairwise_map]
      exact (List.pairwise_map.mp hkeys).imp fun hne => hne
    · refine (List.nodup_dedup _).imp fun {m m'} hne t ht t' ht' => ?_
      have hmachine : ∀ {machine : Ident} {t : ReclaimTask}, t ∈ ReclaimTask.summary machine ::
          (s.surveyed.filter fun e => e.key.machine = machine).map ReclaimTask.session →
          t = .summary machine ∨ ∃ e, t = .session e ∧ e.key.machine = machine := by
        intro machine t ht
        rcases List.mem_cons.mp ht with rfl | ht
        · exact Or.inl rfl
        · obtain ⟨e, he, rfl⟩ := List.mem_map.mp ht
          exact Or.inr ⟨e, rfl, of_decide_eq_true (List.mem_filter.mp he).2⟩
      rcases hmachine ht with rfl | ⟨e, rfl, he⟩
      · cases t' <;> trivial
      · rcases hmachine ht' with rfl | ⟨e', rfl, he'⟩
        · trivial
        · exact fun heq => hne (by rw [← he, ← he', heq])

lemma provenFiles_sound (hpaths : ∀ key, PathsApart (s.site.stage.dir key)) {e : Enumerated}
    (he : TaskSound s (.session e)) :
    (∀ t ∈ provenFiles (s.site.stage.dir e.key) e, TaskSound s t ∧
        ∃ path, t = .file e.key path) ∧
      (provenFiles (s.site.stage.dir e.key) e).Pairwise TasksApart := by
  obtain ⟨hmem, hcovers⟩ := he
  constructor
  · intro t ht
    obtain ⟨x, hx, rfl⟩ := List.mem_map.mp ht
    obtain ⟨hin, hproven⟩ := List.mem_filter.mp hx
    exact ⟨⟨e, hmem, rfl, x, hcovers.2 x hin (List.contains_iff_mem.mp hproven), hin, rfl⟩, _, rfl⟩
  · rw [provenFiles, List.pairwise_map]
    refine (List.pairwise_map.mp ((hpaths e.key).sublist (List.filter_sublist.map _))).imp ?_
    exact fun hne heq => hne heq.2

lemma RaceSound.file (h : RaceSound run s) {key : SessionKey} {path : ShardPath}
    {todo : List ReclaimTask} (hphase : s.phase = .removing (.file key path :: todo)) :
    RaceSound run (removalStep run.now s todo (.file key path)) := by
  have hsound := h.phase
  rw [hphase] at hsound
  obtain ⟨hproved, htasks, hapart⟩ := hsound
  obtain ⟨hrest, hpair⟩ := List.pairwise_cons.mp hapart
  obtain ⟨e, he, hkey, x, hread, hin, hpath⟩ := htasks _ List.mem_cons_self
  have hdir : ∀ key', (removalStep run.now s todo (.file key path)).site.stage.dir key' =
      if key' = key then { s.site.stage.dir key with
        files := (s.site.stage.dir key).files.filter fun f => f.path ≠ path }
      else s.site.stage.dir key' := fun key' => Stage.dir_setDir _ _ _ _
  refine ⟨fun key' => ?_, fun r hr => ?_, h.answers, hproved, fun t ht => ?_, hpair⟩
  · rw [hdir]
    split
    next => exact (h.paths key).remove path
    next => exact h.paths key'
  · rcases List.mem_append.mp hr with hr | hr
    · exact h.removed r hr
    · obtain ⟨f, hf, rfl⟩ := List.mem_map.mp hr
      obtain ⟨hmem, hlies⟩ := List.mem_filter.mp hf
      have hfile : f = x.2 :=
        (h.paths key).eq_of_path hin hmem ((of_decide_eq_true hlies).trans hpath.symm)
      exact ⟨e, he, hkey, hfile ▸ List.mem_map_of_mem hread⟩
  · have hbefore := htasks t (List.mem_cons_of_mem _ ht)
    have hne := hrest t ht
    cases t with
    | summary machine => trivial
    | session b =>
      refine ⟨hbefore.1, ?_⟩
      rw [hdir, if_neg fun heq => hne heq.symm]
      exact hbefore.2
    | file key' path' =>
      obtain ⟨b, hb, hbkey, y, hy, hyin, hypath⟩ := hbefore
      refine ⟨b, hb, hbkey, y, hy, ?_, hypath⟩
      rw [hdir]
      split
      next heq =>
        obtain ⟨hfile, hname, hlt⟩ := mem_sealedShardEntries.mp hyin
        refine mem_sealedShardEntries.mpr ⟨List.mem_filter.mpr ⟨heq ▸ hfile, ?_⟩, hname, hlt⟩
        exact decide_eq_true fun hsame => hne ⟨heq.symm, hsame.symm.trans hypath⟩
      next => exact hyin

lemma RaceSound.removal (h : RaceSound run s) {t : ReclaimTask} {todo : List ReclaimTask}
    (hphase : s.phase = .removing (t :: todo)) : RaceSound run (removalStep run.now s todo t) := by
  have hsound := h.phase
  rw [hphase] at hsound
  obtain ⟨hproved, htasks, hapart⟩ := hsound
  obtain ⟨hrest, hpair⟩ := List.pairwise_cons.mp hapart
  cases t with
  | summary machine =>
    exact ⟨h.paths, h.removed, h.answers, hproved,
      fun t ht => htasks t (List.mem_cons_of_mem _ ht), hpair⟩
  | session e =>
    obtain ⟨hfiles, hfilesApart⟩ := provenFiles_sound h.paths (htasks _ List.mem_cons_self)
    refine ⟨h.paths, h.removed, h.answers, hproved, fun t ht => ?_,
      List.pairwise_append.mpr ⟨hfilesApart, hpair, fun t ht t' ht' => ?_⟩⟩
    · rcases List.mem_append.mp ht with ht | ht
      · exact (hfiles t ht).1
      · exact htasks t (List.mem_cons_of_mem _ ht)
    · obtain ⟨path, rfl⟩ := (hfiles t ht).2
      have hne := hrest t' ht'
      cases t' with
      | summary machine => trivial
      | session b => exact hne
      | file key' path' => exact fun hsame => hne hsame.1
  | file key path => exact h.file hphase

lemma RaceSound.turn (h : RaceSound run s) : RaceSound run (reclaimTurn run s) := by
  have hsound := h.phase
  unfold reclaimTurn
  cases hphase : s.phase with
  | surveying todo =>
    rw [hphase] at hsound
    obtain ⟨⟨hanswers, hremoved⟩, hintact⟩ := hsound
    cases todo with
    | nil =>
      have hnew := hintact.candidates
      refine ⟨h.paths, by simp [hremoved], h.answers, ?_⟩
      dsimp only
      split
      next => exact Or.inl hremoved
      next => exact ⟨hremoved, by simp [hanswers], hnew⟩
    | cons key todo =>
      refine ⟨h.paths, h.removed, h.answers, ⟨hanswers, hremoved⟩, hintact, _, rfl, ?_⟩
      have hmem : ∀ x, x ∈ sortedEntries (s.site.stage.dir key) ↔
          x ∈ sealedShardEntries (s.site.stage.dir key) := fun x =>
        (List.perm_insertionSort _ _).mem_iff
      rw [List.nil_append]
      exact ⟨fun x hx => (hmem x).mp hx, fun x hx _ => (hmem x).mpr hx⟩
  | reading key unread read todo =>
    rw [hphase] at hsound
    obtain ⟨⟨hanswers, hremoved⟩, hintact, rest, hrest, hcovers⟩ := hsound
    cases unread with
    | nil =>
      obtain rfl : rest = [] := List.map_eq_nil_iff.mp hrest.symm
      rw [List.append_nil] at hcovers
      refine ⟨h.paths, by simp [hremoved], h.answers, ⟨hanswers, hremoved⟩, ?_, fun e he => ?_⟩
      · simpa using hintact.1
      · rcases List.mem_append.mp he with he | he
        · exact hintact.2 e he
        · rw [List.mem_singleton.mp he]
          exact hcovers
    | cons next unread =>
      obtain ⟨seq, path⟩ := next
      obtain ⟨x, rest, rfl, hx, hunread⟩ := List.map_eq_cons_iff.mp hrest.symm
      obtain ⟨rfl, rfl⟩ := Prod.mk.inj hx
      dsimp only
      split
      next => exact ⟨h.paths, h.removed, h.answers, Or.inl hremoved⟩
      next f hf =>
        have hfile : f = x.2 := (h.paths key).eq_of_path
          (hcovers.1 (List.mem_append_right _ List.mem_cons_self)) (List.mem_of_find?_eq_some hf)
          (by simpa using List.find?_some hf)
        refine ⟨h.paths, h.removed, h.answers, ⟨hanswers, hremoved⟩, hintact, rest, hunread.symm, ?_⟩
        rwa [hfile, List.append_assoc]
  | consulting todo =>
    rw [hphase] at hsound
    obtain ⟨hremoved, hdeclared, hintact⟩ := hsound
    cases todo with
    | nil =>
      rw [List.append_nil] at hdeclared
      dsimp only
      split
      next => exact ⟨h.paths, h.removed, h.answers, Or.inl hremoved⟩
      next hpasses =>
        simp only [Bool.or_eq_true, not_or, Bool.not_eq_true] at hpasses
        exact ⟨h.paths, h.removed, h.answers, ⟨hpasses.1.1, hdeclared⟩, hintact.tasks⟩
    | cons dest todo =>
      refine ⟨h.paths, h.removed, fun a ha => ?_, hremoved, ?_, hintact⟩
      · rcases List.mem_append.mp ha with ha | ha
        · exact h.answers a ha
        · rw [List.mem_singleton.mp ha]
      · rw [← hdeclared]
        simp
  | removing todo =>
    cases todo with
    | nil =>
      rw [hphase] at hsound
      exact ⟨h.paths, h.removed, h.answers, Or.inr hsound.1⟩
    | cons t todo => exact h.removal hphase
  | stopped => exact h

theorem racedStep_sound (h : RaceSound run s) {a : RacedAction} (hfree : InstallsFree s a) :
    RaceSound run (racedStep run s a) := by
  by_cases ha : a = .reclaim
  · subst ha
    exact h.turn
  · exact h.beside (racedStep_beside ha hfree)

/-- The stage as a file system lists it: each session once, one file at a path. -/
structure Listing (stage : Stage H.Digest) : Prop where
  sessions : stage.sessions.Nodup
  paths : ∀ key, (stage.dir key).paths.Nodup

lemma RaceSound.start {site : Site H} (hlisting : Listing site.stage)
    (writes : List (SessionKey × Writing)) : RaceSound run (.start H site writes) := by
  refine ⟨fun key => ?_, by simp [RacedSite.start], by simp [RacedSite.start],
    ⟨rfl, rfl⟩, hlisting.sessions, by simp [RacedSite.start]⟩
  exact (hlisting.paths key).sublist (entry_paths_sublist _)

end Reclaim

section Runs
variable {run : ReclaimRun}

/-- A mirror that stands against nothing has its destination's newest snapshot, as the proof read
it, complete on disk. -/
lemma mirror_covers {candidates : List (Candidate H.Digest)} (hne : candidates ≠ [])
    {answers : List Answer} {holdback : MirrorHoldback}
    (h : mirrorBlock candidates (readyAnswers (answers.map (·.named H))) holdback = none) :
    ∃ a ∈ answers, a.declared.name = holdback.mirrorOf ∧ a.declared.health.isDegraded = false ∧
      holdback.copyOnDisk = true ∧ ∃ newest older, a.snapshots = newest :: older ∧
        newest.id ∈ holdback.closureComplete := by
  unfold mirrorBlock at h
  split at h
  next => cases h
  next name map proofs hfind =>
    obtain ⟨dest, hdest, hhealth, hname, hready⟩ :=
      mem_readyAnswers.mp (List.mem_of_find?_eq_some hfind)
    obtain ⟨a, ha, rfl⟩ := List.mem_map.mp hdest
    obtain hproofs : proofs = _ := (consult_ready rfl hready).2.2
    obtain ⟨cand, hcand⟩ := List.exists_mem_of_ne_nil _ hne
    have hcovered : holdback.copyOnDisk = true ∧ ∃ snapshot,
        proofs.lookup cand.key.machine = some snapshot ∧ snapshot ∈ holdback.closureComplete := by
      have hnil : candidates.filter (fun cand => !(holdback.copyOnDisk &&
          (proofs.lookup cand.key.machine).any (holdback.closureComplete.contains ·))) = [] := by
        by_contra hsome
        rw [if_neg hsome] at h
        cases h
      simpa [Option.any_eq_true] using List.filter_eq_nil_iff.mp hnil cand hcand
    obtain ⟨hdisk, snapshot, hlookup, hcomplete⟩ := hcovered
    rw [hproofs] at hlookup
    obtain ⟨m, hm, hsession⟩ := List.mem_flatMap.mp (mem_of_lookup_lastWins hlookup)
    obtain ⟨session, -, heq⟩ := List.mem_map.mp hsession
    obtain ⟨-, rfl⟩ := Prod.mk.inj heq
    obtain ⟨newest, older, hsnapshots, rfl⟩ := mem_readLatestPerMachine hm
    refine ⟨a, ha, ?_, hhealth, hdisk, newest, older, hsnapshots, hcomplete⟩
    exact hname.symm.trans (by simpa using List.find?_some hfind)

/-- Every declared destination was asked, and each that is not degraded, of which there is one, was
read to the end and its newest snapshot held all that was surveyed; and an enabled mirror has such a
snapshot of its destination. -/
structure AnswersProve (run : ReclaimRun) (s : RacedSite H) : Prop where
  asked : s.answers.map Answer.declared = run.declared
  healthy : ∃ a ∈ s.answers, a.declared.health.isDegraded = false
  held : ∀ a ∈ s.answers, a.declared.health.isDegraded = false →
    a.declared.read = .ok [] ∧ a.snapshots <:+ s.site.archive a.declared.name ∧
      ∀ e ∈ s.surveyed, NewestHolds a.snapshots (e.session H).expectation
  mirrored : ∀ holdback ∈ run.mirror, ∃ a ∈ s.answers, a.declared.name = holdback.mirrorOf ∧
    a.declared.health.isDegraded = false ∧ holdback.copyOnDisk = true ∧
      ∃ newest older, a.snapshots = newest :: older ∧ newest.id ∈ holdback.closureComplete

lemma RaceSound.answersProve {s : RacedSite H} (h : RaceSound run s) (hproved : s.Proved run)
    (hne : s.surveyed ≠ []) : AnswersProve run s := by
  obtain ⟨⟨dest, hdest, hhealth⟩, hall, hmirror⟩ := proveCandidates_passes.mp hproved.1
  obtain ⟨a, ha, rfl⟩ := List.mem_map.mp hdest
  refine ⟨hproved.2, ⟨a, ha, hhealth⟩, fun b hb hbhealth => ?_, fun holdback hholdback =>
    mirror_covers (by simpa using hne) (hmirror holdback hholdback)⟩
  obtain ⟨hread, hholds⟩ := (hall _ (List.mem_map_of_mem hb) hbhealth).newestHolds rfl
  exact ⟨hread, h.answers b hb, fun e he => hholds _ (List.mem_map_of_mem he)⟩

lemma RaceSound.surveyed_step {s : RacedSite H} (h : RaceSound run s) (hasked : s.answers ≠ [])
    (a : RacedAction) : (racedStep run s a).surveyed = s.surveyed := by
  have hsound := h.phase
  cases a with
  | reclaim =>
    simp only [racedStep, reclaimTurn]
    cases hphase : s.phase with
    | surveying todo =>
      rw [hphase] at hsound
      exact absurd hsound.1.1 hasked
    | reading key unread read todo =>
      rw [hphase] at hsound
      exact absurd hsound.1.1 hasked
    | consulting todo =>
      cases todo with
      | nil =>
        dsimp only
        split <;> rfl
      | cons dest todo => rfl
    | removing todo =>
      cases todo with
      | nil => rfl
      | cons t todo => cases t <;> rfl
    | stopped => rfl
  | start key source cap => rfl
  | proceed i =>
    simp only [racedStep]
    split <;> rfl
  | crash i => rfl
  | push dest stored => rfl

/-- In every run in which each shard installed finds its number free, every shard file removed is
one that the survey read, the survey stays as it is from the first answer on, and nothing at all is
removed unless the answers prove the whole survey. -/
theorem reclaim_removes_only_proven (run : ReclaimRun) (site : Site H)
    (hlisting : Listing site.stage) (writes : List (SessionKey × Writing))
    (actions : List RacedAction)
    (hfree : StepRun.Along (racedStep run) InstallsFree (.start H site writes) actions) :
    let s := StepRun.exec (racedStep run) (.start H site writes) actions
    (∀ r ∈ s.removed, ∃ e ∈ s.surveyed, e.key = r.1 ∧ r.2 ∈ e.read.map Prod.snd) ∧
      (s.answers ≠ [] → ∀ a, (racedStep run s a).surveyed = s.surveyed) ∧
      (s.removed ≠ [] → AnswersProve run s) := by
  intro s
  have hstep : ∀ (s : RacedSite H) a, RaceSound run s → InstallsFree s a →
      RaceSound run (racedStep run s a) := fun _ _ h hok => racedStep_sound h hok
  have h : RaceSound run s := StepRun.invariant hstep (.start hlisting writes) hfree
  refine ⟨h.removed, fun hasked a => h.surveyed_step hasked a, fun hremoved => ?_⟩
  have hproved : s.Proved run := by
    have hsound := h.phase
    cases hphase : s.phase with
    | surveying todo => rw [hphase] at hsound; exact absurd hsound.1.2 hremoved
    | reading key unread read todo => rw [hphase] at hsound; exact absurd hsound.1.2 hremoved
    | consulting todo => rw [hphase] at hsound; exact absurd hsound.1 hremoved
    | removing todo => rw [hphase] at hsound; exact hsound.1
    | stopped => rw [hphase] at hsound; exact hsound.resolve_left hremoved
  obtain ⟨r, hr⟩ := List.exists_mem_of_ne_nil _ hremoved
  obtain ⟨e, he, -⟩ := h.removed r hr
  exact h.answersProve hproved (List.ne_nil_of_mem he)

/-- A shard is sealed while the reclaim runs, and stays when the surveyed one goes. -/
theorem reclaim_removes_only_proven_beside_write :
    let d : SessionDir := ⟨.loaded 1, [⟨shardPathInDir 1 20, [97, 10]⟩]⟩
    let key : SessionKey := ⟨['m'], ['s']⟩
    let site : Site .verbatim := ⟨Stage.empty.setDir key d, fun _ => [⟨['p'], [(key, d.files)]⟩]⟩
    let run : ReclaimRun := ⟨[⟨['d'], .healthy, .ok []⟩], true, none, true, 0⟩
    let actions : List RacedAction := List.replicate 4 .reclaim ++
      [.start key (.inbox [[98]]) 20] ++ List.replicate 3 (.proceed 0) ++ List.replicate 5 .reclaim
    let s := StepRun.exec (racedStep run) (.start .verbatim site []) actions
    s.removed = [(key, ⟨shardPathInDir 1 20, [97, 10]⟩)] ∧
      (s.site.stage.dir key).files = [⟨shardPathInDir 2 20, [98, 10]⟩] ∧ AnswersProve run s := by
  intro d key site run actions s
  have hlisting : Listing site.stage := by
    refine ⟨by decide, fun key' => ?_⟩
    rw [Stage.dir_setDir]
    split
    next => decide
    next => exact List.nodup_nil
  have hremoved : s.removed = [(key, ⟨shardPathInDir 1 20, [97, 10]⟩)] := by decide +kernel
  have hrun := reclaim_removes_only_proven run site hlisting [] actions (by decide +kernel)
  exact ⟨hremoved, by decide +kernel, hrun.2.2 (by rw [hremoved]; simp)⟩

/-- An inbox write and a collect write that read the counter together get one number. The inbox
does not look before it renames, so its shard replaces the surveyed one and is removed for it. -/
theorem overlapping_write_is_removed_unproven :
    let key : SessionKey := ⟨['m'], ['s']⟩
    let site : Site .verbatim := ⟨Stage.empty.setDir key .empty, fun _ => []⟩
    let run : ReclaimRun := ⟨[⟨['d'], .healthy, .ok []⟩], true, none, true, 0⟩
    let s := StepRun.exec (racedStep run) (.start .verbatim site [])
      ([.start key (.store [97, 10] .collect false) 20, .start key (.inbox [[98]]) 20] ++
        List.replicate 4 (.proceed 0) ++ [.push ['d'] (some ['p'])] ++ List.replicate 7 .reclaim ++
        List.replicate 3 (.proceed 0) ++ List.replicate 3 .reclaim)
    s.surveyed.map Enumerated.read = [[(1, ⟨shardPathInDir 1 20, [97, 10]⟩)]] ∧
      s.removed = [(key, ⟨shardPathInDir 1 20, [98, 10]⟩)] ∧ (s.site.stage.dir key).files = [] ∧
        ∀ snap ∈ s.site.archive ['d'], ∀ held ∈ snap.sessions, ∀ f ∈ held.2, f.bytes = [97, 10] := by
  decide +kernel

end Runs

end ChatStasher
