import ChatStasher.Library.StepRun
import ChatStasher.Store.WriterSteps

/-! Runs of shard writes, crashes and reclaims over one session directory. -/
namespace ChatStasher

/-- A session directory, the write in flight, and every sequence number a shard present at the
start or installed since has carried. -/
structure SealState where
  dir : SessionDir
  writing : Option Writing
  ever : List ℕ

def SealState.start (d : SessionDir) : SealState := ⟨d, none, d.shardNumbers⟩

inductive SealAction
  | start (source : ShardSource) (bucketCap : ℕ)
  | proceed
  | crash
  | reclaim (doomed : List ShardPath)

/-- A reclaim deletes any of the shards a reader sees; the counter stays. -/
def removeShards (d : SessionDir) (doomed : List ShardPath) : SessionDir :=
  { d with files := d.files.filter fun f =>
      ¬ (f.path ∈ doomed ∧ (parseShardSeq f.path.name).isSome) }

def SealState.after (s : SealState) (r : WriteStep) : SealState :=
  ⟨r.dir, r.writing, r.installed.toList ++ s.ever⟩

variable (H : Sha256)

def sealStep (s : SealState) : SealAction → SealState
  | .start source bucketCap =>
    match s.writing with
    | some _ => s
    | none => s.after (beginWrite H s.dir source bucketCap)
  | .proceed =>
    match s.writing with
    | none => s
    | some w => s.after (advanceWrite s.dir w)
  | .crash => { s with writing := none }
  | .reclaim doomed => { s with dir := removeShards s.dir doomed }

/-- The counter is never behind a sequence number that was ever used here. -/
structure Governed (d : SessionDir) (ever : List ℕ) : Prop where
  present : ∀ n ∈ d.shardNumbers, n ∈ ever
  nodup : d.shardNumbers.Nodup
  mark : ∀ highWater, highWaterMark d = some highWater → ∀ n ∈ ever, n ≤ highWater

def WritePhase.HasRoom : WritePhase → Prop
  | .counted highWater => highWater + 1 < 2 ^ 64
  | _ => True

instance : DecidablePred WritePhase.HasRoom
  | .counted highWater => inferInstanceAs (Decidable (highWater + 1 < 2 ^ 64))
  | .numbered _ | .staged _ | .checked _ => isTrue trivial

/-- A reclaim leaves the newest shard in a directory that has no counter file yet, and no counter
is advanced past `u64::MAX`. -/
def SealOk (s : SealState) : SealAction → Prop
  | .reclaim doomed => s.dir.counter = .missing →
      deriveShardHighWaterInDir (removeShards s.dir doomed) = deriveShardHighWaterInDir s.dir
  | .proceed => ∀ w ∈ s.writing, w.phase.HasRoom
  | _ => True

instance (s : SealState) : DecidablePred (SealOk s)
  | .reclaim doomed => inferInstanceAs (Decidable (s.dir.counter = .missing →
      deriveShardHighWaterInDir (removeShards s.dir doomed) = deriveShardHighWaterInDir s.dir))
  | .proceed => inferInstanceAs (Decidable (∀ w ∈ s.writing, w.phase.HasRoom))
  | .start _ _ | .crash => isTrue trivial

/-- What the counter holds for a write that has read it. -/
def PhaseSound (d : SessionDir) (ever : List ℕ) : WritePhase → Prop
  | .counted highWater => ∀ n ∈ ever, n ≤ highWater
  | .numbered seq => d.counter = .loaded seq ∧ ∀ n ∈ ever, n < seq
  | .staged seq => d.counter = .loaded seq ∧ ∀ n ∈ ever, n < seq
  | .checked seq => d.counter = .loaded seq ∧ ∀ n ∈ ever, n < seq

structure SealInv (s : SealState) : Prop where
  governed : Governed s.dir s.ever
  phase : ∀ w, s.writing = some w → PhaseSound s.dir s.ever w.phase

section Steps

lemma highWaterMark_loaded {d : SessionDir} {seq hw : ℕ} (h : d.counter = .loaded seq)
    (hw' : highWaterMark d = some hw) : hw = seq := by
  simpa [highWaterMark, h, eq_comm] using hw'

lemma Governed.congr {d e : SessionDir} {ever : List ℕ} (h : Governed d ever)
    (hfiles : e.shardFiles = d.shardFiles) (hcounter : e.counter = d.counter) :
    Governed e ever := by
  obtain ⟨hnum, hent⟩ := shardNumbers_congr hfiles
  refine ⟨hnum ▸ h.present, hnum ▸ h.nodup, fun hw hmark => h.mark hw ?_⟩
  rw [← hmark, highWaterMark, highWaterMark, hcounter, deriveShardHighWaterInDir,
    deriveShardHighWaterInDir, hent]

lemma Governed.notMem {d : SessionDir} {ever : List ℕ} (h : Governed d ever) {seq : ℕ}
    (hseq : ∀ n ∈ ever, n < seq) : seq ∉ d.shardNumbers :=
  fun hmem => lt_irrefl _ (hseq seq (h.present seq hmem))

lemma beginWrite_spec (d : SessionDir) (source : ShardSource) (cap : ℕ) :
    (beginWrite H d source cap).dir.shardFiles = d.shardFiles ∧
    (beginWrite H d source cap).dir.counter = d.counter ∧
    (beginWrite H d source cap).installed = none ∧
    ∀ w, (beginWrite H d source cap).writing = some w →
      ∃ highWater, w.phase = .counted highWater ∧ highWaterMark d = some highWater := by
  rw [beginWrite]
  split
  next => exact ⟨rfl, rfl, rfl, by simp⟩
  next =>
    have hclean : (if source.isInbox then cleanStaleTmp d else d).shardFiles = d.shardFiles := by
      split
      · exact shardFiles_cleanStaleTmp d
      · rfl
    have hcounter : (if source.isInbox then cleanStaleTmp d else d).counter = d.counter := by
      split <;> rfl
    have hmark : highWaterMark (if source.isInbox then cleanStaleTmp d else d) =
        highWaterMark d := by
      rw [highWaterMark, highWaterMark, hcounter, deriveShardHighWaterInDir,
        deriveShardHighWaterInDir, (shardNumbers_congr hclean).2]
    dsimp only
    cases hw : highWaterMark (if source.isInbox then cleanStaleTmp d else d) with
    | none => exact ⟨hclean, hcounter, rfl, by simp⟩
    | some highWater =>
      refine ⟨hclean, hcounter, rfl, fun w h => ⟨highWater, ?_, hmark ▸ hw⟩⟩
      cases h
      rfl

/-- A write that has its number either goes on without touching a shard file, or installs one new
shard file under that number and ends. -/
structure KeepsShards (d : SessionDir) (r : WriteStep) : Prop where
  files : r.dir.shardFiles = d.shardFiles
  counter : r.dir.counter = d.counter
  installed : r.installed = none

structure AddsShard (d : SessionDir) (r : WriteStep) (seq : ℕ) : Prop where
  files : ∃ f, r.dir.shardFiles = d.shardFiles ++ [f]
  numbers : r.dir.shardNumbers = d.shardNumbers ++ [seq]
  counter : r.dir.counter = d.counter
  installed : r.installed = some seq
  done : r.writing = none

lemma installShard_spec (d : SessionDir) (w : Writing) {seq : ℕ} (hfree : seq ∉ d.shardNumbers) :
    (KeepsShards d (installShard d w seq) ∧ (installShard d w seq).writing = none) ∨
      AddsShard d (installShard d w seq) seq := by
  have hrename : ∀ source, w.source = source → (∀ raw, source ≠ .active raw) →
      (KeepsShards d (installShard d w seq) ∧ (installShard d w seq).writing = none) ∨
        AddsShard d (installShard d w seq) seq := by
    intro source hs hnot
    have hr : installShard d w seq = (d.rename (tmpPath w.source seq w.bucketCap)
        (shardPathInDir seq w.bucketCap)).elim ⟨d, none, none⟩ fun d => ⟨d, none, some seq⟩ := by
      rw [installShard]
      cases hsrc : w.source with
      | active raw => exact absurd (hs ▸ hsrc) (hnot raw)
      | inbox lines => dsimp only; cases d.rename _ _ <;> rfl
      | store raw writer rep => dsimp only; cases d.rename _ _ <;> rfl
    rw [hr]
    cases he : d.rename (tmpPath w.source seq w.bucketCap) (shardPathInDir seq w.bucketCap) with
    | none => exact Or.inl ⟨⟨rfl, rfl, rfl⟩, rfl⟩
    | some e =>
      obtain ⟨hcounter, hnum, b, hfiles⟩ := rename_tmp he hfree
      exact Or.inr ⟨⟨_, hfiles⟩, hnum, hcounter, rfl, rfl⟩
  cases hs : w.source with
  | active raw =>
    refine Or.inr ?_
    rw [installShard, hs]
    exact ⟨⟨_, shardFiles_install hfree⟩, shardNumbers_install hfree, rfl, rfl, rfl⟩
  | inbox lines => exact hrename _ hs (by simp)
  | store raw writer rep => exact hrename _ hs (by simp)

def HoldsNumber (seq : ℕ) (r : WriteStep) : Prop :=
  ∀ w, r.writing = some w →
    w.phase = .numbered seq ∨ w.phase = .staged seq ∨ w.phase = .checked seq

lemma checkTarget_spec (d : SessionDir) (w : Writing) (seq : ℕ) :
    KeepsShards d (checkTarget d w seq) ∧ HoldsNumber seq (checkTarget d w seq) := by
  rw [checkTarget]
  split
  · exact ⟨⟨rfl, rfl, rfl⟩, by simp [HoldsNumber]⟩
  · refine ⟨⟨rfl, rfl, rfl⟩, fun v hv => ?_⟩
    cases hv
    exact Or.inr (Or.inr rfl)

theorem advanceWrite_spec (d : SessionDir) (w : Writing) {seq : ℕ} (hfree : seq ∉ d.shardNumbers)
    (hw : w.phase = .numbered seq ∨ w.phase = .staged seq ∨ w.phase = .checked seq) :
    (KeepsShards d (advanceWrite d w) ∧ HoldsNumber seq (advanceWrite d w)) ∨
      AddsShard d (advanceWrite d w) seq := by
  have hinstall := installShard_spec d w hfree
  have hdone : ∀ r : WriteStep, r.writing = none → HoldsNumber seq r := by
    intro r hr v hv
    rw [hr] at hv
    cases hv
  rcases hw with hw | hw | hw
  · refine Or.inl ?_
    cases hs : w.source with
    | active raw =>
      simp only [advanceWrite, hw, hs]
      exact checkTarget_spec d w seq
    | inbox lines =>
      simp only [advanceWrite, hw, hs]
      refine ⟨⟨shardFiles_installTmp .., rfl, rfl⟩, fun v hv => ?_⟩
      cases hv
      exact Or.inr (Or.inl rfl)
    | store raw writer rep =>
      simp only [advanceWrite, hw, hs]
      refine ⟨⟨shardFiles_installTmp .., rfl, rfl⟩, fun v hv => ?_⟩
      cases hv
      exact Or.inr (Or.inl rfl)
  · simp only [advanceWrite, hw]
    split
    · exact hinstall.imp_left fun h => ⟨h.1, hdone _ h.2⟩
    · exact Or.inl (checkTarget_spec d w seq)
  · simp only [advanceWrite, hw]
    exact hinstall.imp_left fun h => ⟨h.1, hdone _ h.2⟩

lemma advanceWrite_counted {d : SessionDir} {w : Writing} {highWater : ℕ}
    (hw : w.phase = .counted highWater) (hlt : highWater + 1 < 2 ^ 64) :
    advanceWrite d w = ⟨{ d with counter := .loaded (highWater + 1) },
      some { w with phase := .numbered (highWater + 1) }, none⟩ := by
  simp only [advanceWrite, hw, Nat.mod_eq_of_lt hlt]

lemma PhaseSound.of_numbered {d : SessionDir} {ever : List ℕ} {phase : WritePhase} {seq : ℕ}
    (hphase : phase = .numbered seq ∨ phase = .staged seq ∨ phase = .checked seq)
    (hcounter : d.counter = .loaded seq) (hever : ∀ n ∈ ever, n < seq) :
    PhaseSound d ever phase := by
  rcases hphase with rfl | rfl | rfl <;> exact ⟨hcounter, hever⟩

lemma Governed.addsShard {d : SessionDir} {ever : List ℕ} {r : WriteStep} {seq : ℕ}
    (h : Governed d ever) (hr : AddsShard d r seq) (hcounter : d.counter = .loaded seq)
    (hever : ∀ n ∈ ever, n < seq) : Governed r.dir (seq :: ever) := by
  refine ⟨fun n hn => ?_, ?_, fun hw hmark n hn => ?_⟩
  · rw [hr.numbers, List.mem_append, List.mem_singleton] at hn
    rcases hn with hn | rfl
    · exact List.mem_cons_of_mem _ (h.present n hn)
    · exact List.mem_cons_self
  · rw [hr.numbers]
    exact List.nodup_append.mpr ⟨h.nodup, by simp, fun a ha b hb heq => by
      rw [List.mem_singleton.mp hb] at heq
      exact h.notMem hever (heq ▸ ha)⟩
  · rw [highWaterMark_loaded (hr.counter.trans hcounter) hmark]
    rcases List.mem_cons.mp hn with rfl | hn
    · exact le_rfl
    · exact (hever n hn).le

lemma SealInv.advance {s : SealState} {w : Writing} (h : SealInv s) (hs : s.writing = some w)
    (hok : w.phase.HasRoom) : SealInv (s.after (advanceWrite s.dir w)) ∧
      s.dir.shardFiles <+: (advanceWrite s.dir w).dir.shardFiles := by
  have hphase := h.phase w hs
  have hnumbered : ∀ seq, (w.phase = .numbered seq ∨ w.phase = .staged seq ∨
      w.phase = .checked seq) → SealInv (s.after (advanceWrite s.dir w)) ∧
      s.dir.shardFiles <+: (advanceWrite s.dir w).dir.shardFiles := by
    intro seq hseq
    obtain ⟨hcounter, hever⟩ : s.dir.counter = .loaded seq ∧ ∀ n ∈ s.ever, n < seq := by
      rcases hseq with hseq | hseq | hseq <;> rw [hseq] at hphase <;> exact hphase
    rcases advanceWrite_spec s.dir w (h.governed.notMem hever) hseq with ⟨hkeep, hholds⟩ | hadd
    · refine ⟨⟨?_, fun v hv => ?_⟩, hkeep.files ▸ List.prefix_rfl⟩
      · simp only [SealState.after, hkeep.installed, Option.toList_none, List.nil_append]
        exact h.governed.congr hkeep.files hkeep.counter
      · simp only [SealState.after, hkeep.installed, Option.toList_none, List.nil_append]
        exact .of_numbered (hholds v hv) (hkeep.counter.trans hcounter) hever
    · obtain ⟨f, hf⟩ := hadd.files
      refine ⟨⟨?_, fun v hv => ?_⟩, hf ▸ List.prefix_append _ _⟩
      · simp only [SealState.after, hadd.installed, Option.toList_some, List.singleton_append]
        exact h.governed.addsShard hadd hcounter hever
      · simp only [SealState.after, hadd.done] at hv
        cases hv
  cases hw : w.phase with
  | counted highWater =>
    rw [hw] at hphase
    rw [hw] at hok
    rw [advanceWrite_counted hw hok]
    refine ⟨⟨⟨h.governed.present, h.governed.nodup, fun hwm hmark n hn => ?_⟩, fun v hv => ?_⟩,
      List.prefix_rfl⟩
    · rw [highWaterMark_loaded rfl hmark]
      exact Nat.le_succ_of_le (hphase n hn)
    · cases hv
      exact ⟨rfl, fun n hn => Nat.lt_succ_of_le (hphase n hn)⟩
  | numbered seq => exact hnumbered seq (Or.inl hw)
  | staged seq => exact hnumbered seq (Or.inr (Or.inl hw))
  | checked seq => exact hnumbered seq (Or.inr (Or.inr hw))

lemma shardNumbers_removeShards (d : SessionDir) (doomed : List ShardPath) :
    (removeShards d doomed).shardNumbers.Sublist d.shardNumbers :=
  List.filter_sublist.filterMap _

theorem sealStep_inv {s : SealState} {a : SealAction} (h : SealInv s) (hok : SealOk s a) :
    SealInv (sealStep H s a) := by
  cases a with
  | start source cap =>
    simp only [sealStep]
    cases hs : s.writing with
    | some w => exact h
    | none =>
      obtain ⟨hfiles, hcounter, hinstalled, hphase⟩ := beginWrite_spec H s.dir source cap
      refine ⟨?_, fun w hw => ?_⟩
      · simp only [SealState.after, hinstalled, Option.toList_none, List.nil_append]
        exact h.governed.congr hfiles hcounter
      · obtain ⟨highWater, hp, hmark⟩ := hphase w hw
        simp only [SealState.after, hinstalled, Option.toList_none, List.nil_append, hp]
        exact h.governed.mark highWater hmark
  | proceed =>
    simp only [sealStep]
    cases hs : s.writing with
    | none => exact h
    | some w => exact (h.advance hs (hok w hs)).1
  | crash => exact ⟨h.governed, by simp [sealStep]⟩
  | reclaim doomed =>
    have hsub := shardNumbers_removeShards s.dir doomed
    refine ⟨⟨fun n hn => h.governed.present n (hsub.subset hn), h.governed.nodup.sublist hsub,
      fun hw hmark => h.governed.mark hw ?_⟩, fun w hw => h.phase w hw⟩
    -- with a counter file the mark does not depend on the files at all
    cases hc : s.dir.counter with
    | missing =>
      rw [← hmark]
      simp only [sealStep, highWaterMark, removeShards, hc, Option.some.injEq]
      exact (hok hc).symm
    | loaded seq => simpa [sealStep, highWaterMark, removeShards, hc] using hmark
    | unusable => simp [sealStep, highWaterMark, removeShards, hc] at hmark

end Steps

def Allocates (s s' : SealState) (seq : ℕ) : Prop :=
  (∃ highWater, s.writing.map Writing.phase = some (.counted highWater)) ∧
    s'.writing.map Writing.phase = some (.numbered seq)

/-- In every run that lets a directory without a counter file keep its newest shard, and no counter
run past `u64::MAX`: the shards present have distinct numbers, a number handed out is above every
number used before, and nothing but a reclaim changes or removes a shard. -/
theorem seal_runs_never_reuse (d : SessionDir) (hd : Governed d d.shardNumbers)
    (actions : List SealAction) (hok : StepRun.Along (sealStep H) SealOk (.start d) actions) :
    let s := StepRun.exec (sealStep H) (.start d) actions
    s.dir.shardNumbers.Nodup ∧ ∀ a, SealOk s a →
      (∀ seq, Allocates s (sealStep H s a) seq → ∀ n ∈ s.ever, n < seq) ∧
      ((∀ doomed, a ≠ .reclaim doomed) →
        s.dir.shardFiles <+: (sealStep H s a).dir.shardFiles) := by
  intro s
  have hstart : SealInv (.start d) := ⟨hd, by simp [SealState.start]⟩
  have hs : SealInv s := StepRun.invariant (fun s a h ha => sealStep_inv H h ha) hstart hok
  refine ⟨hs.governed.nodup, fun a ha => ⟨?_, fun hnot => ?_⟩⟩
  · rintro seq ⟨⟨highWater, hcounted⟩, hnumbered⟩ n hn
    obtain ⟨w, hw, hp⟩ := Option.map_eq_some_iff.mp hcounted
    obtain ⟨v, hv, hvp⟩ := Option.map_eq_some_iff.mp hnumbered
    have hphase := hs.phase w hw
    rw [hp] at hphase
    cases a with
    | start source cap =>
      simp only [sealStep, hw, Option.some.injEq] at hv
      rw [← hv, hp] at hvp
      cases hvp
    | proceed =>
      have hroom := ha w hw
      rw [hp] at hroom
      simp only [sealStep, hw, SealState.after, advanceWrite_counted hp hroom,
        Option.some.injEq] at hv
      rw [← hv] at hvp
      cases hvp
      exact Nat.lt_succ_of_le (hphase n hn)
    | crash => cases hv
    | reclaim doomed =>
      simp only [sealStep, hw, Option.some.injEq] at hv
      rw [← hv, hp] at hvp
      cases hvp
  · cases a with
    | start source cap =>
      simp only [sealStep]
      cases hw : s.writing with
      | some w => exact List.prefix_rfl
      | none =>
        have hfiles := (beginWrite_spec H s.dir source cap).1
        exact hfiles ▸ List.prefix_rfl
    | proceed =>
      simp only [sealStep]
      cases hw : s.writing with
      | none => exact List.prefix_rfl
      | some w => exact (hs.advance hw (ha w hw)).2
    | crash => exact List.prefix_rfl
    | reclaim doomed => exact absurd rfl (hnot doomed)

/-- A directory with a counter: a second shard is written, both are reclaimed, and the next shard
still gets a number above both. -/
theorem seal_runs_never_reuse_after_reclaim :
    let d : SessionDir := ⟨.loaded 1, [⟨shardPathInDir 1 20, [97, 10]⟩]⟩
    let s := StepRun.exec (sealStep .verbatim) (.start d)
      [.start (.store [98, 10] .collect false) 20, .proceed, .proceed, .proceed, .proceed,
        .reclaim [shardPathInDir 1 20, shardPathInDir 2 20], .start (.inbox [[99]]) 1]
    s.ever = [2, 1] ∧ s.dir.shardNumbers.Nodup ∧ ∀ n ∈ s.ever, n < 3 := by
  intro d s
  have hd : Governed d d.shardNumbers := by
    refine ⟨fun n hn => hn, by decide, fun hw hmark n hn => ?_⟩
    obtain rfl : hw = 1 := highWaterMark_loaded rfl hmark
    obtain rfl : n = 1 := by simpa [show d.shardNumbers = [1] by decide] using hn
    exact le_rfl
  have hrun := seal_runs_never_reuse .verbatim d hd
    [.start (.store [98, 10] .collect false) 20, .proceed, .proceed, .proceed, .proceed,
      .reclaim [shardPathInDir 1 20, shardPathInDir 2 20], .start (.inbox [[99]]) 1] (by decide)
  exact ⟨by decide, hrun.1, (hrun.2 .proceed (by decide)).1 3 ⟨⟨2, by decide⟩, by decide⟩⟩

/-- A directory whose counter file is missing forgets the shards a reclaim removed: after shards 1
and 2 are reclaimed the next shard is numbered, and installed as, 1 again. -/
theorem reclaim_without_counter_reuses_sequence :
    let d : SessionDir :=
      ⟨.missing, [⟨shardPathInDir 1 20, [97, 10]⟩, ⟨shardPathInDir 2 20, [98, 10]⟩]⟩
    let s := StepRun.exec (sealStep .verbatim) (.start d)
      [.reclaim d.paths, .start (.store [99, 10] .collect false) 20]
    (Allocates s (sealStep .verbatim s .proceed) 1 ∧ s.ever = [1, 2]) ∧
      (StepRun.exec (sealStep .verbatim) s [.proceed, .proceed, .proceed, .proceed]).ever =
        [1, 1, 2] := by
  exact ⟨⟨⟨⟨0, by decide⟩, by decide⟩, by decide⟩, by decide⟩

end ChatStasher
