import ChatStasher.RunOnce.Passes

/-! When a pass that pushes nothing leaves nothing behind. -/
namespace ChatStasher

variable {H : Sha256}

section Grow

lemma Holds.write_files {d : SessionDir} {shards : List (ℕ × Bytes)} (h : Holds d shards) (cap : ℕ)
    (source : ShardSource) : d.files <+: (writeShardInDir H d cap source).2.files := by
  rcases h.writeShard H cap source with ⟨-, -, hsame, -⟩ | ⟨-, hinstall⟩
  · rw [hsame]
  · rw [hinstall, h.files_sealNext]
    exact List.prefix_append _ _

lemma Holds.files_nodup {d : SessionDir} {shards : List (ℕ × Bytes)} (h : Holds d shards) :
    d.files.Nodup := by
  have hnumbers : (d.files.map fun f => (shardNumber f.path.name, f.bytes)).Nodup := by
    rw [h.files, List.nodup_iff_pairwise_ne, List.pairwise_map]
    refine h.sorted.imp fun hlt heq => ?_
    exact hlt.ne (Option.some.inj (congrArg Prod.fst heq))
  exact List.Nodup.of_map _ hnumbers

/-- Every session directory gains files at its end, and the stage stays sound. -/
structure StageGrows (site : Site H) (stage : Stage H.Digest) : Prop where
  sound : SiteSound { site with stage }
  files : ∀ key, (site.stage.dir key).files <+: (stage.dir key).files

variable {site : Site H} {stage : Stage H.Digest}

lemma StageGrows.refl (h : SiteSound site) : StageGrows site site.stage :=
  ⟨h, fun _ => List.prefix_refl _⟩

lemma StageGrows.write (h : StageGrows site stage) (key : SessionKey) (cap : ℕ)
    (source : ShardSource) :
    StageGrows site (stage.setDir key (writeShardInDir H (stage.dir key) cap source).2) := by
  obtain ⟨shards, hd⟩ := h.sound.holds key
  refine ⟨h.sound.setDir key (hd.write_exists cap source), fun key' => (h.files key').trans ?_⟩
  rw [stage.dir_setDir]
  split
  next heq => exact heq ▸ hd.write_files cap source
  next => exact List.prefix_refl _

lemma collectRecord_stage (acc : CollectReport × Stage H.Digest) (r : RecordWork) :
    (collectRecord H acc r).2 = match r.write with
      | none => acc.2
      | some (key, cap, source) =>
        acc.2.setDir key (writeShardInDir H (acc.2.dir key) cap source).2 := by
  unfold collectRecord
  cases r.write with
  | none => rfl
  | some w =>
    obtain ⟨key, cap, source⟩ := w
    dsimp only
    split <;> simp_all

lemma StageGrows.collect (work : List RecordWork) (acc : CollectReport × Stage H.Digest)
    (h : StageGrows site acc.2) :
    StageGrows site (work.foldl (collectRecord H) acc).2 := by
  induction work generalizing acc with
  | nil => exact h
  | cons r work ih =>
    refine ih _ ?_
    rw [collectRecord_stage]
    cases r.write with
    | none => exact h
    | some w => exact h.write _ _ _

lemma StageGrows.entries (h : StageGrows site stage) (key : SessionKey) :
    ∃ new, sealedShardEntries (stage.dir key) = sealedShardEntries (site.stage.dir key) ++ new ∧
      ∀ x ∈ new, x.2 ∉ (site.stage.dir key).files := by
  obtain ⟨files, hfiles⟩ := h.files key
  obtain ⟨shards, hd⟩ := h.sound.holds key
  refine ⟨files.filterMap fun f => (parseShardSeq f.path.name).map (·, f), ?_, fun x hx hin => ?_⟩
  · rw [sealedShardEntries, ← hfiles, List.filterMap_append]
    rfl
  · obtain ⟨f, hf, hparse⟩ := List.mem_filterMap.mp hx
    obtain ⟨seq, -, rfl⟩ := Option.map_eq_some_iff.mp hparse
    have hnodup : ((site.stage.dir key).files ++ files).Nodup := hfiles ▸ hd.files_nodup
    exact (List.nodup_append.mp hnodup).2.2 _ hin _ hf rfl

end Grow

section Copies
variable {s s' : RunOnceSite H}

def Taken (s : RunOnceSite H) (dest : Ident) (key : SessionKey) (f : StoredFile) : Prop :=
  ∃ snap ∈ s.site.archive dest, ∃ held ∈ snap.sessions, held.1 = key ∧ f ∈ held.2

/-- Copies have only files that the stage still has, and a destination's mark is off exactly while
they have every shard that readers see there. -/
structure CopiesSound (s : RunOnceSite H) : Prop where
  site : SiteSound s.site
  taken : ∀ dest, ∀ snap ∈ s.site.archive dest, ∀ held ∈ snap.sessions,
    held.2 ⊆ (s.site.stage.dir held.1).files
  current : ∀ dest, s.sealedSince dest = false ↔ ∀ key ∈ s.site.stage.sessions,
    ∀ x ∈ sealedShardEntries (s.site.stage.dir key), Taken s dest key x.2

lemma CopiesSound.fresh : CopiesSound (.fresh H) :=
  ⟨.empty, by simp [RunOnceSite.fresh, Site.empty], fun dest => by
    simp [RunOnceSite.fresh, Site.empty, Stage.empty]⟩

lemma CopiesSound.congr (h : CopiesSound s) (hsite : s'.site = s.site)
    (hsince : s'.sealedSince = s.sealedSince) : CopiesSound s' := by
  refine ⟨hsite ▸ h.site, hsite ▸ h.taken, fun dest => ?_⟩
  rw [hsince, h.current dest]
  simp only [Taken, hsite]

lemma SiteSound.mem_sessions {site : Site H} (h : SiteSound site) {key : SessionKey}
    {x : ℕ × StoredFile} (hx : x ∈ sealedShardEntries (site.stage.dir key)) :
    key ∈ site.stage.sessions := by
  refine h.stage.mem_sessions fun hnil => ?_
  have hmem := (List.perm_insertionSort (fun a b : ℕ × StoredFile => a.1 ≤ b.1)
    (sealedShardEntries (site.stage.dir key))).mem_iff.mpr hx
  rw [show List.insertionSort _ _ = sortedEntries (site.stage.dir key) from rfl, hnil] at hmem
  cases hmem

lemma CopiesSound.setStage (h : CopiesSound s) {stage : Stage H.Digest}
    (hgrows : StageGrows s.site stage) : CopiesSound (s.setStage stage) := by
  refine ⟨hgrows.sound, fun dest snap hsnap held hheld f hf =>
    (hgrows.files held.1).subset (h.taken dest snap hsnap held hheld hf), fun dest => ?_⟩
  have hsame : ∀ key, sealedShardEntries (stage.dir key) = sealedShardEntries (s.site.stage.dir key) ∨
      ∃ x ∈ sealedShardEntries (stage.dir key), ¬ Taken s dest key x.2 := by
    intro key
    obtain ⟨new, hnew, hfresh⟩ := hgrows.entries key
    cases new with
    | nil => exact Or.inl (by rw [hnew, List.append_nil])
    | cons x new =>
      refine Or.inr ⟨x, hnew ▸ List.mem_append_right _ List.mem_cons_self, ?_⟩
      rintro ⟨snap, hsnap, held, hheld, rfl, hin⟩
      exact hfresh x List.mem_cons_self (h.taken dest snap hsnap held hheld hin)
  simp only [RunOnceSite.setStage, Bool.or_eq_false_iff, h.current dest, sealsMore,
    List.any_eq_false, decide_eq_true_eq, ne_eq, not_not]
  constructor
  · rintro ⟨hold, hseals⟩ key hkey x hx
    rw [hseals key hkey] at hx
    exact hold key (h.site.mem_sessions hx) x hx
  · intro hall
    refine ⟨fun key hkey x hx => ?_, fun key hkey => ?_⟩
    · obtain ⟨new, hnew, -⟩ := hgrows.entries key
      have hx' : x ∈ sealedShardEntries (stage.dir key) := hnew ▸ List.mem_append_left _ hx
      exact hall key (hgrows.sound.mem_sessions hx') x hx'
    · rcases hsame key with heq | ⟨x, hx, hnot⟩
      · exact heq
      · exact absurd (hall key hkey x hx) hnot

lemma CopiesSound.copy (h : CopiesSound s) (dest id : Ident) (copies : Ident → List (List MetaFile)) :
    CopiesSound { s with
      site := siteStep s.site (.push dest (some id))
      copies
      sealedSince := Function.update s.sealedSince dest false } := by
  refine ⟨siteStep_sound h.site (.push dest (some id)), fun dest' snap hsnap held hheld => ?_,
    fun dest' => ?_⟩
  · by_cases heq : dest' = dest
    · subst heq
      simp only [siteStep, Function.update_self] at hsnap
      rcases List.mem_cons.mp hsnap with rfl | hsnap
      · exact fun f hf => mem_takeSnapshot hheld ▸ hf
      · exact h.taken dest' snap hsnap held hheld
    · simp only [siteStep, Function.update_of_ne heq] at hsnap
      exact h.taken dest' snap hsnap held hheld
  · by_cases heq : dest' = dest
    · subst heq
      simp only [Function.update_self, true_iff]
      intro key hkey x hx
      refine ⟨takeSnapshot s.site.stage id, ?_, (key, (s.site.stage.dir key).files),
        List.mem_map_of_mem hkey, rfl, (mem_sealedShardEntries.mp hx).1⟩
      simp only [siteStep, Function.update_self]
      exact List.mem_cons_self
    · simp only [Function.update_of_ne heq, h.current dest', Taken, siteStep]

theorem passStep_sound (h : CopiesSound s) (dest : Ident) (phase : PassPhase H.Digest)
    (a : RunOnceAction) : CopiesSound (passStep s dest phase a).1 := by
  unfold passStep
  split
  next work generations fails =>
    have hgrows := (StageGrows.refl h.site).collect work (⟨0, 0, 0, 0⟩, s.site.stage)
    replace hgrows := h.setStage hgrows
    dsimp only
    split <;> exact hgrows.congr rfl rfl
  next => exact h
  next => exact h.congr rfl rfl
  next => exact h
  next => exact h.congr rfl rfl
  next => exact h
  next => exact h.copy dest _ _
  next => exact h.congr rfl rfl
  next => exact h

theorem runOnceStep_sound (h : CopiesSound s) (a : RunOnceAction) :
    CopiesSound (runOnceStep s a) := by
  have hadvance : ∀ i, CopiesSound (s.advance i a) := by
    intro i
    unfold RunOnceSite.advance
    split
    next => exact h
    next dest phase _ => exact (passStep_sound h dest phase a).congr rfl rfl
  cases a with
  | write key cap source => exact h.setStage ((StageGrows.refl h.site).write key cap source)
  | start dest => exact h.congr rfl rfl
  | startPush dest => exact h.congr rfl rfl
  | kill i => exact h.congr rfl rfl
  | putMeta file => exact h.congr rfl rfl
  | removeMeta name => exact h.congr rfl rfl
  | collect i work generations fails => exact hadvance i
  | decide i => exact hadvance i
  | updateIndex i index => exact hadvance i
  | hash i writer => exact hadvance i
  | copy i stored => exact hadvance i
  | record i saved => exact hadvance i

end Copies

section Quiet
variable {s : RunOnceSite H} {dest : Ident}

/-- The archive has every file that the machine's record of pushed metadata is the digest of. -/
def RecordHeld (s : RunOnceSite H) (dest : Ident) : Prop :=
  match s.pushed with
  | .present hash => ∀ x ∈ hash, ∃ copy ∈ s.copies dest, ∃ f ∈ copy, (f.1, H.digest f.2) = x
  | _ => True

instance RecordHeld.decidable (s : RunOnceSite H) (dest : Ident) : Decidable (RecordHeld s dest) :=
  match h : s.pushed with
  | .present hash => decidable_of_iff
      (∀ x ∈ hash, ∃ copy ∈ s.copies dest, ∃ f ∈ copy, (f.1, H.digest f.2) = x)
      (by rw [RecordHeld, h])
  | .missing => isTrue (by rw [RecordHeld, h]; trivial)
  | .unreadable _ => isTrue (by rw [RecordHeld, h]; trivial)

def NoContent (s : RunOnceSite H) : Prop :=
  countStageShards H s.site.stage = 0 ∧ s.metadata = [] ∧ s.machineLogs = []

instance NoContent.decidable (s : RunOnceSite H) : Decidable (NoContent s) :=
  inferInstanceAs (Decidable (_ ∧ _))

/-- Either there is nothing to push, or no one has sealed a shard since the destination's last copy
and the record of pushed metadata is one of files that the destination has. -/
def Settled (s : RunOnceSite H) (dest : Ident) : Prop :=
  NoContent s ∨ s.sealedSince dest = false ∧ RecordHeld s dest

instance Settled.decidable (s : RunOnceSite H) (dest : Ident) : Decidable (Settled s dest) :=
  inferInstanceAs (Decidable (_ ∨ _))

lemma NoContent.nothingLeftBehind (h : NoContent s) (dest : Ident) : NothingLeftBehind s dest := by
  obtain ⟨hcount, hmeta, hlogs⟩ := h
  refine ⟨fun key hkey x hx => ?_, by simp [hmeta, hlogs]⟩
  have hnil : (sealedShardEntries (s.site.stage.dir key)).length = 0 :=
    List.sum_eq_zero_iff_forall_eq_nat.mp hcount _ (List.mem_map_of_mem hkey)
  rw [List.length_eq_zero_iff.mp hnil] at hx
  cases hx

lemma skips_iff {changed : Bool} : s.skips changed = true ↔ NoContent s ∨ changed = false ∧
    checkMetaChanged (computeMetaHash H s.metadata s.machineLogs) s.pushed = false := by
  simp only [RunOnceSite.skips, evaluateRunOnceChange, NoContent, Bool.not_eq_true',
    Bool.and_eq_false_iff, Bool.or_eq_false_iff, decide_eq_false_iff_not, not_lt,
    Nat.le_zero, Bool.not_eq_false', List.isEmpty_iff, and_assoc]

lemma metadata_held_iff
    (h : checkMetaChanged (computeMetaHash H s.metadata s.machineLogs) s.pushed = false) :
    (∀ f ∈ s.metadata ++ s.machineLogs, ∃ copy ∈ s.copies dest, f ∈ copy) ↔ RecordHeld s dest := by
  rcases checkMetaChanged_eq_false h with ⟨hnil, hpushed⟩ | ⟨hash, hpushed, hmem⟩
  · rw [hnil, RecordHeld, hpushed]
    simp
  · rw [RecordHeld, hpushed]
    constructor
    · intro hheld x hx
      obtain ⟨f, hf, rfl⟩ := (hmem x).mp hx
      obtain ⟨copy, hcopy, hin⟩ := hheld f hf
      exact ⟨copy, hcopy, f, hin, rfl⟩
    · intro hheld f hf
      obtain ⟨copy, hcopy, g, hin, heq⟩ := hheld _ ((hmem _).mpr ⟨f, hf, rfl⟩)
      obtain ⟨hname, hdigest⟩ := Prod.mk.inj heq
      have hgf : g = f := Prod.ext hname (H.digest_injective hdigest)
      exact ⟨copy, hcopy, hgf ▸ hin⟩

lemma CopiesSound.nothingLeftBehind_iff (h : CopiesSound s) {changed : Bool}
    (hskips : s.skips changed = true) : NothingLeftBehind s dest ↔ Settled s dest := by
  by_cases hempty : NoContent s
  · exact iff_of_true (hempty.nothingLeftBehind dest) (Or.inl hempty)
  · obtain ⟨-, hmeta⟩ := (skips_iff.mp hskips).resolve_left hempty
    rw [Settled, or_iff_right hempty, h.current dest, ← metadata_held_iff hmeta]
    rfl

end Quiet

section Runs

/-- A pass that pushes nothing leaves nothing behind exactly where all is settled for its
destination. -/
theorem quiet_pass_leaves_nothing_behind_iff (actions : List RunOnceAction) :
    let s : RunOnceSite H := StepRun.exec runOnceStep (.fresh H) actions
    ∀ (i : ℕ) (dest : Ident) (changed : Bool), s.passes[i]? = some (dest, .collected changed) →
      s.skips changed = true → (NothingLeftBehind s dest ↔ Settled s dest) := by
  intro s i dest changed _ hskips
  have hstep : ∀ (s : RunOnceSite H) a, CopiesSound s → CopiesSound (runOnceStep s a) :=
    fun _ a h => runOnceStep_sound h a
  exact (StepRun.invariant_all hstep .fresh actions).nothingLeftBehind_iff hskips

/-- The pass after one that pushed, with nothing new. -/
theorem quiet_pass_leaves_nothing_behind_of_pushed :
    let actions : List RunOnceAction := [.start ['d'],
      .collect 0 [⟨some (⟨['m'], ['s']⟩, 20, .store [97, 10] .collect false), false⟩] [] false,
      .decide 0, .updateIndex 0 (some [1]), .hash 0 [2], .copy 0 (some ['p']), .record 0 true,
      .start ['d'], .collect 0 [] [] false]
    let s := StepRun.exec runOnceStep (.fresh .verbatim) actions
    s.passes[0]? = some (['d'], .collected false) ∧ s.skips false = true ∧
      countStageShards .verbatim s.site.stage = 1 ∧ NothingLeftBehind s ['d'] := by
  intro actions s
  have hphase : s.passes[0]? = some (['d'], .collected false) := rfl
  have hskips : s.skips false = true := by decide +kernel
  have hiff := quiet_pass_leaves_nothing_behind_iff actions 0 ['d'] false hphase hskips
  exact ⟨hphase, hskips, by decide +kernel, hiff.mpr (by decide +kernel)⟩

/-- Passes are quiet with shards left behind that the inbox sealed, that another destination's pass
sealed and pushed, and that a failed push did not take. -/
theorem quiet_passes_leave_shards_behind :
    let pushed : List RunOnceAction := [.start ['d'],
      .collect 0 [⟨some (⟨['m'], ['s']⟩, 20, .store [97, 10] .collect false), false⟩] [] false,
      .decide 0, .updateIndex 0 (some [1]), .hash 0 [2], .copy 0 (some ['p']), .record 0 true]
    let quiet (dest : Ident) : List RunOnceAction := [.start dest, .collect 0 [] [] false]
    let inbox : List RunOnceAction := [.write ⟨['m'], ['i']⟩ 20 (.inbox [[98]])]
    let failed : List RunOnceAction := [.start ['d'],
      .collect 0 [⟨some (⟨['m'], ['s']⟩, 20, .store [98, 10] .collect false), false⟩] [] false,
      .decide 0, .updateIndex 0 (some [1]), .hash 0 [2], .copy 0 none]
    ∀ run ∈ [(['d'], pushed ++ inbox ++ quiet ['d']), (['e'], pushed ++ quiet ['e']),
        (['d'], pushed ++ failed ++ quiet ['d'])],
      let s := StepRun.exec runOnceStep (.fresh .verbatim) run.2
      s.passes[0]? = some (run.1, .collected false) ∧ s.skips false = true ∧
        ¬ NothingLeftBehind s run.1 := by
  decide +kernel

end Runs

end ChatStasher
