import ChatStasher.Collect.StageLines

/-! Order and multiplicity of a source's lines on a stage that is never reclaimed. -/
namespace ChatStasher

variable {H : Sha256}

/-- The cursor stands behind whole lines that the sealed lines contain in order. -/
def CursorKept (H : Sha256) (lines : List Bytes) (c : OffsetEntry H.Digest) : Prop :=
  ∃ before, Terminated before ∧ H.digest before = c.prefixSha256 ∧ (linesOf before).Sublist lines

lemma CursorKept.mono {lines lines' : List Bytes} {c : OffsetEntry H.Digest}
    (h : CursorKept H lines c) (hsub : lines.Sublist lines') : CursorKept H lines' c := by
  obtain ⟨before, hterm, hsha, hlines⟩ := h
  exact ⟨before, hterm, hsha, hlines.trans hsub⟩

lemma CursorKept.zero (lines : List Bytes) (bytes : Bytes) :
    CursorKept H lines (cursorAt H bytes 0) :=
  ⟨[], Framing.terminated_nil newline, rfl, List.nil_sublist _⟩

lemma CursorKept.complete {lines : List Bytes} {bytes : Bytes}
    (h : (linesOf bytes).Sublist lines) :
    CursorKept H lines (cursorAt H bytes (completePart bytes).length) :=
  ⟨completePart bytes, completePart_terminated bytes,
    congrArg H.digest (take_completePart bytes).symm, by rwa [linesOf_completePart]⟩

section Pass
variable {source : SourceFile} {d d' : SessionDir} {shards : List (ℕ × Bytes)}
  {input : PassInput H.Digest} {old : Option (OffsetEntry H.Digest)} {forceReset reset : Bool}
  {base : ℕ} {processed : Processed H.Digest}

lemma ReadStart.kept {lines : List Bytes} {bytes : Bytes}
    (h : ReadStart H bytes old forceReset base reset) (hold : ∀ e ∈ old, CursorKept H lines e) :
    Terminated (bytes.take base) ∧ (linesOf (bytes.take base)).Sublist lines := by
  cases h with
  | cursor e he _ hreuse =>
    obtain ⟨before, hterm, hsha, hlines⟩ := hold e he
    obtain rfl : bytes.take e.offset = before := H.digest_injective (hreuse.digest.trans hsha.symm)
    exact ⟨hterm, hlines⟩
  | beginning => exact ⟨Framing.terminated_nil newline, List.nil_sublist _⟩

lemma startCursor_kept (hd : Staged d shards) (record : SessionRecord)
    (stored : Option (DebtEntry H.Digest)) (unverifiable : Bool)
    (hstored : ∀ e ∈ stored, CursorKept H (shardLines shards) e.cursor) :
    ∀ c ∈ startCursor H record source stored unverifiable d none,
      CursorKept H (shardLines shards) c := by
  have hposition : ∀ c ∈ stagePosition H source d none, CursorKept H (shardLines shards) c := by
    intro c hc
    simp only [stagePosition, Option.bind_none] at hc
    split at hc
    next => cases hc
    next =>
      obtain ⟨run, rfl, hpre, hterm, hinfix⟩ := jsonlPrefixEntryFromShards_spec hc
      refine ⟨sealFramedLines run, hterm, ?_, hinfix.sublist.trans ?_⟩
      · rw [cursorAt, ← List.prefix_iff_eq_take.mp hpre]
      · rw [hd.stageSealedShards_eq]
        have hframed : ∀ p ∈ readable shards, Terminated p.2 := fun p hp =>
          hd.framed p (List.mem_of_mem_filter hp)
        rw [← shardBytes, linesOf_shardBytes hframed]
        exact (shardLines_isPrefix (readable_isPrefix hd.sorted)).sublist
  intro c hc
  cases stored with
  | none =>
    simp only [startCursor] at hc
    split at hc
    next => cases hc
    next => exact hposition c hc
  | some entry =>
    simp only [startCursor, Option.mem_def, Option.some.injEq] at hc
    subst hc
    cases hcovered : (stagePosition H source d none).filter _ with
    | none => exact hstored entry rfl
    | some covered => exact hposition covered (Option.filter_eq_some_iff.mp hcovered).1

/-- One pass: the stage only gains shards at its end, the new cursor is kept, and the version just
read lies in the sealed lines in order. -/
theorem PassEffect.kept (hd : Staged d shards)
    (hread : ReadStart H source.bytes old forceReset base reset)
    (hold : ∀ e ∈ old, CursorKept H (shardLines shards) e)
    (h : PassEffect input none source.bytes d old base reset processed d') :
    ∃ shards', Staged d' shards' ∧ shards <+: shards' ∧ d.files <+: d'.files ∧
      Staged { d with counter := d'.counter } shards ∧
      CursorKept H (shardLines shards') processed.state ∧
      (linesOf source.bytes).Sublist (shardLines shards') := by
  obtain ⟨hterm, hbefore⟩ := hread.kept hold
  obtain ⟨hlinesOf, hcomplete⟩ := completePart_split hterm
  have hlen := length_completePart_split hterm hread.le_length
  cases h with
  | archived fact hfact => cases hfact
  | quiet state hnone hstate =>
    have hall : (linesOf source.bytes).Sublist (shardLines shards) := by
      rwa [hlinesOf, hnone, List.append_nil]
    refine ⟨shards, hd, List.prefix_refl _, List.prefix_refl _, hd, ?_, hall⟩
    rcases hstate with ⟨-, rfl⟩ | ⟨-, rfl⟩
    · cases old with
      | none => exact .zero _ source.bytes
      | some e => exact hold e rfl
    · exact .zero _ _
  | seals hsome data hbase hreset write d' hwrite =>
    have hne : completePart (source.bytes.drop base) ≠ [] := fun hnil =>
      hsome (linesOf_eq_nil.mpr hnil)
    rw [hlen]
    rcases hd.write (completePart_terminated _) hne hwrite with
      ⟨rfl, hallow, p, hp, hfound⟩ | ⟨rfl, hd'⟩
    · have hzero : base = 0 := by
        subst hbase hreset
        by_contra hpos
        have : data.reset = false := by
          by_contra hr
          exact hpos (hread.reset_eq (by simpa using hr))
        simp [allowsExactRepeat, this, Nat.pos_of_ne_zero hpos] at hallow
      have hall : (linesOf source.bytes).Sublist (shardLines shards) := by
        rw [hzero, List.drop_zero] at hfound
        rw [← linesOf_completePart, ← hfound]
        exact shardLines_sublist_of_mem (List.mem_of_mem_filter hp)
      exact ⟨shards, hd, List.prefix_refl _, List.prefix_refl _, hd, .complete hall, hall⟩
    · have hall : (linesOf source.bytes).Sublist (shardLines (shards ++
          [(d.lastSeq + 1, completePart (source.bytes.drop base))])) := by
        rw [hlinesOf, shardLines_append]
        refine hbefore.append ?_
        simp [shardLines]
      refine ⟨_, hd', List.prefix_append _ _, ?_, ⟨hd.skip, hd.framed, hd.nonempty⟩,
        .complete hall, hall⟩
      rw [hd.files_sealNext]
      exact List.prefix_append _ _

end Pass

section Runs
variable {ι : Type}

/-- The stage is in order, every debt's cursor stands behind lines it holds, and the cache and the
source are among the versions seen. -/
structure KeepsLines (s : CollectState H ι) (shards : List (ℕ × Bytes)) : Prop where
  staged : Staged s.dir shards
  cursors : ∀ dest, ∀ e ∈ s.debts dest, CursorKept H (shardLines shards) e.cursor
  cache : CacheSound H s.versions s.cache
  current : s.source ∈ s.versions

lemma CacheSound.mono {versions versions' : List SourceFile} {cache : Cache H}
    (h : CacheSound H versions cache) (hsub : versions ⊆ versions') :
    CacheSound H versions' cache := by
  intro e he
  obtain ⟨hmtime, v, hv, hrest⟩ := h e he
  exact ⟨hmtime, v, hsub hv, hrest⟩

theorem KeepsLines.passResult_eq {s : CollectState H ι} {shards : List (ℕ × Bytes)}
    (h : KeepsLines s shards) (hu : Unaliased s.versions) (dest : ι)
    (input : PassInput H.Digest) :
    ∃ out dir cache shards', passResult H s dest input = (some out, dir, cache) ∧
      Staged dir shards' ∧ shards <+: shards' ∧ s.dir.files <+: dir.files ∧
      Staged { s.dir with counter := dir.counter } shards ∧
      CursorKept H (shardLines shards') out.entry.cursor ∧
      CacheSound H s.versions cache ∧
      (linesOf s.source.bytes).Sublist (shardLines shards') := by
  obtain ⟨manifestFact, processed, dir, cache, base, reset, facts, hmanifest, hrun, hcache, hread,
    heffect, -⟩ := processRecordInner_spec hu h.current h.cache h.staged.toHolds input none none
      (s.debts dest)
  obtain rfl : manifestFact = none := by simpa using hmanifest
  obtain ⟨shards', hd', hgrow, hfiles, hskip, hcursor, hlines⟩ := heffect.kept h.staged hread
    (startCursor_kept h.staged _ _ _ (h.cursors dest))
  exact ⟨_, dir, cache, shards', hrun, hd', hgrow, hfiles, hskip, hcursor, hcache, hlines⟩

lemma KeepsLines.fresh (source : SourceFile) : KeepsLines (CollectState.fresh H ι source) [] :=
  ⟨.empty, by simp [CollectState.fresh], by simp [CollectState.fresh, CacheSound],
    List.mem_singleton_self _⟩

variable [DecidableEq ι]

lemma forall_debts_update {D : Type} {debts : ι → Option (DebtEntry D)} {P : DebtEntry D → Prop}
    (h : ∀ dest, ∀ e ∈ debts dest, P e) {dest : ι} {entry : DebtEntry D} (hentry : P entry) :
    ∀ dest', ∀ e ∈ Function.update debts dest (some entry) dest', P e := by
  intro dest' e he
  by_cases heq : dest' = dest
  · subst heq
    rw [Function.update_self] at he
    exact Option.some.inj he ▸ hentry
  · rw [Function.update_of_ne heq] at he
    exact h dest' e he

theorem collectStep_keepsLines {s : CollectState H ι} {shards : List (ℕ × Bytes)}
    (h : KeepsLines s shards) (a : CollectAction H ι)
    (hu : Unaliased (collectStep H s a).versions) :
    (∃ shards', KeepsLines (collectStep H s a) shards') ∧
      s.dir.files <+: (collectStep H s a).dir.files := by
  cases a with
  | write version =>
    exact ⟨⟨shards, h.staged, h.cursors, h.cache.mono (List.subset_cons_self _ _),
      List.mem_cons_self⟩, List.prefix_refl _⟩
  | pass dest input fate =>
    have hvers : (collectStep H s (.pass dest input fate)).versions = s.versions := by
      cases fate <;> rfl
    rw [hvers] at hu
    obtain ⟨out, dir, cache, shards', hrun, hd', hgrow, hfiles, hskip, hcursor, hcache, -⟩ :=
      h.passResult_eq hu dest input
    have hold : ∀ dest, ∀ e ∈ s.debts dest, CursorKept H (shardLines shards') e.cursor :=
      fun dest e he => (h.cursors dest e he).mono (shardLines_isPrefix hgrow).sublist
    have hnew : ∀ dest', ∀ e ∈ Function.update s.debts dest (some out.entry) dest',
        CursorKept H (shardLines shards') e.cursor :=
      forall_debts_update hold hcursor
    simp only [collectStep, hrun]
    cases fate with
    | completes => exact ⟨⟨shards', hd', hnew, hcache, h.current⟩, hfiles⟩
    | diesNumbered => exact ⟨⟨shards, hskip, h.cursors, h.cache, h.current⟩, List.prefix_refl _⟩
    | diesSealed => exact ⟨⟨shards', hd', hold, h.cache, h.current⟩, hfiles⟩
    | diesFlushing => exact ⟨⟨shards', hd', hnew, h.cache, h.current⟩, hfiles⟩

lemma versions_suffix (s : CollectState H ι) (actions : List (CollectAction H ι)) :
    s.versions <:+ (StepRun.exec (collectStep H) s actions).versions := by
  induction actions generalizing s with
  | nil => exact List.suffix_refl _
  | cons a actions ih =>
    refine List.IsSuffix.trans ?_ (ih (collectStep H s a))
    cases a with
    | write version => exact List.suffix_cons _ _
    | pass dest input fate => cases fate <;> exact List.suffix_refl _

lemma Unaliased.mono {versions versions' : List SourceFile} (h : Unaliased versions')
    (hsub : versions ⊆ versions') : Unaliased versions :=
  fun u hu v hv => h u (hsub hu) v (hsub hv)

theorem collect_runs_keepLines {s : CollectState H ι} {shards : List (ℕ × Bytes)}
    (h : KeepsLines s shards) (actions : List (CollectAction H ι))
    (hu : Unaliased (StepRun.exec (collectStep H) s actions).versions) :
    ∃ shards', KeepsLines (StepRun.exec (collectStep H) s actions) shards' := by
  induction actions generalizing s shards with
  | nil => exact ⟨shards, h⟩
  | cons a actions ih =>
    have hu' := hu.mono (versions_suffix (collectStep H s a) actions).subset
    obtain ⟨⟨shards', h'⟩, -⟩ := collectStep_keepsLines h a hu'
    exact ih h' hu

/-- Whatever rewrites and passes went before, every pass succeeds and leaves the complete lines of
the version it read in the sealed lines, in order and with their multiplicity; and no action
changes or removes a sealed file. -/
theorem collect_pass_keeps_lines (source : SourceFile) (actions : List (CollectAction H ι))
    (hu : Unaliased (StepRun.exec (collectStep H) (.fresh H ι source) actions).versions) :
    let s := StepRun.exec (collectStep H) (.fresh H ι source) actions
    (∀ dest input, (passResult H s dest input).1.isSome ∧
        (linesOf s.source.bytes).Sublist
          (sealedLines (collectStep H s (.pass dest input .completes)).dir)) ∧
      ∀ dest input fate, s.dir.files <+: (collectStep H s (.pass dest input fate)).dir.files := by
  intro s
  obtain ⟨shards, h⟩ := collect_runs_keepLines (KeepsLines.fresh source) actions hu
  constructor
  · intro dest input
    obtain ⟨out, dir, cache, shards', hrun, hd', -, -, -, -, -, hlines⟩ := h.passResult_eq hu dest input
    simp only [collectStep, s, hrun]
    exact ⟨rfl, by rwa [hd'.sealedLines_eq]⟩
  · intro dest input fate
    exact (collectStep_keepsLines h (.pass dest input fate) (by cases fate <;> exact hu)).2

/-- A turn repeated by an append, read for a second destination after the first. -/
theorem collect_pass_keeps_lines_of_repeat :
    let input : PassInput Sha256.verbatim.Digest := ⟨⟨['s'], true, false⟩, ['m'], 20, none⟩
    let s := StepRun.exec (collectStep .verbatim)
      (.fresh .verbatim ℕ ⟨[97, 10], some 0, 1⟩)
      [.pass 0 input .completes, .write ⟨[97, 10, 97, 10, 98], some 1, 1⟩, .pass 0 input .diesSealed]
    Unaliased s.versions ∧ linesOf s.source.bytes = [[97], [97]] ∧
      (linesOf s.source.bytes).Sublist
        (sealedLines (collectStep .verbatim s (.pass 1 input .completes)).dir) := by
  intro input s
  have hu : Unaliased s.versions := by decide
  have hrun := collect_pass_keeps_lines ⟨[97, 10], some 0, 1⟩ _ hu
  subst s
  exact ⟨hu, by decide, (hrun.1 1 input).2⟩

/-- A rewrite that keeps size, mtime and inode is not noticed: the pass answers from the cache and
the new line never reaches the stage. -/
theorem aliased_rewrite_is_not_sealed :
    let input : PassInput Sha256.verbatim.Digest := ⟨⟨['s'], false, false⟩, ['m'], 20, none⟩
    let s := StepRun.exec (collectStep .verbatim)
      (.fresh .verbatim ℕ ⟨[97, 10], some 0, 1⟩)
      [.pass 0 input .completes, .write ⟨[98, 10], some 0, 1⟩]
    (passResult .verbatim s 0 input).1.isSome ∧
      ¬ (linesOf s.source.bytes).Sublist
        (sealedLines (collectStep .verbatim s (.pass 0 input .completes)).dir) := by
  decide +kernel

end Runs

end ChatStasher
