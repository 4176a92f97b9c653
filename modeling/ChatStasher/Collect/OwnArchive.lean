import ChatStasher.Collect.LinesKept
import ChatStasher.Collect.SiteRuns

/-! Lines behind a debt's cursor stay on the stage or in an archive that every reclaim consulted. -/
namespace ChatStasher

variable {H : Sha256}

section Cursor

/-- The cursor stands behind whole lines of the source, all of them held. -/
def CursorHeld (H : Sha256) (held : Bytes → Prop) (bytes : Bytes) (c : OffsetEntry H.Digest) :
    Prop :=
  ∃ n ≤ bytes.length, c = cursorAt H bytes n ∧ Terminated (bytes.take n) ∧
    ∀ line ∈ linesOf (bytes.take n), held line

def FactHeld (H : Sha256) (held : Bytes → Prop) (fact : ShardFact H.Digest) : Prop :=
  ∃ part, fact = factOf H part ∧ (∀ p ∈ part, Terminated p.2) ∧ ∀ line ∈ shardLines part, held line

variable {held held' : Bytes → Prop} {bytes : Bytes} {c : OffsetEntry H.Digest}

lemma CursorHeld.mono (h : CursorHeld H held bytes c) (hsub : ∀ line, held line → held' line) :
    CursorHeld H held' bytes c := by
  obtain ⟨n, hn, hc, hterm, hlines⟩ := h
  exact ⟨n, hn, hc, hterm, fun line hline => hsub line (hlines line hline)⟩

lemma FactHeld.mono {fact : ShardFact H.Digest} (h : FactHeld H held fact)
    (hsub : ∀ line, held line → held' line) : FactHeld H held' fact := by
  obtain ⟨part, hpart, hterm, hlines⟩ := h
  exact ⟨part, hpart, hterm, fun line hline => hsub line (hlines line hline)⟩

lemma CursorHeld.append (h : CursorHeld H held bytes c) {bytes' : Bytes} (hpre : bytes <+: bytes') :
    CursorHeld H held bytes' c := by
  obtain ⟨n, hn, rfl, hterm, hlines⟩ := h
  obtain ⟨rest, rfl⟩ := hpre
  have htake : (bytes ++ rest).take n = bytes.take n := List.take_append_of_le_length hn
  refine ⟨n, ?_, cursorAt_of_isPrefix (List.prefix_append bytes rest) hn, ?_, ?_⟩
  · rw [List.length_append]
    omega
  · rwa [htake]
  · rwa [htake]

lemma CursorHeld.zero (bytes : Bytes) : CursorHeld H held bytes (cursorAt H bytes 0) :=
  ⟨0, Nat.zero_le _, rfl, Framing.terminated_nil newline, by simp⟩

lemma CursorHeld.complete (hlines : ∀ line ∈ linesOf bytes, held line) :
    CursorHeld H held bytes (cursorAt H bytes (completePart bytes).length) := by
  refine ⟨_, (completePart_isPrefix bytes).length_le, rfl, ?_, ?_⟩
  · rw [take_completePart]
    exact completePart_terminated bytes
  · rwa [take_completePart, linesOf_completePart]

end Cursor

section Pass
variable {source : SourceFile} {d d' : SessionDir} {shards : List (ℕ × Bytes)}
  {input : PassInput H.Digest} {old : Option (OffsetEntry H.Digest)} {forceReset reset : Bool}
  {base : ℕ} {processed : Processed H.Digest} {held : Bytes → Prop}
  {manifestFact : Option (ShardFact H.Digest)}

lemma stagePosition_held (hd : Staged d shards) (hstage : ∀ line ∈ shardLines shards, held line)
    (hrow : ∀ fact ∈ manifestFact, FactHeld H held fact) :
    ∀ c ∈ stagePosition H source d manifestFact, CursorHeld H held source.bytes c := by
  intro c hc
  simp only [stagePosition] at hc
  split at hc
  next =>
    obtain ⟨fact, hfact, hc⟩ := Option.mem_bind_iff.mp hc
    split at hc
    next hmatch =>
      obtain rfl := Option.some.inj hc
      obtain ⟨part, rfl, hterm, hlines⟩ := hrow fact hfact
      have htake : source.bytes.take (factOf H part).concatBytes = shardBytes part :=
        H.digest_injective hmatch.2
      refine ⟨_, hmatch.1.2, rfl, ?_, ?_⟩
      · rw [htake]
        exact terminated_shardBytes hterm
      · rw [htake, linesOf_shardBytes hterm]
        exact hlines
    next => cases hc
  next =>
    obtain ⟨run, rfl, hpre, hterm, hinfix⟩ := jsonlPrefixEntryFromShards_spec hc
    have htake := (List.prefix_iff_eq_take.mp hpre).symm
    refine ⟨_, hpre.length_le, rfl, htake.symm ▸ hterm, ?_⟩
    rw [htake]
    intro line hline
    have hframed : ∀ p ∈ readable shards, Terminated p.2 := fun p hp =>
      hd.framed p (List.mem_of_mem_filter hp)
    have hmem := hinfix.subset hline
    rw [hd.stageSealedShards_eq, ← shardBytes, linesOf_shardBytes hframed] at hmem
    exact hstage line ((shardLines_isPrefix (readable_isPrefix hd.sorted)).subset hmem)

lemma startCursor_held (hd : Staged d shards) (hstage : ∀ line ∈ shardLines shards, held line)
    (hrow : ∀ fact ∈ manifestFact, FactHeld H held fact) (record : SessionRecord)
    (stored : Option (DebtEntry H.Digest)) (unverifiable : Bool)
    (hstored : ∀ e ∈ stored, CursorHeld H held source.bytes e.cursor) :
    ∀ c ∈ startCursor H record source stored unverifiable d manifestFact,
      CursorHeld H held source.bytes c := by
  intro c hc
  cases stored with
  | none =>
    simp only [startCursor] at hc
    split at hc
    next => cases hc
    next => exact stagePosition_held hd hstage (by simp) c hc
  | some entry =>
    simp only [startCursor, Option.mem_def, Option.some.injEq] at hc
    subst hc
    cases hcovered : (stagePosition H source d manifestFact).filter _ with
    | none => exact hstored entry rfl
    | some covered =>
      exact stagePosition_held hd hstage hrow covered (Option.filter_eq_some_iff.mp hcovered).1

lemma ReadStart.held_before (h : ReadStart H source.bytes old forceReset base reset)
    (hold : ∀ e ∈ old, CursorHeld H held source.bytes e) :
    Terminated (source.bytes.take base) ∧ ∀ line ∈ linesOf (source.bytes.take base), held line := by
  cases h with
  | cursor e he _ hreuse =>
    obtain ⟨n, hn, rfl, hterm, hlines⟩ := hold e he
    exact ⟨hterm, hlines⟩
  | beginning => exact ⟨Framing.terminated_nil newline, by simp⟩

/-- One pass: the stage only gains shards at its end, and the new cursor stands behind lines that
were held before or are on the stage now. -/
theorem PassEffect.held_after (hd : Staged d shards)
    (hread : ReadStart H source.bytes old forceReset base reset)
    (hold : ∀ e ∈ old, CursorHeld H held source.bytes e)
    (hrow : ∀ fact ∈ manifestFact, FactHeld H held fact)
    (h : PassEffect input manifestFact source.bytes d old base reset processed d') :
    ∃ shards', Staged d' shards' ∧ shards <+: shards' ∧ d.files <+: d'.files ∧
      Staged { d with counter := d'.counter } shards ∧
      CursorHeld H (fun line => held line ∨ line ∈ shardLines shards') source.bytes
        processed.state := by
  obtain ⟨hterm, hbefore⟩ := hread.held_before hold
  obtain ⟨hlinesOf, hcomplete⟩ := completePart_split hterm
  have hlen := length_completePart_split hterm hread.le_length
  have hmono : ∀ {c : OffsetEntry H.Digest} {shards' : List (ℕ × Bytes)},
      CursorHeld H held source.bytes c →
      CursorHeld H (fun line => held line ∨ line ∈ shardLines shards') source.bytes c :=
    fun hc => hc.mono fun _ => Or.inl
  cases h with
  | archived fact hfact hbase hsha =>
    refine ⟨shards, hd, List.prefix_refl _, List.prefix_refl _, hd, hmono ?_⟩
    rw [hlen]
    refine .complete fun line hline => ?_
    obtain ⟨part, rfl, hpart, hlines⟩ := hrow fact hfact
    have hbytes : shardBytes part = completePart source.bytes := by
      rw [hbase, List.drop_zero] at hsha
      exact H.digest_injective hsha
    rw [← linesOf_completePart, ← hbytes, linesOf_shardBytes hpart] at hline
    exact hlines line hline
  | quiet state hnone hstate =>
    refine ⟨shards, hd, List.prefix_refl _, List.prefix_refl _, hd, hmono ?_⟩
    rcases hstate with ⟨-, rfl⟩ | ⟨-, rfl⟩
    · cases old with
      | none => exact .zero source.bytes
      | some e => exact hold e rfl
    · exact .zero source.bytes
  | seals hsome data hbase hreset write d' hwrite =>
    have hne : completePart (source.bytes.drop base) ≠ [] := fun hnil =>
      hsome (linesOf_eq_nil.mpr hnil)
    rw [hlen]
    have hall : ∀ {shards' : List (ℕ × Bytes)} {p : ℕ × Bytes}, p ∈ shards' →
        p.2 = completePart (source.bytes.drop base) → ∀ line ∈ linesOf source.bytes,
        held line ∨ line ∈ shardLines shards' := by
      intro shards' p hp hbody line hline
      rw [hlinesOf] at hline
      rcases List.mem_append.mp hline with hline | hline
      · exact Or.inl (hbefore line hline)
      · rw [← linesOf_completePart, ← hbody] at hline
        exact Or.inr ((shardLines_sublist_of_mem hp).subset hline)
    rcases hd.write (completePart_terminated _) hne hwrite with ⟨rfl, -, p, hp, hfound⟩ | ⟨rfl, hd'⟩
    · exact ⟨shards, hd, List.prefix_refl _, List.prefix_refl _, hd,
        .complete (hall (List.mem_of_mem_filter hp) hfound)⟩
    · refine ⟨_, hd', List.prefix_append _ _, ?_, ⟨hd.skip, hd.framed, hd.nonempty⟩,
        .complete (hall (List.mem_append_right shards (List.mem_singleton_self _)) rfl)⟩
      rw [hd.files_sealNext]
      exact List.prefix_append _ _

end Pass

section Held
variable {w : Watched} {D : Ident → Prop} {s : CollectSite H}

/-- The line is on the stage still, or in the archive of one of these destinations. -/
def Held (w : Watched) (D : Ident → Prop) (s : CollectSite H) (line : Bytes) : Prop :=
  OnStage w s line ∨ ∃ dest, D dest ∧ InArchive w s dest line

lemma onStage_iff {shards : List (ℕ × Bytes)} (hd : Staged (s.site.stage.dir w.key) shards)
    {line : Bytes} : OnStage w s line ↔ line ∈ shardLines shards := by
  have hbodies : ∀ body : Bytes, (∃ f ∈ (s.site.stage.dir w.key).files, f.bytes = body) ↔
      ∃ p ∈ shards, p.2 = body := by
    intro body
    rw [← List.mem_map, ← List.mem_map, hd.map_bytes]
  simp only [OnStage, completeLines_eq, shardLines, List.mem_flatMap]
  constructor
  · rintro ⟨f, hf, hline⟩
    obtain ⟨p, hp, hbody⟩ := (hbodies f.bytes).mp ⟨f, hf, rfl⟩
    exact ⟨p, hp, hbody ▸ hline⟩
  · rintro ⟨p, hp, hline⟩
    obtain ⟨f, hf, hbody⟩ := (hbodies p.2).mpr ⟨p, hp, rfl⟩
    exact ⟨f, hf, hbody ▸ hline⟩

lemma Held.mono {s' : CollectSite H} {line : Bytes} (h : Held w D s line)
    (hfiles : (s.site.stage.dir w.key).files ⊆ (s'.site.stage.dir w.key).files)
    (harchive : ∀ dest, s.site.archive dest ⊆ s'.site.archive dest) : Held w D s' line := by
  rcases h with ⟨f, hf, hline⟩ | ⟨dest, hdest, snap, hsnap, hheld⟩
  · exact Or.inl ⟨f, hfiles hf, hline⟩
  · exact Or.inr ⟨dest, hdest, snap, harchive dest hsnap, hheld⟩

/-- Wherever a debt, a row or the hash cache came from, what it speaks for is held. -/
structure LinesHeld (w : Watched) (D : Ident → Prop) (s : CollectSite H)
    (shards : List (ℕ × Bytes)) : Prop where
  site : SiteSound s.site
  staged : Staged (s.site.stage.dir w.key) shards
  archived : ∀ dest, ∀ snap ∈ s.site.archive dest, ∀ held ∈ snap.sessions, held.1 = w.key →
    ∀ f ∈ held.2, Terminated f.bytes
  grown : ∀ v ∈ s.versions, v.bytes <+: s.source.bytes
  current : s.source ∈ s.versions
  cache : CacheSound H s.versions s.cache
  cursors : ∀ dest, ∀ e ∈ s.debts dest, CursorHeld H (Held w D s) s.source.bytes e.cursor
  named : ∀ dest, ∀ e ∈ s.debts dest, ∃ part, e.shards = factOf H part ∧ ∀ p ∈ part, Terminated p.2
  rows : ∀ fact, (manifestFact s.site.stage w.key = some fact ∨ ∃ dest, s.rowAtStart dest = some fact) →
    FactHeld H (fun line => ∃ dest, D dest ∧ InArchive w s dest line) fact

lemma LinesHeld.unaliased {shards : List (ℕ × Bytes)} (h : LinesHeld w D s shards) :
    Unaliased s.versions := by
  rintro u hu v hv hid -
  have hlen : u.bytes.length = v.bytes.length := congrArg FileIdentity.size hid
  exact (List.prefix_of_prefix_length_le (h.grown u hu) (h.grown v hv) hlen.le).eq_of_length hlen

lemma LinesHeld.fresh (source : SourceFile) : LinesHeld w D (.fresh H source) [] where
  site := .empty
  staged := .empty
  archived := by simp [CollectSite.fresh, Site.empty]
  grown := by simp [CollectSite.fresh]
  current := List.mem_singleton_self _
  cache := by simp [CollectSite.fresh, CacheSound]
  cursors := by simp [CollectSite.fresh]
  named := by simp [CollectSite.fresh]
  rows := by simp [CollectSite.fresh, manifestFact, Site.empty, Stage.empty, Stage.manifest]

variable {shards : List (ℕ × Bytes)}

lemma LinesHeld.append (h : LinesHeld w D s shards) {version : SourceFile}
    (hpre : s.source.bytes <+: version.bytes) :
    LinesHeld w D (collectSiteStep w s (.append version)) shards where
  site := h.site
  staged := h.staged
  archived := h.archived
  grown := by
    intro v hv
    rcases List.mem_cons.mp hv with rfl | hv
    · exact List.prefix_refl _
    · exact (h.grown v hv).trans hpre
  current := List.mem_cons_self
  cache := h.cache.mono (List.subset_cons_self _ _)
  cursors := fun dest e he => (h.cursors dest e he).append hpre
  named := h.named
  rows := h.rows

lemma LinesHeld.start (h : LinesHeld w D s shards) (dest : Ident) :
    LinesHeld w D (collectSiteStep w s (.start dest)) shards := by
  refine ⟨h.site, h.staged, h.archived, h.grown, h.current, h.cache, h.cursors, h.named, ?_⟩
  rintro fact (hrow | ⟨dest', hstart⟩)
  · exact h.rows fact (Or.inl hrow)
  · by_cases heq : dest' = dest
    · subst heq
      simp only [collectSiteStep, Function.update_self] at hstart
      exact h.rows fact (Or.inl hstart)
    · simp only [collectSiteStep, Function.update_of_ne heq] at hstart
      exact h.rows fact (Or.inr ⟨dest', hstart⟩)

theorem LinesHeld.passResult_eq (h : LinesHeld w D s shards) (dest : Ident) (cap : ℕ)
    (remoteFacts : Option (Option (ShardFact H.Digest))) :
    ∃ out dir cache shards', sitePassResult w s dest cap remoteFacts = (some out, dir, cache) ∧
      Staged dir shards' ∧ shards <+: shards' ∧ (s.site.stage.dir w.key).files <+: dir.files ∧
      Staged { s.site.stage.dir w.key with counter := dir.counter } shards ∧
      CacheSound H s.versions cache ∧
      CursorHeld H (fun line => Held w D s line ∨ line ∈ shardLines shards') s.source.bytes
        out.entry.cursor ∧
      ∃ part, out.entry.shards = factOf H part ∧ ∀ p ∈ part, Terminated p.2 := by
  obtain ⟨manifestFact, processed, dir, cache, base, reset, facts, hmanifest, hrun, hcache, hread,
    heffect, hnamed⟩ := processRecordInner_spec h.unaliased h.current h.cache h.staged.toHolds
      ⟨w.record, w.machine, cap, remoteFacts⟩ (s.rowAtStart dest)
      (some (manifestFact s.site.stage w.key)) (s.debts dest)
  have hrow : ∀ fact ∈ manifestFact, FactHeld H (Held w D s) fact := by
    intro fact hfact
    refine (h.rows fact ?_).mono fun _ => Or.inr
    rcases hmanifest with rfl | hnow
    · exact Or.inr ⟨dest, hfact⟩
    · exact Or.inl (Option.some.inj hnow ▸ hfact)
  have hstage : ∀ line ∈ shardLines shards, Held w D s line := fun line hline =>
    Or.inl ((onStage_iff h.staged).mpr hline)
  obtain ⟨shards', hd', hgrow, hfiles, hskip, hcursor⟩ := heffect.held_after h.staged hread
    (startCursor_held h.staged hstage hrow _ _ _ (h.cursors dest)) hrow
  refine ⟨_, dir, cache, shards', hrun, hd', hgrow, hfiles, hskip, hcache, hcursor, ?_⟩
  rcases hnamed with rfl | ⟨e, he, rfl, -⟩
  · rw [hd'.shardFactInDir_eq]
    exact ⟨_, rfl, fun p hp => hd'.framed p (List.mem_of_mem_filter hp)⟩
  · exact h.named dest e he

/-- A step of the site that keeps what is held, and vouches for each row it wrote. -/
lemma LinesHeld.ofSite (h : LinesHeld w D s shards) {site : Site H} (hsite : SiteSound site)
    {shards' : List (ℕ × Bytes)} (hstaged : Staged (site.stage.dir w.key) shards')
    (harchived : ∀ dest, ∀ snap ∈ site.archive dest, ∀ held ∈ snap.sessions, held.1 = w.key →
      ∀ f ∈ held.2, Terminated f.bytes)
    (hsub : ∀ dest, s.site.archive dest ⊆ site.archive dest)
    (hheld : ∀ line, Held w D s line → Held w D { s with site } line)
    (hrow : ∀ fact, manifestFact site.stage w.key = some fact →
      manifestFact s.site.stage w.key = some fact ∨
        FactHeld H (fun line => ∃ dest, D dest ∧ InArchive w { s with site } dest line) fact) :
    LinesHeld w D { s with site } shards' := by
  have hold : ∀ fact, FactHeld H (fun line => ∃ dest, D dest ∧ InArchive w s dest line) fact →
      FactHeld H (fun line => ∃ dest, D dest ∧ InArchive w { s with site } dest line) fact :=
    fun fact hfact => hfact.mono fun line ⟨dest, hdest, snap, hsnap, hin⟩ =>
      ⟨dest, hdest, snap, hsub dest hsnap, hin⟩
  refine ⟨hsite, hstaged, harchived, h.grown, h.current, h.cache,
    fun dest e he => (h.cursors dest e he).mono hheld, h.named, ?_⟩
  rintro fact (hnow | hstart)
  · rcases hrow fact hnow with hbefore | hfact
    · exact hold fact (h.rows fact (Or.inl hbefore))
    · exact hfact
  · exact hold fact (h.rows fact (Or.inr hstart))

lemma LinesHeld.setDir (h : LinesHeld w D s shards) {d : SessionDir} {shards' : List (ℕ × Bytes)}
    (hd : Staged d shards') (hfiles : (s.site.stage.dir w.key).files <+: d.files) :
    LinesHeld w D (s.setDir w d) shards' := by
  have hdir : (s.site.stage.setDir w.key d).dir w.key = d := by rw [Stage.dir_setDir, if_pos rfl]
  refine h.ofSite (h.site.setDir w.key ⟨shards', hd.toHolds⟩) (hdir.symm ▸ hd) h.archived
    (fun _ => List.Subset.refl _) (fun line hline => hline.mono ?_ fun _ => List.Subset.refl _)
    fun fact hfact => Or.inl (manifestFact_setDir s.site.stage w.key w.key d ▸ hfact)
  dsimp only
  rw [hdir]
  exact hfiles.subset

lemma LinesHeld.saveDebt (h : LinesHeld w D s shards) (dest : Ident) (entry : DebtEntry H.Digest)
    (hcursor : CursorHeld H (Held w D s) s.source.bytes entry.cursor)
    (hnamed : ∃ part, entry.shards = factOf H part ∧ ∀ p ∈ part, Terminated p.2) :
    LinesHeld w D { s with debts := Function.update s.debts dest (some entry) } shards := by
  exact ⟨h.site, h.staged, h.archived, h.grown, h.current, h.cache,
    forall_debts_update h.cursors hcursor, forall_debts_update h.named hnamed, h.rows⟩

lemma LinesHeld.pass (h : LinesHeld w D s shards) (dest : Ident) (cap : ℕ)
    (remoteFacts : Option (Option (ShardFact H.Digest))) (fate : PassFate) :
    ∃ shards', LinesHeld w D (collectSiteStep w s (.pass dest cap remoteFacts fate)) shards' := by
  obtain ⟨out, dir, cache, shards', hrun, hd', hgrow, hfiles, hskip, hcache, hcursor, hnamed⟩ :=
    h.passResult_eq dest cap remoteFacts
  have hset := h.setDir hd' hfiles
  have hdebt := hset.saveDebt dest out.entry (hcursor.mono fun line hline => ?_) hnamed
  · simp only [collectSiteStep, hrun]
    cases fate with
    | completes => exact ⟨shards', { hdebt with cache := hcache }⟩
    | diesNumbered => exact ⟨shards, h.setDir hskip (List.prefix_refl _)⟩
    | diesSealed => exact ⟨shards', hset⟩
    | diesFlushing => exact ⟨shards', hdebt⟩
  · have hdir : (s.setDir w dir).site.stage.dir w.key = dir := by
      simp only [CollectSite.setDir, Stage.dir_setDir, if_true]
    rcases hline with hbefore | hnow
    · refine hbefore.mono ?_ fun _ => List.Subset.refl _
      rw [hdir]
      exact hfiles.subset
    · exact Or.inl ((onStage_iff (hdir.symm ▸ hd')).mpr hnow)

lemma LinesHeld.write (h : LinesHeld w D s shards) (key : SessionKey) (cap : ℕ)
    (source : ShardSource) (hok : key = w.key → Terminated source.raw ∧ source.raw ≠ []) :
    ∃ shards', LinesHeld w D (collectSiteStep w s (.site (.write key cap source))) shards' := by
  by_cases hkey : key = w.key
  · subst hkey
    obtain ⟨hterm, hne⟩ := hok rfl
    obtain ⟨shards', hd', hfiles⟩ := h.staged.write_any (H := H) cap hterm hne
    exact ⟨shards', h.setDir hd' hfiles⟩
  · have hdir : (siteStep s.site (.write key cap source)).stage.dir w.key =
        s.site.stage.dir w.key := by
      rw [siteStep, Stage.dir_setDir, if_neg (Ne.symm hkey)]
    refine ⟨shards, h.ofSite (siteStep_sound h.site _) (hdir.symm ▸ h.staged) h.archived
      (fun _ => List.Subset.refl _) (fun line hline => hline.mono ?_ fun _ => List.Subset.refl _)
      fun fact hfact => Or.inl (manifestFact_setDir s.site.stage key w.key _ ▸ hfact)⟩
    dsimp only
    rw [hdir]
    exact List.Subset.refl _

lemma LinesHeld.push (h : LinesHeld w D s shards) (dest : Ident) (stored : Option Ident) :
    LinesHeld w D (collectSiteStep w s (.site (.push dest stored))) shards := by
  cases stored with
  | none => exact h
  | some id =>
    have hsub : ∀ dest', s.site.archive dest' ⊆
        (siteStep s.site (.push dest (some id))).archive dest' := by
      intro dest'
      by_cases heq : dest' = dest
      · subst heq
        simp only [siteStep, Function.update_self]
        exact List.subset_cons_self _ _
      · simp only [siteStep, Function.update_of_ne heq]
        exact List.Subset.refl _
    refine h.ofSite (siteStep_sound h.site _) h.staged ?_ hsub
      (fun line hline => hline.mono (List.Subset.refl _) hsub) fun fact => Or.inl
    intro dest' snap hsnap held hheld hkey f hf
    by_cases heq : dest' = dest
    · subst heq
      simp only [siteStep, Function.update_self] at hsnap
      rcases List.mem_cons.mp hsnap with rfl | hsnap
      · rw [mem_takeSnapshot hheld, hkey] at hf
        exact h.staged.framed_file hf
      · exact h.archived dest' snap hsnap held hheld hkey f hf
    · simp only [siteStep, Function.update_of_ne heq] at hsnap
      exact h.archived dest' snap hsnap held hheld hkey f hf

lemma LinesHeld.inArchive_of_deletes (h : LinesHeld w D s shards) {run : ReclaimRun}
    (hdeletes : s.site.Deletes run) {declared : Declared} (hdeclared : declared ∈ run.declared)
    (hhealth : declared.health.isDegraded = false) (hne : s.site.shards w.key ≠ []) :
    ∀ line ∈ shardLines (readable shards), InArchive w s declared.name line := by
  intro line hline
  obtain ⟨newest, older, harchive, held, hheld, hkey, obs, hback, -, -, hsha⟩ :=
    hdeletes.newest_holds h.site hdeclared hhealth hne
  have hnewest : newest ∈ s.site.archive declared.name := harchive ▸ List.mem_cons_self
  obtain ⟨files, hperm, -, hbackedUp⟩ := sessionBackedUp_spec hback
  have hfiles : files ⊆ held.2 := fun f hf => List.mem_of_mem_filter (hperm.subset hf)
  have hreadable : ∀ p ∈ readable shards, Terminated p.2 := fun p hp =>
    h.staged.framed p (List.mem_of_mem_filter hp)
  have hconcat : (files.map StoredFile.bytes).flatten = shardBytes (readable shards) := by
    refine H.digest_injective (hbackedUp.symm.trans (hsha.trans ?_))
    rw [shardBytes, ← h.staged.stageSealedShards_eq]
    rfl
  have hterm : ∀ body ∈ files.map StoredFile.bytes, Terminated body := by
    intro body hbody
    obtain ⟨f, hf, rfl⟩ := List.mem_map.mp hbody
    exact h.archived declared.name newest hnewest held hheld hkey f (hfiles hf)
  rw [← linesOf_shardBytes hreadable, ← hconcat, linesOf,
    Framing.records_flatten newline hterm] at hline
  obtain ⟨body, hbody, hin⟩ := List.mem_flatMap.mp hline
  obtain ⟨f, hf, rfl⟩ := List.mem_map.mp hbody
  refine ⟨newest, hnewest, held, hheld, hkey, f, hfiles hf, ?_⟩
  rwa [completeLines_eq]

lemma Staged.withoutSealed {d : SessionDir} (h : Staged d shards) :
    Staged d.withoutSealed (shards.filter fun p => ¬ p.1 < 10 ^ 6) :=
  ⟨h.toHolds.withoutSealed, fun p hp => h.framed p (List.mem_of_mem_filter hp),
    fun p hp => h.nonempty p (List.mem_of_mem_filter hp)⟩

lemma LinesHeld.reclaim (h : LinesHeld w D s shards) {run : ReclaimRun}
    (hok : s.site.Deletes run → s.site.shards w.key ≠ [] →
      ∃ declared ∈ run.declared, declared.health.isDegraded = false ∧ D declared.name) :
    ∃ shards', LinesHeld w D (collectSiteStep w s (.site (.reclaim run))) shards' := by
  rcases h.site.reclaimStage run with ⟨-, hsame⟩ | ⟨hdeletes, hcleared⟩
  · refine ⟨shards, ?_⟩
    have hsite : siteStep s.site (.reclaim run) = s.site := by
      rw [siteStep, hsame]
    rw [collectSiteStep, hsite]
    exact h
  · obtain ⟨hdir, hfact⟩ := hcleared.cleared w.key trivial
    have hstage : (siteStep s.site (.reclaim run)).stage = (s.site.reclaimStage run).2 := rfl
    have hlines : ∀ line ∈ shardLines (readable shards), ∃ dest, D dest ∧ InArchive w s dest line := by
      intro line hline
      have hne : s.site.shards w.key ≠ [] := by
        intro hnil
        rw [Site.shards, h.staged.sortedEntries_map] at hnil
        rw [hnil] at hline
        cases hline
      obtain ⟨declared, hdeclared, hhealth, hD⟩ := hok hdeletes hne
      exact ⟨_, hD, h.inArchive_of_deletes hdeletes hdeclared hhealth hne line hline⟩
    refine ⟨_, h.ofSite (siteStep_sound h.site _)
      (hstage ▸ hdir ▸ h.staged.withoutSealed) h.archived (fun _ => List.Subset.refl _) ?_ ?_⟩
    · rintro line (hon | harchived)
      · by_cases hread : line ∈ shardLines (readable shards)
        · exact Or.inr (hlines line hread)
        · refine Or.inl ((onStage_iff (hstage ▸ hdir ▸ h.staged.withoutSealed)).mpr ?_)
          obtain ⟨p, hp, hline⟩ := List.mem_flatMap.mp ((onStage_iff h.staged).mp hon)
          refine List.mem_flatMap.mpr ⟨p, List.mem_filter.mpr ⟨hp, ?_⟩, hline⟩
          by_contra hsmall
          exact hread (List.mem_flatMap.mpr ⟨p, List.mem_filter.mpr ⟨hp, by simpa using hsmall⟩, hline⟩)
      · exact Or.inr harchived
    · intro fact hnow
      rw [hstage, hfact] at hnow
      split at hnow
      next hne =>
        obtain rfl := Option.some.inj hnow
        refine Or.inr ⟨_, h.staged.shardFactInDir_eq, fun p hp =>
          h.staged.framed p (List.mem_of_mem_filter hp), hlines⟩
      next => exact Or.inl hnow

end Held

section Runs
variable {w : Watched} {D : Ident → Prop} {s : CollectSite H} {shards : List (ℕ × Bytes)}

/-- The source only grows, and other writers put whole lines into its session. -/
def GrowsByLines (w : Watched) (s : CollectSite H) : CollectSiteAction H → Prop
  | .append version => s.source.bytes <+: version.bytes
  | .site (.write key _ source) => key = w.key → Terminated source.raw ∧ source.raw ≠ []
  | _ => True

/-- A reclaim that takes the session's body proves it against one of these destinations. -/
def ProvesTo (w : Watched) (D : Ident → Prop) (s : CollectSite H) : CollectSiteAction H → Prop
  | .site (.reclaim run) => s.site.Deletes run → s.site.shards w.key ≠ [] →
      ∃ declared ∈ run.declared, declared.health.isDegraded = false ∧ D declared.name
  | _ => True

instance GrowsByLines.decidable (w : Watched) (s : CollectSite H) :
    ∀ a, Decidable (GrowsByLines w s a)
  | .append version => inferInstanceAs (Decidable (s.source.bytes <+: version.bytes))
  | .start _ | .pass _ _ _ _ | .site (.push _ _) | .site (.reclaim _) =>
    inferInstanceAs (Decidable True)
  | .site (.write key _ source) =>
    inferInstanceAs (Decidable (key = w.key → Terminated source.raw ∧ source.raw ≠ []))

instance ProvesTo.decidable (w : Watched) (D : Ident → Prop) [DecidablePred D]
    (s : CollectSite H) : ∀ a, Decidable (ProvesTo w D s a)
  | .append _ | .start _ | .pass _ _ _ _ | .site (.push _ _) | .site (.write _ _ _) =>
    inferInstanceAs (Decidable True)
  | .site (.reclaim run) =>
    inferInstanceAs (Decidable (s.site.Deletes run → s.site.shards w.key ≠ [] →
      ∃ declared ∈ run.declared, declared.health.isDegraded = false ∧ D declared.name))

lemma provesTo_any (a : CollectSiteAction H) : ProvesTo w (fun _ => True) s a := by
  cases a with
  | site a =>
    cases a with
    | reclaim run =>
      intro hdeletes _
      obtain ⟨declared, hdeclared, hhealth⟩ := hdeletes.exists_consulted
      exact ⟨declared, hdeclared, hhealth, trivial⟩
    | write key cap source => trivial
    | push dest stored => trivial
  | append version => trivial
  | start dest => trivial
  | pass dest cap remoteFacts fate => trivial

theorem collectSiteStep_linesHeld (h : LinesHeld w D s shards) (a : CollectSiteAction H)
    (hgrows : GrowsByLines w s a) (hproves : ProvesTo w D s a) :
    ∃ shards', LinesHeld w D (collectSiteStep w s a) shards' := by
  cases a with
  | append version => exact ⟨shards, h.append hgrows⟩
  | start dest => exact ⟨shards, h.start dest⟩
  | pass dest cap remoteFacts fate => exact h.pass dest cap remoteFacts fate
  | site a =>
    cases a with
    | write key cap source => exact h.write key cap source hgrows
    | push dest stored => exact ⟨shards, h.push dest stored⟩
    | reclaim run => exact h.reclaim hproves

theorem collectSite_runs_linesHeld (source : SourceFile) (actions : List (CollectSiteAction H))
    (hgrows : StepRun.Along (collectSiteStep w) (GrowsByLines w) (.fresh H source) actions)
    (hproves : StepRun.Along (collectSiteStep w) (ProvesTo w D) (.fresh H source) actions) :
    ∃ shards, LinesHeld w D (StepRun.exec (collectSiteStep w) (.fresh H source) actions) shards := by
  have hstep : ∀ (s : CollectSite H) a, (∃ shards, LinesHeld w D s shards) →
      (GrowsByLines w s a ∧ ProvesTo w D s a) →
      ∃ shards, LinesHeld w D (collectSiteStep w s a) shards :=
    fun s a ⟨_, h⟩ hok => collectSiteStep_linesHeld h a hok.1 hok.2
  exact StepRun.invariant hstep ⟨[], .fresh source⟩ (hgrows.and hproves)

def RowAtHand (w : Watched) (s : CollectSite H) (row : Option (ShardFact H.Digest)) : Prop :=
  row = manifestFact s.site.stage w.key ∨ ∃ dest, row = s.rowAtStart dest

lemma LinesHeld.row (h : LinesHeld w D s shards) {row : Option (ShardFact H.Digest)}
    (hrow : RowAtHand w s row) :
    ∀ fact ∈ row, FactHeld H (fun line => ∃ dest, D dest ∧ InArchive w s dest line) fact := by
  rintro fact hfact
  rcases hrow with rfl | ⟨dest, rfl⟩
  · exact h.rows fact (Or.inl hfact)
  · exact h.rows fact (Or.inr ⟨dest, hfact⟩)

lemma LinesHeld.behind_cursor (h : LinesHeld w D s shards) {dest : Ident} {e : DebtEntry H.Digest}
    (he : e ∈ s.debts dest) :
    ∀ line ∈ linesOf (s.source.bytes.take e.cursor.offset), Held w D s line := by
  obtain ⟨n, -, hcursor, -, hlines⟩ := h.cursors dest e he
  rw [hcursor]
  exact hlines

lemma LinesHeld.behind_position (h : LinesHeld w D s shards) {dest : Ident}
    {e : DebtEntry H.Digest} (he : e ∈ s.debts dest) (verified : Bool)
    {row : Option (ShardFact H.Digest)} (hrow : RowAtHand w s row) :
    ∀ line ∈ linesOf (s.source.bytes.take (cursorOrStageCoveredPosition H s.cache s.source e verified
      (s.site.stage.dir w.key) row).1.offset), Held w D s line := by
  obtain ⟨position, cache, hposition, -, hstart⟩ := cursorOrStageCoveredPosition_eq h.unaliased
    h.current h.cache w.record e (!verified) (s.site.stage.dir w.key) row
  rw [Bool.not_not] at hposition
  have hstage : ∀ line ∈ shardLines shards, Held w D s line := fun line hline =>
    Or.inl ((onStage_iff h.staged).mpr hline)
  obtain ⟨n, -, rfl, -, hlines⟩ := startCursor_held h.staged hstage
    (fun fact hfact => (h.row hrow fact hfact).mono fun _ => Or.inr) w.record (some e) (!verified)
    (by rintro e' ⟨⟩; exact h.cursors dest e he) position hstart
  rw [hposition]
  exact hlines

lemma FactHeld.covers {held : Bytes → Prop} {fact : ShardFact H.Digest}
    (hfact : FactHeld H held fact) {part : List (ℕ × Bytes)} (hterm : ∀ p ∈ part, Terminated p.2)
    (hcovers : retainedSummaryCovers fact (factOf H part) = true) :
    ∀ line ∈ shardLines part, held line := by
  obtain ⟨rowPart, rfl, hrowTerm, hlines⟩ := hfact
  intro line hline
  refine hlines line ?_
  rw [retainedSummaryCovers, Bool.or_eq_true] at hcovers
  rcases hcovers with hsame | hcontains
  · have hbytes : shardBytes rowPart = shardBytes part := by
      simp only [sameShardPayload, factOf, Bool.and_eq_true, beq_iff_eq] at hsame
      exact H.digest_injective hsame.2
    rwa [← linesOf_shardBytes hrowTerm, hbytes, linesOf_shardBytes hterm]
  · rw [archiveContainsShards] at hcontains
    split at hcontains
    next => cases hcontains
    next =>
      obtain ⟨p, hp, hin⟩ := List.mem_flatMap.mp hline
      have hcontained := List.all_eq_true.mp hcontains _ (List.mem_map_of_mem hp)
      obtain ⟨q, hq, hqp⟩ := List.mem_map.mp (List.contains_iff_mem.mp hcontained)
      have hbody : q.2 = p.2 := H.digest_injective (congrArg ShardFingerprint.sha256 hqp)
      exact List.mem_flatMap.mpr ⟨q, hq, hbody ▸ hin⟩

lemma LinesHeld.behind_reclaimed (h : LinesHeld w D s shards) {dest : Ident}
    {e : DebtEntry H.Digest} (he : e ∈ s.debts dest) {row : Option (ShardFact H.Digest)}
    (hrow : RowAtHand w s row) {remoteFacts : Option (Option (ShardFact H.Digest))}
    (hverdict : verifyDebt H e w.machine (s.site.stage.dir w.key) remoteFacts row =
      .settledReclaimed) :
    ∀ id ∈ e.shards.shardIdentities, ∃ body, fingerprint H id.sequence body = id ∧
      Terminated body ∧ ∀ line ∈ linesOf body, ∃ dest, D dest ∧ InArchive w s dest line := by
  obtain ⟨part, hpart, hterm⟩ := h.named dest e he
  obtain ⟨fact, hfact, hcovers⟩ := verifyDebt_reclaimed hverdict
  rw [hpart] at hcovers ⊢
  intro id hid
  obtain ⟨p, hp, rfl⟩ := List.mem_map.mp hid
  exact ⟨p.2, rfl, hterm p hp, fun line hline => (h.row hrow fact hfact).covers hterm hcovers line
    ((shardLines_sublist_of_mem hp).subset hline)⟩

/-- In every run, each complete source line behind a stored cursor is on the stage or in some
archive; and for a destination that every reclaim of the session's body was proven against, it is on
the stage or in that archive, the same holds behind any position a pass resolves a cursor to, and
the contents of the shards a reclaimed debt names are in that archive. -/
theorem lines_behind_cursors_are_held (w : Watched) (source : SourceFile)
    (actions : List (CollectSiteAction H))
    (hgrows : StepRun.Along (collectSiteStep w) (GrowsByLines w) (.fresh H source) actions) :
    let s := StepRun.exec (collectSiteStep w) (.fresh H source) actions
    (∀ dest, ∀ e ∈ s.debts dest, ∀ line ∈ linesOf (s.source.bytes.take e.cursor.offset),
      OnStage w s line ∨ ∃ any, InArchive w s any line) ∧
    ∀ own, StepRun.Along (collectSiteStep w) (ProvesTo w (· = own)) (.fresh H source) actions →
      ∀ dest, ∀ e ∈ s.debts dest,
        (∀ line ∈ linesOf (s.source.bytes.take e.cursor.offset),
          OnStage w s line ∨ InArchive w s own line) ∧
        ∀ row, RowAtHand w s row →
          (∀ verified, ∀ line ∈ linesOf (s.source.bytes.take (cursorOrStageCoveredPosition H s.cache
            s.source e verified (s.site.stage.dir w.key) row).1.offset),
            OnStage w s line ∨ InArchive w s own line) ∧
          ∀ remoteFacts, verifyDebt H e w.machine (s.site.stage.dir w.key) remoteFacts row =
              .settledReclaimed →
            ∀ id ∈ e.shards.shardIdentities, ∃ body, fingerprint H id.sequence body = id ∧
              Terminated body ∧ ∀ line ∈ linesOf body, InArchive w s own line := by
  intro s
  constructor
  · intro dest e he line hline
    obtain ⟨shards, h⟩ := collectSite_runs_linesHeld source actions hgrows
      (hgrows.mono fun _ a _ => provesTo_any a)
    exact (h.behind_cursor he line hline).imp_right fun ⟨any, _, hin⟩ => ⟨any, hin⟩
  · intro own hproves dest e he
    obtain ⟨shards, h⟩ := collectSite_runs_linesHeld source actions hgrows hproves
    have hown : ∀ line, Held w (· = own) s line → OnStage w s line ∨ InArchive w s own line :=
      fun line hline => hline.imp_right fun ⟨_, heq, hin⟩ => heq ▸ hin
    refine ⟨fun line hline => hown line (h.behind_cursor he line hline), fun row hrow =>
      ⟨fun verified line hline => hown line (h.behind_position he verified hrow line hline), ?_⟩⟩
    intro remoteFacts hverdict id hid
    obtain ⟨body, hbody, hterm, hlines⟩ := h.behind_reclaimed he hrow hverdict id hid
    refine ⟨body, hbody, hterm, fun line hline => ?_⟩
    obtain ⟨_, rfl, hin⟩ := hlines line hline
    exact hin

/-- A line sealed, pushed and reclaimed, and another appended behind it. -/
theorem lines_behind_cursors_are_held_of_reclaimed :
    let w : Watched := ⟨['m'], ⟨['s'], true, false⟩⟩
    let s := StepRun.exec (collectSiteStep w) (.fresh .verbatim ⟨[97, 10], some 0, 1⟩)
      [.pass ['d'] 20 none .completes, .site (.push ['d'] (some ['a'])),
        .site (.reclaim ⟨[⟨['d'], .healthy, .ok []⟩], true, none, true, 0⟩),
        .append ⟨[97, 10, 98, 10], some 1, 1⟩]
    (s.debts ['d']).map (fun e => e.cursor.offset) = some 2 ∧ ∀ e ∈ s.debts ['d'],
      (∀ line ∈ linesOf (s.source.bytes.take e.cursor.offset),
        OnStage w s line ∨ InArchive w s ['d'] line) ∧
      ∀ id ∈ e.shards.shardIdentities, ∃ body, fingerprint .verbatim id.sequence body = id ∧
        Terminated body ∧ ∀ line ∈ linesOf body, InArchive w s ['d'] line := by
  intro w s
  refine ⟨by decide +kernel, fun e he => ?_⟩
  have hrun := (lines_behind_cursors_are_held (H := .verbatim) w ⟨[97, 10], some 0, 1⟩ _
    (by decide +kernel)).2 ['d'] (by decide +kernel) ['d'] e he
  refine ⟨hrun.1, (hrun.2 _ (Or.inl rfl)).2 none ?_⟩
  have hverdict : (s.debts ['d']).map (fun e => verifyDebt .verbatim e ['m'] (s.site.stage.dir w.key)
      none (manifestFact s.site.stage w.key)) = some .settledReclaimed := by
    decide +kernel
  rw [he] at hverdict
  exact Option.some.inj hverdict

/-- A reclaim does not ask a lagging destination, and the line is gone from the stage and missing in
its archive. And where the source repeats what was reclaimed, the newest snapshot proves the repeat
though its shard was never pushed. -/
theorem own_archive_lacks_line_and_shard :
    let w : Watched := ⟨['m'], ⟨['s'], true, false⟩⟩
    let lagging := StepRun.exec (collectSiteStep w) (.fresh .verbatim ⟨[97, 10], some 0, 1⟩)
      [.pass ['d'] 20 none .completes, .pass ['e'] 20 none .completes,
        .site (.push ['d'] (some ['a'])),
        .site (.reclaim ⟨[⟨['d'], .healthy, .ok []⟩, ⟨['e'], .lagging, .ok []⟩], true, none, true, 0⟩)]
    let repeated := StepRun.exec (collectSiteStep w) (.fresh .verbatim ⟨[97, 10], some 0, 1⟩)
      [.pass ['d'] 20 none .completes, .site (.push ['d'] (some ['a'])),
        .site (.reclaim ⟨[⟨['d'], .healthy, .ok []⟩], true, none, true, 0⟩),
        .append ⟨[97, 10, 97, 10], some 1, 1⟩, .start ['d'], .pass ['d'] 20 none .completes,
        .site (.reclaim ⟨[⟨['d'], .healthy, .ok []⟩], true, none, true, 0⟩)]
    ((lagging.debts ['e']).any (fun e => (linesOf (lagging.source.bytes.take e.cursor.offset)).contains
        [97]) ∧ ¬ OnStage w lagging [97] ∧ ¬ InArchive w lagging ['e'] [97]) ∧
      (repeated.debts ['d']).any (fun e =>
        verifyDebt .verbatim e ['m'] (repeated.site.stage.dir w.key) none
          (manifestFact repeated.site.stage w.key) == .settledReclaimed &&
        e.shards.shardIdentities.any fun id => id.sequence == 2) ∧
      ∀ snap ∈ repeated.site.archive ['d'], ∀ held ∈ snap.sessions, ∀ f ∈ held.2,
        shardNumber f.path.name = some 1 := by
  decide +kernel

end Runs

end ChatStasher
