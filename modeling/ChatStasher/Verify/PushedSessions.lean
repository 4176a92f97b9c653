import ChatStasher.Store.HeldUnion
import ChatStasher.Verify.Reconcile

/-! A session that is pushed to one destination and does not grow after a reclaim took it. -/
namespace ChatStasher

variable {H : Sha256}

/-- The session is written only while no reclaim has taken it, to six-digit numbers, and reclaims
are proven against this one destination. -/
def GrowsFirst (key : SessionKey) (dest : Ident) (s : Site H) : SiteAction → Prop
  | .write key' _ _ => key' = key → manifestFact s.stage key = none ∧
      (s.stage.dir key).lastSeq + 1 < 10 ^ 6
  | .push _ _ => True
  | .reclaim run => ∀ declared ∈ run.declared, declared.name = dest

/-- All files ever written for the session: each snapshot of the destination has the first so many
of them, and the stage has all of them, or none once a reclaim took them. -/
structure Archived (key : SessionKey) (dest : Ident) (s : Site H) (all : List StoredFile)
    (shards : List (ℕ × Bytes)) : Prop where
  holds : Holds { s.stage.dir key with files := all } shards
  small : ∀ p ∈ shards, p.1 < 10 ^ 6
  pushed : ∀ snap ∈ s.archive dest, ∀ held ∈ snap.sessions, held.1 = key → held.2 <+: all
  stage : (manifestFact s.stage key = none ∧ (s.stage.dir key).files = all) ∨
    (manifestFact s.stage key = some (factOf H shards) ∧ shards ≠ [] ∧
      (s.stage.dir key).files = [] ∧
      ∃ snap ∈ s.archive dest, ∃ held ∈ snap.sessions, held.1 = key ∧ held.2 = all)

section Files
variable {d : SessionDir} {shards : List (ℕ × Bytes)}

lemma readable_of_small (h : ∀ p ∈ shards, p.1 < 10 ^ 6) : readable shards = shards :=
  List.filter_eq_self.mpr fun p hp => decide_eq_true (h p hp)

lemma Holds.file_name (h : Holds d shards) {f : StoredFile} (hf : f ∈ d.files) :
    ∃ p ∈ shards, f.path.name = shardFilename p.1 ∧ f.bytes = p.2 := by
  have hmem : (shardNumber f.path.name, f.bytes) ∈ shards.map fun p => (some p.1, p.2) := by
    rw [← h.files]
    exact List.mem_map_of_mem (f := fun f : StoredFile => (shardNumber f.path.name, f.bytes)) hf
  obtain ⟨p, hp, heq⟩ := List.mem_map.mp hmem
  obtain ⟨hnumber, hbytes⟩ := Prod.mk.inj heq
  exact ⟨p, hp, shardNumber_eq_some.mp hnumber.symm, hbytes.symm⟩

lemma Holds.isShardName (h : Holds d shards) {f : StoredFile} (hf : f ∈ d.files) :
    isShardName f.path.name = true := by
  obtain ⟨p, -, hname, -⟩ := h.file_name hf
  rw [hname, ChatStasher.isShardName, decide_eq_true_iff]
  exact List.suffix_append _ _

lemma Holds.parse_file (h : Holds d shards) (hsmall : ∀ p ∈ shards, p.1 < 10 ^ 6)
    {f : StoredFile} (hf : f ∈ d.files) :
    ∃ p ∈ shards, parseShardSeq f.path.name = some p.1 ∧ f.bytes = p.2 := by
  obtain ⟨p, hp, hname, hbytes⟩ := h.file_name hf
  exact ⟨p, hp, parseShardSeq_eq_some.mpr ⟨hname, hsmall p hp⟩, hbytes⟩

end Files

section Step
variable {key : SessionKey} {dest : Ident} {s : Site H} {all : List StoredFile}
  {shards : List (ℕ × Bytes)}

lemma Archived.files_prefix (h : Archived key dest s all shards) :
    (s.stage.dir key).files <+: all := by
  rcases h.stage with ⟨-, hfiles⟩ | ⟨-, -, hfiles, -⟩
  · rw [hfiles]
  · rw [hfiles]
    exact List.nil_prefix

lemma Archived.push (h : Archived key dest s all shards) (dest' : Ident) (stored : Option Ident) :
    Archived key dest (siteStep s (.push dest' stored)) all shards := by
  cases stored with
  | none => exact h
  | some id =>
    by_cases hdest : dest' = dest
    · subst hdest
      refine ⟨h.holds, h.small, ?_, ?_⟩
      · simp only [siteStep, Function.update_self]
        intro snap hsnap held hheld hkey
        rcases List.mem_cons.mp hsnap with rfl | hsnap
        · rw [mem_takeSnapshot hheld, hkey]
          exact h.files_prefix
        · exact h.pushed snap hsnap held hheld hkey
      · simp only [siteStep, Function.update_self]
        refine h.stage.imp_right ?_
        rintro ⟨hfact, hne, hfiles, snap, hsnap, hheld⟩
        exact ⟨hfact, hne, hfiles, snap, List.mem_cons_of_mem _ hsnap, hheld⟩
    · have harchive : (siteStep s (.push dest' (some id))).archive dest = s.archive dest :=
        Function.update_of_ne (Ne.symm hdest) _ _
      exact ⟨h.holds, h.small, harchive ▸ h.pushed, harchive ▸ h.stage⟩

lemma Archived.write (h : Archived key dest s all shards) (key' : SessionKey) (cap : ℕ)
    (source : ShardSource) (hok : GrowsFirst key dest s (.write key' cap source)) :
    ∃ all' shards', Archived key dest (siteStep s (.write key' cap source)) all' shards' := by
  by_cases hkey : key' = key
  · subst hkey
    obtain ⟨hnone, hlast⟩ := hok rfl
    rcases h.stage with ⟨-, hfiles⟩ | ⟨hfact, -⟩
    · subst hfiles
      have hd : Holds (s.stage.dir key') shards := h.holds
      have hdir : (siteStep s (.write key' cap source)).stage.dir key' =
          (writeShardInDir H (s.stage.dir key') cap source).2 := by
        rw [siteStep, Stage.dir_setDir, if_pos rfl]
      rcases hd.writeShard H cap source with ⟨-, -, hsame, -⟩ | ⟨-, hwrite⟩
      · rw [hsame] at hdir
        refine ⟨_, shards, ?_, h.small, ?_, Or.inl ⟨?_, rfl⟩⟩
        · rw [hdir]
          exact hd
        · rw [hdir]
          exact h.pushed
        · exact (manifestFact_setDir _ _ _ _).trans hnone
      · rw [hwrite] at hdir
        have hnew := hd.sealNext cap source.raw
        refine ⟨_, shards ++ [((s.stage.dir key').lastSeq + 1, source.raw)], ?_, ?_, ?_,
          Or.inl ⟨?_, rfl⟩⟩
        · rw [hdir]
          exact hnew
        · intro p hp
          rcases List.mem_append.mp hp with hp | hp
          · exact h.small p hp
          · rw [List.mem_singleton.mp hp]
            exact hlast
        · rw [hdir, hd.files_sealNext]
          exact fun snap hsnap held hheld hkey =>
            (h.pushed snap hsnap held hheld hkey).trans (List.prefix_append _ _)
        · exact (manifestFact_setDir _ _ _ _).trans hnone
    · rw [hfact] at hnone
      cases hnone
  · have hdir : (siteStep s (.write key' cap source)).stage.dir key = s.stage.dir key := by
      rw [siteStep, Stage.dir_setDir, if_neg (Ne.symm hkey)]
    have hfact : manifestFact (siteStep s (.write key' cap source)).stage key =
        manifestFact s.stage key := manifestFact_setDir _ _ _ _
    exact ⟨all, shards, hdir ▸ h.holds, h.small, h.pushed, by rw [hdir, hfact]; exact h.stage⟩

lemma Archived.reclaim (hs : SiteSound s) (h : Archived key dest s all shards) {run : ReclaimRun}
    (hok : GrowsFirst key dest s (.reclaim run)) :
    Archived key dest (siteStep s (.reclaim run)) all shards := by
  rcases hs.reclaimStage run with ⟨-, hsame⟩ | ⟨hdeletes, hcleared⟩
  · exact ⟨by rw [siteStep, hsame]; exact h.holds, h.small, h.pushed,
      by rw [siteStep, hsame]; exact h.stage⟩
  · obtain ⟨hdir, hfact⟩ := hcleared.cleared key trivial
    refine ⟨by rw [siteStep, hdir]; exact h.holds, h.small, h.pushed, ?_⟩
    rw [siteStep, hdir, hfact]
    rcases h.stage with ⟨hnone, rfl⟩ | ⟨hrow, hne, hfiles, hheld⟩
    · have hd : Holds (s.stage.dir key) shards := h.holds
      have hreadable := hd.sortedEntries_map
      rw [readable_of_small h.small] at hreadable
      by_cases hnil : shards = []
      · have hentries : sortedEntries (s.stage.dir key) = [] := by
          rw [hnil] at hreadable
          exact List.map_eq_nil_iff.mp hreadable
        rw [withoutSealed_of_nil hentries, if_neg (not_not.mpr hentries)]
        exact Or.inl ⟨hnone, rfl⟩
      · have hshards : s.shards key ≠ [] := fun hempty => hnil (hreadable.symm.trans hempty)
        have hentries : sortedEntries (s.stage.dir key) ≠ [] := fun hempty =>
          hshards (by rw [Site.shards, hempty]; rfl)
        rw [if_pos hentries, hd.shardFactInDir_eq, readable_of_small h.small]
        refine Or.inr ⟨rfl, hnil, ?_, ?_⟩
        · rw [SessionDir.withoutSealed, List.filter_eq_nil_iff]
          intro f hf hparse
          obtain ⟨p, -, hseq, -⟩ := hd.parse_file h.small hf
          rw [hseq] at hparse
          cases of_decide_eq_true hparse
        · obtain ⟨declared, hdeclared, hhealth⟩ := hdeletes.exists_consulted
          obtain ⟨newest, older, harchive, held, hheld, hkey, obs, hback, hcount, -⟩ :=
            hdeletes.newest_holds hs hdeclared hhealth hshards
          rw [hok declared hdeclared] at harchive
          have hsnap : newest ∈ s.archive dest := harchive ▸ List.mem_cons_self
          have hpre := h.pushed newest hsnap held hheld hkey
          obtain ⟨files, hperm, hobs, -⟩ := sessionBackedUp_spec hback
          -- as many shards as the stage has, so it is not a shorter state of the session
          have hlen : held.2.length = (s.stage.dir key).files.length := by
            refine le_antisymm hpre.length_le ?_
            rw [hd.files_length, ← readable_of_small h.small, ← hd.sortedEntries_length]
            calc (sortedEntries (s.stage.dir key)).length
                = obs.shardCount := hcount.symm
              _ = files.length := hobs
              _ = (held.2.filter fun f => isShardName f.path.name).length := hperm.length_eq
              _ ≤ held.2.length := List.length_filter_le _ _
          exact ⟨newest, hsnap, held, hheld, hkey, hpre.eq_of_length hlen⟩
    · have hentries : sortedEntries (s.stage.dir key) = [] :=
        sortedEntries_eq_nil.mpr fun f hf => by rw [hfiles] at hf; cases hf
      rw [withoutSealed_of_nil hentries, if_neg (not_not.mpr hentries)]
      exact Or.inr ⟨hrow, hne, hfiles, hheld⟩

theorem runs_archived (actions : List SiteAction)
    (hrun : StepRun.Along siteStep (GrowsFirst key dest) (.empty H) actions) :
    ∃ all shards, Archived key dest (StepRun.exec siteStep (.empty H) actions) all shards := by
  have hstep : ∀ (s : Site H) a, (SiteSound s ∧ ∃ all shards, Archived key dest s all shards) →
      GrowsFirst key dest s a →
      SiteSound (siteStep s a) ∧ ∃ all shards, Archived key dest (siteStep s a) all shards := by
    rintro s a ⟨hs, all, shards, h⟩ hok
    refine ⟨siteStep_sound hs a, ?_⟩
    cases a with
    | write key' cap source => exact h.write key' cap source hok
    | push dest' stored => exact ⟨all, shards, h.push dest' stored⟩
    | reclaim run => exact ⟨all, shards, h.reclaim hs hok⟩
  have hstart : Archived key dest (.empty H) [] [] :=
    ⟨Holds.empty, by simp, by simp [Site.empty], Or.inl ⟨rfl, rfl⟩⟩
  exact (StepRun.invariant hstep ⟨SiteSound.empty, _, _, hstart⟩ hrun).2

end Step

section Union
variable {d : SessionDir} {shards : List (ℕ × Bytes)}

lemma Holds.entries_sorted (h : Holds d shards) (hsmall : ∀ p ∈ shards, p.1 < 10 ^ 6)
    (key : SessionKey) :
    (d.files.map (archiveEntry key)).Pairwise fun a b =>
      archiveShardIdentity a < archiveShardIdentity b := by
  have hnumbers : (d.files.map fun f => (shardNumber f.path.name, f.bytes)).Pairwise fun a b =>
      ∀ m n, a.1 = some m → b.1 = some n → m < n := by
    rw [h.files, List.pairwise_map]
    refine h.sorted.imp fun {a b} hab m n hm hn => ?_
    rwa [Option.some.inj hm, Option.some.inj hn] at hab
  rw [List.pairwise_map] at hnumbers ⊢
  refine hnumbers.imp_of_mem fun {a b} ha hb hab => ?_
  obtain ⟨p, -, hp, -⟩ := h.parse_file hsmall ha
  obtain ⟨q, -, hq, -⟩ := h.parse_file hsmall hb
  exact archiveShardIdentity_lt hp hq
    (hab p.1 q.1 (shardNumber_of_parse hp) (shardNumber_of_parse hq))

lemma mem_entries {snap : Snapshot} {key : SessionKey} {e : ArchiveEntry} :
    e ∈ snap.entries key ↔ ∃ held ∈ snap.sessions, held.1 = key ∧
      ∃ f ∈ held.2, isShardName f.path.name = true ∧ archiveEntry key f = e := by
  simp only [Snapshot.entries, List.mem_map, List.mem_flatMap, List.mem_filter, decide_eq_true_eq]
  constructor
  · rintro ⟨f, ⟨held, ⟨hheld, hkey⟩, hf, hname⟩, rfl⟩
    exact ⟨held, hheld, hkey, f, hf, hname, rfl⟩
  · rintro ⟨held, hheld, hkey, f, hf, hname, rfl⟩
    exact ⟨f, ⟨held, ⟨hheld, hkey⟩, hf, hname⟩, rfl⟩

lemma mem_archiveEntries {snapshots : List Snapshot} {key : SessionKey} {e : ArchiveEntry} :
    e ∈ (snapshots.map (·.entries key)).flatten ↔ ∃ snap ∈ snapshots, e ∈ snap.entries key := by
  simp

end Union

section Archive
variable {key : SessionKey} {dest : Ident} {s : Site H} {all : List StoredFile}
  {shards : List (ℕ × Bytes)}

def StagePushed (s : Site H) (key : SessionKey) (dest : Ident) : Prop :=
  ∀ f ∈ (s.stage.dir key).files, ∃ snap ∈ s.archive dest, ∃ held ∈ snap.sessions,
    held.1 = key ∧ f ∈ held.2

instance StagePushed.decidable (s : Site H) (key : SessionKey) (dest : Ident) :
    Decidable (StagePushed s key dest) :=
  inferInstanceAs (Decidable (∀ f ∈ (s.stage.dir key).files, ∃ snap ∈ s.archive dest,
    ∃ held ∈ snap.sessions, held.1 = key ∧ f ∈ held.2))

lemma Archived.mem_pushed (h : Archived key dest s all shards) (hpushed : StagePushed s key dest)
    {e : ArchiveEntry} :
    e ∈ ((s.archive dest).map (·.entries key)).flatten ↔ e ∈ all.map (archiveEntry key) := by
  rw [mem_archiveEntries, List.mem_map]
  constructor
  · rintro ⟨snap, hsnap, hin⟩
    obtain ⟨held, hheld, hkey, f, hf, -, rfl⟩ := mem_entries.mp hin
    exact ⟨f, (h.pushed snap hsnap held hheld hkey).subset hf, rfl⟩
  · rintro ⟨f, hf, rfl⟩
    have hname : isShardName f.path.name = true := h.holds.isShardName hf
    have hheld : ∃ snap ∈ s.archive dest, ∃ held ∈ snap.sessions, held.1 = key ∧ f ∈ held.2 := by
      rcases h.stage with ⟨-, hfiles⟩ | ⟨-, -, -, snap, hsnap, held, hheld, hkey, hall⟩
      · exact hpushed f (hfiles.symm ▸ hf)
      · exact ⟨snap, hsnap, held, hheld, hkey, hall.symm ▸ hf⟩
    obtain ⟨snap, hsnap, held, hheld, hkey, hf⟩ := hheld
    exact ⟨snap, hsnap, mem_entries.mpr ⟨held, hheld, hkey, f, hf, hname, rfl⟩⟩

lemma Archived.heldEntries_eq (h : Archived key dest s all shards) {snapshots : List Snapshot}
    (hmem : ∀ e, e ∈ (snapshots.map (·.entries key)).flatten ↔ e ∈ all.map (archiveEntry key)) :
    heldEntries (snapshots.map (·.entries key)) = all.map (archiveEntry key) := by
  have hsorted := h.holds.entries_sorted h.small key
  exact ChatStasher.heldEntries_eq (identitiesApart_of_sorted hsorted fun e => (hmem e).mp) hsorted
    fun e => (hmem e).symm

lemma Archived.expected (hs : SiteSound s) (h : Archived key dest s all shards) (hne : all ≠ []) :
    ∃ expectations, loadExpectedManifest H s.stage = .ok expectations ∧
      (∃ e ∈ expectations, e.key = key) ∧ ∀ e ∈ expectations, e.key = key →
        e.triple = .ok ⟨key, all.length, (all.map StoredFile.bytes).flatten.length,
          H.digest (all.map StoredFile.bytes).flatten⟩ := by
  have hbytes := h.holds.map_bytes
  have hlen := h.holds.files_length
  dsimp only at hbytes hlen
  apply loadExpectedManifest_spec hs.stage
  rw [hbytes, hlen]
  rcases h.stage with ⟨-, hfiles⟩ | ⟨hfact, -, hfiles, -⟩
  · subst hfiles
    have hd : Holds (s.stage.dir key) shards := h.holds
    have hmap := hd.sortedEntries_map
    rw [readable_of_small h.small] at hmap
    refine Or.inl ⟨fun hnil => ?_, ?_⟩
    · rw [hnil] at hmap
      rw [← hmap] at hlen
      exact hne (List.eq_nil_of_length_eq_zero hlen)
    · have hconcat : (sortedEntries (s.stage.dir key)).map (fun e => e.2.bytes) =
          shards.map Prod.snd := by
        rw [← hmap, List.map_map]
        rfl
      have hcount : (sortedEntries (s.stage.dir key)).length = shards.length := by
        rw [← hmap, List.length_map]
      simp only [surveySession, hconcat, hcount]
  · refine Or.inr ⟨sortedEntries_eq_nil.mpr fun f hf => ?_, _, hfact, rfl⟩
    rw [hfiles] at hf
    cases hf

def entriesIn (snapshots : List Snapshot) (key : SessionKey) : List ArchiveEntry :=
  (snapshots.map (·.entries key)).flatten

lemma heldEntries_length_lt {pushed : List ArchiveEntry} (snapshots : List Snapshot)
    (hsorted : pushed.Pairwise fun a b => archiveShardIdentity a < archiveShardIdentity b)
    (hsub : ∀ e ∈ entriesIn snapshots key, e ∈ pushed) {lost : ArchiveEntry} (hlost : lost ∈ pushed)
    (hgone : lost ∉ entriesIn snapshots key) :
    (heldEntries (snapshots.map (·.entries key))).length < pushed.length := by
  have hmem : ∀ e, e ∈ heldEntries (snapshots.map (·.entries key)) ↔ e ∈ entriesIn snapshots key :=
    fun e => mem_heldEntries (identitiesApart_of_sorted hsorted hsub)
  have hnodup : (heldEntries (snapshots.map (·.entries key))).Nodup :=
    (heldEntries_sorted _).imp fun hlt heq => ne_of_lt hlt (congrArg archiveShardIdentity heq)
  have hsubperm := List.subperm_of_subset hnodup fun e he => hsub e ((hmem e).mp he)
  refine lt_of_le_of_ne hsubperm.length_le fun hlen => hgone ?_
  exact (hmem lost).mp ((hsubperm.perm_of_length_le hlen.ge).mem_iff.mpr hlost)

lemma flatten_bodies_ne {pushed : List ArchiveEntry} (hnodup : pushed.Nodup) {e : ArchiveEntry}
    (he : e ∈ pushed) {body : Bytes} (hbody : body ≠ e.body) :
    ((pushed.map fun x => if x = e then { e with body } else x).map ArchiveEntry.body).flatten ≠
      (pushed.map ArchiveEntry.body).flatten := by
  obtain ⟨before, after, rfl⟩ := List.append_of_mem he
  have hnot : ∀ x ∈ before ++ after, x ≠ e := by
    have := List.nodup_middle.mp hnodup
    exact fun x hx heq => (List.nodup_cons.mp this).1 (heq ▸ hx)
  have hkeep : ∀ l : List ArchiveEntry, (∀ x ∈ l, x ≠ e) →
      (l.map fun x => if x = e then { e with body } else x) = l := fun l hl =>
    (List.map_congr_left fun x hx => if_neg (hl x hx)).trans (List.map_id' l)
  rw [List.map_append, List.map_cons, if_pos rfl,
    hkeep before fun x hx => hnot x (List.mem_append_left _ hx),
    hkeep after fun x hx => hnot x (List.mem_append_right _ hx)]
  intro heq
  simp only [List.map_append, List.map_cons, List.flatten_append, List.flatten_cons,
    List.append_cancel_left_eq, List.append_cancel_right_eq] at heq
  exact hbody heq

lemma heldEntries_altered {pushed : List ArchiveEntry} {snapshots : List Snapshot}
    (hsorted : pushed.Pairwise fun a b => archiveShardIdentity a < archiveShardIdentity b)
    {e : ArchiveEntry} (he : e ∈ pushed) {body : Bytes}
    (hmem : ∀ x, x ∈ entriesIn snapshots key ↔ (x ∈ pushed ∧ x ≠ e) ∨ x = { e with body }) :
    heldEntries (snapshots.map (·.entries key)) =
      pushed.map fun x => if x = e then { e with body } else x := by
  have hidentity : ∀ x : ArchiveEntry, archiveShardIdentity
      (if x = e then { e with body } else x) = archiveShardIdentity x := by
    intro x
    split
    next heq => rw [heq]; rfl
    next => rfl
  have hsorted' : (pushed.map fun x => if x = e then { e with body } else x).Pairwise fun a b =>
      archiveShardIdentity a < archiveShardIdentity b := by
    rw [List.pairwise_map]
    simpa only [hidentity] using hsorted
  have hmem' : ∀ x, x ∈ pushed.map (fun x => if x = e then { e with body } else x) ↔
      x ∈ entriesIn snapshots key := by
    intro x
    rw [hmem, List.mem_map]
    constructor
    · rintro ⟨y, hy, rfl⟩
      by_cases hye : y = e
      · exact Or.inr (if_pos hye)
      · exact Or.inl (by rw [if_neg hye]; exact ⟨hy, hye⟩)
    · rintro (⟨hx, hne⟩ | rfl)
      · exact ⟨x, hx, if_neg hne⟩
      · exact ⟨e, he, if_pos rfl⟩
  exact ChatStasher.heldEntries_eq (identitiesApart_of_sorted hsorted' fun x => (hmem' x).mpr)
    hsorted' hmem'

/-- A session all of whose shards were pushed, whatever its snapshots hold by now: its row matches
exactly when their union has as many shards with the same bytes in all. So it matches when every
shard is kept; and it does not when one is lost and none added, or when one is altered. -/
theorem reconcile_row_of_pushed_session (actions : List SiteAction) (offlineMirror : Bool)
    (snapshots : List Snapshot)
    (hrun : StepRun.Along siteStep (GrowsFirst key dest) (.empty H) actions)
    (hpushed : StagePushed (StepRun.exec siteStep (.empty H) actions) key dest)
    (hne : entriesIn ((StepRun.exec siteStep (.empty H) actions).archive dest) key ≠ []) :
    let s := StepRun.exec siteStep (.empty H) actions
    let given := entriesIn (s.archive dest) key
    let pushed := heldEntries ((s.archive dest).map (·.entries key))
    let kept := heldEntries (snapshots.map (·.entries key))
    ∃ rows, reconcileManifest key.machine offlineMirror s.stage snapshots = .ok rows ∧
      (∃ row ∈ rows, row.key = key) ∧ ∀ row ∈ rows, row.key = key →
        (row.outcome = .isMatch ↔ kept.length = pushed.length ∧
          (kept.map ArchiveEntry.body).flatten = (pushed.map ArchiveEntry.body).flatten) ∧
        ((∀ e, e ∈ entriesIn snapshots key ↔ e ∈ given) → row.outcome = .isMatch) ∧
        ((∀ e ∈ entriesIn snapshots key, e ∈ given) → (∃ e ∈ given, e ∉ entriesIn snapshots key) →
          row.outcome ≠ .isMatch) ∧
        ∀ e ∈ given, ∀ body ≠ e.body,
          (∀ x, x ∈ entriesIn snapshots key ↔ (x ∈ given ∧ x ≠ e) ∨ x = { e with body }) →
          row.outcome ≠ .isMatch := by
  intro s given pushed kept
  obtain ⟨all, shards, h⟩ := runs_archived actions hrun
  have hgiven : ∀ e, e ∈ given ↔ e ∈ all.map (archiveEntry key) := fun e => h.mem_pushed hpushed
  have heq : pushed = all.map (archiveEntry key) := h.heldEntries_eq hgiven
  have hall : all ≠ [] := by
    rintro rfl
    obtain ⟨e, he⟩ := List.exists_mem_of_ne_nil _ hne
    simpa using (hgiven e).mp he
  have hsorted := h.holds.entries_sorted h.small key
  have hbodies : all.map StoredFile.bytes = pushed.map ArchiveEntry.body := by
    rw [heq, List.map_map]
    rfl
  obtain ⟨rows, hrows, hsome, hverdict⟩ := reconcileManifest_row offlineMirror snapshots
    (h.expected (site_runs_sound actions) hall)
  refine ⟨rows, hrows, hsome, fun row hrow hkey => ?_⟩
  have hmatch : row.outcome = .isMatch ↔ kept.length = pushed.length ∧
      (kept.map ArchiveEntry.body).flatten = (pushed.map ArchiveEntry.body).flatten := by
    rw [hverdict row hrow hkey, hbodies]
    have hlen : pushed.length = all.length := by rw [heq, List.length_map]
    rw [readCumulativeSessionRaw_eq]
    by_cases hkept : kept = []
    · have hpos : 0 < pushed.length := hlen ▸ List.length_pos_of_ne_nil hall
      simp only [show heldEntries (snapshots.map (·.entries key)) = [] from hkept, if_true,
        reduceCtorEq, false_and, exists_false, false_iff, not_and]
      intro hzero
      rw [hkept] at hzero
      exact absurd hzero hpos.ne
    · simp only [if_neg (show ¬ heldEntries (snapshots.map (·.entries key)) = [] from hkept),
        Option.some.injEq, exists_eq_left', SameTriple, H.digest_injective.eq_iff, hlen]
      exact ⟨fun h => ⟨h.1, h.2.2⟩, fun h => ⟨h.1, congrArg List.length h.2, h.2⟩⟩
  refine ⟨hmatch, fun hkeeps => ?_, ?_, ?_⟩
  · have hsame : kept = pushed := by
      rw [heq]
      exact h.heldEntries_eq fun e => (hkeeps e).trans (hgiven e)
    rw [hmatch, hsame]
    exact ⟨rfl, rfl⟩
  · rintro hsub ⟨lost, hlost, hgone⟩ hrowmatch
    have hlt := heldEntries_length_lt snapshots hsorted
      (fun e he => (hgiven e).mp (hsub e he)) ((hgiven lost).mp hlost) hgone
    exact absurd (hmatch.mp hrowmatch).1 (by rw [heq]; exact ne_of_lt hlt)
  · intro e he body hbody haltered hrowmatch
    have hkept : kept = _ := heldEntries_altered hsorted ((hgiven e).mp he)
      fun x => (haltered x).trans (by rw [hgiven])
    have hnodup : (all.map (archiveEntry key)).Nodup :=
      hsorted.imp fun hlt heq => ne_of_lt hlt (congrArg archiveShardIdentity heq)
    refine flatten_bodies_ne hnodup ((hgiven e).mp he) hbody ?_
    rw [← hkept, ← heq]
    exact (hmatch.mp hrowmatch).2

/-- The one shard of a session, reclaimed, is still matched through the retained row. -/
theorem reconcile_row_of_reclaimed_session :
    let s := StepRun.exec siteStep (.empty .verbatim) (sealPushReclaim ['a'] [97, 10])
    ∃ rows, reconcileManifest ['m'] false s.stage (s.archive ['d']) = .ok rows ∧
      ∃ row ∈ rows, row.key = ⟨['m'], ['s']⟩ ∧ row.outcome = .isMatch := by
  intro s
  have hrun : StepRun.Along siteStep (GrowsFirst ⟨['m'], ['s']⟩ ['d']) (.empty .verbatim)
      (sealPushReclaim ['a'] [97, 10]) :=
    ⟨fun _ => ⟨rfl, by decide⟩, trivial, by simp [GrowsFirst], trivial⟩
  obtain ⟨rows, hrows, ⟨row, hrow, hkey⟩, hall⟩ := reconcile_row_of_pushed_session
    (sealPushReclaim ['a'] [97, 10]) false (s.archive ['d']) hrun (by decide +kernel)
    (by decide +kernel)
  exact ⟨rows, hrows, row, hrow, hkey, (hall row hrow hkey).2.1 fun _ => Iff.rfl⟩

/-- The archive's two shards of a session, their common boundary moved: both are altered, and the
row still matches. And a session that grew after a reclaim took it: everything is kept, and the row
does not match. -/
theorem reconcile_row_of_moved_boundary_and_growth :
    let key : SessionKey := ⟨['m'], ['s']⟩
    let sealed := StepRun.exec siteStep (.empty .verbatim)
      [.write key 20 (.store [97, 10] .collect false),
        .write key 20 (.store [98, 10, 99, 10] .collect false), .push ['d'] (some ['a'])]
    let moved : List Snapshot := [⟨['a'], [(key, [⟨shardPathInDir 1 20, [97, 10, 98, 10]⟩,
      ⟨shardPathInDir 2 20, [99, 10]⟩])]⟩]
    let grown := StepRun.exec siteStep (.empty .verbatim)
      (sealPushReclaim ['a'] [97, 10] ++ (sealPushReclaim ['b'] [98, 10]).take 2)
    (StagePushed sealed key ['d'] ∧
        (∀ e ∈ entriesIn (sealed.archive ['d']) key, e ∉ entriesIn moved key) ∧
        (reconcileManifest ['m'] false sealed.stage moved).toOption.map
          (List.map ReconcileRow.outcome) = some [.isMatch]) ∧
      StagePushed grown key ['d'] ∧
        (reconcileManifest ['m'] false grown.stage (grown.archive ['d'])).toOption.map
          (List.map ReconcileRow.outcome) = some [.shardCountMismatch 1 2] := by
  decide +kernel

end Archive

end ChatStasher
