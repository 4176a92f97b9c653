import Mathlib.Data.List.Dedup
import ChatStasher.Readback.FastPath
import ChatStasher.Readback.MachineRead

/-! One body: the read of a session, the visitor of a machine's sessions and the report of every machine
give the same bytes for a session, or none of them knows it. -/
namespace ChatStasher.Readback
open Activity (DuplicateShardPolicy)

section Hosts
variable {snaps : List Snapshot}

lemma snapshotsByHost_nodup (snaps : List Snapshot) :
    ((snapshotsByHostNewestFirst snaps).map Prod.fst).Nodup := by
  rw [snapshotsByHostNewestFirst, List.map_map, Function.comp_def, List.map_id']
  exact (List.perm_insertionSort _ _).nodup_iff.mpr (List.nodup_dedup _)

lemma mem_snapshotsByHost {host : Ident × List Snapshot}
    (h : host ∈ snapshotsByHostNewestFirst snaps) :
    host.2 ≠ [] ∧ ∀ snap ∈ host.2, snap ∈ snaps ∧ snap.hostname = host.1 := by
  obtain ⟨name, hname, rfl⟩ := List.mem_map.mp h
  obtain ⟨snap, hsnap, rfl⟩ := List.mem_map.mp
    (List.mem_dedup.mp ((List.mem_insertionSort _).mp hname))
  refine ⟨fun hnil => ?_, fun other hother => ?_⟩
  · have hmem : snap ∈ (snaps.filter fun other => other.hostname = snap.hostname).insertionSort
        fun a b => b.time ≤ a.time :=
      (List.mem_insertionSort _).mpr (List.mem_filter.mpr ⟨hsnap, by simp⟩)
    dsimp only at hnil
    rw [hnil] at hmem
    cases hmem
  · simpa using (List.mem_insertionSort _).mp hother

end Hosts

section Legible

/-- Every snapshot of the archive can be listed, every file of it dumped, and every provenance file
parsed. -/
structure Archive.Legible (rules : ReadRules) (archive : Archive) : Prop where
  trees : ∀ snap ∈ archive.snapshots, ∀ tree ∈ snap.trees, archive.readable tree = true
  files : ∀ snap ∈ archive.snapshots, ∀ e ∈ snap.entries, archive.dumpError e.2 = none
  provenance : ∀ snap ∈ archive.snapshots, ∀ e ∈ snap.entries, ∀ machine,
    isProvenancePath e.1 machine = true → ∃ rows, rules.parseObservations e.2.bytes = .ok rows

variable {rules : ReadRules} {archive : Archive} {machine session : Ident}
  {policy : DuplicateShardPolicy} {kept : Ident → Bool} {snapshots : List Snapshot}

lemma Archive.Legible.load (h : archive.Legible rules) {snap : Snapshot}
    (hsnap : snap ∈ archive.snapshots) {e : Path × Node} (he : e ∈ snap.entries)
    (hmeta : isMetadata machine policy e = true) :
    ∃ rows, loadObservations rules archive e.2 = .ok rows := by
  rw [isMetadata, Bool.and_eq_true, Bool.and_eq_true] at hmeta
  obtain ⟨hfile, -, hprovenance⟩ := hmeta
  obtain ⟨rows, hrows⟩ := h.provenance snap hsnap e he machine hprovenance
  rw [loadObservations, dump_eq_ok (h.files snap hsnap e he) hfile]
  dsimp only
  rw [hrows]
  exact ⟨_, rfl⟩

lemma Archive.Legible.fullEntries_eq (h : archive.Legible rules) {snap : Snapshot}
    (hsnap : snap ∈ archive.snapshots) : fullEntries archive snap = .ok snap.entries := by
  rw [fullEntries, Snapshot.ls_eq_ok (h.trees snap hsnap)]
  rfl

lemma Archive.Legible.walkMachine (h : archive.Legible rules)
    (hsnaps : ∀ snap ∈ snapshots, snap ∈ archive.snapshots) :
    ∃ walk : MachineWalk rules, snapshots.foldlM (fun walk snap => do
        let entries ← fullEntries archive snap
        entries.foldlM (meetMachineEntry archive machine policy kept) walk)
          (MachineWalk.start rules) = .ok walk ∧
      walk.Holds archive machine policy kept (snapshots.flatMap Snapshot.entries) := by
  suffices hsuff : ∀ (walk : MachineWalk rules) (entries : List (Path × Node)),
      walk.Holds archive machine policy kept entries →
      ∃ walk', snapshots.foldlM (fun walk snap => do
        let entries ← fullEntries archive snap
        entries.foldlM (meetMachineEntry archive machine policy kept) walk) walk = .ok walk' ∧
        walk'.Holds archive machine policy kept (entries ++ snapshots.flatMap Snapshot.entries) by
    simpa using hsuff _ [] MachineWalk.Holds.start
  induction snapshots with
  | nil => exact fun walk entries hwalk => ⟨walk, rfl, by simpa using hwalk⟩
  | cons snap snapshots ih =>
    intro walk entries hwalk
    obtain ⟨hsnap, hrest⟩ := List.forall_mem_cons.mp hsnaps
    obtain ⟨met, hmet, hholds⟩ := hwalk.meetAll fun e he => h.load hsnap he
    obtain ⟨walk', hwalk', hholds'⟩ := ih hrest met _ hholds
    refine ⟨walk', ?_, by simpa using hholds'⟩
    rw [List.foldlM_cons, h.fullEntries_eq hsnap]
    exact (congrArg (· >>= _) hmet).trans hwalk'

lemma walkHosts_ok
    (htrees : ∀ snap ∈ snapshots, ∀ tree ∈ snap.trees, archive.readable tree = true)
    (hload : ∀ snap ∈ snapshots, ∀ e ∈ snap.entries, isMetadata machine policy e = true →
      ∃ rows, loadObservations rules archive e.2 = .ok rows) :
    ∃ walk : MachineWalk rules, snapshots.foldlM (walkHost archive policy machine kept)
        (MachineWalk.start rules, []) = .ok (walk, []) ∧
      walk.Holds archive machine policy kept (snapshots.flatMap Snapshot.entries) := by
  suffices hsuff : ∀ (walk : MachineWalk rules) (entries : List (Path × Node)),
      walk.Holds archive machine policy kept entries →
      ∃ walk', snapshots.foldlM (walkHost archive policy machine kept) (walk, []) =
          .ok (walk', []) ∧
        walk'.Holds archive machine policy kept (entries ++ snapshots.flatMap Snapshot.entries) by
    simpa using hsuff _ [] MachineWalk.Holds.start
  induction snapshots with
  | nil => exact fun walk entries hwalk => ⟨walk, rfl, by simpa using hwalk⟩
  | cons snap snapshots ih =>
    intro walk entries hwalk
    obtain ⟨hsnap, hrest⟩ := List.forall_mem_cons.mp htrees
    obtain ⟨hentries, hrest'⟩ := List.forall_mem_cons.mp hload
    obtain ⟨met, hmet, hholds⟩ := hwalk.meetAll hentries
    obtain ⟨walk', hwalk', hholds'⟩ := ih hrest hrest' met _ hholds
    refine ⟨walk', ?_, by simpa using hholds'⟩
    have hstep : walkHost archive policy machine kept (walk, []) snap = .ok (met, []) := by
      rw [walkHost, Snapshot.ls_eq_ok hsnap]
      dsimp only
      rw [hmet]
      rfl
    rw [List.foldlM_cons, hstep]
    exact hwalk'

lemma Archive.Legible.walkHosts (h : archive.Legible rules)
    (hsnaps : ∀ snap ∈ snapshots, snap ∈ archive.snapshots) :
    ∃ walk : MachineWalk rules, snapshots.foldlM (walkHost archive policy machine kept)
        (MachineWalk.start rules, []) = .ok (walk, []) ∧
      walk.Holds archive machine policy kept (snapshots.flatMap Snapshot.entries) :=
  walkHosts_ok (fun snap hsnap => h.trees snap (hsnaps snap hsnap))
    fun snap hsnap _ he => h.load (hsnaps snap hsnap) he

end Legible

section Rows
variable {rules : ReadRules} {archive : Archive} {machine session : Ident}
  {policy : DuplicateShardPolicy} {kept : Ident → Bool} {walk : MachineWalk rules}
  {entries : List (Path × Node)}

lemma lookup_map_inKeyOrder {K V W : Type} [LinearOrder K] [BEq K] [LawfulBEq K]
    {m : List (K × V)} (h : (m.map Prod.fst).Nodup) (f : K × V → W) (k : K) :
    ((KeyedList.inKeyOrder m).map fun x => (x.1, f x)).lookup k =
      (m.lookup k).map fun v => f (k, v) := by
  have hperm := (KeyedList.inKeyOrder_perm m).map Prod.fst
  have hnodup : (((KeyedList.inKeyOrder m).map fun x => (x.1, f x)).map Prod.fst).Nodup := by
    rw [List.map_map]
    exact hperm.nodup_iff.mpr h
  ext w
  rw [KeyedList.lookup_eq_some_iff_mem hnodup, Option.map_eq_some_iff, List.mem_map]
  constructor
  · rintro ⟨x, hx, heq⟩
    obtain ⟨rfl, rfl⟩ := Prod.mk.inj heq
    exact ⟨x.2, (KeyedList.lookup_eq_some_iff_mem h).mpr (KeyedList.mem_inKeyOrder.mp hx), rfl⟩
  · rintro ⟨v, hv, rfl⟩
    exact ⟨(k, v), KeyedList.mem_inKeyOrder.mpr ((KeyedList.lookup_eq_some_iff_mem h).mp hv), rfl⟩

lemma MachineWalk.Holds.sessions_dumped (h : walk.Holds archive machine policy kept entries)
    (hdump : ∀ e ∈ entries, archive.dumpError e.2 = none) {B : Type}
    (f : Ident → List (Option ℕ × Bytes) → B) :
    ((KeyedList.inKeyOrder walk.held).mapM fun (session, held) => do
      let bodies ← shardBodies archive held
      .ok (f session bodies)) = .ok ((KeyedList.inKeyOrder walk.held).map fun x =>
        f x.1 ((heldEntries [entries.filterMap (archiveEntry machine x.1 policy)]).map bodyPair)) := by
  refine mapM_ok fun x hx => ?_
  have hmem := KeyedList.mem_inKeyOrder.mp hx
  have hlookup : walk.held.lookup x.1 = some x.2 :=
    (KeyedList.lookup_eq_some_iff_mem h.nodup).mpr hmem
  have hbodies := h.shardBodies_eq hdump (h.kept_of_mem x hmem).1
  rw [hlookup, Option.getD_some] at hbodies
  obtain ⟨session, held⟩ := x
  dsimp only at hbodies ⊢
  rw [hbodies]
  rfl

lemma MachineWalk.Holds.rows_eq (h : walk.Holds archive machine policy kept entries)
    (hkept : kept session = true) :
    ((((KeyedList.inKeyOrder walk.held).map fun x => sessionBackedUp policy machine walk x.1
      ((heldEntries [entries.filterMap (archiveEntry machine x.1 policy)]).map bodyPair)).filter
        fun row => row.sessionId = session).map fun row => row.sha256) =
      ((bodyAmong rules archive machine session policy entries).map rules.H.digest).toList := by
  have hrows : ∀ m : List (Ident × List (ShardKey × HeldShard)), (m.map Prod.fst).Nodup →
      ((m.map fun x => sessionBackedUp policy machine walk x.1
        ((heldEntries [entries.filterMap (archiveEntry machine x.1 policy)]).map bodyPair)).filter
          fun row => row.sessionId = session).map (fun row => row.sha256) =
        ((m.lookup session).map fun _ => (sessionBackedUp policy machine walk session
          ((heldEntries [entries.filterMap (archiveEntry machine session policy)]).map
            bodyPair)).sha256).toList := by
    intro m hm
    induction m with
    | nil => rfl
    | cons x m ih =>
      obtain ⟨hx, hm⟩ := List.nodup_cons.mp hm
      rw [List.map_cons, List.filter_cons, List.lookup_cons]
      by_cases hsame : x.1 = session
      · have hnone : m.lookup session = none := List.lookup_eq_none_iff.mpr fun y hy => by
          have hne : session ≠ y.1 := fun heq =>
            hx (List.mem_map.mpr ⟨y, hy, (hsame.trans heq).symm⟩)
          simpa using hne
        rw [if_pos (by simpa [sessionBackedUp] using hsame), List.map_cons, ih hm, hnone, hsame,
          beq_self_eq_true]
        rfl
      · rw [if_neg (by simpa [sessionBackedUp] using hsame), ih hm,
          beq_eq_false_iff_ne.mpr (Ne.symm hsame)]
  have hperm := (KeyedList.inKeyOrder_perm walk.held).map Prod.fst
  have hlookup := lookup_map_inKeyOrder (f := Prod.snd) h.nodup session
  simp only [Option.map_id'] at hlookup
  have hid : (KeyedList.inKeyOrder walk.held).map (fun x => (x.1, x.2)) =
      KeyedList.inKeyOrder walk.held := List.map_id _
  rw [hid] at hlookup
  rw [hrows _ (hperm.nodup_iff.mpr h.nodup), hlookup, h.bodyAmong_eq hkept, Option.map_map,
    h.sessionBackedUp_sha256 hkept]
  rfl

end Rows

section Report
variable {rules : ReadRules} {archive : Archive} {machine session : Ident}
  {policy : DuplicateShardPolicy} {kept : Ident → Ident → Bool}

/-- What the report holds of one host. -/
structure Merged (rules : ReadRules) (archive : Archive) (policy : DuplicateShardPolicy)
    (kept : Ident → Ident → Bool) (host : Ident × List Snapshot) (merged : MachineMerge rules) :
    Prop where
  hostname : merged.hostname = host.1
  machine : ∀ row ∈ merged.sessions, row.machine = host.1
  rows : ∀ session, kept host.1 session = true →
    (merged.sessions.filter fun row => row.sessionId = session).map (fun row => row.sha256) =
      ((bodyAmong rules archive host.1 session policy (host.2.flatMap Snapshot.entries)).map
        rules.H.digest).toList

lemma Archive.Legible.mergeHost_ok (h : archive.Legible rules) {host : Ident × List Snapshot}
    (hne : host.2 ≠ []) (hsnaps : ∀ snap ∈ host.2, snap ∈ archive.snapshots ∧ snap.hostname = host.1)
    (report : ReadAllReport rules) :
    ∃ merged, mergeHost archive policy kept report host =
      .ok { report with machines := report.machines ++ [merged] } ∧
        Merged rules archive policy kept host merged := by
  obtain ⟨name, snaps⟩ := host
  dsimp only at hne hsnaps
  cases snaps with
  | nil => exact absurd rfl hne
  | cons newest older =>
    obtain rfl : newest.hostname = name := (hsnaps newest List.mem_cons_self).2
    obtain ⟨walk, hwalk, hholds⟩ := @Archive.Legible.walkHosts rules archive newest.hostname policy
      (kept newest.hostname) (newest :: older) h fun snap hsnap => (hsnaps snap hsnap).1
    have hdump : ∀ e ∈ (newest :: older).flatMap Snapshot.entries, archive.dumpError e.2 = none := by
      intro e he
      obtain ⟨snap, hsnap, he⟩ := List.mem_flatMap.mp he
      exact h.files snap (hsnaps snap hsnap).1 e he
    have hsessions := hholds.sessions_dumped hdump (sessionBackedUp policy newest.hostname walk)
    refine ⟨⟨newest.hostname, newest, _⟩, ?_, rfl, ?_, fun session hkept => hholds.rows_eq hkept⟩
    · unfold mergeHost
      dsimp only
      rw [hwalk]
      simp only [bind, Except.bind] at hsessions ⊢
      rw [hsessions]
      simp
    · intro row hrow
      obtain ⟨x, -, rfl⟩ := List.mem_map.mp hrow
      rfl

lemma Archive.Legible.mergeHosts_ok (h : archive.Legible rules)
    {hosts : List (Ident × List Snapshot)}
    (hhosts : ∀ host ∈ hosts, host.2 ≠ [] ∧
      ∀ snap ∈ host.2, snap ∈ archive.snapshots ∧ snap.hostname = host.1)
    (report : ReadAllReport rules) :
    ∃ merges, hosts.foldlM (mergeHost archive policy kept) report =
      .ok { report with machines := report.machines ++ merges } ∧
        List.Forall₂ (Merged rules archive policy kept) hosts merges := by
  induction hosts generalizing report with
  | nil => exact ⟨[], by simp [pure, Except.pure], .nil⟩
  | cons host hosts ih =>
    obtain ⟨⟨hne, hsnaps⟩, hrest⟩ := List.forall_mem_cons.mp hhosts
    obtain ⟨merged, hmerged, hspec⟩ := @Archive.Legible.mergeHost_ok rules archive policy kept h host
      hne hsnaps report
    obtain ⟨merges, hmerges, hspecs⟩ := ih hrest
      { report with machines := report.machines ++ [merged] }
    refine ⟨merged :: merges, ?_, .cons hspec hspecs⟩
    simp only [List.append_assoc, List.cons_append, List.nil_append] at hmerges
    rw [List.foldlM_cons, hmerged]
    exact hmerges

def SessionBackedUp.names (machine session : Ident) (row : SessionBackedUp rules) : Bool :=
  row.machine = machine ∧ row.sessionId = session

lemma rows_of_merges {hosts : List (Ident × List Snapshot)} {merges : List (MachineMerge rules)}
    (h : List.Forall₂ (Merged rules archive policy kept) hosts merges)
    (hnodup : (hosts.map Prod.fst).Nodup) (hkept : kept machine session = true) :
    ((merges.flatMap fun merged => merged.sessions).filter
        (SessionBackedUp.names machine session)).map (fun row => row.sha256) =
      ((hosts.lookup machine).bind fun snaps => (bodyAmong rules archive machine session policy
        (snaps.flatMap Snapshot.entries)).map rules.H.digest).toList := by
  induction h with
  | nil => rfl
  | @cons host merged hosts merges hspec _ ih =>
    obtain ⟨hhost, hnodup⟩ := List.nodup_cons.mp hnodup
    rw [List.flatMap_cons, List.filter_append, List.map_append, ih hnodup, List.lookup_cons]
    by_cases hsame : machine = host.1
    · have hnone : hosts.lookup machine = none := List.lookup_eq_none_iff.mpr fun other hother => by
        have hne : machine ≠ other.1 := fun heq =>
          hhost (List.mem_map.mpr ⟨other, hother, (hsame.symm.trans heq).symm⟩)
        simpa using hne
      have hfilter : merged.sessions.filter (SessionBackedUp.names machine session) =
          merged.sessions.filter fun row => row.sessionId = session :=
        List.filter_congr fun row hrow => by
          simp [SessionBackedUp.names, hspec.machine row hrow, hsame]
      rw [hnone, hfilter]
      subst hsame
      rw [beq_self_eq_true, hspec.rows session hkept]
      simp
    · have hfilter : merged.sessions.filter (SessionBackedUp.names machine session) = [] := by
        rw [List.filter_eq_nil_iff]
        intro row hrow
        simp [SessionBackedUp.names, hspec.machine row hrow, Ne.symm hsame]
      rw [hfilter, beq_eq_false_iff_ne.mpr hsame]
      rfl

end Report

section Agreement
variable {rules : ReadRules} {archive : Archive} {machine session : Ident}
  {policy : DuplicateShardPolicy} {snapshots : List Snapshot}

lemma pathText_injective {path path' : Path} (h : path ≠ []) (h' : path' ≠ [])
    (hnames : ∀ name ∈ path, '/' ∉ name) (hnames' : ∀ name ∈ path', '/' ∉ name)
    (heq : pathText path = pathText path') : path = path' := by
  rw [← List.splitOn_intercalate '/' hnames h, ← List.splitOn_intercalate '/' hnames' h']
  exact congrArg (List.splitOn '/') heq

lemma archiveEntries_apart {snap : Snapshot} (h : WriterLayout snap) :
    IdentitiesApart (snap.entries.filterMap (archiveEntry machine session policy)) := by
  intro x hx y hy hkey
  obtain ⟨e, he, hxe⟩ := List.mem_filterMap.mp hx
  obtain ⟨e', he', hye⟩ := List.mem_filterMap.mp hy
  obtain ⟨-, -, hpath⟩ := archiveEntry_eq_some hxe
  obtain ⟨-, -, hpath'⟩ := archiveEntry_eq_some hye
  have htext : x.path = y.path := congrArg (fun key => (ofLex key).2) hkey
  rw [hpath, hpath'] at htext
  have hsame : e.1 = e'.1 := pathText_injective (h.names e he).1 (h.names e' he').1
    (h.names e he).2 (h.names e' he').2 htext
  obtain rfl := List.inj_on_of_nodup_map snap.paths_nodup he he' hsame
  exact Option.some.inj (hxe.symm.trans hye)

lemma sessionBody_flatten (observations : List rules.Observation)
    {snapshots snapshots' : List (List ArchiveEntry)} (h : snapshots.flatten = snapshots'.flatten) :
    sessionBody session policy observations snapshots =
      sessionBody session policy observations snapshots' := by
  have hheld : heldEntries snapshots = heldEntries snapshots' := by rw [heldEntries, heldEntries, h]
  have hambiguous : ambiguousSequences snapshots = ambiguousSequences snapshots' := by
    rw [ambiguousSequences, ambiguousSequences, h]
  simp only [sessionBody, ChatStasher.dumpCumulativeSession, hheld, hambiguous]

/-- Through the fast path or the full listing, the read of one session gives the body by the
cumulative rule over the full listings. -/
lemma Archive.Legible.dump_body (h : archive.Legible rules)
    (hlayout : ∀ snap ∈ archive.snapshots, WriterLayout snap)
    (hsnaps : ∀ snap ∈ snapshots, snap ∈ archive.snapshots)
    (hharness : harnessIsOpencode session = false) :
    (dumpCumulativeSession rules archive snapshots machine session policy).map
        (Option.map Prod.fst) =
      .ok (bodyAmong rules archive machine session policy (snapshots.flatMap Snapshot.entries)) := by
  choose! listing hlisting using fun snap (hsnap : snap ∈ archive.snapshots) =>
    @snapshotSessionEntries_cases snap machine session archive (h.trees snap hsnap) policy.collapses
  have hsubset : ∀ snap ∈ archive.snapshots, listing snap ⊆ snap.entries := by
    intro snap hsnap
    obtain hfull | hfast := (hlisting snap hsnap).2
    · exact hfull ▸ List.Subset.refl _
    · exact hfast ▸ fastListing_subset _
  rw [dumpCumulativeSession, dumpSession_body (fun snap hsnap => (hlisting snap (hsnaps snap hsnap)).1)
    (fun snap hsnap e he => h.load (hsnaps snap hsnap) (hsubset snap (hsnaps snap hsnap) he))
    (fun snap hsnap e he => h.files snap (hsnaps snap hsnap) e (hsubset snap (hsnaps snap hsnap) he))
    hharness, bodyAmong]
  have hentries : SameEntries
      (snapshots.map fun snap => (listing snap).filterMap (archiveEntry machine session policy))
      (snapshots.map fun snap => snap.entries.filterMap (archiveEntry machine session policy)) := by
    rw [SameEntries, List.forall₂_map_left_iff, List.forall₂_map_right_iff, List.forall₂_same]
    intro snap hsnap a
    obtain hfull | hfast := (hlisting snap (hsnaps snap hsnap)).2
    · rw [hfull]
    · rw [hfast, fastListing_archiveEntries (hlayout snap (hsnaps snap hsnap))]
  have hmetadata : (snapshots.flatMap listing).find? (isMetadata machine policy) =
      (snapshots.flatMap Snapshot.entries).find? (isMetadata machine policy) := by
    rw [← List.head?_filter, ← List.head?_filter, List.filter_flatMap, List.filter_flatMap]
    refine congrArg List.head? (List.flatMap_congr fun snap hsnap => ?_)
    obtain hfull | hfast := (hlisting snap (hsnaps snap hsnap)).2
    · rw [hfull]
    · cases hpolicy : policy.collapses with
      | true =>
        rw [hfast, hpolicy, fastListing_filter_metadata (hlayout snap (hsnaps snap hsnap)) hpolicy]
      | false =>
        have hnone : isMetadata machine policy = fun _ => false := by
          funext e
          simp [isMetadata, hpolicy]
        rw [hnone, List.filter_false, List.filter_false]
  have hapart : ∀ entries ∈ snapshots.map fun snap =>
      (listing snap).filterMap (archiveEntry machine session policy), IdentitiesApart entries := by
    intro entries hentries
    obtain ⟨snap, hsnap, rfl⟩ := List.mem_map.mp hentries
    intro x hx y hy
    exact archiveEntries_apart (hlayout snap (hsnaps snap hsnap)) x
      (List.filterMap_subset _ (hsubset snap (hsnaps snap hsnap)) hx) y
      (List.filterMap_subset _ (hsubset snap (hsnaps snap hsnap)) hy)
  have hflat : ∀ f : Snapshot → List (Path × Node),
      [(snapshots.flatMap f).filterMap (archiveEntry machine session policy)].flatten =
        (snapshots.map fun snap =>
          (f snap).filterMap (archiveEntry machine session policy)).flatten := by
    intro f
    rw [List.flatten_singleton, List.filterMap_flatMap, List.flatMap_def]
  rw [hmetadata, sessionBody_flatten _ (hflat listing), sessionBody_flatten _ (hflat Snapshot.entries),
    sessionBody, sessionBody, hentries.heldEntries_eq hapart,
    hentries.dumpCumulativeSession_eq hapart]

/-- The visitor of a machine that has snapshots is handed each of its sessions once, with the body by
the cumulative rule. -/
lemma Archive.Legible.visits (h : archive.Legible rules)
    (hstrict : archive.strictPolicy = .ok fun _ _ => false)
    (hlookup : (snapshotsByHostNewestFirst archive.snapshots).lookup machine = some snapshots)
    (hsnaps : ∀ snap ∈ snapshots, snap ∈ archive.snapshots) (session : Ident) :
    ∃ visits, (forEachArchivedSessionShards rules archive machine policy).map Prod.fst =
        .ok visits ∧ (visits.map Prod.fst).Nodup ∧
      (visits.lookup session).map (fun shards => (shards.map Prod.snd).flatten) =
        bodyAmong rules archive machine session policy (snapshots.flatMap Snapshot.entries) := by
  obtain ⟨walk, hwalk, hholds⟩ := @Archive.Legible.walkMachine rules archive machine policy
    (fun _ => true) snapshots h hsnaps
  have hdump : ∀ e ∈ snapshots.flatMap Snapshot.entries, archive.dumpError e.2 = none := by
    intro e he
    obtain ⟨snap, hsnap, he⟩ := List.mem_flatMap.mp he
    exact h.files snap (hsnaps snap hsnap) e he
  have hvisits := hholds.sessions_dumped hdump fun session bodies =>
    (session, visitedShards policy walk session bodies)
  refine ⟨(KeyedList.inKeyOrder walk.held).map fun x => (x.1, visitedShards policy walk x.1
    ((heldEntries [(snapshots.flatMap Snapshot.entries).filterMap
      (archiveEntry machine x.1 policy)]).map bodyPair)), ?_, ?_, ?_⟩
  rotate_left
  · rw [List.map_map]
    exact ((KeyedList.inKeyOrder_perm walk.held).map Prod.fst).nodup_iff.mpr hholds.nodup
  · rw [lookup_map_inKeyOrder hholds.nodup, Option.map_map, hholds.bodyAmong_eq rfl]
    refine congrArg (Option.map · _) (funext fun held => ?_)
    exact congrArg List.flatten (hholds.visitedShards_eq rfl)
  · rw [forEachArchivedSessionShards, hstrict]
    dsimp only
    rw [hlookup]
    simp only [bind, Except.bind, Bool.not_false] at hwalk hvisits ⊢
    rw [hwalk]
    dsimp only
    rw [hvisits]
    rfl

/-- The rows of the report for a session. -/
lemma Archive.Legible.report (h : archive.Legible rules)
    (htolerant : archive.tolerantPolicy = .ok fun _ _ => false)
    {wanted : Option (List (Ident × Ident))}
    (hwanted : ∀ sessions ∈ wanted, (machine, session) ∈ sessions) (applyControlPolicy : Bool) :
    ∃ report, readCumulativeSessions rules archive wanted policy applyControlPolicy = .ok report ∧
      ((report.machines.flatMap fun merged => merged.sessions).filter
          (SessionBackedUp.names machine session)).map (fun row => row.sha256) =
        (((snapshotsByHostNewestFirst archive.snapshots).lookup machine).bind fun snaps =>
          (bodyAmong rules archive machine session policy (snaps.flatMap Snapshot.entries)).map
            rules.H.digest).toList := by
  have hpolicy : (if applyControlPolicy then archive.tolerantPolicy else .ok fun _ _ => false) =
      .ok fun _ _ => false := by
    rw [htolerant, ite_self]
  let kept : Ident → Ident → Bool := fun machine session =>
    !false && wanted.all fun wanted => wanted.contains (machine, session)
  have hkept : kept machine session = true := by
    cases wanted with
    | none => rfl
    | some sessions => simpa [kept] using hwanted sessions rfl
  obtain ⟨merges, hmerges, hspecs⟩ := @Archive.Legible.mergeHosts_ok rules archive policy kept h
    (snapshotsByHostNewestFirst archive.snapshots) (fun host hhost => mem_snapshotsByHost hhost)
    ⟨archive.snapshots.length, [], [], []⟩
  rw [readCumulativeSessions, hpolicy]
  refine ⟨_, congrArg (· >>= _) hmerges, ?_⟩
  have hperm := (((List.perm_insertionSort (fun a b : MachineMerge rules => a.hostname ≤ b.hostname)
    merges).flatMap_right fun merged => merged.sessions).filter
      (SessionBackedUp.names machine session)).map fun row => row.sha256
  rw [rows_of_merges hspecs (snapshotsByHost_nodup _) hkept] at hperm
  generalize ((snapshotsByHostNewestFirst archive.snapshots).lookup machine).bind _ = found at hperm ⊢
  cases found with
  | none => exact hperm.eq_nil
  | some sha256 => exact List.perm_singleton.mp hperm

/-- The readers agree on every session outside the snapshot source: the read of the session, through
either listing, what the visitor is handed and what the report hashes are one body, or none. -/
theorem cumulative_readers_agree (h : archive.Legible rules)
    (hlayout : ∀ snap ∈ archive.snapshots, WriterLayout snap)
    (hstrict : archive.strictPolicy = .ok fun _ _ => false)
    (htolerant : archive.tolerantPolicy = .ok fun _ _ => false)
    (machine : Ident) (policy : DuplicateShardPolicy) (hharness : harnessIsOpencode session = false)
    {wanted : Option (List (Ident × Ident))}
    (hwanted : ∀ sessions ∈ wanted, (machine, session) ∈ sessions) (applyControlPolicy : Bool) :
    let hosts := snapshotsByHostNewestFirst archive.snapshots
    let snapshots := (hosts.lookup machine).getD []
    ∃ body : Option Bytes,
      (dumpCumulativeSession rules archive snapshots machine session policy).map
          (Option.map Prod.fst) = .ok body ∧
      (@dumpSession rules archive (fullEntries archive) snapshots machine session policy).map
          (Option.map Prod.fst) = .ok body ∧
      (match hosts.lookup machine with
        | none => body = none ∧
          (forEachArchivedSessionShards rules archive machine policy).map Prod.fst =
            .error (.noSnapshot machine)
        | some _ => ∃ visits,
          (forEachArchivedSessionShards rules archive machine policy).map Prod.fst = .ok visits ∧
            (visits.map Prod.fst).Nodup ∧
            (visits.lookup session).map (fun shards => (shards.map Prod.snd).flatten) = body) ∧
      ∃ report,
        readCumulativeSessions rules archive wanted policy applyControlPolicy = .ok report ∧
          ((report.machines.flatMap fun merged => merged.sessions).filter
              (SessionBackedUp.names machine session)).map (fun row => row.sha256) =
            (body.map rules.H.digest).toList := by
  intro hosts snapshots
  have hhosts : ∀ host ∈ hosts, host.2 ≠ [] ∧ ∀ snap ∈ host.2, snap ∈ archive.snapshots ∧
      snap.hostname = host.1 := fun host hhost => mem_snapshotsByHost hhost
  have hsnaps : ∀ snap ∈ snapshots, snap ∈ archive.snapshots := by
    intro snap hsnap
    cases hlookup : hosts.lookup machine with
    | none => simp [snapshots, hlookup] at hsnap
    | some found =>
      have hmem := (KeyedList.lookup_eq_some_iff_mem (snapshotsByHost_nodup _)).mp hlookup
      exact ((hhosts _ hmem).2 snap (by simpa [snapshots, hlookup] using hsnap)).1
  refine ⟨bodyAmong rules archive machine session policy (snapshots.flatMap Snapshot.entries),
    h.dump_body hlayout hsnaps hharness, ?_, ?_, ?_⟩
  · exact dumpSession_body (fun snap hsnap => h.fullEntries_eq (hsnaps snap hsnap))
      (fun snap hsnap e he => h.load (hsnaps snap hsnap) he)
      (fun snap hsnap e he => h.files snap (hsnaps snap hsnap) e he) hharness
  · cases hlookup : hosts.lookup machine with
    | none =>
      have hnil : snapshots = [] := by simp [snapshots, hlookup]
      refine ⟨by rw [hnil]; rfl, ?_⟩
      rw [forEachArchivedSessionShards, hstrict]
      dsimp only
      rw [hlookup]
      rfl
    | some found =>
      have hfound : snapshots = found := by simp [snapshots, hlookup]
      rw [hfound] at hsnaps ⊢
      exact h.visits hstrict hlookup hsnaps session
  · obtain ⟨report, hreport, hrows⟩ := @Archive.Legible.report rules archive machine session policy h
      htolerant wanted hwanted applyControlPolicy
    refine ⟨report, hreport, hrows.trans ?_⟩
    change ((hosts.lookup machine).bind _).toList = _
    cases hlookup : hosts.lookup machine with
    | none =>
      have hnil : snapshots = [] := by simp [snapshots, hlookup]
      rw [hnil]
      rfl
    | some found =>
      have hfound : snapshots = found := by simp [snapshots, hlookup]
      rw [hfound]
      rfl

end Agreement

section Sample

def stageShard : Path :=
  ["stage".toList, "sessions".toList, "m".toList, "s".toList, "000001.jsonl".toList]

def stageEntries : List (Path × Node) :=
  [(["stage".toList], .dir "b".toList),
    (["stage".toList, "sessions".toList], .dir "c".toList),
    (["stage".toList, "sessions".toList, "m".toList], .dir "d".toList),
    (["stage".toList, "sessions".toList, "m".toList, "s".toList], .dir "e".toList),
    (stageShard, .file [1, 10] (some [[]]))]

lemma stageEntries_within : ∀ e ∈ stageEntries, ∀ at_, at_ <+: e.1 → at_ ≠ [] → at_ ≠ e.1 →
    ∃ subtree, (at_, Node.dir subtree) ∈ stageEntries := by
  have hdirs : ∀ e ∈ stageEntries, ∀ at_ ∈ e.1.inits, at_ = [] ∨ at_ = e.1 ∨
      ∃ dir ∈ ["b".toList, "c".toList, "d".toList, "e".toList],
        (at_, Node.dir dir) ∈ stageEntries := by decide
  intro e he at_ hstart hne hproper
  obtain h | h | ⟨dir, -, hdir⟩ := hdirs e he at_ ((List.mem_inits _ _).mpr hstart)
  · exact absurd h hne
  · exact absurd h hproper
  · exact ⟨dir, hdir⟩

def stageSnapshot : Snapshot :=
  ⟨"m".toList, 1, [["stage".toList]], "a".toList, stageEntries, by decide, stageEntries_within⟩

lemma stageSnapshot_file {e : Path × Node} (he : e ∈ stageSnapshot.entries)
    (hfile : e.2.isFile = true) : e = (stageShard, .file [1, 10] (some [[]])) := by
  have hall : ∀ e ∈ stageEntries, e.2.isFile = true →
      e = (stageShard, .file [1, 10] (some [[]])) := by decide
  exact hall e he hfile

lemma stageSnapshot_layout : WriterLayout stageSnapshot where
  names := by decide
  apart := List.pairwise_singleton _ _
  sessions := by
    intro e he hfile machine session shard hpath
    obtain rfl := stageSnapshot_file he hfile
    have hshard : bucketShardPath stageShard =
        some ("m".toList, "s".toList, "000001.jsonl".toList) := by decide
    rw [hshard] at hpath
    obtain ⟨rfl, rfl, rfl⟩ : "m".toList = machine ∧ "s".toList = session ∧ _ = shard := by
      simpa using hpath
    exact ⟨["stage".toList], List.mem_singleton_self _, ["000001.jsonl".toList], by decide, rfl⟩
  provenance := by
    intro machine
    have hnone : (stageSnapshot.entries.filter fun e =>
        e.2.isFile && isProvenancePath e.1 machine) = [] := by
      rw [List.filter_eq_nil_iff]
      intro e he hmeta
      rw [Bool.and_eq_true] at hmeta
      obtain rfl := stageSnapshot_file he hmeta.1
      have hpath := of_decide_eq_true hmeta.2
      simp [trailing, stageShard] at hpath
    rw [hnone]
    exact List.nil_sublist _

def stageRules : ReadRules :=
  ⟨Sha256.verbatim, Unit, fun _ => true, fun _ => .ok [], fun _ bodies => .ok bodies.flatten⟩

def stageArchive : Archive :=
  ⟨[stageSnapshot], fun _ => true, fun _ => none, .ok fun _ _ => false, .ok fun _ _ => false⟩

lemma stageArchive_legible : stageArchive.Legible stageRules :=
  ⟨fun _ _ _ _ => rfl, fun _ _ _ _ => rfl, fun _ _ _ _ _ _ => ⟨[], rfl⟩⟩

lemma stageArchive_layout : ∀ snap ∈ stageArchive.snapshots, WriterLayout snap := by
  intro snap hsnap
  obtain rfl := List.mem_singleton.mp hsnap
  exact stageSnapshot_layout

/-- The sealed session is read through the fast path, and the readers agree on it. -/
theorem cumulative_readers_agree_stage :
    (fastSessionEntries stageArchive.readable stageSnapshot "m".toList "s".toList true).toOption =
        some (some [(stageShard, .file [1, 10] (some [[]]))]) ∧
      ∃ report, readCumulativeSessions stageRules stageArchive none .collapse false = .ok report ∧
        ((report.machines.flatMap fun merged => merged.sessions).filter
          (SessionBackedUp.names "m".toList "s".toList)).map (fun row => row.sha256) = [[1, 10]] := by
  refine ⟨by decide +kernel, ?_⟩
  obtain ⟨body, hdump, -, -, report, hreport, hrows⟩ := @cumulative_readers_agree stageRules
    stageArchive "s".toList stageArchive_legible stageArchive_layout rfl rfl "m".toList .collapse
    (by decide) none nofun false
  refine ⟨report, hreport, hrows.trans ?_⟩
  have hbody : ((dumpCumulativeSession stageRules stageArchive
      (((snapshotsByHostNewestFirst stageArchive.snapshots).lookup "m".toList).getD []) "m".toList
      "s".toList .collapse).map (Option.map Prod.fst)).toOption = some (some [1, 10]) := by
    decide +kernel
  rw [hdump] at hbody
  rw [Option.some.inj hbody]
  rfl

end Sample

end ChatStasher.Readback
