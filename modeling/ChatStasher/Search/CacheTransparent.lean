import Mathlib.Data.List.Dedup
import ChatStasher.Search.Sessions

/-! The cache changes no answer: a search that takes snapshots from verified entries reports what the
same search reports when it walks every snapshot. -/
namespace ChatStasher.Search
open Readback

section Availability
variable {dest : Destination}

def TreeAvailability.Sound (dest : Destination) (packs : TreeAvailability) : Prop :=
  ∀ e ∈ packs, e.2 = dest.held e.1

lemma readable_of_held {tree : TreeId} {pack : List Char} (h : dest.indexEntry tree = some pack)
    (hheld : dest.held pack = true) : dest.readable tree = true := by
  simp [Destination.readable, h, hheld]

lemma TreeAvailability.Sound.cons {packs : TreeAvailability} (h : packs.Sound dest)
    (pack : List Char) : TreeAvailability.Sound dest ((pack, dest.held pack) :: packs) :=
  List.forall_mem_cons.mpr ⟨rfl, h⟩

lemma TreeAvailability.Sound.lookup {packs : TreeAvailability} (h : packs.Sound dest)
    {pack : List Char} {known : Bool} (hknown : packs.lookup pack = some known) :
    dest.held pack = known := by
  obtain ⟨l₁, l₂, hsplit, -⟩ := List.lookup_eq_some_iff.mp hknown
  have hmem : (pack, known) ∈ packs := by
    rw [hsplit]
    exact List.mem_append_right l₁ List.mem_cons_self
  exact (h _ hmem).symm

lemma holdsAll_spec (trees : List TreeId) {packs : TreeAvailability} (h : packs.Sound dest) :
    (TreeAvailability.holdsAll dest trees packs).2.Sound dest ∧
      ((TreeAvailability.holdsAll dest trees packs).1 = true →
        ∀ tree ∈ trees, dest.readable tree = true) := by
  induction trees generalizing packs with
  | nil => exact ⟨h, fun _ tree htree => absurd htree List.not_mem_nil⟩
  | cons tree trees ih =>
    rw [TreeAvailability.holdsAll]
    cases hindex : dest.indexEntry tree with
    | none => exact ⟨h, nofun⟩
    | some pack =>
      dsimp only
      cases hknown : packs.lookup pack with
      | some known =>
        cases known with
        | false => exact ⟨h, nofun⟩
        | true =>
          obtain ⟨hsound, hread⟩ := ih h
          exact ⟨hsound, fun hall => List.forall_mem_cons.mpr
            ⟨readable_of_held hindex (h.lookup hknown), hread hall⟩⟩
      | none =>
        have hcons := h.cons pack
        dsimp only
        cases hheld : dest.held pack with
        | false =>
          rw [hheld] at hcons
          exact ⟨hcons, nofun⟩
        | true =>
          rw [hheld] at hcons
          obtain ⟨hsound, hread⟩ := ih hcons
          exact ⟨hsound, fun hall => List.forall_mem_cons.mpr
            ⟨readable_of_held hindex hheld, hread hall⟩⟩

end Availability

section Hit
variable {format : CacheFormat} {dest : Destination}

lemma mem_walkEntry_trees {snap : Readback.Snapshot} {tree : TreeId} :
    tree ∈ (walkEntry format snap).trees ↔ tree ∈ snap.trees :=
  (List.mem_insertionSort (· ≤ ·)).trans List.mem_dedup

lemma indexEntry_path_ne_nil {snap : Readback.Snapshot} {e : CachedIndexFile × Node}
    (h : e ∈ indexEntries snap) : e.1.path ≠ [] ∧ (e.1.path, e.2) ∈ snap.entries := by
  obtain ⟨⟨path, node⟩, hmem, he⟩ := List.mem_filterMap.mp h
  cases node with
  | file bytes content =>
    obtain ⟨machine, hmachine, rfl⟩ := Option.map_eq_some_iff.mp he
    refine ⟨?_, hmem⟩
    rintro rfl
    simp [activityIndexMachine, trailing] at hmachine
  | dir => cases he
  | other => cases he

lemma fetchIndexNodes_eq {snap : Readback.Snapshot}
    (h : ∀ tree ∈ snap.trees, dest.readable tree = true) :
    fetchIndexNodes dest snap ((indexEntries snap).map Prod.fst) =
      some ((indexEntries snap).map fun e => (e.1.machine, e.2)) := by
  suffices hsuff : ∀ found : List (CachedIndexFile × Node), found ⊆ indexEntries snap →
      fetchIndexNodes dest snap (found.map Prod.fst) =
        some (found.map fun e => (e.1.machine, e.2)) from hsuff _ (List.Subset.refl _)
  intro found hfound
  induction found with
  | nil => rfl
  | cons e found ih =>
    obtain ⟨hmem, hrest⟩ := List.cons_subset.mp hfound
    obtain ⟨hpath, hentry⟩ := indexEntry_path_ne_nil hmem
    rw [List.map_cons, fetchIndexNodes, Readback.Snapshot.nodeAt_eq_some h hpath hentry]
    simp [ih hrest]

/-- What a search may rely on between two snapshots: a trusted cache and a right memory. -/
structure HostWalk.Sound (dest : Destination) (walk : HostWalk format) : Prop where
  trusted : ∀ cache ∈ walk.cache, Trusted cache.files
  available : walk.treesAvailable.Sound dest

/-- A hit is used only where the walk would succeed, and tells what the walk would record. -/
structure StandsIn (dest : Destination) (depth : ℕ) (snap : Readback.Snapshot)
    (hit : SnapshotEntry format.Id × List (Ident × Node)) : Prop where
  readable : ∀ tree ∈ snap.trees, dest.readable tree = true
  entry : hit.1 = walkEntry format snap
  nodes : hit.2 =
    if depth = 0 then (indexEntries snap).map fun e => (e.1.machine, e.2) else []

lemma usableHit_none {depth : ℕ} {snap : Readback.Snapshot} {walk : HostWalk format}
    (h : walk.cache = none) : usableHit dest depth snap walk = (none, walk) := by
  rw [usableHit, h]

lemma usableHit_spec (depth : ℕ) (snap : Readback.Snapshot) {walk : HostWalk format}
    (h : walk.Sound dest) :
    (∃ cache packs, (usableHit dest depth snap walk).2 =
        { walk with cache := cache, treesAvailable := packs }) ∧
      (usableHit dest depth snap walk).2.Sound dest ∧
      ∀ hit, (usableHit dest depth snap walk).1 = some hit → StandsIn dest depth snap hit := by
  rw [usableHit]
  split
  · exact ⟨⟨_, _, rfl⟩, h, nofun⟩
  next cache hcache =>
    have htrusted : Trusted cache.files := h.trusted cache (by simp [hcache])
    have hleft : Trusted (cache.load (format.idOf snap)).2.files :=
      htrusted.subset (load_subset cache _)
    have hloaded : ∀ entry, (cache.load (format.idOf snap)).1 = some entry →
        entry = walkEntry format snap := fun _ => load_eq_some htrusted
    generalize cache.load (format.idOf snap) = load at hleft hloaded
    obtain ⟨loaded, left⟩ := load
    cases loaded with
    | none => exact ⟨⟨_, _, rfl⟩, ⟨by simpa using hleft, h.available⟩, nofun⟩
    | some entry =>
      obtain rfl := hloaded entry rfl
      obtain ⟨hsound, hread⟩ := holdsAll_spec (walkEntry format snap).trees h.available
      dsimp only [TreeAvailability.holds]
      generalize TreeAvailability.holdsAll dest (walkEntry format snap).trees
        walk.treesAvailable = asked at hsound hread
      obtain ⟨held, packs⟩ := asked
      split
      · exact ⟨⟨_, _, rfl⟩, ⟨by simpa using hleft, hsound⟩, nofun⟩
      next hheld =>
        have hheld : held = true := by
          cases held with
          | true => rfl
          | false => exact absurd rfl hheld
        have hread : ∀ tree ∈ snap.trees, dest.readable tree = true :=
          fun tree htree => hread hheld tree (mem_walkEntry_trees.mpr htree)
        split
        next hdepth =>
          refine ⟨⟨_, _, rfl⟩, ⟨by simpa using hleft, hsound⟩, fun hit hhit => ?_⟩
          obtain ⟨nodes, hnodes, rfl⟩ := Option.map_eq_some_iff.mp hhit
          have hfetch : fetchIndexNodes dest snap (walkEntry format snap).indexFiles = _ :=
            fetchIndexNodes_eq hread
          rw [hfetch, Option.some.injEq] at hnodes
          exact ⟨hread, rfl, by rw [if_pos hdepth, ← hnodes]⟩
        next hdepth =>
          refine ⟨⟨_, _, rfl⟩, ⟨by simpa using hleft, hsound⟩, fun hit hhit => ?_⟩
          obtain rfl := Option.some.inj hhit
          exact ⟨hread, rfl, by rw [if_neg hdepth]⟩

end Hit

section Alike
variable {format : CacheFormat} {rules : SearchRules} {dest : Destination}
  {omitted : Ident → Ident → Bool}

/-- Two walks of one host, with the cache and without, that found the same so far. -/
structure HostWalk.Alike (dest : Destination) (a b : HostWalk format) : Prop where
  sound : a.Sound dest
  found : ∃ fromCache packs, b =
    { a with snapshotsFromCache := fromCache, cache := none, treesAvailable := packs }

lemma HostWalk.Sound.store {walk : HostWalk format} (h : walk.Sound dest)
    (snap : Readback.Snapshot) :
    ∀ cache ∈ walk.cache.map (·.store (walkEntry format snap)), Trusted cache.files := by
  intro cache hcache
  obtain ⟨held, hheld, rfl⟩ := Option.map_eq_some_iff.mp hcache
  exact (h.trusted held hheld).store snap

lemma HostWalk.Alike.visit {a b : HostWalk format} (h : a.Alike dest b) (host : Ident)
    (visited : Readback.Snapshot × ℕ) :
    (visitSnapshot dest omitted host a visited).Alike dest
      (visitSnapshot dest omitted host b visited) := by
  obtain ⟨snap, depth⟩ := visited
  obtain ⟨⟨cache, packs, hwalk⟩, hsound, hhit⟩ := usableHit_spec depth snap h.sound
  obtain ⟨-, fromCache, known, rfl⟩ := h
  unfold visitSnapshot
  dsimp only
  rw [@usableHit_none format dest depth snap
    { a with snapshotsFromCache := fromCache, cache := none, treesAvailable := known } rfl]
  generalize usableHit dest depth snap a = used at hwalk hsound hhit
  obtain ⟨hit, walk⟩ := used
  dsimp only at hwalk
  subst hwalk
  cases hit with
  | some hit =>
    obtain ⟨entry, nodes⟩ := hit
    obtain ⟨hread, hentry, hnodes⟩ := hhit _ rfl
    dsimp only at hentry hnodes
    subst hentry hnodes
    dsimp only
    rw [Readback.Snapshot.ls_eq_ok hread]
    refine ⟨⟨hsound.trusted, hsound.available⟩, fromCache, known, ?_⟩
    by_cases hdepth : depth = 0
    · simp [hdepth, walkEntry, SnapshotEntry.new]
    · simp [hdepth, walkEntry, SnapshotEntry.new]
  | none =>
    dsimp only
    cases snap.ls dest.readable with
    | error tree => exact ⟨⟨hsound.trusted, hsound.available⟩, fromCache, known, rfl⟩
    | ok entries => exact ⟨⟨hsound.store snap, hsound.available⟩, fromCache, known, rfl⟩

/-- Two searches, with the cache and without, that reported the same so far. -/
structure Searching.Alike (dest : Destination) (a b : Searching format rules) : Prop where
  trusted : ∀ cache ∈ a.cache, Trusted cache.files
  available : a.treesAvailable.Sound dest
  uncached : b.cache = none
  report : a.report = b.report
  legacyMachines : a.legacyMachines = b.legacyMachines

lemma visitAll_alike {a b : HostWalk format} (h : a.Alike dest b) (host : Ident)
    (visits : List (Readback.Snapshot × ℕ)) :
    (visits.foldl (visitSnapshot dest omitted host) a).Alike dest
      (visits.foldl (visitSnapshot dest omitted host) b) := by
  induction visits generalizing a b with
  | nil => exact h
  | cons visited visits ih => exact ih (h.visit host visited)

lemma Searching.Alike.host {a b : Searching format rules} (h : a.Alike dest b)
    (grouped : Ident × List Readback.Snapshot) :
    (searchHost dest omitted a grouped).Alike dest (searchHost dest omitted b grouped) := by
  obtain ⟨host, snaps⟩ := grouped
  unfold searchHost
  dsimp only
  cases snaps.head? with
  | none => exact h
  | some newest =>
    obtain ⟨hsound, fromCache, known, hfound⟩ := @visitAll_alike format dest omitted
      ⟨a.report.snapshotsScanned, a.snapshotsFromCache, a.report.unreadable, [], [], a.cache,
        a.treesAvailable⟩
      ⟨b.report.snapshotsScanned, b.snapshotsFromCache, b.report.unreadable, [], [], b.cache,
        b.treesAvailable⟩
      ⟨⟨h.trusted, h.available⟩, _, _, by rw [h.report, h.uncached]⟩ host snaps.zipIdx
    dsimp only
    rw [hfound]
    exact ⟨hsound.trusted, hsound.available, rfl, by rw [h.report, h.legacyMachines],
      by rw [h.report, h.legacyMachines]⟩

lemma searchAll_alike {a b : Searching format rules} (h : a.Alike dest b)
    (grouped : List (Ident × List Readback.Snapshot)) :
    (grouped.foldl (searchHost dest omitted) a).Alike dest
      (grouped.foldl (searchHost dest omitted) b) := by
  induction grouped generalizing a b with
  | nil => exact h
  | cons host hosts ih => exact ih (h.host host)

lemma searchSessions_alike {cache : Option (CacheDir format)}
    (h : ∀ dir ∈ cache, Trusted dir.files) :
    (searchSessions rules dest cache).1.map SearchReport.toReportFields =
      (searchSessions rules dest (none : Option (CacheDir format))).1.map
        SearchReport.toReportFields ∧
      ∀ dir ∈ (searchSessions rules dest cache).2, Trusted dir.files := by
  have hretained : ∀ dir ∈ cache.map (·.retain (dest.snapshots.map format.idOf)),
      Trusted dir.files := by
    intro dir hdir
    obtain ⟨held, hheld, rfl⟩ := Option.map_eq_some_iff.mp hdir
    exact (h held hheld).subset (retain_subset held _)
  unfold searchSessions
  cases dest.controlPolicy with
  | error e => exact ⟨rfl, hretained⟩
  | ok omitted =>
    have halike := @searchAll_alike format rules dest omitted
      ⟨⟨dest.snapshots.length, 0, 0, [], [], [], 0, [], [], [], [], 0⟩, 0, [],
        cache.map (·.retain (dest.snapshots.map format.idOf)), []⟩
      ⟨⟨dest.snapshots.length, 0, 0, [], [], [], 0, [], [], [], [], 0⟩, 0, [], none, []⟩
      ⟨hretained, List.forall_mem_nil _, rfl, rfl, rfl⟩ (snapshotsByHostNewestFirst dest.snapshots)
    refine ⟨?_, halike.trusted⟩
    simp only [Except.map, Option.map_none]
    rw [halike.report, halike.legacyMachines]

end Alike

section Unreadable
variable {format : CacheFormat} {rules : SearchRules} {dest : Destination}
  {omitted : Ident → Ident → Bool}

lemma visit_uncached {walk : HostWalk format} (h : walk.cache = none) (host : Ident)
    (visited : Readback.Snapshot × ℕ) :
    (visitSnapshot dest omitted host walk visited).cache = none ∧
      walk.unreadable ⊆ (visitSnapshot dest omitted host walk visited).unreadable ∧
      ∀ tree, visited.1.ls dest.readable = .error tree →
        walkFailure format dest host visited.1 tree ∈
          (visitSnapshot dest omitted host walk visited).unreadable := by
  obtain ⟨snap, depth⟩ := visited
  unfold visitSnapshot
  dsimp only
  rw [usableHit_none h]
  dsimp only
  cases snap.ls dest.readable with
  | error tree =>
    refine ⟨h, List.subset_append_left _ _, fun failed hfailed => ?_⟩
    obtain rfl := Except.error.inj hfailed
    exact List.mem_append_right _ List.mem_cons_self
  | ok entries => exact ⟨by simp [h], List.Subset.refl _, nofun⟩

lemma visitAll_uncached {walk : HostWalk format} (h : walk.cache = none) (host : Ident)
    (visits : List (Readback.Snapshot × ℕ)) :
    (visits.foldl (visitSnapshot dest omitted host) walk).cache = none ∧
      walk.unreadable ⊆ (visits.foldl (visitSnapshot dest omitted host) walk).unreadable ∧
      ∀ visited ∈ visits, ∀ tree, visited.1.ls dest.readable = .error tree →
        walkFailure format dest host visited.1 tree ∈
          (visits.foldl (visitSnapshot dest omitted host) walk).unreadable := by
  induction visits generalizing walk with
  | nil => exact ⟨h, List.Subset.refl _, nofun⟩
  | cons visited visits ih =>
    obtain ⟨hcache, hkept, hreported⟩ := @visit_uncached format dest omitted walk h host visited
    obtain ⟨hcache', hkept', hrest⟩ := ih hcache
    exact ⟨hcache', List.Subset.trans hkept hkept', List.forall_mem_cons.mpr
      ⟨fun tree htree => hkept' (hreported tree htree), hrest⟩⟩

lemma readIndexLine_unreadable (machine : Ident) (lines : List Bytes)
    (read : Sidecars rules × ℕ × String) :
    (lines.foldl (readIndexLine machine) read).1.unreadable = read.1.unreadable := by
  induction lines generalizing read with
  | nil => rfl
  | cons line lines ih =>
    rw [List.foldl_cons, ih, readIndexLine]
    split
    · rfl
    · dsimp only
      split <;> rfl

lemma readSidecar_unreadable (host : Ident) (sidecars : Sidecars rules)
    (indexed : Ident × Node) :
    sidecars.unreadable ⊆ (readSidecar dest host sidecars indexed).unreadable := by
  unfold readSidecar
  dsimp only
  split
  · exact List.subset_append_left _ _
  next bytes hdump =>
    split
    · rw [readIndexLine_unreadable]
      exact List.Subset.refl _
    · rw [readIndexLine_unreadable]
      exact List.subset_append_left _ _

lemma readSidecars_unreadable (host : Ident) (sidecars : Sidecars rules)
    (nodes : List (Ident × Node)) :
    sidecars.unreadable ⊆ (nodes.foldl (readSidecar dest host) sidecars).unreadable := by
  induction nodes generalizing sidecars with
  | nil => exact List.Subset.refl _
  | cons node nodes ih => exact List.Subset.trans (readSidecar_unreadable host sidecars node) (ih _)

lemma placeSession_unreadable (sidecars : Sidecars rules)
    (sessions : List ((Ident ×ₗ Ident) × SessionSlot format.Id))
    (report : ReportFields format rules) :
    (sessions.foldl (placeSession sidecars) report).unreadable = report.unreadable := by
  induction sessions generalizing report with
  | nil => rfl
  | cons held sessions ih =>
    rw [List.foldl_cons, ih]
    unfold placeSession
    dsimp only
    split <;> rfl

lemma mem_placeHost_unreadable {host : Ident} {newest : HostSnapshot format.Id}
    {report : ReportFields format rules} {legacyMachines : List Ident}
    {sessions : List ((Ident ×ₗ Ident) × SessionSlot format.Id)} {indexNodes : List (Ident × Node)}
    {line : String} (h : line ∈ report.unreadable) :
    line ∈ (placeHost dest host newest report legacyMachines sessions indexNodes).1.unreadable := by
  have hkept := @readSidecars_unreadable rules dest host
    ⟨[], [], [], [], legacyMachines, report.indexFilesRead, report.unreadable⟩
    (KeyedList.inKeyOrder indexNodes)
  unfold placeHost
  dsimp only
  rw [placeSession_unreadable]
  exact hkept h

lemma searchHost_uncached {s : Searching format rules} (h : s.cache = none)
    (grouped : Ident × List Readback.Snapshot) :
    (searchHost dest omitted s grouped).cache = none ∧
      s.report.unreadable ⊆ (searchHost dest omitted s grouped).report.unreadable ∧
      ∀ snap ∈ grouped.2, ∀ tree, snap.ls dest.readable = .error tree →
        walkFailure format dest grouped.1 snap tree ∈
          (searchHost dest omitted s grouped).report.unreadable := by
  obtain ⟨host, snaps⟩ := grouped
  unfold searchHost
  dsimp only
  cases hnewest : snaps.head? with
  | none =>
    rw [List.head?_eq_none_iff.mp hnewest]
    exact ⟨h, List.Subset.refl _, nofun⟩
  | some newest =>
    obtain ⟨hcache, hkept, hreported⟩ := @visitAll_uncached format dest omitted
      ⟨s.report.snapshotsScanned, s.snapshotsFromCache, s.report.unreadable, [], [], s.cache,
        s.treesAvailable⟩ h host snaps.zipIdx
    dsimp only
    refine ⟨hcache, fun line hline => mem_placeHost_unreadable (hkept hline),
      fun snap hsnap tree htree => mem_placeHost_unreadable ?_⟩
    obtain ⟨depth, hdepth⟩ := List.getElem?_of_mem hsnap
    exact hreported (snap, depth) (List.mk_mem_zipIdx_iff_getElem?.mpr hdepth) tree htree

lemma searchAll_uncached {s : Searching format rules} (h : s.cache = none)
    (grouped : List (Ident × List Readback.Snapshot)) :
    s.report.unreadable ⊆ (grouped.foldl (searchHost dest omitted) s).report.unreadable ∧
      ∀ host ∈ grouped, ∀ snap ∈ host.2, ∀ tree, snap.ls dest.readable = .error tree →
        walkFailure format dest host.1 snap tree ∈
          (grouped.foldl (searchHost dest omitted) s).report.unreadable := by
  induction grouped generalizing s with
  | nil => exact ⟨List.Subset.refl _, nofun⟩
  | cons host hosts ih =>
    obtain ⟨hcache, hkept, hreported⟩ := @searchHost_uncached format rules dest omitted s h host
    obtain ⟨hkept', hrest⟩ := ih hcache
    exact ⟨List.Subset.trans hkept hkept', List.forall_mem_cons.mpr
      ⟨fun snap hsnap tree htree => hkept' (hreported snap hsnap tree htree), hrest⟩⟩

lemma mem_snapshotsByHost {snaps : List Readback.Snapshot} {snap : Readback.Snapshot}
    (h : snap ∈ snaps) :
    ∃ host ∈ snapshotsByHostNewestFirst snaps, host.1 = snap.hostname ∧ snap ∈ host.2 := by
  have hhost : snap.hostname ∈
      ((snaps.map Readback.Snapshot.hostname).dedup).insertionSort (· ≤ ·) :=
    (List.mem_insertionSort (· ≤ ·)).mpr (List.mem_dedup.mpr (List.mem_map_of_mem h))
  refine ⟨_, List.mem_map_of_mem hhost, rfl, ?_⟩
  exact (List.mem_insertionSort _).mpr (List.mem_filter.mpr ⟨h, by simp⟩)

lemma searchSessions_unreadable {report : SearchReport format rules}
    (h : (searchSessions rules dest (none : Option (CacheDir format))).1 = .ok report)
    {snap : Readback.Snapshot} (hsnap : snap ∈ dest.snapshots) {tree : TreeId}
    (htree : snap.ls dest.readable = .error tree) :
    walkFailure format dest snap.hostname snap tree ∈ report.unreadable := by
  unfold searchSessions at h
  dsimp only at h
  cases hpolicy : dest.controlPolicy with
  | error e =>
    rw [hpolicy] at h
    cases h
  | ok omitted =>
    rw [hpolicy] at h
    obtain rfl := Except.ok.inj h
    obtain ⟨host, hhost, hname, hmem⟩ := mem_snapshotsByHost hsnap
    rw [← hname]
    exact (searchAll_uncached (by rfl) _).2 host hhost snap hmem tree htree

end Unreadable

section Runs
variable {format : CacheFormat}

def Destination.push (dest : Destination) (snap : Readback.Snapshot)
    (packed : List (TreeId × List Char)) :
    Destination :=
  { dest with
    snapshots := dest.snapshots ++ [snap]
    indexEntry := fun tree => (packed.lookup tree).or (dest.indexEntry tree)
    held := fun pack => decide (pack ∈ packed.map Prod.snd) || dest.held pack }

def Destination.forget (dest : Destination) (removed : List Readback.Snapshot) : Destination :=
  { dest with snapshots := dest.snapshots.filter fun snap => snap ∉ removed }

def Destination.losePack (dest : Destination) (lost : List Char) : Destination :=
  { dest with held := fun pack => pack ≠ lost && dest.held pack }

/-- A destination and the files of its cache directory. -/
structure Site (format : CacheFormat) where
  dest : Destination
  files : List (format.Id × EntryFile format)

/-- What happens between two searches: `elsewhere` is any other change of the destination's answers,
`damage` any change of the cache directory's files. -/
inductive Event (format : CacheFormat)
  | push (snap : Readback.Snapshot) (packed : List (TreeId × List Char))
  | forget (removed : List Readback.Snapshot)
  | losePack (lost : List Char)
  | elsewhere (after : Destination)
  | search (rules : SearchRules) (writable : format.Id → Bool)
  | damage (after : List (format.Id × EntryFile format))

def Site.cached (site : Site format) (writable : format.Id → Bool) : Option (CacheDir format) :=
  some ⟨site.files, writable⟩

def Site.step (site : Site format) : Event format → Site format
  | .push snap packed => { site with dest := site.dest.push snap packed }
  | .forget removed => { site with dest := site.dest.forget removed }
  | .losePack lost => { site with dest := site.dest.losePack lost }
  | .elsewhere after => { site with dest := after }
  | .search rules writable => { site with
      files := ((searchSessions rules site.dest (site.cached writable)).2.map (·.files)).getD [] }
  | .damage after => { site with files := after }

/-- A file that names the digest of its own body names one that a walk recorded: damage does not find
another body with its digest. -/
def Recorded (files : List (format.Id × EntryFile format)) : Prop :=
  ∀ e ∈ files, ∀ declared digest body, e.2 = .framed declared digest body →
    digest = format.digest body →
    ∃ snap, digest = format.digest (format.toVec (walkEntry format snap))

def Event.Damages : Event format → Prop
  | .damage after => Recorded after
  | _ => True

lemma Recorded.trusted {files : List (format.Id × EntryFile format)} (h : Recorded files) :
    Trusted files := by
  intro e he body hbody
  obtain ⟨id, file⟩ := e
  cases file with
  | foreign => cases hbody
  | framed declared digest framed =>
    rw [decode] at hbody
    split at hbody
    · cases hbody
    · split at hbody
      · cases hbody
      next hlength hdigest =>
        obtain rfl := Option.some.inj hbody
        obtain ⟨snap, hsnap⟩ := h _ he _ _ _ rfl (not_not.mp hdigest).symm
        exact ⟨snap, format.digest_injective ((not_not.mp hdigest).trans hsnap)⟩

lemma Site.cached_trusted {site : Site format} (h : Trusted site.files)
    (writable : format.Id → Bool) : ∀ dir ∈ site.cached writable, Trusted dir.files := by
  intro dir hdir
  obtain rfl := Option.some.inj hdir
  exact h

lemma Site.step_trusted {site : Site format} (h : Trusted site.files) {event : Event format}
    (hevent : event.Damages) : Trusted (site.step event).files := by
  cases event with
  | push | forget | losePack | elsewhere => exact h
  | damage after => exact Recorded.trusted hevent
  | search rules writable =>
    have hleft := (@searchSessions_alike format rules site.dest _ (Site.cached_trusted h writable)).2
    rw [Site.step]
    cases hcache : (searchSessions rules site.dest (site.cached writable)).2 with
    | none => exact fun e he => absurd he List.not_mem_nil
    | some left => exact hleft left hcache

/-- After every run, a search with the cache reports what a search without it reports, and names every
snapshot whose tree cannot be read. -/
theorem search_cache_transparent {site : Site format} (hsite : Recorded site.files)
    {events : List (Event format)}
    (hevents : StepRun.Along Site.step (fun _ event => event.Damages) site events)
    (rules : SearchRules) (writable : format.Id → Bool) :
    let after := StepRun.exec Site.step site events
    (searchSessions rules after.dest (after.cached writable)).1.map SearchReport.toReportFields =
        (searchSessions rules after.dest (none : Option (CacheDir format))).1.map
          SearchReport.toReportFields ∧
      ∀ report, (searchSessions rules after.dest (after.cached writable)).1 = .ok report →
        ∀ snap ∈ after.dest.snapshots, ∀ tree, snap.ls after.dest.readable = .error tree →
          walkFailure format after.dest snap.hostname snap tree ∈ report.unreadable := by
  intro after
  have htrusted : Trusted after.files :=
    @StepRun.invariant _ _ Site.step _ (fun site => Trusted site.files)
      (fun _ _ hs hevent => Site.step_trusted hs hevent) _ hsite.trusted _ hevents
  have halike := (@searchSessions_alike format rules after.dest _
    (Site.cached_trusted htrusted writable)).1
  refine ⟨halike, fun report hreport snap hsnap tree htree => ?_⟩
  rw [hreport] at halike
  cases hwalk : (searchSessions rules after.dest (none : Option (CacheDir format))).1 with
  | error e =>
    rw [hwalk] at halike
    cases halike
  | ok walked =>
    rw [hwalk] at halike
    have hfields : report.toReportFields = walked.toReportFields := Except.ok.inj halike
    rw [hfields]
    exact searchSessions_unreadable hwalk hsnap htree

end Runs

section Sample

/-- Snapshots named by themselves, entries as their own bodies and digests. -/
def plainFormat : CacheFormat where
  Id := Readback.Snapshot
  decEqId := inferInstance
  idOf := id
  idOf_injective := Function.injective_id
  short snap := String.ofList snap.hostname
  Body := SnapshotEntry Readback.Snapshot
  Digest := SnapshotEntry Readback.Snapshot
  decEqDigest := inferInstance
  bodyLength entry := entry.sessions.length
  digest := id
  digest_injective := Function.injective_id
  toVec := id
  fromSlice := some
  fromSlice_toVec _ := rfl

def sampleEntries : List (Path × Node) :=
  [(["sessions".toList], .dir "b".toList),
    (["sessions".toList, "m".toList], .dir "c".toList),
    (["sessions".toList, "m".toList, "s".toList], .dir "d".toList),
    (["sessions".toList, "m".toList, "s".toList, "x.jsonl".toList], .file [1] (some [[]]))]

lemma sample_within : ∀ e ∈ sampleEntries, ∀ at_, at_ <+: e.1 → at_ ≠ [] → at_ ≠ e.1 →
    ∃ subtree, (at_, Node.dir subtree) ∈ sampleEntries := by
  have hdirs : ∀ e ∈ sampleEntries, ∀ at_ ∈ e.1.inits, at_ = [] ∨ at_ = e.1 ∨
      ∃ dir ∈ ["b".toList, "c".toList, "d".toList], (at_, Node.dir dir) ∈ sampleEntries := by
    decide
  intro e he at_ hstart hne hproper
  obtain h | h | ⟨dir, -, hdir⟩ := hdirs e he at_ ((List.mem_inits _ _).mpr hstart)
  · exact absurd h hne
  · exact absurd h hproper
  · exact ⟨dir, hdir⟩

def sampleSnapshot : Readback.Snapshot :=
  ⟨"h".toList, 1, [], "a".toList, sampleEntries, by decide, sample_within⟩

def sampleRules : SearchRules where
  AccountKey := Unit
  Title := Unit
  Extra := Unit
  textLines _ := []
  isBlank _ := true
  parseRow _ := .error ""
  inferHarness _ := none
  select _ := .selected

def emptySite : Site plainFormat :=
  ⟨⟨[], fun _ => none, fun _ => false, fun _ => false, fun _ => "lost", fun _ => none,
    .ok fun _ _ => false⟩, []⟩

def samplePush : Event plainFormat :=
  .push sampleSnapshot
    [("a".toList, "p".toList), ("b".toList, "p".toList), ("c".toList, "p".toList),
      ("d".toList, "p".toList)]

def searched : List (Event plainFormat) := [samplePush, .search sampleRules fun _ => true]

def lost : List (Event plainFormat) :=
  searched ++ [.losePack "p".toList, .damage [(sampleSnapshot, .foreign)], .search sampleRules
    fun _ => true]

lemma lost_damages : StepRun.Along Site.step (fun _ event => event.Damages) emptySite lost := by
  refine ⟨trivial, trivial, trivial, ?_, trivial, trivial⟩
  intro e he declared digest body hframed
  obtain rfl := List.mem_singleton.mp he
  cases hframed

/-- The snapshot is taken from the cache until its pack is lost; then both searches say so. -/
theorem search_cache_transparent_lost :
    (searchSessions sampleRules (StepRun.exec Site.step emptySite searched).dest
        ((StepRun.exec Site.step emptySite searched).cached fun _ => true)).1.map
          (fun report => (report.snapshotsFromCache, report.hits.length)) = .ok (1, 1) ∧
      (searchSessions sampleRules (StepRun.exec Site.step emptySite lost).dest
        ((StepRun.exec Site.step emptySite lost).cached fun _ => true)).1.map
          SearchReport.toReportFields =
        (searchSessions sampleRules (StepRun.exec Site.step emptySite lost).dest
          (none : Option (CacheDir plainFormat))).1.map SearchReport.toReportFields :=
  ⟨by decide +kernel, (search_cache_transparent (fun e he => absurd he List.not_mem_nil)
    lost_damages sampleRules fun _ => true).1⟩

end Sample

end ChatStasher.Search
