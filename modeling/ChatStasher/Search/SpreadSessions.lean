import ChatStasher.Readback.OneBody
import ChatStasher.Search.CacheTransparent

/-! The counts of a search: it takes a session from the newest snapshot of a host that holds it. -/
namespace ChatStasher.Search
open Readback
open Activity (DuplicateShardPolicy)

section Counts

def sessionShards (machine session : Ident) (snap : Readback.Snapshot) : List (Path × Node) :=
  snap.entries.filter fun e => e.2.isFile &&
    (bucketShardPath e.1).any fun found => found.1 = machine ∧ found.2.1 = session

def countedShards (machine session : Ident) (snap : Readback.Snapshot) : List (Path × Node) :=
  (sessionShards machine session snap).filter fun e => (activityIndexMachine e.1).isNone

def countsOf (shards : List (Path × Node)) : ℕ × ℕ :=
  (shards.length, (shards.map fun e => e.2.bytes.length).sum)

/-- What a search makes of a session over the snapshots of one host, newest first. -/
def searchedCounts (machine session : Ident) (snaps : List Readback.Snapshot) : Option (ℕ × ℕ) :=
  (snaps.find? fun snap => countedShards machine session snap ≠ []).map fun snap =>
    countsOf (countedShards machine session snap)

variable {machine session : Ident} {snap : Readback.Snapshot} {snaps : List Readback.Snapshot}

lemma mem_sessionShards {e : Path × Node} : e ∈ sessionShards machine session snap ↔
    e ∈ snap.entries ∧ e.2.isFile = true ∧
      ∃ shard, bucketShardPath e.1 = some (machine, session, shard) := by
  rw [sessionShards, List.mem_filter, Bool.and_eq_true, Option.any_eq_true]
  refine and_congr_right fun _ => and_congr_right fun _ => ⟨?_, ?_⟩
  · rintro ⟨⟨found, named, shard⟩, hpath, hsame⟩
    obtain ⟨rfl, rfl⟩ := of_decide_eq_true hsame
    exact ⟨shard, hpath⟩
  · rintro ⟨shard, hpath⟩
    exact ⟨_, hpath, by simp⟩

lemma mem_countedShards {e : Path × Node} : e ∈ countedShards machine session snap ↔
    e ∈ sessionShards machine session snap ∧ activityIndexMachine e.1 = none := by
  simp [countedShards]

lemma sessionShards_paths_nodup :
    ((sessionShards machine session snap).map Prod.fst).Nodup :=
  (List.filter_sublist.map Prod.fst).nodup snap.paths_nodup

end Counts

section Buckets
variable {format : CacheFormat} {machine session : Ident} {snap : Readback.Snapshot}
  {snaps : List Readback.Snapshot}

/-- What a walk counts of one file. -/
def bucketed (e : Path × Node) : Option ((Ident ×ₗ Ident) × ℕ × ℕ) :=
  match e.2 with
  | .file bytes content =>
    if (activityIndexMachine e.1).isSome then none
    else (bucketShardPath e.1).map fun found =>
      (toLex (found.1, found.2.1), bytes.length, (content.map List.length).getD 0)
  | _ => none

def countIn (held : Option (ℕ × ℕ × ℕ)) (x : (Ident ×ₗ Ident) × ℕ × ℕ) : ℕ × ℕ × ℕ :=
  let held := held.getD (0, 0, 0)
  (held.1 + 1, held.2.1 + x.2.1, held.2.2 + x.2.2)

def bucketCounts (snap : Readback.Snapshot) : List ((Ident ×ₗ Ident) × ℕ × ℕ × ℕ) :=
  (snap.entries.filterMap bucketed).foldl (fun counted x =>
    KeyedList.upsert counted x.1 (countIn · x)) []

lemma bucketSessions_eq (snap : Readback.Snapshot) : bucketSessions snap =
    (KeyedList.inKeyOrder (bucketCounts snap)).map fun e =>
      ⟨(ofLex e.1).1, (ofLex e.1).2, e.2.1, e.2.2.1, e.2.2.2⟩ := rfl

lemma bucketCounts_nodup (snap : Readback.Snapshot) : ((bucketCounts snap).map Prod.fst).Nodup := by
  rw [bucketCounts]
  suffices hsuff : ∀ (files : List ((Ident ×ₗ Ident) × ℕ × ℕ))
      (counted : List ((Ident ×ₗ Ident) × ℕ × ℕ × ℕ)), (counted.map Prod.fst).Nodup →
      ((files.foldl (fun counted x => KeyedList.upsert counted x.1 (countIn · x)) counted).map
        Prod.fst).Nodup from hsuff _ [] List.nodup_nil
  intro files
  induction files with
  | nil => exact fun _ h => h
  | cons x files ih => exact fun counted h => ih _ (KeyedList.put_nodup h)

lemma bucketed_of_session (machine session : Ident) (entries : List (Path × Node)) :
    ((entries.filterMap bucketed).filter fun x => x.1 = toLex (machine, session)).map
        (fun x => x.2.1) =
      ((entries.filter fun e => e.2.isFile && (bucketShardPath e.1).any fun found =>
        found.1 = machine ∧ found.2.1 = session).filter fun e =>
          (activityIndexMachine e.1).isNone).map fun e => e.2.bytes.length := by
  induction entries with
  | nil => rfl
  | cons e entries ih =>
    obtain ⟨path, node⟩ := e
    rw [List.filterMap_cons, List.filter_cons]
    cases node with
    | dir | other => simpa [bucketed, Node.isFile] using ih
    | file bytes content =>
      cases hindex : activityIndexMachine path with
      | some indexed =>
        simp only [bucketed, hindex, Option.isSome_some, if_true]
        rw [ih]
        split
        · rw [List.filter_cons, if_neg (by simp [hindex])]
        · rfl
      | none =>
        cases hpath : bucketShardPath path with
        | none => simpa [bucketed, hindex, hpath] using ih
        | some found =>
          obtain ⟨named, of_, shard⟩ := found
          by_cases hsame : named = machine ∧ of_ = session
          · obtain ⟨rfl, rfl⟩ := hsame
            simpa [bucketed, hindex, hpath, Node.isFile, Node.bytes] using ih
          · have hne : toLex (named, of_) ≠ toLex (machine, session) := fun h =>
              hsame (Prod.mk.inj (toLex_inj.mp h))
            simpa [bucketed, hindex, hpath, Node.isFile, hne, hsame] using ih

lemma foldl_countIn (files : List ((Ident ×ₗ Ident) × ℕ × ℕ)) (held : Option (ℕ × ℕ × ℕ)) :
    (files.foldl (fun held x => some (countIn held x)) held).map (fun v => (v.1, v.2.1)) =
      if files = [] then held.map (fun v => (v.1, v.2.1))
      else some ((held.getD (0, 0, 0)).1 + files.length,
        (held.getD (0, 0, 0)).2.1 + (files.map fun x => x.2.1).sum) := by
  induction files generalizing held with
  | nil => rfl
  | cons x files ih =>
    rw [List.foldl_cons, ih]
    by_cases hfiles : files = []
    · simp [hfiles, countIn]
    · simp [hfiles, countIn, Nat.add_assoc, Nat.add_comm, Nat.add_left_comm]

lemma lookup_bucketCounts : ((bucketCounts snap).lookup (toLex (machine, session))).map
    (fun v => (v.1, v.2.1)) = if countedShards machine session snap = [] then none
      else some (countsOf (countedShards machine session snap)) := by
  have hfiles := bucketed_of_session machine session snap.entries
  rw [bucketCounts, KeyedList.lookup_foldl_upsert (fun x => x.1) countIn, foldl_countIn]
  generalize (snap.entries.filterMap bucketed).filter
    (fun x => x.1 = toLex (machine, session)) = files at hfiles
  change _ = (countedShards machine session snap).map _ at hfiles
  have hlength : files.length = (countedShards machine session snap).length := by
    simpa using congrArg List.length hfiles
  have hnil : files = [] ↔ countedShards machine session snap = [] := by
    rw [← List.length_eq_zero_iff, hlength, List.length_eq_zero_iff]
  simp [hnil, hfiles, hlength, countsOf]

/-- The sessions that a walked snapshot adds, with the slots they would take. -/
def slotRows (format : CacheFormat) (snap : Readback.Snapshot) :
    List ((Ident ×ₗ Ident) × SessionSlot format.Id) :=
  (bucketSessions snap).map fun row => (toLex (row.machine, row.session),
    ⟨row.shardCount, row.bytes, row.dataBlobs, format.idOf snap, snap.time⟩)

lemma lookup_slotRows (key : Ident ×ₗ Ident) : (slotRows format snap).lookup key =
    ((bucketCounts snap).lookup key).map fun v =>
      ⟨v.1, v.2.1, v.2.2, format.idOf snap, snap.time⟩ := by
  rw [slotRows, bucketSessions_eq, List.map_map]
  exact lookup_map_inKeyOrder (W := SessionSlot format.Id) (bucketCounts_nodup snap)
    (fun x => ⟨x.2.1, x.2.2.1, x.2.2.2, format.idOf snap, snap.time⟩) key

lemma lookup_flatMap_slotRows (snaps : List Readback.Snapshot) :
    ((snaps.flatMap (slotRows format)).lookup (toLex (machine, session))).map
      (fun slot => (slot.shardCount, slot.bytes)) = searchedCounts machine session snaps := by
  rw [searchedCounts]
  induction snaps with
  | nil => rfl
  | cons snap snaps ih =>
    have hsnap := @lookup_bucketCounts machine session snap
    rw [List.flatMap_cons, List.lookup_append, lookup_slotRows, List.find?_cons]
    by_cases hnil : countedShards machine session snap = []
    · rw [if_pos hnil, Option.map_eq_none_iff] at hsnap
      rw [hsnap, Option.map_none, Option.none_or, ih]
      simp [hnil]
    · rw [if_neg hnil, Option.map_eq_some_iff] at hsnap
      obtain ⟨v, hv, hcounts⟩ := hsnap
      rw [hv]
      simpa [hnil] using hcounts

variable (format) (omitted : Ident → Ident → Bool)

def kept (held : (Ident ×ₗ Ident) × SessionSlot format.Id) : Bool :=
  !omitted (ofLex held.1).1 (ofLex held.1).2

def hostSlots (snaps : List Readback.Snapshot) : List ((Ident ×ₗ Ident) × SessionSlot format.Id) :=
  KeyedList.firstWins ((snaps.flatMap (slotRows format)).filter (kept format omitted))

variable {format omitted}

lemma lookup_hostSlots (snaps : List Readback.Snapshot) :
    ((hostSlots format omitted snaps).lookup (toLex (machine, session))).map
      (fun slot => (slot.shardCount, slot.bytes)) =
        if omitted machine session then none else searchedCounts machine session snaps := by
  rw [hostSlots, KeyedList.firstWins, KeyedList.lookup_foldl_orInsert, List.lookup_nil,
    Option.none_or, ← @lookup_flatMap_slotRows format]
  have hkept := KeyedList.lookup_filter_key (snaps.flatMap (slotRows format))
    (fun key => !omitted (ofLex key).1 (ofLex key).2) (toLex (machine, session))
  refine (congrArg (Option.map _) hkept).trans ?_
  cases h : omitted machine session <;> simp [h]

end Buckets

section Searched
variable {format : CacheFormat} {rules : SearchRules} {dest : Destination}
  {omitted : Ident → Ident → Bool}

/-- Every tree of the snapshot is readable. -/
def Destination.lists (dest : Destination) (snap : Readback.Snapshot) : Bool :=
  (snap.ls dest.readable).isOk

lemma mergeSessions_eq (id : format.Id) (time : ℤ) (rows : List CachedSession)
    (sessions : List ((Ident ×ₗ Ident) × SessionSlot format.Id)) :
    mergeSessions omitted id time rows sessions =
      ((rows.map fun row => (toLex (row.machine, row.session),
        (⟨row.shardCount, row.bytes, row.dataBlobs, id, time⟩ : SessionSlot format.Id))).filter
          (kept format omitted)).foldl KeyedList.orInsert sessions := by
  rw [mergeSessions, List.foldl_filter, List.foldl_map]
  congr 1
  funext sessions row
  cases h : omitted row.machine row.session <;> simp [kept, h]

lemma visitAll_sessions {walk : HostWalk format} (hcache : walk.cache = none) (host : Ident)
    (visits : List (Readback.Snapshot × ℕ)) :
    (visits.foldl (visitSnapshot dest omitted host) walk).sessions =
      ((((visits.map Prod.fst).filter dest.lists).flatMap (slotRows format)).filter
        (kept format omitted)).foldl KeyedList.orInsert walk.sessions := by
  induction visits generalizing walk with
  | nil => rfl
  | cons visited visits ih =>
    obtain ⟨snap, depth⟩ := visited
    have hnext := (@visit_uncached format dest omitted walk hcache host (snap, depth)).1
    rw [List.foldl_cons, ih hnext, List.map_cons]
    have hlists : dest.lists snap = (snap.ls dest.readable).isOk := rfl
    unfold visitSnapshot
    dsimp only
    rw [usableHit_none hcache]
    dsimp only
    cases hls : snap.ls dest.readable with
    | error tree =>
      rw [hls] at hlists
      rw [List.filter_cons_of_neg (by simp [hlists, Except.isOk, Except.toBool])]
    | ok entries =>
      rw [hls] at hlists
      rw [List.filter_cons_of_pos (by simp [hlists, Except.isOk, Except.toBool]), List.flatMap_cons,
        List.filter_append, List.foldl_append]
      exact congrArg (List.foldl KeyedList.orInsert · _) (mergeSessions_eq _ _ _ _)

abbrev Held (format : CacheFormat) : Type := (Ident ×ₗ Ident) × SessionSlot format.Id

def SessionHit.held (hit : SessionHit format.Id rules.AccountKey rules.Title rules.Extra) :
    Held format :=
  (toLex (hit.machine, hit.sessionId), hit.slot)

def UnplacedSession.held (session : UnplacedSession format.Id rules.Extra) : Held format :=
  (toLex (session.machine, session.sessionId), session.slot)

/-- The facts that a hit shows. -/
def SessionHit.toMeta (hit : SessionHit format.Id rules.AccountKey rules.Title rules.Extra) :
    SessionMeta rules.Extra :=
  ⟨hit.machine, hit.sessionId, hit.harness, hit.firstUnix, hit.lastUnix,
    hit.timeSource matches .partialRange .., hit.timeWhy, hit.extra⟩

/-- Every session that was met is a hit, unplaced or among those that did not match. -/
structure Accounted (report : ReportFields format rules) (met : List (Held format)) : Prop where
  seen : report.sessionsSeen = met.length
  kept : ∃ unmatched, unmatched.length = report.notMatched ∧ (report.hits.map SessionHit.held ++
    (report.unplaced.map UnplacedSession.held ++ unmatched)).Perm met
  selected : ∀ hit ∈ report.hits, rules.select hit.toMeta = .selected
  all : (∀ session, rules.select session = .selected) → report.unplaced = [] ∧ report.notMatched = 0

variable {report : ReportFields format rules} {met : List (Held format)}

lemma Accounted.perm (h : Accounted report met) {met' : List (Held format)}
    (hperm : met.Perm met') : Accounted report met' where
  seen := h.seen.trans hperm.length_eq
  kept := h.kept.imp fun _ hkept => hkept.imp_right (·.trans hperm)
  selected := h.selected
  all := h.all

lemma Accounted.placeSession (h : Accounted report met) (sidecars : Sidecars rules)
    (held : Held format) : Accounted (placeSession sidecars report held) (held :: met) := by
  obtain ⟨hseen, ⟨unmatched, hlength, hperm⟩, hselected, hall⟩ := h
  unfold Search.placeSession
  dsimp only
  split
  next hselect =>
    refine ⟨by simp [hseen], ⟨unmatched, hlength, ?_⟩, ?_, hall⟩
    · rw [List.map_append, List.map_singleton, List.append_assoc]
      exact List.perm_middle.trans (hperm.cons held)
    · intro hit hhit
      rcases List.mem_append.mp hhit with hold | hnew
      · exact hselected hit hold
      · obtain rfl := List.mem_singleton.mp hnew
        exact hselect
  next hselect =>
    refine ⟨by simp [hseen], ⟨held :: unmatched, by simp [hlength], ?_⟩, hselected, ?_⟩
    · rw [← List.append_assoc]
      refine List.perm_middle.trans (List.Perm.cons held ?_)
      rwa [List.append_assoc]
    · intro hall
      rw [hall] at hselect
      cases hselect
  next hselect =>
    refine ⟨by simp [hseen], ⟨unmatched, hlength, ?_⟩, hselected, ?_⟩
    · rw [List.map_append, List.map_singleton, List.append_assoc, ← List.append_assoc]
      refine List.perm_middle.trans (List.Perm.cons held ?_)
      rwa [List.append_assoc]
    · intro hall
      rw [hall] at hselect
      cases hselect

lemma Accounted.placeSessions (h : Accounted report met) (sidecars : Sidecars rules)
    (sessions : List (Held format)) :
    Accounted (sessions.foldl (Search.placeSession sidecars) report) (met ++ sessions) := by
  induction sessions generalizing report met with
  | nil => exact h.perm (by simp)
  | cons held sessions ih => exact (ih (h.placeSession sidecars held)).perm List.perm_middle.symm

lemma Accounted.searchHost {s : Searching format rules} (h : Accounted s.report met)
    (hcache : s.cache = none) (grouped : Ident × List Readback.Snapshot) :
    Accounted (searchHost dest omitted s grouped).report (met ++
      KeyedList.inKeyOrder (hostSlots format omitted (grouped.2.filter dest.lists))) := by
  obtain ⟨host, snaps⟩ := grouped
  unfold Search.searchHost
  dsimp only
  cases hnewest : snaps.head? with
  | none =>
    rw [List.head?_eq_none_iff.mp hnewest]
    exact h.perm (by simp [hostSlots, KeyedList.firstWins, KeyedList.inKeyOrder])
  | some newest =>
    dsimp only
    rw [visitAll_sessions hcache, List.zipIdx_map_fst]
    unfold placeHost
    apply Accounted.placeSessions
    exact ⟨h.seen, h.kept, h.selected, h.all⟩

lemma Accounted.searchAll {s : Searching format rules} (h : Accounted s.report met)
    (hcache : s.cache = none) (hosts : List (Ident × List Readback.Snapshot)) :
    Accounted (hosts.foldl (Search.searchHost dest omitted) s).report
      (met ++ hosts.flatMap fun host =>
        KeyedList.inKeyOrder (hostSlots format omitted (host.2.filter dest.lists))) := by
  induction hosts generalizing s met with
  | nil => exact h.perm (by simp)
  | cons host hosts ih =>
    have hnext := (@searchHost_uncached format rules dest omitted s hcache host).1
    refine (ih (h.searchHost hcache host) hnext).perm (.of_eq ?_)
    rw [List.append_assoc, List.flatMap_cons]

lemma Accounted.finish (h : Accounted report met) (legacyMachines : List Ident) :
    Accounted (finishReport report legacyMachines) met := by
  obtain ⟨hseen, ⟨unmatched, hlength, hperm⟩, hselected, hall⟩ := h
  refine ⟨hseen, ⟨unmatched, hlength, List.Perm.trans ?_ hperm⟩, ?_, ?_⟩
  · exact ((List.perm_insertionSort _ _).map _).append
      (((List.perm_insertionSort _ _).map _).append_right _)
  · intro hit hhit
    exact hselected hit ((List.perm_insertionSort _ _).mem_iff.mp hhit)
  · intro hselect
    obtain ⟨hunplaced, hnone⟩ := hall hselect
    exact ⟨by simp [finishReport, hunplaced], hnone⟩

lemma filter_key_inKeyOrder {K V W : Type} [LinearOrder K] [DecidableEq K] [BEq K] [LawfulBEq K]
    {m : List (K × V)}
    (h : (m.map Prod.fst).Nodup) (f : V → W) (k : K) :
    ((KeyedList.inKeyOrder m).filter fun x => x.1 = k).map (fun x => f x.2) =
      ((m.lookup k).map f).toList := by
  have hperm : ((KeyedList.inKeyOrder m).filter fun x => x.1 = k).Perm
      ((m.lookup k).map (Prod.mk k)).toList := by
    refine ((KeyedList.inKeyOrder_perm m).filter _).trans
      ((List.perm_ext_iff_of_nodup (h.of_map.filter _) ?_).mpr ?_)
    · cases m.lookup k <;> simp
    · rintro ⟨key, v⟩
      rw [List.mem_filter, ← KeyedList.lookup_eq_some_iff_mem h]
      constructor
      · rintro ⟨hlookup, hkey⟩
        obtain rfl := of_decide_eq_true hkey
        simp [hlookup]
      · intro hmem
        rw [Option.mem_toList, Option.map_eq_some_iff] at hmem
        obtain ⟨_, hlookup, hpair⟩ := hmem
        cases hpair
        exact ⟨hlookup, decide_eq_true rfl⟩
  cases hlookup : m.lookup k with
  | none =>
    rw [hlookup] at hperm
    rw [hperm.eq_nil]
    rfl
  | some v =>
    rw [hlookup] at hperm
    rw [List.perm_singleton.mp hperm]
    rfl

lemma hostSlots_counts {machine session : Ident} (snaps : List Readback.Snapshot) :
    ((KeyedList.inKeyOrder (hostSlots format omitted snaps)).filter fun x =>
        x.1 = toLex (machine, session)).map (fun x => (x.2.shardCount, x.2.bytes)) =
      (if omitted machine session then none else searchedCounts machine session snaps).toList :=
  (filter_key_inKeyOrder (KeyedList.firstWins_nodup _)
    (fun slot : SessionSlot format.Id => (slot.shardCount, slot.bytes)) _).trans
      (congrArg Option.toList (lookup_hostSlots snaps))

/-- A search loses no session, whatever its filters: each that is not hidden is reported or counted once
for every host that holds it, with the counts of the newest of the host's readable snapshots that
does; a hit is selected on the facts it shows, and without filters all of them are hits. -/
theorem searchSessions_accounts (hpolicy : dest.controlPolicy = .ok omitted) :
    ∃ report, (searchSessions rules dest (none : Option (CacheDir format))).1 = .ok report ∧
      (∀ hit ∈ report.hits, rules.select hit.toMeta = .selected) ∧
      ((∀ session, rules.select session = .selected) →
        report.unplaced = [] ∧ report.notMatched = 0) ∧
      ∃ unmatched : List (Held format), unmatched.length = report.notMatched ∧
        ∀ machine session, (((report.hits.map SessionHit.held ++
            (report.unplaced.map UnplacedSession.held ++ unmatched)).filter fun x =>
              x.1 = toLex (machine, session)).map fun x => (x.2.shardCount, x.2.bytes)).Perm
          (if omitted machine session then [] else
            (snapshotsByHostNewestFirst dest.snapshots).filterMap fun host =>
              searchedCounts machine session (host.2.filter dest.lists)) := by
  have hstart : Accounted (⟨dest.snapshots.length, 0, 0, [], [], [], 0, [], [], [], [], 0⟩ :
      ReportFields format rules) [] :=
    ⟨rfl, ⟨[], rfl, .nil⟩, by simp, fun _ => ⟨rfl, rfl⟩⟩
  have hall := @Accounted.searchAll format rules dest omitted [] ⟨_, 0, [], none, []⟩ hstart rfl
    (snapshotsByHostNewestFirst dest.snapshots)
  rw [List.nil_append] at hall
  unfold searchSessions
  rw [hpolicy]
  obtain ⟨-, ⟨unmatched, hlength, hperm⟩, hselected, hunfiltered⟩ := hall.finish _
  refine ⟨_, rfl, hselected, hunfiltered, unmatched, hlength, fun machine session => ?_⟩
  have hkept := (hperm.filter fun x => x.1 = toLex (machine, session)).map
    fun x => (x.2.shardCount, x.2.bytes)
  rw [List.filter_flatMap, List.map_flatMap] at hkept
  have hcounts : ∀ host : Ident × List Readback.Snapshot, _ = _ := fun host =>
    @hostSlots_counts format omitted machine session (host.2.filter dest.lists)
  rw [funext hcounts, ← List.filterMap_eq_flatMap_toList] at hkept
  refine hkept.trans (.of_eq ?_)
  cases omitted machine session <;> simp

end Searched

def emptiedSnapshot : Readback.Snapshot := ⟨"h".toList, 2, [], "a".toList, [], by decide, by simp⟩

def twoSnapshots : Destination :=
  ⟨[emptiedSnapshot, sampleSnapshot], some, fun _ => true, fun _ => false, fun _ => "", fun _ => none,
    .ok fun _ _ => false⟩

/-- The newer snapshot of the host holds nothing any more. -/
theorem searchSessions_accounts_older : ∃ report,
    (searchSessions sampleRules twoSnapshots (none : Option (CacheDir plainFormat))).1 = .ok report ∧
      (((report.hits.map SessionHit.held).filter fun x =>
        x.1 = toLex ("m".toList, "s".toList)).map fun x => (x.2.shardCount, x.2.bytes)).Perm
          [(1, 1)] := by
  obtain ⟨report, hreport, -, hall, unmatched, hlength, hcounts⟩ :=
    @searchSessions_accounts plainFormat sampleRules twoSnapshots _ rfl
  obtain ⟨hunplaced, hnone⟩ := hall fun _ => rfl
  obtain rfl := List.length_eq_zero_iff.mp (hlength.trans hnone)
  have hsession := hcounts "m".toList "s".toList
  rw [hunplaced, List.map_nil, List.append_nil, List.append_nil] at hsession
  exact ⟨report, hreport, hsession.trans (.of_eq (by decide +kernel))⟩

end ChatStasher.Search
