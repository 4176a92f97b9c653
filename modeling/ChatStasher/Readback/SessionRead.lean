import ChatStasher.Readback.Cumulative

/-! The read of one session against the cumulative union of the session's archive entries. -/
namespace ChatStasher.Readback
open Activity (DuplicateShardPolicy)

section Entries
variable (machine session : Ident) (policy : DuplicateShardPolicy)

def Node.bytes : Node → Bytes
  | .file bytes _ => bytes
  | _ => []

/-- The listing's provenance files of the machine, where the policy asks for them. -/
def isMetadata (e : Path × Node) : Bool :=
  e.2.isFile && (policy.collapses && isProvenancePath e.1 machine)

/-- The archive entry of a listed file, if it is a shard of the session. -/
def archiveEntry (e : Path × Node) : Option ArchiveEntry :=
  if !e.2.isFile || isMetadata machine policy e then none
  else
    match bucketShardPath e.1 with
    | none => none
    | some (foundMachine, foundSession, shard) =>
      if foundMachine ≠ machine ∨ foundSession ≠ session then none
      else some ⟨pathText e.1, shard, e.2.bytes⟩

def heldEntry (x : ShardKey × HeldShard) : ShardKey × ArchiveEntry :=
  (x.1, ⟨(ofLex x.1).2, x.2.shard, x.2.node.bytes⟩)

variable (rules : ReadRules) (archive : Archive)

/-- The session's observations of the first provenance file. -/
def observationsOf (e : Option (Path × Node)) : List rules.Observation :=
  match e with
  | none => []
  | some e =>
    match loadObservations rules archive e.2 with
    | .error _ => []
    | .ok rows => rows.filter fun row => row.sessionId = session

variable {rules}

structure SessionWalk.Holds (walk : SessionWalk rules) (entries : List (Path × Node)) : Prop where
  held : walk.held.map heldEntry =
    KeyedList.firstWins ((entries.filterMap (archiveEntry machine session policy)).map fun e =>
      (archiveShardIdentity e, e))
  shards : ∀ x ∈ walk.held, x.2.sequence = parseShardSeq x.2.shard ∧
    x.2.node.isFile = true ∧ x.2.node ∈ entries.map Prod.snd
  sequences : (walk.sequences.paths, walk.sequences.ambiguous) =
    (entries.filterMap (archiveEntry machine session policy)).foldl noteSequencePath ([], [])
  metadataFound : walk.metadataFound = (entries.find? (isMetadata machine policy)).isSome
  observations : walk.observations =
    observationsOf session rules archive (entries.find? (isMetadata machine policy))

end Entries

section Walk
variable {rules : ReadRules} {archive : Archive} {machine session : Ident}
  {policy : DuplicateShardPolicy} {walk walk' : SessionWalk rules} {entries : List (Path × Node)}

lemma SessionWalk.Holds.start :
    (SessionWalk.start rules).Holds machine session policy archive [] :=
  ⟨rfl, nofun, rfl, rfl, rfl⟩

lemma find?_concat {α : Type*} (p : α → Bool) (l : List α) (a : α) :
    (l ++ [a]).find? p = (l.find? p).or (if p a then some a else none) := by
  rw [List.find?_append, List.find?_singleton]

lemma SessionWalk.Holds.skip (h : walk.Holds machine session policy archive entries)
    {e : Path × Node} (hentry : archiveEntry machine session policy e = none)
    (hmetadata : isMetadata machine policy e = true → walk.metadataFound = true) :
    walk.Holds machine session policy archive (entries ++ [e]) := by
  have hfind : (entries ++ [e]).find? (isMetadata machine policy) =
      entries.find? (isMetadata machine policy) := by
    rw [find?_concat]
    split
    next hmeta =>
      obtain ⟨found, hfound⟩ := Option.isSome_iff_exists.mp (h.metadataFound ▸ hmetadata hmeta)
      rw [hfound, Option.some_or]
    next => rw [Option.or_none]
  have hentries : (entries ++ [e]).filterMap (archiveEntry machine session policy) =
      entries.filterMap (archiveEntry machine session policy) := by simp [hentry]
  refine ⟨hentries ▸ h.held, fun x hx => ?_, hentries ▸ h.sequences, hfind ▸ h.metadataFound,
    hfind ▸ h.observations⟩
  obtain ⟨hsequence, hfile, hmem⟩ := h.shards x hx
  exact ⟨hsequence, hfile, by simp [List.mem_map.mp hmem]⟩

lemma SessionWalk.Holds.meet (h : walk.Holds machine session policy archive entries)
    {e : Path × Node}
    (hmeet : meetSessionEntry archive machine session policy walk e = .ok walk') :
    walk'.Holds machine session policy archive (entries ++ [e]) := by
  obtain ⟨path, node⟩ := e
  rw [meetSessionEntry] at hmeet
  dsimp only at hmeet
  split at hmeet
  next hfile =>
    obtain rfl := Except.ok.inj hmeet
    exact h.skip (by simp [archiveEntry, hfile]) (by simp_all [isMetadata])
  next hfile =>
    have hfile : node.isFile = true := by simpa using hfile
    split at hmeet
    next hprovenance =>
      have hmeta : isMetadata machine policy (path, node) = true := by
        simp [isMetadata, hfile, hprovenance]
      have hentry : archiveEntry machine session policy (path, node) = none := by
        simp [archiveEntry, hmeta]
      split at hmeet
      next hfound =>
        obtain rfl := Except.ok.inj hmeet
        exact h.skip hentry fun _ => hfound
      next hfound =>
        cases hload : loadObservations rules archive node with
        | error err =>
          rw [hload] at hmeet
          cases hmeet
        | ok rows =>
          rw [hload] at hmeet
          obtain rfl := Except.ok.inj hmeet
          have hnone : entries.find? (isMetadata machine policy) = none := by
            rw [← Option.not_isSome_iff_eq_none, ← h.metadataFound]
            exact hfound
          have hfind : (entries ++ [(path, node)]).find? (isMetadata machine policy) =
              some (path, node) := by
            rw [find?_concat, hnone, Option.none_or, if_pos hmeta]
          have hentries : (entries ++ [(path, node)]).filterMap
              (archiveEntry machine session policy) =
                entries.filterMap (archiveEntry machine session policy) := by simp [hentry]
          refine ⟨hentries ▸ h.held, fun x hx => ?_, hentries ▸ h.sequences, ?_, ?_⟩
          · obtain ⟨hsequence, hxfile, hmem⟩ := h.shards x hx
            exact ⟨hsequence, hxfile, by simp [List.mem_map.mp hmem]⟩
          · rw [hfind]
            rfl
          · rw [hfind, observationsOf]
            simp only [hload]
    next hprovenance =>
      have hmeta : isMetadata machine policy (path, node) = false := by
        simpa [isMetadata, hfile] using hprovenance
      split at hmeet
      next hpath =>
        obtain rfl := Except.ok.inj hmeet
        exact h.skip (by simp [archiveEntry, hpath]) (by simp [hmeta])
      next foundMachine foundSession shard hpath =>
        split at hmeet
        next hother =>
          obtain rfl := Except.ok.inj hmeet
          exact h.skip (by simp [archiveEntry, hpath, hother]) (by simp [hmeta])
        next hsame =>
          obtain rfl := Except.ok.inj hmeet
          have hentry : archiveEntry machine session policy (path, node) =
              some ⟨pathText path, shard, node.bytes⟩ := by
            simp [archiveEntry, hfile, hmeta, hpath, hsame]
          have hentries : (entries ++ [(path, node)]).filterMap
              (archiveEntry machine session policy) =
                entries.filterMap (archiveEntry machine session policy) ++
                  [⟨pathText path, shard, node.bytes⟩] := by simp [hentry]
          have hfind : (entries ++ [(path, node)]).find? (isMetadata machine policy) =
              entries.find? (isMetadata machine policy) := by
            rw [find?_concat, hmeta]
            simp
          refine ⟨?_, fun x hx => ?_, ?_, hfind ▸ h.metadataFound, hfind ▸ h.observations⟩
          · rw [hentries, List.map_append, List.map_singleton, KeyedList.firstWins_concat, ← h.held]
            exact @KeyedList.map_orInsert _ _ _ _ heldEntry (fun _ => rfl) walk.held _
          · rcases KeyedList.mem_orInsert hx with hx | rfl
            · obtain ⟨hsequence, hxfile, hmem⟩ := h.shards x hx
              exact ⟨hsequence, hxfile, by simp [List.mem_map.mp hmem]⟩
            · exact ⟨rfl, hfile, by simp⟩
          · rw [hentries, List.foldl_append, ← h.sequences]
            simp only [List.foldl_cons, List.foldl_nil, noteSequencePath, shardIdentity]
            cases parseShardSeq shard with
            | none => rfl
            | some sequence => rfl

lemma meetSessionEntry_ok {e : Path × Node} (walk : SessionWalk rules)
    (hload : isMetadata machine policy e = true →
      ∃ rows, loadObservations rules archive e.2 = .ok rows) :
    ∃ walk', meetSessionEntry archive machine session policy walk e = .ok walk' := by
  obtain ⟨path, node⟩ := e
  rw [meetSessionEntry]
  dsimp only
  split
  · exact ⟨_, rfl⟩
  next hfile =>
    split
    next hprovenance =>
      split
      · exact ⟨_, rfl⟩
      · obtain ⟨rows, hrows⟩ := hload (by simp_all [isMetadata])
        rw [hrows]
        exact ⟨_, rfl⟩
    · split
      · exact ⟨_, rfl⟩
      · split
        · exact ⟨_, rfl⟩
        · exact ⟨_, rfl⟩

lemma SessionWalk.Holds.meetAll (h : walk.Holds machine session policy archive entries)
    {listing : List (Path × Node)} (hload : ∀ e ∈ listing, isMetadata machine policy e = true →
      ∃ rows, loadObservations rules archive e.2 = .ok rows) :
    ∃ walk', listing.foldlM (meetSessionEntry archive machine session policy) walk = .ok walk' ∧
      walk'.Holds machine session policy archive (entries ++ listing) := by
  induction listing generalizing walk entries with
  | nil => exact ⟨walk, rfl, by rwa [List.append_nil]⟩
  | cons e listing ih =>
    obtain ⟨met, hmet⟩ := meetSessionEntry_ok walk (hload e List.mem_cons_self)
    obtain ⟨walk', hwalk', hholds⟩ := ih (h.meet hmet) fun x hx => hload x (List.mem_cons_of_mem e hx)
    refine ⟨walk', ?_, by simpa using hholds⟩
    rw [List.foldlM_cons, hmet]
    exact hwalk'

lemma walkSession_holds {snapshots : List Snapshot}
    {entriesOf : Snapshot → Except ReadError (List (Path × Node))}
    {listing : Snapshot → List (Path × Node)}
    (hlisting : ∀ snap ∈ snapshots, entriesOf snap = .ok (listing snap))
    (hload : ∀ snap ∈ snapshots, ∀ e ∈ listing snap, isMetadata machine policy e = true →
      ∃ rows, loadObservations rules archive e.2 = .ok rows) :
    ∃ walk, @walkSession rules archive entriesOf machine session policy snapshots = .ok walk ∧
      walk.Holds machine session policy archive (snapshots.flatMap listing) := by
  rw [walkSession]
  suffices hsuff : ∀ (walk : SessionWalk rules) (entries : List (Path × Node)),
      walk.Holds machine session policy archive entries →
      ∃ walk', snapshots.foldlM (fun walk snap => do
        let entries ← entriesOf snap
        entries.foldlM (meetSessionEntry archive machine session policy) walk) walk = .ok walk' ∧
        walk'.Holds machine session policy archive (entries ++ snapshots.flatMap listing) by
    simpa using hsuff _ [] SessionWalk.Holds.start
  induction snapshots with
  | nil => exact fun walk entries h => ⟨walk, rfl, by simpa using h⟩
  | cons snap snapshots ih =>
    intro walk entries h
    obtain ⟨met, hmet, hholds⟩ := h.meetAll (hload snap List.mem_cons_self)
    obtain ⟨walk', hwalk', hholds'⟩ := ih
      (fun snap' hsnap => hlisting snap' (List.mem_cons_of_mem snap hsnap))
      (fun snap' hsnap => hload snap' (List.mem_cons_of_mem snap hsnap)) met _ hholds
    refine ⟨walk', ?_, by simpa using hholds'⟩
    rw [List.foldlM_cons, hlisting snap List.mem_cons_self]
    exact (congrArg (· >>= _) hmet).trans hwalk'

end Walk

section Body
variable {rules : ReadRules} {archive : Archive} {machine session : Ident}
  {policy : DuplicateShardPolicy} {walk : SessionWalk rules} {entries : List (Path × Node)}

lemma mapM_ok {E A B : Type} {f : A → Except E B} {g : A → B} {l : List A}
    (h : ∀ a ∈ l, f a = .ok (g a)) : l.mapM f = .ok (l.map g) := by
  induction l with
  | nil => rfl
  | cons a l ih =>
    rw [List.mapM_cons, h a List.mem_cons_self, ih fun b hb => h b (List.mem_cons_of_mem a hb)]
    rfl

lemma dump_eq_ok {node : Node} (herror : archive.dumpError node = none)
    (hfile : node.isFile = true) : archive.dump node = .ok node.bytes := by
  cases node with
  | file bytes content => simp [Archive.dump, herror, Node.bytes]
  | dir | other => cases hfile

lemma SessionWalk.Holds.heldEntries_eq (h : walk.Holds machine session policy archive entries) :
    (KeyedList.inKeyOrder walk.held).map (fun x => (heldEntry x).2) =
      heldEntries [entries.filterMap (archiveEntry machine session policy)] := by
  rw [heldEntries, List.flatten_singleton, ← h.held,
    ← @KeyedList.map_inKeyOrder _ _ _ _ heldEntry (fun _ => rfl), List.map_map]
  rfl

lemma SessionWalk.Holds.heldEntries_eq_nil
    (h : walk.Holds machine session policy archive entries) :
    heldEntries [entries.filterMap (archiveEntry machine session policy)] = [] ↔
      walk.held = [] := by
  rw [← h.heldEntries_eq, List.map_eq_nil_iff]
  have hperm := KeyedList.inKeyOrder_perm walk.held
  exact ⟨fun hnil => (hnil ▸ hperm).nil_eq.symm, fun hnil => (hperm.trans (by rw [hnil])).eq_nil⟩

lemma SessionWalk.Holds.ambiguous_eq (h : walk.Holds machine session policy archive entries) :
    walk.sequences.ambiguous =
      ambiguousSequences [entries.filterMap (archiveEntry machine session policy)] := by
  rw [ambiguousSequences, List.flatten_singleton, ← h.sequences]

def dumped (ambiguous : List ℕ) (e : ArchiveEntry) : DumpedShard :=
  ⟨parseShardSeq e.shard, (parseShardSeq e.shard).filter (· ∉ ambiguous), e.shard, e.body⟩

lemma SessionWalk.Holds.dumpHeld_eq (h : walk.Holds machine session policy archive entries)
    (hdump : ∀ e ∈ entries, archive.dumpError e.2 = none) :
    dumpHeld archive walk = .ok
      ((heldEntries [entries.filterMap (archiveEntry machine session policy)]).map
        (dumped walk.sequences.ambiguous)) := by
  rw [dumpHeld, ← h.heldEntries_eq, List.map_map]
  refine mapM_ok fun x hx => ?_
  obtain ⟨hsequence, hfile, hmem⟩ := h.shards x (KeyedList.mem_inKeyOrder.mp hx)
  obtain ⟨e, he, hnode⟩ := List.mem_map.mp hmem
  obtain ⟨key, held⟩ := x
  dsimp only at hsequence hfile hnode ⊢
  have hbody := dump_eq_ok (hnode ▸ hdump e he) hfile
  rw [hbody, hsequence]
  rfl

lemma selectShards_eq (walk : SessionWalk rules) {snapshots : List (List ArchiveEntry)}
    (hambiguous : walk.sequences.ambiguous = ambiguousSequences snapshots) :
    selectShards session policy walk
        ((heldEntries snapshots).map (dumped walk.sequences.ambiguous)) =
      (ChatStasher.dumpCumulativeSession (verifiedObservationSequences session walk.observations)
        policy.collapses snapshots).map (dumped walk.sequences.ambiguous) := by
  rw [selectShards, ChatStasher.dumpCumulativeSession, hambiguous]
  simp only [List.map_map, List.zipIdx_map, List.filter_map]
  rfl

/-- The body of a session by the cumulative rule, over the entries that each snapshot holds. -/
def sessionBody (session : Ident) (policy : DuplicateShardPolicy)
    (observations : List rules.Observation) (snapshots : List (List ArchiveEntry)) : Option Bytes :=
  if heldEntries snapshots = [] then none
  else some ((ChatStasher.dumpCumulativeSession (verifiedObservationSequences session observations)
    policy.collapses snapshots).map ArchiveEntry.body).flatten

/-- Outside the snapshot source, the read of one session returns the body by the cumulative rule. -/
theorem dumpSession_body {snapshots : List Snapshot}
    {entriesOf : Snapshot → Except ReadError (List (Path × Node))}
    {listing : Snapshot → List (Path × Node)}
    (hlisting : ∀ snap ∈ snapshots, entriesOf snap = .ok (listing snap))
    (hload : ∀ snap ∈ snapshots, ∀ e ∈ listing snap, isMetadata machine policy e = true →
      ∃ rows, loadObservations rules archive e.2 = .ok rows)
    (hdump : ∀ snap ∈ snapshots, ∀ e ∈ listing snap, archive.dumpError e.2 = none)
    (hharness : harnessIsOpencode session = false) :
    (@dumpSession rules archive entriesOf snapshots machine session policy).map
        (Option.map Prod.fst) =
      .ok (sessionBody session policy (observationsOf session rules archive
        ((snapshots.flatMap listing).find? (isMetadata machine policy)))
        [(snapshots.flatMap listing).filterMap (archiveEntry machine session policy)]) := by
  obtain ⟨walk, hwalk, hholds⟩ := @walkSession_holds rules archive machine session policy _ _ _
    hlisting hload
  have hdumped := hholds.dumpHeld_eq fun e he => by
    obtain ⟨snap, hsnap, he⟩ := List.mem_flatMap.mp he
    exact hdump snap hsnap e he
  rw [dumpSession, hwalk, sessionBody, ← hholds.observations]
  by_cases hheld : walk.held = []
  · rw [if_pos (hholds.heldEntries_eq_nil.mpr hheld)]
    simp [bind, Except.bind, Except.map, hheld]
  · rw [if_neg fun h => hheld (hholds.heldEntries_eq_nil.mp h)]
    simp only [bind, Except.bind, List.isEmpty_iff, hheld, if_false, hdumped, hharness,
      Bool.false_eq_true, selectShards_eq walk hholds.ambiguous_eq, Except.map, Option.map_some,
      List.map_map]
    rfl

end Body

end ChatStasher.Readback
