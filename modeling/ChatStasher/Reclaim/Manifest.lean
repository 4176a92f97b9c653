import ChatStasher.Collect.FactSpec

/-! The staging tree of all sessions and the retained per-machine manifest. -/
namespace ChatStasher

/-- The `sessions/<machine>/<session>` directory a session lives in. -/
structure SessionKey where
  machine : Ident
  session : Ident
  deriving DecidableEq

/-- A captured start time with its source, kept as written. -/
structure CapturedStart where
  time : List Char
  source : List Char
  deriving DecidableEq

/-- One persistent session summary. -/
structure SessionManifest (D : Type) where
  sessionId : Ident
  machine : Ident
  shardCount : ℕ
  concatBytes : ℕ
  concatSha256 : D
  shardIdentities : List (ShardFingerprint D)
  sealedAtUnix : ℤ
  capturedStart : Option CapturedStart
  deriving DecidableEq

/-- The staging tree: the session directories in the order they are listed, what each holds, and
the manifest files of the machines that have one. -/
structure Stage (D : Type) where
  sessions : List SessionKey
  dir : SessionKey → SessionDir
  capturedStart : SessionKey → Option CapturedStart
  manifests : List (Ident × List (SessionManifest D))

namespace Stage
variable {D : Type}

def empty : Stage D := ⟨[], fun _ => .empty, fun _ => none, []⟩

def manifest (stage : Stage D) (machine : Ident) : Option (List (SessionManifest D)) :=
  stage.manifests.lookup machine

/-- Put a session directory in place, creating it if need be. -/
def setDir (stage : Stage D) (key : SessionKey) (d : SessionDir) : Stage D :=
  { stage with
    sessions := if key ∈ stage.sessions then stage.sessions else stage.sessions ++ [key]
    dir := Function.update stage.dir key d }

def setManifest (stage : Stage D) (machine : Ident) (rows : List (SessionManifest D)) : Stage D :=
  { stage with manifests := KeyedList.put stage.manifests (machine, rows) }

end Stage

variable (H : Sha256)

/-- The summary of one session directory, `none` when it holds no sealed shard. -/
def sessionManifest (stage : Stage H.Digest) (sealedAtUnix : ℤ) (key : SessionKey) :
    Option (SessionManifest H.Digest) :=
  let shards := sortedEntries (stage.dir key)
  if shards.length = 0 then none
  else
    let concat := (shards.map fun e => e.2.bytes).flatten
    some {
      sessionId := key.session
      machine := key.machine
      shardCount := shards.length
      concatBytes := concat.length
      concatSha256 := H.digest concat
      shardIdentities := shards.map fun e => fingerprint H e.1 e.2.bytes
      sealedAtUnix
      capturedStart := stage.capturedStart key }

/-- Generate summaries for one machine by hashing its sealed shards right now. -/
def generateManifestAt (stage : Stage H.Digest) (machine : Ident) (sealedAtUnix : ℤ) :
    List (SessionManifest H.Digest) :=
  ((stage.sessions.filter fun key => key.machine = machine).filterMap
    (sessionManifest H stage sealedAtUnix)).insertionSort fun a b => a.sessionId ≤ b.sessionId

section Rows
variable {D : Type}

/-- One stored or fresh row under its session, the latter keeping a captured start the former
alone carries. -/
def mergeFresh (merged : List (Ident × SessionManifest D)) (row : SessionManifest D) :
    List (Ident × SessionManifest D) :=
  if 0 < row.shardCount then
    let stored := (merged.find? fun x => x.1 = row.sessionId).bind fun x => x.2.capturedStart
    KeyedList.put merged (row.sessionId, { row with capturedStart := row.capturedStart.or stored })
  else merged

/-- Merge freshly derived summaries into one machine's manifest file. -/
def refreshManifest (stored : Option (List (SessionManifest D)))
    (fresh : List (SessionManifest D)) : List (SessionManifest D) :=
  let rows := (stored.getD []).map fun row => (row.sessionId, row)
  let merged := fresh.foldl mergeFresh (KeyedList.lastWins rows)
  (KeyedList.inKeyOrder merged).map Prod.snd

def SessionManifest.toFact (row : SessionManifest D) : ShardFact D :=
  ⟨row.shardCount, row.concatBytes, row.concatSha256, row.shardIdentities⟩

/-- `load_local_manifest_facts`, looked up for one session; the last row of a session counts. -/
def manifestFact (stage : Stage D) (key : SessionKey) : Option (ShardFact D) :=
  (((stage.manifest key.machine).getD []).reverse.find? fun row =>
    row.machine = key.machine ∧ row.sessionId = key.session).map SessionManifest.toFact

end Rows

end ChatStasher

/-! What a manifest refresh keeps and what it replaces. -/
namespace ChatStasher

def RowSays {D : Type} (rows : List (SessionManifest D)) (s : Ident) (fact : ShardFact D) : Prop :=
  ∃ row ∈ rows, row.sessionId = s ∧ row.toFact = fact

/-- One row for each session, all of them this machine's. -/
structure RowsSound {D : Type} (machine : Ident) (rows : List (SessionManifest D)) : Prop where
  nodup : (rows.map SessionManifest.sessionId).Nodup
  machine_eq : ∀ row ∈ rows, row.machine = machine

section Rows
variable {D : Type} {machine : Ident} {rows : List (SessionManifest D)}

lemma RowsSound.nil (machine : Ident) : RowsSound machine ([] : List (SessionManifest D)) :=
  ⟨List.nodup_nil, by simp⟩

lemma RowsSound.eq_of_session (h : RowsSound machine rows) {a b : SessionManifest D} (ha : a ∈ rows)
    (hb : b ∈ rows) (heq : a.sessionId = b.sessionId) : a = b :=
  List.inj_on_of_nodup_map h.nodup ha hb heq

lemma manifestFact_eq_some {stage : Stage D} {key : SessionKey} {fact : ShardFact D}
    (hrows : stage.manifest key.machine = some rows) (h : RowsSound key.machine rows) :
    manifestFact stage key = some fact ↔ RowSays rows key.session fact := by
  rw [RowSays, manifestFact, hrows, Option.getD_some, Option.map_eq_some_iff]
  constructor
  · rintro ⟨row, hfind, rfl⟩
    have hmem := List.mem_of_find?_eq_some hfind
    have hprop := List.find?_some hfind
    simp only [decide_eq_true_eq] at hprop
    exact ⟨row, List.mem_reverse.mp hmem, hprop.2, rfl⟩
  · rintro ⟨row, hrow, hsession, rfl⟩
    refine ⟨row, ?_, rfl⟩
    cases hfind : rows.reverse.find? fun row =>
        decide (row.machine = key.machine ∧ row.sessionId = key.session) with
    | none =>
      have := List.find?_eq_none.mp hfind row (List.mem_reverse.mpr hrow)
      simp [h.machine_eq row hrow, hsession] at this
    | some other =>
      have hmem := List.mem_reverse.mp (List.mem_of_find?_eq_some hfind)
      have hprop := List.find?_some hfind
      simp only [decide_eq_true_eq] at hprop
      rw [h.eq_of_session hmem hrow (hprop.2.trans hsession.symm)]

end Rows

section Refresh
variable {D : Type} {machine : Ident}

/-- The map a refresh builds: a row under its own session each, one for each session. -/
structure MapSound (machine : Ident) (merged : List (Ident × SessionManifest D)) : Prop where
  nodup : (merged.map Prod.fst).Nodup
  key_eq : ∀ x ∈ merged, x.1 = x.2.sessionId
  machine_eq : ∀ x ∈ merged, x.2.machine = machine

lemma rowSays_inKeyOrder {merged : List (Ident × SessionManifest D)} {s : Ident}
    {fact : ShardFact D} :
    RowSays ((KeyedList.inKeyOrder merged).map Prod.snd) s fact ↔
      RowSays (merged.map Prod.snd) s fact := by
  simp [RowSays]

lemma MapSound.rows {merged : List (Ident × SessionManifest D)} (h : MapSound machine merged) :
    RowsSound machine ((KeyedList.inKeyOrder merged).map Prod.snd) := by
  constructor
  · have hkeys : ((KeyedList.inKeyOrder merged).map Prod.snd).map SessionManifest.sessionId =
        (KeyedList.inKeyOrder merged).map Prod.fst := by
      rw [List.map_map]
      exact List.map_congr_left fun x hx => (h.key_eq x (KeyedList.mem_inKeyOrder.mp hx)).symm
    rw [hkeys]
    exact ((KeyedList.inKeyOrder_perm merged).map Prod.fst).nodup_iff.mpr h.nodup
  · intro row hrow
    obtain ⟨x, hx, rfl⟩ := List.mem_map.mp hrow
    exact h.machine_eq x (KeyedList.mem_inKeyOrder.mp hx)

lemma RowsSound.lastWins {rows : List (SessionManifest D)} (h : RowsSound machine rows) :
    MapSound machine (KeyedList.lastWins (rows.map fun row => (row.sessionId, row))) ∧
      ∀ s fact, RowSays ((KeyedList.lastWins (rows.map fun row => (row.sessionId, row))).map
        Prod.snd) s fact ↔ RowSays rows s fact := by
  have hnodup : ((rows.map fun row => (row.sessionId, row)).map Prod.fst).Nodup := by
    rw [List.map_map]
    exact h.nodup
  have hmem : ∀ x, x ∈ KeyedList.lastWins (rows.map fun row => (row.sessionId, row)) ↔
      x ∈ rows.map fun row => (row.sessionId, row) := by
    intro x
    rw [KeyedList.lastWins, KeyedList.mem_foldl_put hnodup]
    simp
  refine ⟨⟨KeyedList.foldl_put_nodup (by simp), fun x hx => ?_, fun x hx => ?_⟩, fun s fact => ?_⟩
  · obtain ⟨row, -, rfl⟩ := List.mem_map.mp ((hmem x).mp hx)
    rfl
  · obtain ⟨row, hrow, rfl⟩ := List.mem_map.mp ((hmem x).mp hx)
    exact h.machine_eq row hrow
  · simp [RowSays, hmem]

lemma MapSound.mergeFresh {merged : List (Ident × SessionManifest D)} (h : MapSound machine merged)
    {row : SessionManifest D} (hmachine : row.machine = machine) (hcount : 0 < row.shardCount) :
    MapSound machine (mergeFresh merged row) ∧ ∀ s fact,
      RowSays ((ChatStasher.mergeFresh merged row).map Prod.snd) s fact ↔
        if s = row.sessionId then row.toFact = fact else RowSays (merged.map Prod.snd) s fact := by
  rw [ChatStasher.mergeFresh, if_pos hcount]
  refine ⟨⟨KeyedList.put_nodup h.nodup, fun x hx => ?_, fun x hx => ?_⟩, fun s fact => ?_⟩
  · rcases KeyedList.mem_put.mp hx with rfl | ⟨hx, -⟩
    · rfl
    · exact h.key_eq x hx
  · rcases KeyedList.mem_put.mp hx with rfl | ⟨hx, -⟩
    · exact hmachine
    · exact h.machine_eq x hx
  · split
    next hs =>
      subst hs
      constructor
      · rintro ⟨r, hr, hsession, rfl⟩
        obtain ⟨x, hx, rfl⟩ := List.mem_map.mp hr
        rcases KeyedList.mem_put.mp hx with rfl | ⟨hx, hne⟩
        · rfl
        · exact absurd ((h.key_eq x hx).trans hsession) hne
      · rintro rfl
        exact ⟨_, List.mem_map_of_mem (KeyedList.mem_put.mpr (Or.inl rfl)), rfl, rfl⟩
    next hs =>
      constructor
      · rintro ⟨r, hr, rfl, hfact⟩
        obtain ⟨x, hx, rfl⟩ := List.mem_map.mp hr
        rcases KeyedList.mem_put.mp hx with rfl | ⟨hx, -⟩
        · exact absurd rfl hs
        · exact ⟨x.2, List.mem_map_of_mem hx, rfl, hfact⟩
      · rintro ⟨r, hr, rfl, hfact⟩
        obtain ⟨x, hx, rfl⟩ := List.mem_map.mp hr
        refine ⟨x.2, List.mem_map_of_mem (KeyedList.mem_put.mpr (Or.inr ⟨hx, ?_⟩)), rfl, hfact⟩
        rwa [h.key_eq x hx]

lemma MapSound.mergeAll {fresh : List (SessionManifest D)} (hfresh : RowsSound machine fresh)
    (hcount : ∀ row ∈ fresh, 0 < row.shardCount) {merged : List (Ident × SessionManifest D)}
    (h : MapSound machine merged) :
    MapSound machine (fresh.foldl ChatStasher.mergeFresh merged) ∧ ∀ s fact,
      RowSays ((fresh.foldl ChatStasher.mergeFresh merged).map Prod.snd) s fact ↔
        if s ∈ fresh.map SessionManifest.sessionId then RowSays fresh s fact
        else RowSays (merged.map Prod.snd) s fact := by
  induction fresh generalizing merged with
  | nil => simpa using h
  | cons row fresh ih =>
    obtain ⟨hnew, hfacts⟩ := h.mergeFresh (hfresh.machine_eq row List.mem_cons_self)
      (hcount row List.mem_cons_self)
    have hnodup := List.nodup_cons.mp hfresh.nodup
    obtain ⟨hall, hrest⟩ := ih ⟨hnodup.2, fun r hr => hfresh.machine_eq r (List.mem_cons_of_mem _ hr)⟩
      (fun r hr => hcount r (List.mem_cons_of_mem _ hr)) hnew
    refine ⟨hall, fun s fact => ?_⟩
    rw [List.foldl_cons, hrest, hfacts]
    have hcons : RowSays (row :: fresh) s fact ↔
        (row.sessionId = s ∧ row.toFact = fact) ∨ RowSays fresh s fact := by
      simp [RowSays]
    have hnone : s ∉ fresh.map SessionManifest.sessionId → ¬ RowSays fresh s fact := by
      rintro hs ⟨r, hr, rfl, -⟩
      exact hs (List.mem_map_of_mem hr)
    simp only [List.map_cons, List.mem_cons, hcons]
    by_cases hs : s ∈ fresh.map SessionManifest.sessionId
    · have hne : row.sessionId ≠ s := fun heq => hnodup.1 (heq ▸ hs)
      simp [hs, hne]
    · by_cases heq : s = row.sessionId
      · simp [hs, ← heq, hnone hs]
      · simp [hs, heq]

/-- A refresh keeps the file sound; a session with a fresh row gets the fresh fact, every other
session keeps its stored one. -/
theorem refreshManifest_spec {stored : Option (List (SessionManifest D))}
    {fresh : List (SessionManifest D)} (hstored : RowsSound machine (stored.getD []))
    (hfresh : RowsSound machine fresh) (hcount : ∀ row ∈ fresh, 0 < row.shardCount) :
    RowsSound machine (refreshManifest stored fresh) ∧ ∀ s fact,
      RowSays (refreshManifest stored fresh) s fact ↔
        if s ∈ fresh.map SessionManifest.sessionId then RowSays fresh s fact
        else RowSays (stored.getD []) s fact := by
  obtain ⟨hmap, hfacts⟩ := hstored.lastWins
  obtain ⟨hall, hmerged⟩ := MapSound.mergeAll hfresh hcount hmap
  refine ⟨hall.rows, fun s fact => ?_⟩
  rw [refreshManifest, rowSays_inKeyOrder, hmerged, hfacts]

end Refresh

@[simp] lemma SessionManifest.toFact_shardCount {D : Type} (row : SessionManifest D) :
    row.toFact.shardCount = row.shardCount := rfl

section Generate
variable {H : Sha256} {stage : Stage H.Digest}

lemma sessionManifest_eq_some {now : ℤ} {key : SessionKey} {row : SessionManifest H.Digest}
    (h : sessionManifest H stage now key = some row) :
    row.sessionId = key.session ∧ row.machine = key.machine ∧ 0 < row.shardCount ∧
      row.toFact = shardFactInDir H (stage.dir key) := by
  simp only [sessionManifest] at h
  split at h
  next => cases h
  next hne =>
    obtain rfl := Option.some.inj h
    refine ⟨rfl, rfl, Nat.pos_of_ne_zero hne, ?_⟩
    simp [SessionManifest.toFact, shardFactInDir, stageSealedShards, List.length_flatten,
      Function.comp_def]

theorem generateManifestAt_spec (hnodup : stage.sessions.Nodup) (machine : Ident) (now : ℤ) :
    RowsSound machine (generateManifestAt H stage machine now) ∧
      (∀ row ∈ generateManifestAt H stage machine now, 0 < row.shardCount) ∧
      ∀ s fact, RowSays (generateManifestAt H stage machine now) s fact ↔
        ⟨machine, s⟩ ∈ stage.sessions ∧ sortedEntries (stage.dir ⟨machine, s⟩) ≠ [] ∧
          shardFactInDir H (stage.dir ⟨machine, s⟩) = fact := by
  have hmem : ∀ row, row ∈ generateManifestAt H stage machine now ↔
      ∃ key ∈ stage.sessions, key.machine = machine ∧ sessionManifest H stage now key = some row := by
    intro row
    rw [generateManifestAt, List.mem_insertionSort, List.mem_filterMap]
    simp only [List.mem_filter, decide_eq_true_eq, and_assoc]
  refine ⟨⟨?_, fun row hrow => ?_⟩, fun row hrow => ?_, fun s fact => ⟨?_, ?_⟩⟩
  · rw [generateManifestAt, ((List.perm_insertionSort _ _).map _).nodup_iff, List.Nodup,
      List.pairwise_map, List.pairwise_filterMap]
    refine (hnodup.sublist List.filter_sublist).imp_of_mem fun {a b} ha hb hab => ?_
    rintro row hrow row' hrow' heq
    have ha' := of_decide_eq_true (List.mem_filter.mp ha).2
    have hb' := of_decide_eq_true (List.mem_filter.mp hb).2
    obtain ⟨hs, -⟩ := sessionManifest_eq_some hrow
    obtain ⟨hs', -⟩ := sessionManifest_eq_some hrow'
    apply hab
    cases a
    cases b
    simp_all
  · obtain ⟨key, -, hkey, hgen⟩ := (hmem row).mp hrow
    exact (sessionManifest_eq_some hgen).2.1.trans hkey
  · obtain ⟨key, -, -, hgen⟩ := (hmem row).mp hrow
    exact (sessionManifest_eq_some hgen).2.2.1
  · rintro ⟨row, hrow, rfl, rfl⟩
    obtain ⟨key, hkey, rfl, hgen⟩ := (hmem row).mp hrow
    obtain ⟨hs, -, hcount, hfact⟩ := sessionManifest_eq_some hgen
    rw [hs, hfact]
    refine ⟨hkey, fun hnil => ?_, rfl⟩
    have hzero : row.toFact.shardCount = 0 := by rw [hfact, shardFactInDir, hnil]; rfl
    exact absurd hcount (by rw [← SessionManifest.toFact_shardCount, hzero]; exact lt_irrefl 0)
  · rintro ⟨hkey, hne, rfl⟩
    have hlen : (sortedEntries (stage.dir ⟨machine, s⟩)).length ≠ 0 := by simpa using hne
    obtain ⟨row, hgen⟩ : ∃ row, sessionManifest H stage now ⟨machine, s⟩ = some row := by
      simp only [sessionManifest, if_neg hlen]
      exact ⟨_, rfl⟩
    obtain ⟨hs, -, -, hfact⟩ := sessionManifest_eq_some hgen
    exact ⟨row, (hmem row).mpr ⟨_, hkey, rfl, hgen⟩, hs, hfact⟩

end Generate

end ChatStasher
