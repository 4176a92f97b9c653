import Mathlib.Data.List.Dedup
import ChatStasher.Reclaim.Proof

/-! The reclaim of a stage: survey, proof, retained summary, and only then the deletions. -/
namespace ChatStasher

/-- One session whose body was removed, and how many shard files went. -/
structure Reclaimed where
  key : SessionKey
  shardCount : ℕ
  bytes : ℕ
  deriving DecidableEq

structure ReclaimReport (D : Type) where
  candidates : List (Candidate D)
  proof : ProofReport
  reclaimed : List Reclaimed

/-- Delete the proven sealed shards of one session; the counter and every other file stay. -/
def reclaimSessionBody (d : SessionDir) (proven : List ℕ) : ℕ × SessionDir :=
  let isProven := fun f : StoredFile => (parseShardSeq f.path.name).any (proven.contains ·)
  ((d.files.filter isProven).length, { d with files := d.files.filter fun f => !isProven f })

variable (H : Sha256)

def reclaimSession (acc : List Reclaimed × Stage H.Digest) (s : SurveyedSession H.Digest) :
    List Reclaimed × Stage H.Digest :=
  let key := s.expectation.key
  let (removed, d) := reclaimSessionBody (acc.2.dir key) s.shardSequences
  (acc.1 ++ [⟨key, removed, s.expectation.concatBytes⟩], acc.2.setDir key d)

/-- One machine's turn: its summary lands before any of its bodies goes. -/
def reclaimMachine (now : ℤ) (surveyed : List (SurveyedSession H.Digest))
    (acc : List Reclaimed × Stage H.Digest) (machine : Ident) : List Reclaimed × Stage H.Digest :=
  let fresh := generateManifestAt H acc.2 machine now
  let stage := acc.2.setManifest machine (refreshManifest (acc.2.manifest machine) fresh)
  (surveyed.filter fun s => s.expectation.key.machine = machine).foldl (reclaimSession H)
    (acc.1, stage)

/-- Phase 3: machine by machine. -/
def removeProven (now : ℤ) (stage : Stage H.Digest) (surveyed : List (SurveyedSession H.Digest)) :
    List Reclaimed × Stage H.Digest :=
  (surveyed.map fun s => s.expectation.key.machine).dedup.foldl (reclaimMachine H now surveyed)
    ([], stage)

/-- `reclaim_stage`; `none` is the error return. Whether the missing opencode record maps could all
be written before the deletions is `mapsPersist`. -/
def reclaimStage (stage : Stage H.Digest) (destinations : List (NamedStore H.Digest)) (apply : Bool)
    (mirror : Option MirrorHoldback) (mapsPersist : Bool) (now : ℤ) :
    Option (ReclaimReport H.Digest) × Stage H.Digest :=
  let surveyed := surveyCandidates H stage
  let candidates := surveyed.map SurveyedSession.expectation
  if candidates = [] then (some ⟨[], ⟨false, []⟩, []⟩, stage)
  else
    let proof := proveCandidates candidates destinations mirror
    if proof.refused || !apply then (some ⟨candidates, proof, []⟩, stage)
    else if !mapsPersist then (none, stage)
    else
      let (reclaimed, stage) := removeProven H now stage surveyed
      (some ⟨candidates, proof, reclaimed⟩, stage)

end ChatStasher

/-! What an applied reclaim leaves: no sealed shard a reader sees, and a row for each body it took. -/
namespace ChatStasher

def SessionDir.withoutSealed (d : SessionDir) : SessionDir :=
  { d with files := d.files.filter fun f => parseShardSeq f.path.name = none }

@[simp] lemma SessionDir.withoutSealed_counter (d : SessionDir) :
    d.withoutSealed.counter = d.counter := rfl

lemma mem_sortedEntries {d : SessionDir} {e : ℕ × StoredFile} :
    e ∈ sortedEntries d ↔ e.2 ∈ d.files ∧ parseShardSeq e.2.path.name = some e.1 := by
  rw [sortedEntries, sortBySeq, List.mem_insertionSort, sealedShardEntries, List.mem_filterMap]
  constructor
  · rintro ⟨f, hf, heq⟩
    obtain ⟨seq, hseq, rfl⟩ := Option.map_eq_some_iff.mp heq
    exact ⟨hf, hseq⟩
  · rintro ⟨hf, hseq⟩
    exact ⟨e.2, hf, by rw [hseq]; rfl⟩

lemma sortedEntries_eq_nil {d : SessionDir} :
    sortedEntries d = [] ↔ ∀ f ∈ d.files, parseShardSeq f.path.name = none := by
  rw [List.eq_nil_iff_forall_not_mem]
  constructor
  · intro h f hf
    by_contra hne
    obtain ⟨seq, hseq⟩ := Option.ne_none_iff_exists'.mp hne
    exact h (seq, f) (mem_sortedEntries.mpr ⟨hf, hseq⟩)
  · intro h e he
    obtain ⟨hf, hseq⟩ := mem_sortedEntries.mp he
    rw [h _ hf] at hseq
    cases hseq

@[simp] lemma sortedEntries_withoutSealed (d : SessionDir) :
    sortedEntries d.withoutSealed = [] :=
  sortedEntries_eq_nil.mpr fun _ hf => of_decide_eq_true (List.mem_filter.mp hf).2

lemma withoutSealed_of_nil {d : SessionDir} (h : sortedEntries d = []) : d.withoutSealed = d := by
  have hfilter : d.files.filter (fun f => decide (parseShardSeq f.path.name = none)) = d.files :=
    List.filter_eq_self.mpr fun f hf => decide_eq_true (sortedEntries_eq_nil.mp h f hf)
  rw [SessionDir.withoutSealed, hfilter]

lemma reclaimSessionBody_all (d : SessionDir) :
    (reclaimSessionBody d ((sortedEntries d).map Prod.fst)).2 = d.withoutSealed := by
  rw [reclaimSessionBody, SessionDir.withoutSealed]
  refine congrArg (SessionDir.mk d.counter) (List.filter_congr fun f hf => ?_)
  dsimp only
  cases hseq : parseShardSeq f.path.name with
  | none => rfl
  | some seq =>
    have hmem : (seq, f) ∈ sortedEntries d := mem_sortedEntries.mpr ⟨hf, hseq⟩
    have hproven : seq ∈ (sortedEntries d).map Prod.fst := List.mem_map_of_mem hmem
    rw [Option.any_some, List.contains_iff_mem.mpr hproven]
    rfl

/-- Every directory is listed once, the others are empty, and every manifest file is sound. -/
structure StageSound {D : Type} (stage : Stage D) : Prop where
  nodup : stage.sessions.Nodup
  listed : ∀ key ∉ stage.sessions, stage.dir key = .empty
  machines : (stage.manifests.map Prod.fst).Nodup
  rows : ∀ machine, RowsSound machine ((stage.manifest machine).getD [])

namespace Stage
variable {D : Type} (stage : Stage D)

@[simp] lemma manifest_setDir (key : SessionKey) (d : SessionDir) :
    (stage.setDir key d).manifest = stage.manifest := rfl

@[simp] lemma dir_setManifest (machine : Ident) (rows : List (SessionManifest D)) :
    (stage.setManifest machine rows).dir = stage.dir := rfl

@[simp] lemma sessions_setManifest (machine : Ident) (rows : List (SessionManifest D)) :
    (stage.setManifest machine rows).sessions = stage.sessions := rfl

lemma dir_setDir (key key' : SessionKey) (d : SessionDir) :
    (stage.setDir key d).dir key' = if key' = key then d else stage.dir key' := by
  simp [setDir, Function.update_apply]

lemma sessions_setDir {key : SessionKey} (h : key ∈ stage.sessions) (d : SessionDir) :
    (stage.setDir key d).sessions = stage.sessions := by
  simp [setDir, h]

lemma manifest_setManifest (machine machine' : Ident) (rows : List (SessionManifest D)) :
    (stage.setManifest machine rows).manifest machine' =
      if machine' = machine then some rows else stage.manifest machine' := by
  exact KeyedList.lookup_put stage.manifests (machine, rows) machine'

end Stage

section Sound
variable {D : Type} {stage : Stage D}

lemma StageSound.empty : StageSound (.empty : Stage D) :=
  ⟨List.nodup_nil, fun _ _ => rfl, List.nodup_nil, RowsSound.nil⟩

lemma StageSound.setDir (h : StageSound stage) (key : SessionKey) (d : SessionDir) :
    StageSound (stage.setDir key d) := by
  refine ⟨?_, fun key' hkey => ?_, h.machines, h.rows⟩
  · by_cases hmem : key ∈ stage.sessions
    · rw [stage.sessions_setDir hmem]
      exact h.nodup
    · simp only [Stage.setDir, hmem, if_false]
      exact List.nodup_append_comm.mp (List.nodup_cons.mpr ⟨hmem, h.nodup⟩)
  · by_cases hmem : key ∈ stage.sessions
    · rw [stage.sessions_setDir hmem] at hkey
      rw [stage.dir_setDir, if_neg (fun heq : key' = key => hkey (heq ▸ hmem))]
      exact h.listed key' hkey
    · simp only [Stage.setDir, hmem, if_false, List.mem_append, List.mem_singleton, not_or] at hkey
      rw [stage.dir_setDir, if_neg hkey.2]
      exact h.listed key' hkey.1

lemma StageSound.setManifest (h : StageSound stage) {machine : Ident}
    {rows : List (SessionManifest D)} (hrows : RowsSound machine rows) :
    StageSound (stage.setManifest machine rows) := by
  refine ⟨h.nodup, h.listed, KeyedList.put_nodup h.machines, fun machine' => ?_⟩
  rw [stage.manifest_setManifest]
  split
  next heq => rwa [heq]
  next => exact h.rows machine'

lemma StageSound.manifestFact_eq_some (h : StageSound stage) {key : SessionKey}
    {fact : ShardFact D} :
    manifestFact stage key = some fact ↔
      RowSays ((stage.manifest key.machine).getD []) key.session fact := by
  cases hrows : stage.manifest key.machine with
  | none => simp [manifestFact, hrows, RowSays]
  | some rows =>
    have hsound := h.rows key.machine
    rw [hrows] at hsound
    exact ChatStasher.manifestFact_eq_some hrows hsound

end Sound

section Machine
variable {H : Sha256} {stage : Stage H.Digest}

lemma mem_surveyCandidates {s : SurveyedSession H.Digest} :
    s ∈ surveyCandidates H stage ↔
      ∃ key ∈ stage.sessions, sortedEntries (stage.dir key) ≠ [] ∧ s = surveySession H stage key := by
  rw [surveyCandidates, List.mem_filter, expectedManifestSurveyed, List.mem_insertionSort,
    List.mem_map]
  constructor
  · rintro ⟨⟨key, hkey, rfl⟩, hcount⟩
    exact ⟨key, hkey, by simpa [surveySession] using hcount, rfl⟩
  · rintro ⟨key, hkey, hne, rfl⟩
    exact ⟨⟨key, hkey, rfl⟩, by simpa [surveySession] using hne⟩

lemma surveyCandidates_nodup (h : stage.sessions.Nodup) :
    ((surveyCandidates H stage).map fun s => s.expectation.key).Nodup := by
  have hall : ((stage.sessions.map (surveySession H stage)).map fun s => s.expectation.key).Nodup := by
    rw [List.map_map]
    exact (List.map_id _).symm ▸ h
  refine (List.filter_sublist.map _).nodup ?_
  exact ((List.perm_insertionSort _ _).map _).nodup_iff.mpr hall

lemma foldl_reclaimSession (surveyed : List (SurveyedSession H.Digest))
    (acc : List Reclaimed × Stage H.Digest)
    (hnodup : (surveyed.map fun s => s.expectation.key).Nodup) (hsound : StageSound acc.2)
    (hsurvey : ∀ s ∈ surveyed, s.expectation.key ∈ acc.2.sessions ∧
      s.shardSequences = (sortedEntries (acc.2.dir s.expectation.key)).map Prod.fst) :
    let out := (surveyed.foldl (reclaimSession H) acc).2
    StageSound out ∧ out.sessions = acc.2.sessions ∧ out.manifest = acc.2.manifest ∧
      ∀ key, out.dir key = if key ∈ surveyed.map (fun s => s.expectation.key) then
        (acc.2.dir key).withoutSealed else acc.2.dir key := by
  induction surveyed generalizing acc with
  | nil => simpa using hsound
  | cons s surveyed ih =>
    rw [List.map_cons, List.nodup_cons] at hnodup
    obtain ⟨hkey, hseqs⟩ := hsurvey s List.mem_cons_self
    have hdir : ∀ key, (reclaimSession H acc s).2.dir key = if key = s.expectation.key then
        (acc.2.dir key).withoutSealed else acc.2.dir key := by
      intro key
      rw [reclaimSession, Stage.dir_setDir, hseqs, reclaimSessionBody_all]
      split
      next heq => rw [heq]
      next => rfl
    have hsessions : (reclaimSession H acc s).2.sessions = acc.2.sessions :=
      acc.2.sessions_setDir hkey _
    have hrest : ∀ t ∈ surveyed, t.expectation.key ≠ s.expectation.key := fun t ht heq =>
      hnodup.1 (heq ▸ List.mem_map_of_mem (f := fun s => s.expectation.key) ht)
    obtain ⟨hs, hlist, hmanifest, hclear⟩ := ih _ hnodup.2 (hsound.setDir _ _) fun t ht => by
      obtain ⟨hkey', hseqs'⟩ := hsurvey t (List.mem_cons_of_mem _ ht)
      rw [hsessions, hdir, if_neg (hrest t ht)]
      exact ⟨hkey', hseqs'⟩
    refine ⟨hs, hlist.trans hsessions, hmanifest.trans rfl, fun key => ?_⟩
    simp only [List.foldl_cons, hclear, hdir, List.map_cons, List.mem_cons]
    by_cases hhead : key = s.expectation.key
    · have hnot : key ∉ surveyed.map fun s => s.expectation.key := hhead ▸ hnodup.1
      simp [hhead, hhead ▸ hnot]
    · simp [hhead]

lemma manifestFact_congr {a b : Stage H.Digest} (h : a.manifest = b.manifest) (key : SessionKey) :
    manifestFact a key = manifestFact b key := by
  rw [manifestFact, h, manifestFact]

lemma manifestFact_setDir (stage : Stage H.Digest) (key key' : SessionKey) (d : SessionDir) :
    manifestFact (stage.setDir key d) key' = manifestFact stage key' :=
  manifestFact_congr (stage.manifest_setDir key d) key'

lemma StageSound.mem_sessions (h : StageSound stage) {key : SessionKey}
    (hne : sortedEntries (stage.dir key) ≠ []) : key ∈ stage.sessions := by
  by_contra hnot
  exact hne (by rw [h.listed key hnot]; rfl)

lemma StageSound.refresh (h : StageSound stage) (machine : Ident) (now : ℤ) :
    let refreshed := stage.setManifest machine
      (refreshManifest (stage.manifest machine) (generateManifestAt H stage machine now))
    StageSound refreshed ∧ ∀ key, manifestFact refreshed key =
      if key.machine = machine ∧ sortedEntries (stage.dir key) ≠ [] then
        some (shardFactInDir H (stage.dir key))
      else manifestFact stage key := by
  obtain ⟨hfresh, hcount, hfacts⟩ := generateManifestAt_spec (H := H) h.nodup machine now
  obtain ⟨hrows, hmerged⟩ := refreshManifest_spec (h.rows machine) hfresh hcount
  have hs := h.setManifest hrows
  refine ⟨hs, fun key => Option.ext fun fact => ?_⟩
  obtain ⟨m, session⟩ := key
  rw [hs.manifestFact_eq_some, Stage.manifest_setManifest]
  by_cases hmachine : m = machine
  · subst hmachine
    rw [if_pos rfl, Option.getD_some, hmerged]
    have hmem : session ∈ (generateManifestAt H stage m now).map SessionManifest.sessionId ↔
        sortedEntries (stage.dir ⟨m, session⟩) ≠ [] := by
      constructor
      · intro hmem
        obtain ⟨row, hrow, rfl⟩ := List.mem_map.mp hmem
        exact ((hfacts _ row.toFact).mp ⟨row, hrow, rfl, rfl⟩).2.1
      · intro hne
        obtain ⟨row, hrow, hsession, -⟩ := (hfacts session _).mpr ⟨h.mem_sessions hne, hne, rfl⟩
        exact hsession ▸ List.mem_map_of_mem hrow
    by_cases hne : sortedEntries (stage.dir ⟨m, session⟩) = []
    · simp [hmem, hne, h.manifestFact_eq_some]
    · simp [hmem, hne, hfacts, h.mem_sessions hne]
  · simp [hmachine, h.manifestFact_eq_some]

/-- What phase 3 leaves of a stage once the machines in `done` had their turn: no readable shard in
their directories, and for each of their sessions that had some the fact of these. -/
structure ClearedFor (done : Ident → Prop) (stage out : Stage H.Digest) : Prop where
  sound : StageSound out
  sessions : out.sessions = stage.sessions
  cleared : ∀ key, done key.machine → out.dir key = (stage.dir key).withoutSealed ∧
    manifestFact out key = if sortedEntries (stage.dir key) ≠ [] then
      some (shardFactInDir H (stage.dir key)) else manifestFact stage key
  kept : ∀ key, ¬ done key.machine →
    out.dir key = stage.dir key ∧ manifestFact out key = manifestFact stage key

lemma mem_surveyed_keys {machine : Ident} {key : SessionKey} :
    key ∈ ((surveyCandidates H stage).filter fun s => s.expectation.key.machine = machine).map
        (fun s => s.expectation.key) ↔
      key.machine = machine ∧ key ∈ stage.sessions ∧ sortedEntries (stage.dir key) ≠ [] := by
  rw [List.mem_map]
  constructor
  · rintro ⟨s, hs, rfl⟩
    obtain ⟨hmem, hmachine⟩ := List.mem_filter.mp hs
    obtain ⟨key, hkey, hne, rfl⟩ := mem_surveyCandidates.mp hmem
    exact ⟨of_decide_eq_true hmachine, hkey, hne⟩
  · rintro ⟨hmachine, hkey, hne⟩
    exact ⟨_, List.mem_filter.mpr ⟨mem_surveyCandidates.mpr ⟨key, hkey, hne, rfl⟩,
      decide_eq_true hmachine⟩, rfl⟩

lemma ClearedFor.reclaimMachine (hstage : StageSound stage) {done : Ident → Prop}
    {acc : List Reclaimed × Stage H.Digest} (h : ClearedFor done stage acc.2) (now : ℤ)
    {machine : Ident} (hnew : ¬ done machine) :
    ClearedFor (fun m => m = machine ∨ done m) stage
      (reclaimMachine H now (surveyCandidates H stage) acc machine).2 := by
  obtain ⟨hrefresh, hfact⟩ := h.sound.refresh machine now
  have hdir : ∀ key, key.machine = machine → acc.2.dir key = stage.dir key := fun key hkey =>
    (h.kept key (hkey ▸ hnew)).1
  obtain ⟨hs, hlist, hmanifest, hclear⟩ := foldl_reclaimSession
    ((surveyCandidates H stage).filter fun s => s.expectation.key.machine = machine)
    (acc.1, acc.2.setManifest machine
      (refreshManifest (acc.2.manifest machine) (generateManifestAt H acc.2 machine now)))
    ((List.filter_sublist.map _).nodup (surveyCandidates_nodup hstage.nodup)) hrefresh
    fun s hs => by
      obtain ⟨hmem, hmachine⟩ := List.mem_filter.mp hs
      obtain ⟨key, hkey, -, rfl⟩ := mem_surveyCandidates.mp hmem
      refine ⟨h.sessions.symm ▸ hkey, ?_⟩
      rw [Stage.dir_setManifest, hdir _ (of_decide_eq_true hmachine)]
      rfl
  have hfact' : ∀ key, manifestFact (ChatStasher.reclaimMachine H now (surveyCandidates H stage) acc
      machine).2 key = _ := fun key => (manifestFact_congr hmanifest key).trans (hfact key)
  refine ⟨hs, hlist.trans h.sessions, fun key hkey => ?_, fun key hkey => ?_⟩
  · by_cases hmachine : key.machine = machine
    · rw [hfact', ChatStasher.reclaimMachine, hclear, Stage.dir_setManifest, hdir key hmachine,
        (h.kept key (hmachine ▸ hnew)).2]
      refine ⟨?_, by simp [hmachine]⟩
      simp only [mem_surveyed_keys, hmachine, true_and]
      split
      next => rfl
      next hbody =>
        have hnil : sortedEntries (stage.dir key) = [] := by
          by_contra hne
          exact hbody ⟨hstage.mem_sessions hne, hne⟩
        rw [withoutSealed_of_nil hnil]
    · have hold := h.cleared key (hkey.resolve_left hmachine)
      rw [hfact', ChatStasher.reclaimMachine, hclear, Stage.dir_setManifest]
      simpa [mem_surveyed_keys, hmachine] using hold
  · rw [not_or] at hkey
    rw [hfact', ChatStasher.reclaimMachine, hclear, Stage.dir_setManifest]
    simpa [mem_surveyed_keys, hkey.1] using h.kept key hkey.2

lemma ClearedFor.foldl (hstage : StageSound stage) (now : ℤ) (machines : List Ident)
    (hnodup : machines.Nodup) (done : Ident → Prop) (hnew : ∀ m ∈ machines, ¬ done m)
    {acc : List Reclaimed × Stage H.Digest} (h : ClearedFor done stage acc.2) :
    ClearedFor (fun m => m ∈ machines ∨ done m) stage
      (machines.foldl (ChatStasher.reclaimMachine H now (surveyCandidates H stage)) acc).2 := by
  induction machines generalizing done acc with
  | nil => simpa using h
  | cons machine machines ih =>
    rw [List.nodup_cons] at hnodup
    have hrest := ih hnodup.2 (fun m => m = machine ∨ done m)
      (fun m hm hdone => hdone.elim (fun heq => hnodup.1 (heq ▸ hm))
        (hnew m (List.mem_cons_of_mem _ hm)))
      (h.reclaimMachine hstage now (hnew machine List.mem_cons_self))
    have hdone : (fun m => m ∈ machines ∨ m = machine ∨ done m) =
        fun m => m ∈ machine :: machines ∨ done m := by
      funext m
      rw [List.mem_cons, ← or_assoc, or_comm (a := m ∈ machines)]
    rwa [hdone] at hrest

theorem removeProven_cleared (h : StageSound stage) (now : ℤ) :
    ClearedFor (fun _ => True) stage (removeProven H now stage (surveyCandidates H stage)).2 := by
  have hstart : ClearedFor (H := H) (fun _ => False) stage
      (([], stage) : List Reclaimed × Stage H.Digest).2 :=
    ⟨h, rfl, fun _ => False.elim, fun _ _ => ⟨rfl, rfl⟩⟩
  have hall := hstart.foldl h now
    ((surveyCandidates H stage).map fun s => s.expectation.key.machine).dedup
    (List.nodup_dedup _) _ (fun _ _ => not_false)
  refine ⟨hall.sound, hall.sessions, fun key _ => ?_, fun _ hkey => absurd trivial hkey⟩
  by_cases hmem : key.machine ∈
      ((surveyCandidates H stage).map fun s => s.expectation.key.machine).dedup
  · exact hall.cleared key (Or.inl hmem)
  · obtain ⟨hdir, hfact⟩ := hall.kept key fun hor => hor.elim hmem id
    have hnil : sortedEntries (stage.dir key) = [] := by
      by_contra hne
      exact hmem (List.mem_dedup.mpr (List.mem_map.mpr
        ⟨_, mem_surveyCandidates.mpr ⟨key, h.mem_sessions hne, hne, rfl⟩, rfl⟩))
    rw [removeProven, hdir, hfact, withoutSealed_of_nil hnil]
    exact ⟨rfl, by simp [hnil]⟩

lemma ClearedFor.refl (h : StageSound stage) (hnil : surveyCandidates H stage = []) :
    ClearedFor (fun _ => True) stage stage := by
  have hbody : ∀ key, sortedEntries (stage.dir key) = [] := by
    intro key
    by_contra hne
    have hmem := mem_surveyCandidates.mpr ⟨key, h.mem_sessions hne, hne, rfl⟩
    rw [hnil] at hmem
    cases hmem
  refine ⟨h, rfl, fun key _ => ?_, fun _ hkey => absurd trivial hkey⟩
  rw [withoutSealed_of_nil (hbody key)]
  exact ⟨rfl, by simp [hbody key]⟩

theorem reclaimStage_spec (h : StageSound stage) (destinations : List (NamedStore H.Digest))
    (apply : Bool) (mirror : Option MirrorHoldback) (mapsPersist : Bool) (now : ℤ) :
    let out := (reclaimStage H stage destinations apply mirror mapsPersist now).2
    if apply = true ∧ mapsPersist = true ∧
        (proveCandidates ((surveyCandidates H stage).map SurveyedSession.expectation)
          destinations mirror).refused = false then
      ClearedFor (fun _ => True) stage out
    else out = stage := by
  by_cases hnil : surveyCandidates H stage = []
  · simp only [reclaimStage, hnil, List.map_nil, if_true]
    split
    next => exact .refl h hnil
    next => trivial
  · have hne : (surveyCandidates H stage).map SurveyedSession.expectation ≠ [] := by simpa using hnil
    simp only [reclaimStage, hne, if_false]
    generalize (proveCandidates ((surveyCandidates H stage).map SurveyedSession.expectation)
      destinations mirror).refused = refused
    cases apply <;> cases mapsPersist <;> cases refused <;> try rfl
    exact removeProven_cleared h now

end Machine

end ChatStasher
