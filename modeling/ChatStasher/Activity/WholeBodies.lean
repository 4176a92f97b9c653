import ChatStasher.Activity.Reclaimed

/-! Rows of the activity index that speak for whole bodies: what every run keeps whose builds find
each body whole or gone, and the growth after a reclaim that breaks it. -/
namespace ChatStasher.Activity

section Manifest
variable {H : Sha256} {machine sessionId : Ident} {rows : Option (List (SessionManifest H.Digest))}

lemma lookup_stageManifestBodies (hrows : RowsSound machine (rows.getD []))
    {measured : MeasuredBody H} :
    (stageManifestBodies rows).reverse.lookup sessionId = some measured ↔
      ∃ fact, RowSays (rows.getD []) sessionId fact ∧ 0 < fact.shardCount ∧
        measured = ⟨fact.shardCount, fact.concatSha256⟩ := by
  have hnodup : ((stageManifestBodies rows).reverse.map Prod.fst).Nodup := by
    rw [List.map_reverse, List.nodup_reverse, stageManifestBodies, List.map_map]
    exact hrows.nodup.sublist (List.filter_sublist.map _)
  rw [KeyedList.lookup_eq_some_iff_mem hnodup, List.mem_reverse, stageManifestBodies, List.mem_map]
  constructor
  · rintro ⟨row, hrow, heq⟩
    obtain ⟨hmem, hcount⟩ := List.mem_filter.mp hrow
    obtain ⟨rfl, rfl⟩ := Prod.mk.inj heq
    exact ⟨row.toFact, ⟨row, hmem, rfl, rfl⟩, by simpa using hcount, rfl⟩
  · rintro ⟨-, ⟨row, hmem, rfl, rfl⟩, hcount, rfl⟩
    exact ⟨row, List.mem_filter.mpr ⟨hmem, by simpa using hcount⟩, rfl⟩

lemma rowSays_generateManifest {sessions : List (SealedSession H)} {sealedAtUnix : ℤ}
    {fact : ChatStasher.ShardFact H.Digest} :
    RowSays (generateManifest H machine sealedAtUnix sessions) sessionId fact ↔
      ∃ session ∈ sessions, session.id = sessionId ∧ session.staged ≠ [] ∧
        fact = bodyFact H session.staged := by
  constructor
  · rintro ⟨row, hrow, rfl, rfl⟩
    rw [generateManifest, List.mem_insertionSort] at hrow
    obtain ⟨session, hsession, rfl⟩ := List.mem_map.mp hrow
    obtain ⟨hmem, hbody⟩ := List.mem_filter.mp hsession
    exact ⟨session, hmem, rfl, by simpa using hbody, rfl⟩
  · rintro ⟨session, hmem, rfl, hbody, rfl⟩
    refine ⟨manifestRow H machine sealedAtUnix session, ?_, rfl, rfl⟩
    rw [generateManifest, List.mem_insertionSort]
    exact List.mem_map_of_mem (List.mem_filter.mpr ⟨hmem, by simpa using hbody⟩)

lemma generateManifest_sound {sessions : List (SealedSession H)} {sealedAtUnix : ℤ}
    (hids : (sessions.map SealedSession.id).Nodup) :
    RowsSound machine (generateManifest H machine sealedAtUnix sessions) ∧
      ∀ row ∈ generateManifest H machine sealedAtUnix sessions, 0 < row.shardCount := by
  have hmem : ∀ row ∈ generateManifest H machine sealedAtUnix sessions, ∃ session ∈ sessions,
      session.staged ≠ [] ∧ row = manifestRow H machine sealedAtUnix session := by
    intro row hrow
    rw [generateManifest, List.mem_insertionSort] at hrow
    obtain ⟨session, hsession, rfl⟩ := List.mem_map.mp hrow
    obtain ⟨hmem, hbody⟩ := List.mem_filter.mp hsession
    exact ⟨session, hmem, by simpa using hbody, rfl⟩
  refine ⟨⟨?_, fun row hrow => ?_⟩, fun row hrow => ?_⟩
  · rw [generateManifest, ((List.perm_insertionSort _ _).map _).nodup_iff, List.map_map]
    exact hids.sublist (List.filter_sublist.map _)
  · obtain ⟨session, -, -, rfl⟩ := hmem row hrow
    rfl
  · obtain ⟨session, -, hbody, rfl⟩ := hmem row hrow
    exact List.length_pos_of_ne_nil hbody

end Manifest

section Site
variable {H : Sha256} {reader : SessionReader H} {machine : Ident} {s : ReclaimSite reader}

def Measures (session : SealedSession H) (row : reader.rules.Row) : Prop :=
  ∀ measured, row.measuredBody = some measured → ∃ shards, shards <+: session.sealed ∧
    measured = measure H shards ∧ row.content.1 = reader.bodyTimes session.id shards

/-- What every run keeps whose builds find each body whole or gone. -/
structure ReclaimSite.Measured (machine : Ident) (s : ReclaimSite reader) : Prop where
  entries : ∀ sessionId entry, recordedEntry s.state sessionId = some entry →
    ∃ shards, entry.shards = shards.map (factFor H) ∧ entry.measured = measure H shards
  indexed : ∀ sessionId row, s.previousRow sessionId = some row →
    sessionId ∈ s.sessions.map SealedSession.id
  rows : ∀ session ∈ s.sessions, reader.harnessIsOpencode session.id = false →
    ∀ row, s.previousRow session.id = some row → Measures session row
  sound : RowsSound machine (s.manifest.getD [])
  described : ∀ sessionId fact, RowSays (s.manifest.getD []) sessionId fact →
    ∃ session ∈ s.sessions, session.id = sessionId ∧
      ∃ shards, shards ≠ [] ∧ shards <:+: session.sealed ∧ fact = bodyFact H shards
  recorded : ∀ session ∈ s.sessions, session.staged ≠ session.sealed →
    ∃ fact, RowSays (s.manifest.getD []) session.id fact

lemma measured_empty (machine : Ident) : (ReclaimSite.empty reader).Measured machine where
  entries := nofun
  indexed := nofun
  rows := nofun
  sound := .nil machine
  described := by
    rintro sessionId fact ⟨row, hrow, -⟩
    cases hrow
  recorded := nofun

lemma ReclaimSite.session_inj (s : ReclaimSite reader) {session session' : SealedSession H}
    (h : session ∈ s.sessions) (h' : session' ∈ s.sessions) (hid : session.id = session'.id) :
    session = session' := List.inj_on_of_nodup_map s.ids_nodup h h' hid

lemma eq_of_measure {shards shards' sealed : List (ℕ × Bytes)} (h : shards <+: sealed)
    (h' : shards' <+: sealed) (hmeasure : measure H shards = measure H shards') :
    shards = shards' := by
  have hlength : shards.length = shards'.length := congrArg MeasuredBody.shardCount hmeasure
  exact (List.prefix_of_prefix_length_le h h' hlength.le).eq_of_length hlength

namespace ReclaimSite.Measured

lemma mapSessions (h : s.Measured machine) {f : SealedSession H → SealedSession H}
    (hf : ∀ session, (f session).id = session.id)
    (hsealed : ∀ session, session.sealed <+: (f session).sealed)
    (hrecorded : ∀ session ∈ s.sessions, (f session).staged ≠ (f session).sealed →
      ∃ fact, RowSays (s.manifest.getD []) session.id fact) :
    (s.mapSessions f hf).Measured machine where
  entries := h.entries
  indexed sessionId row hrow := by
    obtain ⟨session, hsession, rfl⟩ := List.mem_map.mp (h.indexed sessionId row hrow)
    exact List.mem_map.mpr ⟨f session, List.mem_map_of_mem hsession, hf session⟩
  rows := by
    intro grown hgrown hharness row hrow measured hmeasured
    obtain ⟨session, hsession, rfl⟩ := List.mem_map.mp hgrown
    rw [hf] at hharness hrow ⊢
    obtain ⟨shards, hstart, hrest⟩ := h.rows session hsession hharness row hrow measured hmeasured
    exact ⟨shards, hstart.trans (hsealed session), hrest⟩
  sound := h.sound
  described sessionId fact hfact := by
    obtain ⟨session, hsession, hid, shards, hbody, hinfix, hrest⟩ := h.described sessionId fact hfact
    exact ⟨f session, List.mem_map_of_mem hsession, (hf session).trans hid, shards, hbody,
      hinfix.trans (hsealed session).isInfix, hrest⟩
  recorded := by
    intro grown hgrown hne
    obtain ⟨session, hsession, rfl⟩ := List.mem_map.mp hgrown
    rw [hf]
    exact hrecorded session hsession hne

lemma newSession (h : s.Measured machine) (sessionId : Ident)
    (capturedStart : Option CapturedStart) :
    (s.newSession sessionId capturedStart).Measured machine := by
  rw [ReclaimSite.newSession]
  split
  · exact h
  next hnew =>
    refine ⟨h.entries, fun id row hrow => ?_, ?_, h.sound, fun id fact hfact => ?_, ?_⟩
    · rw [List.map_append]
      exact List.mem_append_left _ (h.indexed id row hrow)
    · intro session hsession hharness row hrow
      rcases List.mem_append.mp hsession with hsession | hsession
      · exact h.rows session hsession hharness row hrow
      · obtain rfl := List.mem_singleton.mp hsession
        exact absurd (h.indexed _ row hrow) hnew
    · obtain ⟨session, hsession, hrest⟩ := h.described id fact hfact
      exact ⟨session, List.mem_append_left _ hsession, hrest⟩
    · intro session hsession hne
      rcases List.mem_append.mp hsession with hsession | hsession
      · exact h.recorded session hsession hne
      · obtain rfl := List.mem_singleton.mp hsession
        exact absurd rfl hne

lemma sealShard (h : s.Measured machine) (sessionId : Ident) (seq : ℕ) (bytes : Bytes)
    (recorded : Bool) :
    (reclaimStep machine s (.sealShard sessionId seq bytes recorded)).Measured machine := by
  have hids : ∀ session : SealedSession H,
      (if session.id = sessionId then session.sealShard seq bytes recorded else session).id =
        session.id := by
    intro session
    split <;> simp
  refine h.mapSessions hids (fun session => ?_) fun session hsession hne => ?_
  · split
    · rcases session.sealShard_cases seq bytes recorded with heq | ⟨heq, -⟩
      · rw [heq]
      · exact ⟨_, heq.symm⟩
    · exact List.prefix_rfl
  · refine h.recorded session hsession fun hwhole => hne ?_
    split
    · rcases session.sealShard_cases seq bytes recorded with heq | ⟨hsealed, hstaged⟩
      · rw [heq, hwhole]
      · rw [hsealed, hstaged, hwhole]
    · exact hwhole

lemma refreshed (h : s.Measured machine) (sealedAtUnix : ℤ) :
    let refreshed := some (refreshManifest s.manifest
      (generateManifest H machine sealedAtUnix s.sessions))
    ReclaimSite.Measured machine { s with manifest := refreshed } ∧ ∀ session ∈ s.sessions,
      session.staged ≠ [] → ∃ fact, RowSays (refreshed.getD []) session.id fact := by
  intro refreshed
  obtain ⟨hfresh, hcount⟩ := @generateManifest_sound _ _ _ sealedAtUnix s.ids_nodup
  obtain ⟨hsound, htells⟩ := refreshManifest_spec h.sound hfresh hcount
  have hbody : ∀ session ∈ s.sessions, session.staged ≠ [] →
      ∃ fact, RowSays (refreshed.getD []) session.id fact := by
    intro session hsession hbody
    have hsaid : RowSays (generateManifest H machine sealedAtUnix s.sessions) session.id
        (bodyFact H session.staged) :=
      rowSays_generateManifest.mpr ⟨session, hsession, rfl, hbody, rfl⟩
    obtain ⟨row, hrow, hid, -⟩ := id hsaid
    exact ⟨_, (htells session.id _).mpr (by rw [if_pos (List.mem_map.mpr ⟨row, hrow, hid⟩)]; exact hsaid)⟩
  refine ⟨⟨h.entries, h.indexed, h.rows, hsound, fun sessionId fact hfact => ?_,
    fun session hsession hne => ?_⟩, hbody⟩
  · have hfact := (htells sessionId fact).mp hfact
    split at hfact
    · obtain ⟨session, hsession, hid, hbody, rfl⟩ := rowSays_generateManifest.mp hfact
      exact ⟨session, hsession, hid, session.staged, hbody, session.staged_suffix.isInfix, rfl⟩
    · exact h.described sessionId fact hfact
  · by_cases hstaged : session.staged = []
    · obtain ⟨fact, hfact⟩ := h.recorded session hsession hne
      refine ⟨fact, (htells session.id fact).mpr ?_⟩
      rw [if_neg]
      · exact hfact
      · intro hmem
        obtain ⟨row, hrow, hid⟩ := List.mem_map.mp hmem
        obtain ⟨session', hsession', hid', hbody', -⟩ :=
          rowSays_generateManifest.mp ⟨row, hrow, hid, rfl⟩
        obtain rfl := s.session_inj hsession hsession' hid'.symm
        exact hbody' hstaged
    · exact hbody session hsession hstaged

lemma reclaim (h : s.Measured machine) (sealedAtUnix : ℤ) (removed : Ident → ℕ) :
    (reclaimStep machine s (.reclaim sealedAtUnix removed)).Measured machine := by
  obtain ⟨hrefreshed, hbody⟩ := h.refreshed sealedAtUnix
  refine hrefreshed.mapSessions (f := fun session => session.reclaim (removed session.id))
    (fun _ => rfl) (fun session => List.prefix_rfl) fun session hsession hne => ?_
  by_cases hstaged : session.staged = []
  · refine hrefreshed.recorded session hsession fun hwhole => hne ?_
    have hsealed : session.sealed = [] := hwhole.symm.trans hstaged
    simp [SealedSession.reclaim, hstaged, hsealed]
  · exact hbody session hsession hstaged

end ReclaimSite.Measured

lemma bodylessRow_cases (machine : Ident) (stage : Stage reader.rules) (sessionId : Ident)
    (previous : Option reader.rules.Row) :
    let recorded := stage.recordedBodies.bind fun bodies => bodies.reverse.lookup sessionId
    let row := bodylessRow machine stage sessionId previous
    (∃ old measured, previous = some old ∧ old.measuredBody = some measured ∧
      recorded = some measured ∧ row.measuredBody = some measured ∧ row.content = old.content) ∨
    (row.measuredBody = none ∧ row.content.1.timeSource.declaresGap = true) ∨
    (row.measuredBody = none ∧ recorded = none ∧
      row.content.1 = reader.bodyTimes sessionId []) := by
  intro recorded row
  cases hcarried : previous.filter fun _ =>
      (previous.bind fun row => row.measuredBody).isSome &&
        decide ((previous.bind fun row => row.measuredBody) = recorded) with
  | some old =>
    obtain ⟨rfl, hbound⟩ := Option.filter_eq_some_iff.mp hcarried
    rw [Option.bind_some, Bool.and_eq_true, decide_eq_true_eq] at hbound
    obtain ⟨measured, hmeasured⟩ := Option.isSome_iff_exists.mp hbound.1
    have hrow : row = { old with
        sessionProvenance := stage.provenanceOf sessionId <|> old.sessionProvenance } := by
      dsimp only [row, bodylessRow]
      rw [hcarried]
    refine Or.inl ⟨old, measured, rfl, hmeasured, hbound.2.symm.trans hmeasured, ?_, ?_⟩
    · rw [hrow, hmeasured]
    · rw [hrow]
  | none =>
    refine Or.inr ?_
    dsimp only [row, bodylessRow]
    rw [hcarried]
    dsimp only
    split
    · exact Or.inl ⟨rfl, rfl⟩
    · split
      · exact Or.inl ⟨rfl, rfl⟩
      next hreclaimed =>
        rw [Bool.or_eq_true, not_or] at hreclaimed
        exact Or.inr ⟨rfl, Option.not_isSome_iff_eq_none.mp hreclaimed.1, rfl⟩

/-- What a build writes for a session with a body: the row of before, where nothing moved, or the row
that the body derives. -/
lemma indexSession_body {mode : ActivityIndexBuild} {policy : DuplicateShardPolicy}
    {stage : Stage reader.rules} {index : Option (List reader.Line)}
    {state : Option (ActivityIndexState H)} {session : StageSession H} {row : reader.rules.Row}
    {fresh : Option (ActivityIndexSessionState H)} (hbody : session.shards ≠ [])
    (h : indexSession mode machine policy stage index state session = some (row, fresh)) :
    (∃ old entry, reader.readRow index session.id = some old ∧ row.measuredBody = old.measuredBody ∧
      row.content = old.content ∧ Carryable stage session (reader.readRow index session.id) state
        entry) ∨
    (row.measuredBody = some (measure H session.shards) ∧
      derivedContent reader.rules machine .collapse session.id session.shards
        (stage.observationsOf session.id) = some row.content) := by
  unfold indexSession at h
  dsimp only at h
  rw [if_neg (by simpa using hbody)] at h
  have hderived : ∀ previous, derivedRow machine policy stage session previous = some (row, fresh) →
      row.measuredBody = some (measure H session.shards) ∧
        derivedContent reader.rules machine .collapse session.id session.shards
          (stage.observationsOf session.id) = some row.content := by
    intro previous hrow
    obtain ⟨content, hcontent, heq⟩ := Option.map_eq_some_iff.mp hrow
    obtain ⟨rfl, -⟩ := Prod.mk.inj heq
    rw [derivedContent_policy session.in_order policy .collapse] at hcontent
    exact ⟨rfl, hcontent⟩
  cases mode with
  | fullRebuild => exact Or.inr (hderived _ h)
  | incrementalUpdate =>
    cases hcarried : carryableStateEntry policy stage session (reader.readRow index session.id)
        state with
    | none =>
      dsimp only at h
      rw [hcarried] at h
      exact Or.inr (hderived _ h)
    | some entry =>
      have hcarry := carryableStateEntry_eq_some hcarried
      obtain ⟨old, hold, hmeasured⟩ := hcarry.measured
      have hread : @readPreviousActivityRow H reader.rules index session.id = some old := hold
      dsimp only at h
      rw [hcarried, hread] at h
      obtain ⟨rfl, -⟩ := Prod.mk.inj (Option.some.inj h)
      exact Or.inl ⟨old, entry, hold, rfl, rfl, hcarry⟩

lemma ReclaimSite.Measured.records_whole (h : s.Measured machine) {session : SealedSession H}
    (hsession : session ∈ s.sessions)
    (hlookup : (stageManifestBodies s.manifest).reverse.lookup session.id =
      some (measure H session.sealed)) :
    RowSays (s.manifest.getD []) session.id (bodyFact H session.sealed) := by
  obtain ⟨fact, hfact, -, hmeasure⟩ := (lookup_stageManifestBodies h.sound).mp hlookup
  obtain ⟨session', hsession', hid, shards, -, hinfix, rfl⟩ := h.described session.id fact hfact
  obtain rfl := s.session_inj hsession hsession' hid.symm
  have hlength : session.sealed.length = shards.length := congrArg MeasuredBody.shardCount hmeasure
  rwa [← hinfix.eq_of_length hlength.symm]

section Row
variable {session : SealedSession H} {row : reader.rules.Row}

lemma truthful_of_blank (hnone : row.measuredBody = none)
    (htimes : row.content.1.timeSource.declaresGap = false →
      row.content.1.Agrees (reader.bodyTimes session.id session.sealed)) :
    RowTruthful s session row ∧ Measures session row := by
  refine ⟨⟨htimes, fun _ measured hmeasured => ?_⟩, fun measured hmeasured => ?_⟩
  all_goals
    rw [hnone] at hmeasured
    cases hmeasured

lemma truthful_of_whole (hmeasured : row.measuredBody = some (measure H session.sealed))
    (htimes : row.content.1 = reader.bodyTimes session.id session.sealed)
    (hrecorded : session.staged = [] →
      RowSays (s.manifest.getD []) session.id (bodyFact H session.sealed)) :
    RowTruthful s session row ∧ Measures session row := by
  refine ⟨⟨fun _ => by rw [htimes]; exact ⟨rfl, rfl, rfl⟩, fun hgone measured hrow => ?_⟩,
    fun measured hrow => ?_⟩
  all_goals obtain rfl := Option.some.inj (hmeasured.symm.trans hrow)
  · exact ⟨session.sealed, rfl, htimes, hrecorded hgone⟩
  · exact ⟨session.sealed, List.prefix_rfl, rfl, htimes⟩

end Row

namespace ReclaimSite.Measured
variable {session : SealedSession H} {row : reader.rules.Row}

lemma sealed_ne_nil (h : s.Measured machine) (hsession : session ∈ s.sessions)
    {measured : MeasuredBody H}
    (hlookup : (stageManifestBodies s.manifest).reverse.lookup session.id = some measured) :
    session.sealed ≠ [] := by
  obtain ⟨fact, hfact, -⟩ := (lookup_stageManifestBodies h.sound).mp hlookup
  obtain ⟨session', hsession', hid, shards, hne, hinfix, -⟩ := h.described session.id fact hfact
  obtain rfl := s.session_inj hsession hsession' hid.symm
  intro hnil
  rw [hnil] at hinfix
  exact hne (List.infix_nil.mp hinfix)

lemma sealed_of_unrecorded (h : s.Measured machine) (hsession : session ∈ s.sessions)
    (hlookup : (stageManifestBodies s.manifest).reverse.lookup session.id = none) :
    session.staged = session.sealed := by
  by_contra hne
  obtain ⟨fact, hfact⟩ := h.recorded session hsession hne
  obtain ⟨-, -, -, shards, hshards, -, rfl⟩ := h.described session.id fact hfact
  have hfound := (lookup_stageManifestBodies h.sound).mpr
    ⟨_, hfact, List.length_pos_of_ne_nil hshards, rfl⟩
  rw [hlookup] at hfound
  cases hfound

lemma times_of_measured (h : s.Measured machine) (hsession : session ∈ s.sessions)
    (hharness : reader.harnessIsOpencode session.id = false)
    (hprevious : s.previousRow session.id = some row)
    (hmeasured : row.measuredBody = some (measure H session.sealed)) :
    row.content.1 = reader.bodyTimes session.id session.sealed := by
  obtain ⟨shards, hstart, hmeasure, htimes⟩ :=
    h.rows session hsession hharness row hprevious _ hmeasured
  rw [htimes, eq_of_measure hstart List.prefix_rfl hmeasure.symm]

lemma row_of_gone (h : s.Measured machine) (hsession : session ∈ s.sessions)
    (hharness : reader.harnessIsOpencode session.id = false) (hbody : session.staged = [])
    (hwhole : session.Whole s.manifest (s.previousRow session.id))
    (hrow : row = bodylessRow machine s.stage session.id (s.previousRow session.id)) :
    RowTruthful s session row ∧ Measures session row := by
  have hcases := bodylessRow_cases machine s.stage session.id (s.previousRow session.id)
  dsimp only at hcases
  rw [← hrow] at hcases
  rcases hcases with ⟨old, measured, hprevious, hmeasured, hlookup, hsame, hcontent⟩ |
    ⟨hnone, hgap⟩ | ⟨hnone, hlookup, htimes⟩
  · have hall : measured = measure H session.sealed := by
      rcases hwhole with hstaged | ⟨-, hbound⟩
      · exact absurd (hstaged.symm.trans hbody) (h.sealed_ne_nil hsession hlookup)
      · exact hbound old hprevious measured hmeasured hlookup
    subst hall
    have htimes := h.times_of_measured hsession hharness hprevious hmeasured
    exact truthful_of_whole hsame (by rw [hcontent, htimes]) fun _ =>
      h.records_whole hsession hlookup
  · refine truthful_of_blank hnone fun hno => ?_
    rw [hgap] at hno
    cases hno
  · refine truthful_of_blank hnone fun _ => ?_
    rw [htimes, ← h.sealed_of_unrecorded hsession hlookup, hbody]
    exact ⟨rfl, rfl, rfl⟩

lemma row_of_staged (h : s.Measured machine) {mode : ActivityIndexBuild}
    {policy : DuplicateShardPolicy} (hsession : session ∈ s.sessions)
    (hharness : reader.harnessIsOpencode session.id = false) (hbody : session.staged ≠ [])
    (hstaged : session.staged = session.sealed) {fresh : Option (ActivityIndexSessionState H)}
    (hone : indexSession mode machine policy s.stage s.index (readActivityIndexState s.state)
      session.onStage = some (row, fresh)) :
    RowTruthful s session row ∧ Measures session row := by
  rcases indexSession_body hbody hone with
    ⟨old, entry, hprevious, hsame, hcontent, hcarry⟩ | ⟨hsame, hcontent⟩
  · obtain ⟨old', hold', hentry⟩ := hcarry.measured
    obtain rfl := Option.some.inj (hprevious.symm.trans hold')
    obtain ⟨shards, hshards, hmeasure⟩ := h.entries session.id entry hcarry.known
    have hsealed := map_factFor_injective (hcarry.shards.symm.trans hshards)
    rw [SealedSession.onStage_shards, hstaged] at hsealed
    subst hsealed
    rw [hmeasure] at hentry
    have htimes := h.times_of_measured hsession hharness hprevious hentry
    exact truthful_of_whole (hsame.trans hentry) (by rw [hcontent, htimes]) fun hgone =>
      absurd hgone hbody
  · rw [SealedSession.onStage_shards, hstaged] at hsame hcontent
    exact truthful_of_whole hsame (derivedContent_times session.in_order hharness hcontent)
      fun hgone => absurd hgone hbody

lemma row_of_whole (h : s.Measured machine) {mode : ActivityIndexBuild}
    {policy : DuplicateShardPolicy} (hsession : session ∈ s.sessions)
    (hharness : reader.harnessIsOpencode session.id = false)
    (hwhole : session.Whole s.manifest (s.previousRow session.id))
    {fresh : Option (ActivityIndexSessionState H)}
    (hone : indexSession mode machine policy s.stage s.index (readActivityIndexState s.state)
      session.onStage = some (row, fresh)) :
    RowTruthful s session row ∧ Measures session row := by
  by_cases hbody : session.staged = []
  · refine h.row_of_gone hsession hharness hbody hwhole ?_
    unfold indexSession at hone
    dsimp only at hone
    rw [if_pos (by simp [hbody])] at hone
    exact (Prod.mk.inj (Option.some.inj hone)).1.symm
  · exact h.row_of_staged hsession hharness hbody (hwhole.resolve_right fun hgone => hbody hgone.1)
      hone

end ReclaimSite.Measured

lemma exists_of_published_row {mode : ActivityIndexBuild} {policy : DuplicateShardPolicy}
    {index : List reader.Line} {state : ActivityIndexState H}
    (hbuild : buildActivityIndex mode machine policy s.stage s.index s.state = some (index, state))
    {sessionId : Ident} {back : reader.rules.Row}
    (hback : reader.readRow (some index) sessionId = some back) :
    ∃ session ∈ s.sessions, session.id = sessionId ∧ ∃ row fresh,
      indexSession mode machine policy s.stage s.index (readActivityIndexState s.state)
        session.onStage = some (row, fresh) ∧ back.measuredBody = row.measuredBody ∧
          back.content.1 = row.content.1 := by
  obtain ⟨rows, rfl, -, -, hrows⟩ :=
    buildActivityIndex_eq_some (s := ⟨s.stage, s.index, s.state⟩) hbuild
  obtain ⟨row, hrow, hid, hmeasured, hwritten⟩ := exists_of_readPreviousActivityRow hback
  obtain ⟨⟨id, row, fresh⟩, he, rfl⟩ := List.mem_map.mp hrow
  obtain ⟨found, hfound, rfl, hone⟩ := hrows _ he
  have hsame := (indexSession_cases hone).sessionId
  obtain ⟨session, hsession, rfl⟩ := List.mem_map.mp hfound
  exact ⟨session, hsession, hsame.symm.trans hid, row, fresh, hone, hmeasured,
    times_eq_of_written hwritten⟩

namespace ReclaimSite.Measured

lemma publishes (h : s.Measured machine) {a : ReclaimAction reader} (ha : BuildsWhole s a) :
    PublishesTruth machine s a := by
  cases a with
  | build mode policy cut =>
    intro hcut index state hbuild session hsession hharness back hback
    obtain ⟨session', hsession', hid, row, fresh, hone, hmeasured, htimes⟩ :=
      exists_of_published_row hbuild hback
    obtain rfl := s.session_inj hsession hsession' hid.symm
    obtain ⟨htrue, -⟩ := h.row_of_whole hsession hharness (ha hcut session hsession hharness) hone
    exact ⟨by rw [htimes]; exact htrue.times, by rw [htimes, hmeasured]; exact htrue.carried⟩
  | newSession => trivial
  | sealShard => trivial
  | reclaim => trivial
  | observe => trivial

lemma published (h : s.Measured machine) {mode : ActivityIndexBuild}
    {policy : DuplicateShardPolicy} {index : List reader.Line} {state : ActivityIndexState H}
    (hbuild : buildActivityIndex mode machine policy s.stage s.index s.state = some (index, state))
    (hwhole : ∀ session ∈ s.sessions, reader.harnessIsOpencode session.id = false →
      session.Whole s.manifest (s.previousRow session.id)) :
    ReclaimSite.Measured machine { s with index := some index } where
  entries := h.entries
  indexed sessionId back hback := by
    obtain ⟨session, hsession, rfl, -⟩ := exists_of_published_row hbuild hback
    exact List.mem_map_of_mem hsession
  rows session hsession hharness back hback measured hmeasured := by
    obtain ⟨session', hsession', hid, row, fresh, hone, hsame, htimes⟩ :=
      exists_of_published_row hbuild hback
    obtain rfl := s.session_inj hsession hsession' hid.symm
    obtain ⟨-, hmeasures⟩ :=
      h.row_of_whole hsession hharness (hwhole session hsession hharness) hone
    rw [htimes]
    exact hmeasures measured (hsame ▸ hmeasured)
  sound := h.sound
  described := h.described
  recorded := h.recorded

lemma writtenState (h : s.Measured machine) {mode : ActivityIndexBuild}
    {policy : DuplicateShardPolicy} {index : List reader.Line} {state : ActivityIndexState H}
    (hbuild : buildActivityIndex mode machine policy s.stage s.index s.state = some (index, state))
    (sessionId : Ident) (entry : ActivityIndexSessionState H)
    (hentry : recordedEntry (some state) sessionId = some entry) :
    ∃ shards, entry.shards = shards.map (factFor H) ∧ entry.measured = measure H shards := by
  obtain ⟨session, -, -, row, hone⟩ :=
    exists_of_recordedEntry (s := ⟨s.stage, s.index, s.state⟩) hbuild hentry
  generalize hfresh : some entry = fresh at hone
  cases indexSession_cases hone with
  | blank => cases hfresh
  | kept => cases hfresh
  | carried hkept hcarry =>
    obtain rfl := Option.some.inj hfresh
    exact h.entries _ _ hcarry.known
  | derived hbody hcontent =>
    have heq := stateEntry_eq_some hfresh.symm
    subst heq
    exact ⟨session.shards, rfl, rfl⟩

lemma step (h : s.Measured machine) {a : ReclaimAction reader} (ha : BuildsWhole s a) :
    (reclaimStep machine s a).Measured machine := by
  cases a with
  | newSession sessionId capturedStart => exact h.newSession sessionId capturedStart
  | sealShard sessionId seq bytes recorded => exact h.sealShard sessionId seq bytes recorded
  | reclaim sealedAtUnix removed => exact h.reclaim sealedAtUnix removed
  | observe observations sessionProvenance =>
    exact ⟨h.entries, h.indexed, h.rows, h.sound, h.described, h.recorded⟩
  | build mode policy cut =>
    dsimp only [reclaimStep]
    split
    next index state hbuild =>
      exact h.published hbuild (ha (by simp))
    next index state hbuild =>
      have hpublished := h.published hbuild (ha (by simp))
      exact ⟨h.writtenState hbuild, hpublished.indexed, hpublished.rows, h.sound, h.described,
        h.recorded⟩
    next => exact h

end ReclaimSite.Measured

/-- In every run whose builds find each body whole on the stage, or gone with what binds its row recorded
whole, every published row is truthful. -/
theorem rows_truthful (reader : SessionReader H) (machine : Ident)
    (actions : List (ReclaimAction reader))
    (hwhole : StepRun.Along (reclaimStep machine) BuildsWhole (.empty reader) actions) :
    StepRun.Along (reclaimStep machine) (PublishesTruth machine) (.empty reader) actions := by
  suffices hall : ∀ s : ReclaimSite reader, s.Measured machine →
      StepRun.Along (reclaimStep machine) BuildsWhole s actions →
        StepRun.Along (reclaimStep machine) (PublishesTruth machine) s actions from
    hall _ (measured_empty machine) hwhole
  clear hwhole
  induction actions with
  | nil => exact fun _ _ _ => trivial
  | cons a actions ih =>
    intro s hs hwhole
    exact ⟨hs.publishes hwhole.1, ih _ (hs.step hwhole.1) hwhole.2⟩

end Site

section Growth

/-- Lines whose first byte is their time, rows written as themselves. -/
def byteTimes : SessionReader .verbatim where
  lines := {
    Text := Bytes
    Value := ℤ
    isBlank := List.isEmpty
    parse line := line.head?.map fun byte => (byte.toNat : ℤ)
    recordType _ := none
    lineTime _ time := .time time time true .localFields none
    geminiDocument _ := none }
  Rest := Unit
  Provenance := Unit
  Observation := Unit
  Line := ActivityRow .verbatim Unit (TimeAnalysis × Unit)
  inferHarness _ := some ['c', 'o', 'd', 'e', 'x']
  harnessIsOpencode _ := false
  projectSessionBody _ _ := none
  textLines bytes := (completeLines bytes).1
  restOf _ _ _ _ := ()
  mergeDimensions rest _ := rest
  mergeVerifiedObservations rest _ _ _ := rest
  observationJson _ := []
  toJsonl := id
  parseRow := some
  parse_toJsonl row := ⟨row, rfl, rfl, rfl, rfl, fun _ => rfl⟩

def indexedThenReclaimed : List (ReclaimAction byteTimes) :=
  [.newSession ['s'] none, .sealShard ['s'] 1 [100, 10] true, .build .fullRebuild .collapse .complete,
    .reclaim 0 fun _ => 1]

/-- The row of a body that was indexed whole and then reclaimed is carried. -/
theorem rows_truthful_carried : StepRun.Along (reclaimStep ['m']) (PublishesTruth ['m'])
    (.empty byteTimes) (indexedThenReclaimed ++ [.build .incrementalUpdate .collapse .complete]) := by
  refine rows_truthful byteTimes ['m'] _ ?_
  refine ⟨trivial, trivial, ?_, trivial, ?_, trivial⟩
  · intro _ session hsession _
    obtain rfl := List.mem_singleton.mp hsession
    exact Or.inl rfl
  · intro _ session hsession _
    obtain rfl := List.mem_singleton.mp hsession
    refine Or.inr ⟨rfl, fun row _ measured _ hlookup => ?_⟩
    exact (Option.some.inj hlookup).symm

/-- Growth after the reclaim is indexed as if it were the session. -/
theorem growth_indexed_alone : ¬ StepRun.Along (reclaimStep ['m']) (PublishesTruth ['m'])
    (.empty byteTimes) (indexedThenReclaimed ++ [.sealShard ['s'] 2 [200, 10] true,
      .build .incrementalUpdate .collapse .complete]) := by
  intro h
  obtain ⟨-, -, hbuild, -⟩ := (StepRun.along_append _ _ _ _ _).mp h
  let s := reclaimStep ['m'] (StepRun.exec (reclaimStep ['m']) (.empty byteTimes)
    indexedThenReclaimed) (.sealShard ['s'] 2 [200, 10] true)
  have hpublished : ((buildActivityIndex .incrementalUpdate ['m'] .collapse s.stage s.index
      s.state).bind fun built => byteTimes.readRow (some built.1) ['s']).map (fun row =>
        (row.content.1.lineCount, row.content.1.timeSource)) = some (1, .exact) := by
    decide +kernel
  obtain ⟨row, hread, hrow⟩ := Option.map_eq_some_iff.mp hpublished
  obtain ⟨⟨index, state⟩, hbuilt, hback⟩ := Option.bind_eq_some_iff.mp hread
  obtain ⟨hcount, hexact⟩ := Prod.mk.inj hrow
  obtain ⟨-, -, hlines⟩ := (hbuild (by simp) index state hbuilt _ List.mem_cons_self rfl row
    hback).times (by rw [hexact]; rfl)
  have hall : (byteTimes.bodyTimes ['s'] [(1, [100, 10]), (2, [200, 10])]).lineCount = 2 := by
    decide +kernel
  have hlines : row.content.1.lineCount =
    (byteTimes.bodyTimes ['s'] [(1, [100, 10]), (2, [200, 10])]).lineCount := hlines
  rw [hall, hcount] at hlines
  cases hlines

end Growth

end ChatStasher.Activity
