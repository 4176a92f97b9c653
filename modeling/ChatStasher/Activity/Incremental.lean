import ChatStasher.Activity.Index
import ChatStasher.Library.StepRun
import ChatStasher.Library.Lists
import ChatStasher.Store.TailReplay

/-! Incremental builds of the activity index publish what a full rebuild would, over runs in which
the stage grows, builds are cut anywhere and the index and its state lose what they held. -/
namespace ChatStasher.Activity

section Rows
variable {H : Sha256} {rules : RowRules H} {machine sessionId : Ident}

lemma duplicateShardIndicesSequenced_eq_nil {shards : List (ℕ × Bytes)}
    (h : shards.Pairwise fun a b => a.1 < b.1) :
    duplicateShardIndicesSequenced (shards.map fun shard => (some shard.1, shard.2)) = [] := by
  rw [duplicateShardIndicesSequenced, List.map_eq_nil_iff, List.filter_eq_nil_iff]
  rintro ⟨index, partner⟩ hpartner hsame
  have hlt : partner < index :=
    (tailReplayLoop_partner (List.forall_mem_nil (· < 0)) hpartner).2.1
  simp only [List.getElem?_map] at hsame
  cases hi : shards[index]? with
  | none => simp [hi] at hsame
  | some dup =>
    obtain ⟨hlen, hdup⟩ := List.getElem?_eq_some_iff.mp hi
    have hp : shards[partner]? = some shards[partner] := List.getElem?_eq_getElem (hlt.trans hlen)
    have hseq := List.pairwise_iff_getElem.mp h partner index (hlt.trans hlen) hlen hlt
    rw [hdup] at hseq
    simp [hi, hp] at hsame
    omega

lemma derivedContent_policy {shards : List (ℕ × Bytes)} (h : shards.Pairwise fun a b => a.1 < b.1)
    (policy policy' : DuplicateShardPolicy) (observations : List rules.Observation) :
    derivedContent rules machine policy sessionId shards observations =
      derivedContent rules machine policy' sessionId shards observations := by
  unfold derivedContent
  rw [duplicateShardIndicesSequenced_eq_nil h]
  simp only [ite_self]

lemma map_factFor_injective {shards shards' : List (ℕ × Bytes)}
    (h : shards.map (factFor H) = shards'.map (factFor H)) : shards = shards' := by
  refine List.map_injective_iff.mpr ?_ h
  rintro ⟨seq, bytes⟩ ⟨seq', bytes'⟩ heq
  simp only [factFor, ShardFact.mk.injEq, H.digest_inj] at heq
  rw [heq.1, heq.2.2]

lemma eq_of_observationsFingerprint {before after : List rules.Observation} (h : before <+: after)
    (hsame : observationsFingerprint rules before = observationsFingerprint rules after) :
    before = after := by
  obtain ⟨added, rfl⟩ := h
  cases before with
  | nil =>
    cases added with
    | nil => rfl
    | cons e added => simp [observationsFingerprint] at hsame
  | cons e before =>
    simp only [observationsFingerprint, List.cons_append, List.isEmpty_cons, Bool.false_eq_true,
      if_false, Option.some.injEq, H.digest_inj, sealFramedLines, List.map_cons, List.map_append]
      at hsame
    have hlength := congrArg List.length hsame
    rw [← List.cons_append, Framing.frame_append, List.length_append] at hlength
    have hnone : Framing.frame newline (added.map rules.observationJson) = [] :=
      List.length_eq_zero_iff.mp (by omega)
    rw [Framing.frame_eq_nil, List.map_eq_nil_iff] at hnone
    rw [hnone, List.append_nil]

/-- A row that is written as the row derived from a body and its observations. -/
def WrittenAs (row : rules.Row) (sessionId : Ident) (measured : MeasuredBody H)
    (content : rules.Content) : Prop :=
  ∀ provenance, rules.toJsonl { row with sessionProvenance := provenance } =
    rules.toJsonl ⟨sessionId, provenance, some measured, content⟩

lemma exists_of_readPreviousActivityRow {rows : List rules.Row} {back : rules.Row}
    (h : readPreviousActivityRow (some (rows.map rules.toJsonl)) sessionId = some back) :
    ∃ row ∈ rows, row.sessionId = sessionId ∧ back.measuredBody = row.measuredBody ∧
      ∀ provenance, rules.toJsonl { back with sessionProvenance := provenance } =
        rules.toJsonl { row with sessionProvenance := provenance } := by
  rw [readPreviousActivityRow, Option.bind_some] at h
  have hid := List.find?_some h
  obtain ⟨line, hline, hparse⟩ := List.mem_filterMap.mp
    (List.mem_reverse.mp (List.mem_of_find?_eq_some h))
  obtain ⟨row, hrow, rfl⟩ := List.mem_map.mp hline
  obtain ⟨read, hread, hsame, hmeasured, hwritten⟩ := rules.parse_toJsonl row
  rw [hread, Option.some.injEq] at hparse
  subst hparse
  rw [decide_eq_true_eq] at hid
  exact ⟨row, hrow, hsame ▸ hid, hmeasured, hwritten⟩

lemma readPreviousActivityRow_sessionId {index : Option (List rules.Line)} {row : rules.Row}
    (h : readPreviousActivityRow index sessionId = some row) : row.sessionId = sessionId := by
  cases index with
  | none => cases h
  | some lines => simpa using List.find?_some h

end Rows

section Session
variable {H : Sha256} {rules : RowRules H} {machine : Ident} {policy : DuplicateShardPolicy}
  {stage : Stage rules} {session : StageSession H} {previous : Option rules.Row}
  {entry : ActivityIndexSessionState H}

structure Carryable (stage : Stage rules) (session : StageSession H) (previous : Option rules.Row)
    (state : Option (ActivityIndexState H)) (entry : ActivityIndexSessionState H) : Prop where
  known : (state.bind fun state => state.sessions.lookup session.id) = some entry
  measured : ∃ row, previous = some row ∧ row.measuredBody = some entry.measured
  shards : entry.shards = session.shards.map (factFor H)
  observations : observationsFingerprint rules (stage.observationsOf session.id) =
    entry.observations

lemma carryableStateEntry_eq_some {state : Option (ActivityIndexState H)}
    (h : carryableStateEntry policy stage session previous state = some entry) :
    Carryable stage session previous state entry := by
  unfold carryableStateEntry at h
  obtain ⟨state, rfl, hfilter⟩ := Option.bind_eq_some_iff.mp h
  obtain ⟨hlookup, hchecks⟩ := Option.filter_eq_some_iff.mp hfilter
  simp only [Bool.and_eq_true, decide_eq_true_eq] at hchecks
  obtain ⟨⟨⟨⟨⟨-, hmeasured⟩, hlength⟩, -⟩, hfacts⟩, hobservations⟩ := hchecks
  refine ⟨by rw [Option.bind_some, hlookup], ?_, ?_, hobservations⟩
  · cases previous with
    | none => cases hmeasured
    | some row =>
      rw [Option.bind_some] at hmeasured
      cases hbody : row.measuredBody with
      | none => simp [hbody] at hmeasured
      | some measured =>
        rw [hbody, Option.any_some, decide_eq_true_eq] at hmeasured
        exact ⟨row, rfl, by rw [hbody, hmeasured]⟩
  · cases hlines : session.facts with
    | none => simp [hlines] at hfacts
    | some facts =>
      rw [hlines, Option.any_some, List.all_eq_true] at hfacts
      refine List.ext_getElem (by rw [List.length_map, hlength]) fun i hi hi' => ?_
      rw [List.length_map] at hi'
      have hpair : (session.shards[i], entry.shards[i]) ∈ session.shards.zip entry.shards := by
        rw [← List.getElem_zip (h := by rw [List.length_zip]; omega)]
        exact List.getElem_mem _
      have hshard := hfacts _ hpair
      cases hfact : factAt facts session.shards[i].1 with
      | none => simp [hfact] at hshard
      | some fact =>
        simp only [hfact, Option.any_some, Bool.and_eq_true, decide_eq_true_eq] at hshard
        have hdescribes := session.facts_describe facts hlines _ (List.getElem_mem hi') fact hfact
        rw [List.getElem_map]
        subst hdescribes
        generalize entry.shards[i] = recorded at hshard ⊢
        obtain ⟨seq, bytes, sha256⟩ := recorded
        simp only [factFor, ShardFact.mk.injEq] at hshard ⊢
        exact ⟨hshard.1.1.1.2, hshard.2, hshard.1.1.2.symm⟩

/-- What became of one session in a build. -/
inductive IndexedOne (machine : Ident) (stage : Stage rules) (session : StageSession H)
    (previous : Option rules.Row) (state : Option (ActivityIndexState H)) :
    rules.Row × Option (ActivityIndexSessionState H) → Prop
  | blank {row : rules.Row} (hid : row.sessionId = session.id) (hmeasured : row.measuredBody = none) :
      IndexedOne machine stage session previous state (row, none)
  | kept {row : rules.Row} {provenance : Option rules.Provenance} (hprevious : previous = some row) :
      IndexedOne machine stage session previous state
        ({ row with sessionProvenance := provenance }, none)
  | carried {row : rules.Row} {provenance : Option rules.Provenance}
      {entry : ActivityIndexSessionState H} (hprevious : previous = some row)
      (hcarry : Carryable stage session previous state entry) :
      IndexedOne machine stage session previous state
        ({ row with sessionProvenance := provenance }, some entry)
  | derived {content : rules.Content} {provenance : Option rules.Provenance}
      (hbody : session.shards ≠ [])
      (hcontent : derivedContent rules machine .collapse session.id session.shards
        (stage.observationsOf session.id) = some content) :
      IndexedOne machine stage session previous state
        (⟨session.id, provenance, some (measure H session.shards), content⟩,
          stateEntry rules session (stage.observationsOf session.id))

lemma bodylessRow_indexed (state : Option (ActivityIndexState H)) :
    IndexedOne machine stage session previous state
      (bodylessRow machine stage session.id previous, none) := by
  unfold bodylessRow
  dsimp only
  split
  next row hcarried => exact .kept (Option.filter_eq_some_iff.mp hcarried).1
  next =>
    split
    · exact .blank rfl rfl
    · split
      · exact .blank rfl rfl
      · exact .blank rfl rfl

lemma derivedRow_indexed {state : Option (ActivityIndexState H)} (hbody : session.shards ≠ [])
    {result : rules.Row × Option (ActivityIndexSessionState H)}
    (h : derivedRow machine policy stage session previous = some result) :
    IndexedOne machine stage session previous state result := by
  obtain ⟨content, hcontent, rfl⟩ := Option.map_eq_some_iff.mp h
  rw [derivedContent_policy session.in_order policy .collapse] at hcontent
  exact .derived hbody hcontent

lemma indexSession_cases {mode : ActivityIndexBuild} {index : Option (List rules.Line)}
    {state : Option (ActivityIndexState H)}
    {result : rules.Row × Option (ActivityIndexSessionState H)}
    (h : indexSession mode machine policy stage index state session = some result) :
    IndexedOne machine stage session (readPreviousActivityRow index session.id) state result := by
  unfold indexSession at h
  dsimp only at h
  split at h
  · obtain rfl := Option.some.inj h
    exact bodylessRow_indexed state
  next hbody =>
    have hbody : session.shards ≠ [] := by simpa using hbody
    split at h
    next entry row hcarried hprevious =>
      obtain rfl := Option.some.inj h
      cases mode with
      | fullRebuild => cases hcarried
      | incrementalUpdate => exact .carried hprevious (carryableStateEntry_eq_some hcarried)
    next => exact derivedRow_indexed hbody h

lemma recordedShards_eq (hrecorded : recordedShards session ≠ []) :
    recordedShards session = session.shards.map (factFor H) := by
  unfold recordedShards at hrecorded ⊢
  cases hmap : session.shards.mapM fun shard => session.facts.bind fun facts =>
      (factAt facts shard.1).filter fun fact => fact = factFor H shard with
  | none => simp [hmap] at hrecorded
  | some recorded =>
    rw [Option.getD_some, eq_comm, ← List.forall₂_eq_eq_eq, List.forall₂_map_left_iff]
    refine (Traverse.mapM_eq_some_iff.mp hmap).imp fun shard fact hfact => ?_
    obtain ⟨facts, -, hfound⟩ := Option.bind_eq_some_iff.mp hfact
    exact (of_decide_eq_true (Option.filter_eq_some_iff.mp hfound).2).symm

lemma stateEntry_eq_some {observations : List rules.Observation}
    (h : stateEntry rules session observations = some entry) :
    entry = ⟨session.shards.map (factFor H), measure H session.shards,
      observationsFingerprint rules observations⟩ := by
  unfold stateEntry at h
  dsimp only at h
  split at h
  next hwhole =>
    rw [Bool.and_eq_true] at hwhole
    rw [← Option.some.inj h, recordedShards_eq (by simpa using hwhole.1)]
  next => cases h

end Session

section Site
variable {H : Sha256} (rules : RowRules H)

/-- The stage, the index file and the state file of one machine. -/
structure IndexSite where
  stage : Stage rules
  index : Option (List rules.Line)
  state : Option (ActivityIndexState H)

/-- Where a build ends: before it publishes, between the index and the state, or after both. -/
inductive BuildCut
  | beforeIndex
  | beforeState
  | complete
  deriving DecidableEq

inductive IndexAction
  | stage (after : Stage rules)
  | build (mode : ActivityIndexBuild) (policy : DuplicateShardPolicy) (cut : BuildCut)
  | damageIndex (left : Option (List rules.Line))
  | damageState (left : Option (ActivityIndexState H))

variable {rules}

def indexStep (machine : Ident) (s : IndexSite rules) : IndexAction rules → IndexSite rules
  | .stage after => { s with stage := after }
  | .build mode policy cut =>
    match cut, buildActivityIndex mode machine policy s.stage s.index s.state with
    | .beforeState, some (index, _) => { s with index := some index }
    | .complete, some (index, state) => { s with index := some index, state := some state }
    | _, _ => s
  | .damageIndex left => { s with index := left }
  | .damageState left => { s with state := left }

def recordedEntry (state : Option (ActivityIndexState H)) (sessionId : Ident) :
    Option (ActivityIndexSessionState H) :=
  (readActivityIndexState state).bind fun state => state.sessions.lookup sessionId

def Appended (s : IndexSite rules) : IndexAction rules → Prop
  | .stage after => s.stage.observations <+: after.observations
  | _ => True

/-- Damage leaves nothing readable that was not there, and no build is cut before its state where a
body has been cut anew into as many shards with the same concatenation. -/
def Losing (s : IndexSite rules) : IndexAction rules → Prop
  | .stage after => s.stage.observations <+: after.observations
  | .build _ _ .beforeState => ∀ session ∈ s.stage.sessions, ∀ entry,
      recordedEntry s.state session.id = some entry → measure H session.shards = entry.measured →
        entry.shards = session.shards.map (factFor H)
  | .build _ _ _ => True
  | .damageIndex left => ∀ sessionId row, readPreviousActivityRow left sessionId = some row →
      readPreviousActivityRow s.index sessionId = some row
  | .damageState left => ∀ sessionId entry, recordedEntry left sessionId = some entry →
      recordedEntry s.state sessionId = some entry

/-- Every entry describes a body and observations that were there, and the row it is measured with is
the one that its body and observations derive. -/
structure Bound (machine : Ident) (s : IndexSite rules) : Prop where
  entries : ∀ sessionId entry, recordedEntry s.state sessionId = some entry →
    ∃ shards observations, entry = ⟨shards.map (factFor H), measure H shards,
      observationsFingerprint rules observations⟩ ∧
        observations <+: s.stage.observationsOf sessionId
  rows : ∀ sessionId entry row, recordedEntry s.state sessionId = some entry →
    readPreviousActivityRow s.index sessionId = some row →
    row.measuredBody = some entry.measured → ∀ shards observations,
      entry.shards = shards.map (factFor H) →
      s.stage.observationsOf sessionId <+: observations →
      observationsFingerprint rules observations = entry.observations →
      ∃ content, derivedContent rules machine .collapse sessionId shards observations = some content ∧
        WrittenAs row sessionId entry.measured content

end Site

section Steps
variable {H : Sha256} {rules : RowRules H} {machine : Ident} {s : IndexSite rules}

lemma observationsOf_isPrefix {stage after : Stage rules}
    (h : stage.observations <+: after.observations) (sessionId : Ident) :
    stage.observationsOf sessionId <+: after.observationsOf sessionId := by
  obtain ⟨added, hadded⟩ := h
  rw [Stage.observationsOf, Stage.observationsOf, ← hadded, List.filter_append, List.map_append]
  exact List.prefix_append _ _

lemma Bound.stage (h : Bound machine s) {after : Stage rules}
    (hgrown : s.stage.observations <+: after.observations) :
    Bound machine { s with stage := after } where
  entries sessionId entry hentry := by
    obtain ⟨shards, observations, heq, hstart⟩ := h.entries sessionId entry hentry
    exact ⟨shards, observations, heq, hstart.trans (observationsOf_isPrefix hgrown sessionId)⟩
  rows sessionId entry row hentry hrow hmeasured shards observations hshards hstart :=
    h.rows sessionId entry row hentry hrow hmeasured shards observations hshards
      ((observationsOf_isPrefix hgrown sessionId).trans hstart)

lemma Bound.damageIndex (h : Bound machine s) {left : Option (List rules.Line)}
    (hlost : ∀ sessionId row, readPreviousActivityRow left sessionId = some row →
      readPreviousActivityRow s.index sessionId = some row) :
    Bound machine { s with index := left } where
  entries := h.entries
  rows sessionId entry row hentry hrow := h.rows sessionId entry row hentry (hlost _ _ hrow)

lemma Bound.damageState (h : Bound machine s) {left : Option (ActivityIndexState H)}
    (hlost : ∀ sessionId entry, recordedEntry left sessionId = some entry →
      recordedEntry s.state sessionId = some entry) :
    Bound machine { s with state := left } where
  entries sessionId entry hentry := h.entries sessionId entry (hlost _ _ hentry)
  rows sessionId entry row hentry := h.rows sessionId entry row (hlost _ _ hentry)

def Derives (machine : Ident) (stage : Stage rules) (sessionId : Ident) (row : rules.Row)
    (entry : ActivityIndexSessionState H) : Prop :=
  row.measuredBody = some entry.measured → ∀ shards observations,
    entry.shards = shards.map (factFor H) → stage.observationsOf sessionId <+: observations →
    observationsFingerprint rules observations = entry.observations →
    ∃ content, derivedContent rules machine .collapse sessionId shards observations = some content ∧
      WrittenAs row sessionId entry.measured content

lemma Derives.restamp {stage : Stage rules} {sessionId : Ident} {row back : rules.Row}
    {entry : ActivityIndexSessionState H} (h : Derives machine stage sessionId row entry)
    (hmeasured : back.measuredBody = row.measuredBody)
    (hwritten : ∀ provenance, rules.toJsonl { back with sessionProvenance := provenance } =
      rules.toJsonl { row with sessionProvenance := provenance }) :
    Derives machine stage sessionId back entry := by
  intro hsame shards observations hshards hstart hfingerprint
  obtain ⟨content, hcontent, hrow⟩ := h (hmeasured ▸ hsame) shards observations hshards hstart
    hfingerprint
  exact ⟨content, hcontent, fun provenance => (hwritten provenance).trans (hrow provenance)⟩

variable {session : StageSession H} {row : rules.Row}
  {fresh : Option (ActivityIndexSessionState H)} {entry : ActivityIndexSessionState H}

/-- A row derived from a body is the one that any entry of that body and of no later observations
derives. -/
lemma derives_of_derivedContent {content : rules.Content} {provenance : Option rules.Provenance}
    {before : List rules.Observation}
    (hcontent : derivedContent rules machine .collapse session.id session.shards
      (s.stage.observationsOf session.id) = some content)
    (hshards : entry.shards = session.shards.map (factFor H))
    (hbefore : before <+: s.stage.observationsOf session.id)
    (hentry : entry.observations = observationsFingerprint rules before) :
    Derives machine s.stage session.id
      ⟨session.id, provenance, some (measure H session.shards), content⟩ entry := by
  intro hmeasured shards observations hshards' hstart hfingerprint
  obtain rfl := map_factFor_injective (hshards.symm.trans hshards')
  have hsame := eq_of_observationsFingerprint (hbefore.trans hstart)
    (hentry.symm.trans hfingerprint.symm)
  obtain rfl : s.stage.observationsOf session.id = observations :=
    hstart.eq_of_length_le (hsame ▸ hbefore.length_le)
  exact ⟨content, hcontent, fun _ => by rw [Option.some.inj hmeasured]⟩

lemma Bound.derives_recorded (h : Bound machine s)
    (hone : IndexedOne machine s.stage session (readPreviousActivityRow s.index session.id)
      (readActivityIndexState s.state) (row, fresh))
    (hentry : recordedEntry s.state session.id = some entry)
    (hcut : measure H session.shards = entry.measured →
      entry.shards = session.shards.map (factFor H)) :
    Derives machine s.stage session.id row entry := by
  have hprevious : ∀ previous, readPreviousActivityRow s.index session.id = some previous →
      Derives machine s.stage session.id previous entry := fun previous hprevious =>
    h.rows session.id entry previous hentry hprevious
  cases hone with
  | blank hid hnone =>
    intro hmeasured
    rw [hnone] at hmeasured
    cases hmeasured
  | kept hkept => exact (hprevious _ hkept).restamp rfl fun _ => rfl
  | carried hkept hcarry => exact (hprevious _ hkept).restamp rfl fun _ => rfl
  | derived hbody hcontent =>
    obtain ⟨shards, before, rfl, hbefore⟩ := h.entries session.id entry hentry
    intro hmeasured
    exact derives_of_derivedContent hcontent (hcut (Option.some.inj hmeasured)) hbefore rfl hmeasured

lemma Bound.derives_fresh (h : Bound machine s)
    (hone : IndexedOne machine s.stage session (readPreviousActivityRow s.index session.id)
      (readActivityIndexState s.state) (row, fresh)) (hfresh : fresh = some entry) :
    Derives machine s.stage session.id row entry ∧
      ∃ shards observations, entry = ⟨shards.map (factFor H), measure H shards,
        observationsFingerprint rules observations⟩ ∧
          observations <+: s.stage.observationsOf session.id := by
  cases hone with
  | blank => cases hfresh
  | kept => cases hfresh
  | carried hkept hcarry =>
    obtain rfl := Option.some.inj hfresh
    exact ⟨Derives.restamp (h.rows session.id _ _ hcarry.known hkept) rfl fun _ => rfl,
      h.entries session.id _ hcarry.known⟩
  | derived hbody hcontent =>
    have heq := stateEntry_eq_some hfresh
    subst heq
    exact ⟨derives_of_derivedContent hcontent rfl List.prefix_rfl rfl,
      session.shards, _, rfl, List.prefix_rfl⟩

lemma buildActivityIndex_eq_some {mode : ActivityIndexBuild} {policy : DuplicateShardPolicy}
    {index : List rules.Line} {state : ActivityIndexState H}
    (h : buildActivityIndex mode machine policy s.stage s.index s.state = some (index, state)) :
    ∃ rows : List (Ident × rules.Row × Option (ActivityIndexSessionState H)),
      index = (rows.map fun e => e.2.1).map rules.toJsonl ∧
      state.format = activityIndexStateFormat ∧
      state.sessions = (rows.filterMap fun e => e.2.2.map (e.1, ·)) ∧
      ∀ e ∈ rows, ∃ session ∈ s.stage.sessions, e.1 = session.id ∧
        indexSession mode machine policy s.stage s.index (readActivityIndexState s.state) session =
          some e.2 := by
  obtain ⟨rows, hrows, heq⟩ := Option.map_eq_some_iff.mp h
  obtain ⟨rfl, rfl⟩ := Prod.mk.inj heq
  refine ⟨rows, by rw [List.map_map]; rfl, rfl, rfl, fun e he => ?_⟩
  obtain ⟨session, hsession, hone⟩ := Traverse.exists_of_mem_result hrows he
  obtain ⟨result, hresult, rfl⟩ := Option.map_eq_some_iff.mp hone
  obtain ⟨pair, hpair, rfl⟩ := List.mem_map.mp hsession
  rw [KeyedList.mem_inKeyOrder, List.mem_map] at hpair
  obtain ⟨session, hmem, rfl⟩ := hpair
  exact ⟨session, hmem, rfl, hresult⟩

lemma IndexedOne.sessionId {stage : Stage rules} {index : Option (List rules.Line)}
    {state : Option (ActivityIndexState H)}
    (h : IndexedOne machine stage session (readPreviousActivityRow index session.id) state
      (row, fresh)) : row.sessionId = session.id := by
  cases h with
  | blank hid => exact hid
  | kept hkept =>
    have hid := readPreviousActivityRow_sessionId hkept
    exact hid
  | carried hkept =>
    have hid := readPreviousActivityRow_sessionId hkept
    exact hid
  | derived => rfl

lemma exists_of_published {mode : ActivityIndexBuild} {policy : DuplicateShardPolicy}
    {rows : List (Ident × rules.Row × Option (ActivityIndexSessionState H))}
    (hrows : ∀ e ∈ rows, ∃ session ∈ s.stage.sessions, e.1 = session.id ∧
      indexSession mode machine policy s.stage s.index (readActivityIndexState s.state) session =
        some e.2) {sessionId : Ident} {back : rules.Row}
    (hback : readPreviousActivityRow (some ((rows.map fun e => e.2.1).map rules.toJsonl)) sessionId =
      some back) :
    ∃ session ∈ s.stage.sessions, session.id = sessionId ∧ ∃ row fresh,
      (session.id, row, fresh) ∈ rows ∧
      IndexedOne machine s.stage session (readPreviousActivityRow s.index session.id)
        (readActivityIndexState s.state) (row, fresh) ∧
      back.measuredBody = row.measuredBody ∧
      ∀ provenance, rules.toJsonl { back with sessionProvenance := provenance } =
        rules.toJsonl { row with sessionProvenance := provenance } := by
  obtain ⟨row, hrow, hid, hmeasured, hwritten⟩ := exists_of_readPreviousActivityRow hback
  obtain ⟨⟨id, row, fresh⟩, he, rfl⟩ := List.mem_map.mp hrow
  obtain ⟨session, hsession, rfl, hone⟩ := hrows _ he
  have hone := indexSession_cases hone
  exact ⟨session, hsession, hone.sessionId.symm.trans hid, row, fresh, he, hone, hmeasured, hwritten⟩

lemma Bound.beforeState (h : Bound machine s) {mode : ActivityIndexBuild}
    {policy : DuplicateShardPolicy} {index : List rules.Line} {state : ActivityIndexState H}
    (hbuild : buildActivityIndex mode machine policy s.stage s.index s.state = some (index, state))
    (hcut : ∀ session ∈ s.stage.sessions, ∀ entry,
      recordedEntry s.state session.id = some entry → measure H session.shards = entry.measured →
        entry.shards = session.shards.map (factFor H)) :
    Bound machine { s with index := some index } where
  entries := h.entries
  rows sessionId entry back hentry hback := by
    obtain ⟨rows, rfl, -, -, hrows⟩ := buildActivityIndex_eq_some hbuild
    obtain ⟨session, hsession, rfl, row, fresh, -, hone, hmeasured, hwritten⟩ :=
      exists_of_published hrows hback
    exact (h.derives_recorded hone hentry (hcut session hsession entry hentry)).restamp hmeasured
      hwritten

lemma Stage.session_inj (stage : Stage rules) {session session' : StageSession H}
    (h : session ∈ stage.sessions) (h' : session' ∈ stage.sessions) (hid : session.id = session'.id) :
    session = session' :=
  List.inj_on_of_nodup_map stage.ids_nodup h h' hid

lemma exists_of_recordedEntry {mode : ActivityIndexBuild} {policy : DuplicateShardPolicy}
    {index : List rules.Line} {state : ActivityIndexState H}
    (hbuild : buildActivityIndex mode machine policy s.stage s.index s.state = some (index, state))
    {sessionId : Ident} (hentry : recordedEntry (some state) sessionId = some entry) :
    ∃ session ∈ s.stage.sessions, session.id = sessionId ∧ ∃ row,
      indexSession mode machine policy s.stage s.index (readActivityIndexState s.state) session =
        some (row, some entry) := by
  obtain ⟨rows, -, hformat, hsessions, hrows⟩ := buildActivityIndex_eq_some hbuild
  rw [recordedEntry, readActivityIndexState, Option.filter_some, if_pos (by simpa using hformat),
    Option.bind_some, hsessions] at hentry
  obtain ⟨l₁, l₂, hsplit, -⟩ := List.lookup_eq_some_iff.mp hentry
  have hmem : (sessionId, entry) ∈ rows.filterMap fun e => e.2.2.map (e.1, ·) := by
    rw [hsplit]
    exact List.mem_append_right l₁ List.mem_cons_self
  obtain ⟨⟨id, row, fresh⟩, he, hpair⟩ := List.mem_filterMap.mp hmem
  obtain ⟨entry', hfresh, heq⟩ := Option.map_eq_some_iff.mp hpair
  obtain ⟨rfl, rfl⟩ := Prod.mk.inj heq
  obtain ⟨session, hsession, hid, hone⟩ := hrows _ he
  exact ⟨session, hsession, hid.symm, row, by rw [hone, ← hfresh]⟩

lemma Bound.complete (h : Bound machine s) {mode : ActivityIndexBuild}
    {policy : DuplicateShardPolicy} {index : List rules.Line} {state : ActivityIndexState H}
    (hbuild : buildActivityIndex mode machine policy s.stage s.index s.state =
      some (index, state)) :
    Bound machine { s with index := some index, state := some state } := by
  obtain ⟨rows, rfl, hformat, hsessions, hrows⟩ := buildActivityIndex_eq_some hbuild
  refine ⟨fun sessionId entry hentry => ?_, fun sessionId entry back hentry hback => ?_⟩
  · obtain ⟨session, -, rfl, row, hone⟩ := exists_of_recordedEntry hbuild hentry
    exact (h.derives_fresh (indexSession_cases hone) rfl).2
  · obtain ⟨session, hsession, hid, row, hone⟩ := exists_of_recordedEntry hbuild hentry
    obtain ⟨session', hsession', hid', row', fresh, he, -, hmeasured, hwritten⟩ :=
      exists_of_published hrows hback
    obtain rfl := s.stage.session_inj hsession hsession' (hid.trans hid'.symm)
    obtain ⟨again, hagain, hid'', hone'⟩ := hrows _ he
    obtain rfl := s.stage.session_inj hsession hagain hid''
    obtain ⟨rfl, -⟩ := Prod.mk.inj (Option.some.inj (hone.symm.trans hone'))
    subst hid
    exact (h.derives_fresh (indexSession_cases hone) rfl).1.restamp hmeasured hwritten

lemma Bound.step (h : Bound machine s) {a : IndexAction rules} (ha : Losing s a) :
    Bound machine (indexStep machine s a) := by
  cases a with
  | stage after => exact h.stage ha
  | damageIndex left => exact h.damageIndex ha
  | damageState left => exact h.damageState ha
  | build mode policy cut =>
    cases hbuild : buildActivityIndex mode machine policy s.stage s.index s.state with
    | none =>
      have hsame : indexStep machine s (.build mode policy cut) = s := by
        unfold indexStep
        dsimp only
        rw [hbuild]
        cases cut <;> rfl
      rw [hsame]
      exact h
    | some built =>
      obtain ⟨index, state⟩ := built
      cases cut with
      | beforeIndex => exact h
      | beforeState =>
        have hstep : indexStep machine s (.build mode policy .beforeState) =
            { s with index := some index } := by
          unfold indexStep
          dsimp only
          rw [hbuild]
        rw [hstep]
        exact h.beforeState hbuild ha
      | complete =>
        have hstep : indexStep machine s (.build mode policy .complete) =
            { s with index := some index, state := some state } := by
          unfold indexStep
          dsimp only
          rw [hbuild]
        rw [hstep]
        exact h.complete hbuild

lemma Bound.indexSession_written (h : Bound machine s) (policy : DuplicateShardPolicy)
    (session : StageSession H) :
    (indexSession .incrementalUpdate machine policy s.stage s.index
      (readActivityIndexState s.state) session).map (fun e => rules.toJsonl e.1) =
    (indexSession .fullRebuild machine policy s.stage s.index
      (readActivityIndexState s.state) session).map (fun e => rules.toJsonl e.1) := by
  unfold indexSession
  dsimp only
  split
  · rfl
  next =>
    cases hcarried : carryableStateEntry policy s.stage session
      (readPreviousActivityRow s.index session.id) (readActivityIndexState s.state) with
    | none => rfl
    | some entry =>
      have hcarry := carryableStateEntry_eq_some hcarried
      obtain ⟨row, hrow, hmeasured⟩ := hcarry.measured
      obtain ⟨shards, observations, heq, -⟩ := h.entries session.id entry hcarry.known
      obtain ⟨content, hcontent, hwritten⟩ := h.rows session.id entry row hcarry.known hrow hmeasured
        session.shards _ hcarry.shards List.prefix_rfl hcarry.observations
      have hshards := hcarry.shards
      rw [heq] at hshards hwritten
      obtain rfl := map_factFor_injective hshards
      rw [derivedContent_policy session.in_order .collapse policy] at hcontent
      rw [hrow]
      dsimp only
      rw [derivedRow, hcontent, Option.map_some, Option.map_some, Option.map_some, Option.some.injEq]
      exact hwritten _

theorem Bound.builds_agree (h : Bound machine s) (policy : DuplicateShardPolicy) :
    (buildActivityIndex .incrementalUpdate machine policy s.stage s.index s.state).map Prod.fst =
      (buildActivityIndex .fullRebuild machine policy s.stage s.index s.state).map Prod.fst := by
  have hone : ∀ session ∈ s.stage.inOrder,
      ((indexSession .incrementalUpdate machine policy s.stage s.index
        (readActivityIndexState s.state) session).map (session.id, ·)).map
          (fun e => rules.toJsonl e.2.1) =
        ((indexSession .fullRebuild machine policy s.stage s.index
          (readActivityIndexState s.state) session).map (session.id, ·)).map
            (fun e => rules.toJsonl e.2.1) := by
    intro session _
    rw [Option.map_map, Option.map_map]
    exact h.indexSession_written policy session
  have hlines := Traverse.map_mapM_congr _ hone
  unfold buildActivityIndex
  dsimp only
  rw [Option.map_map, Option.map_map]
  exact hlines

end Steps

section Runs
variable {H : Sha256} {rules : RowRules H}

def IndexSite.unindexed (stage : Stage rules) : IndexSite rules := ⟨stage, none, none⟩

lemma bound_unindexed (machine : Ident) (stage : Stage rules) :
    Bound machine (IndexSite.unindexed stage) where
  entries _ _ hentry := by cases hentry
  rows _ _ _ hentry := by cases hentry

/-- In every run whose damage only loses, an incremental build publishes what a full rebuild would. -/
theorem incremental_publishes_full_rebuild (machine : Ident) (stage : Stage rules)
    (actions : List (IndexAction rules))
    (hlosing : StepRun.Along (indexStep machine) Losing (.unindexed stage) actions)
    (policy : DuplicateShardPolicy) :
    let s := StepRun.exec (indexStep machine) (.unindexed stage) actions
    (buildActivityIndex .incrementalUpdate machine policy s.stage s.index s.state).map Prod.fst =
      (buildActivityIndex .fullRebuild machine policy s.stage s.index s.state).map Prod.fst := by
  intro s
  have hstep : ∀ (s : IndexSite rules) (a : IndexAction rules), Bound machine s → Losing s a →
      Bound machine (indexStep machine s a) := fun _ _ h ha => h.step ha
  exact (StepRun.invariant hstep (bound_unindexed machine stage) hlosing).builds_agree policy

def lineCountRules : RowRules .verbatim where
  Content := ℕ
  Provenance := Unit
  Observation := Unit
  Text := Bytes
  Line := ActivityRow .verbatim Unit ℕ
  inferHarness _ := none
  harnessIsOpencode _ := false
  projectSessionBody _ _ := none
  textLines bytes := (completeLines bytes).1
  buildRow _ _ _ lines := lines.length
  mergeDimensions content _ := content
  mergeVerifiedObservations content _ _ _ := content
  unknownTime content _ := content
  observationJson _ := []
  toJsonl := id
  parseRow := some
  parse_toJsonl row := ⟨row, rfl, rfl, rfl, fun _ => rfl⟩

/-- A stage of one session of one line, its fact recorded. -/
def oneLineStage : Stage lineCountRules where
  sessions := [{
    id := ['s']
    shards := [(1, [97, 10])]
    facts := some [factFor .verbatim (1, [97, 10])]
    in_order := List.pairwise_singleton _ _
    facts_describe := by
      rintro lines ⟨⟩ shard hshard fact hfact
      obtain rfl := List.mem_singleton.mp hshard
      exact (Option.some.inj hfact).symm }]
  observations := []
  sessionProvenance := []
  recordedBodies := some []
  ids_nodup := List.nodup_singleton _

/-- A build carries the row of an index that lost a line and regained it. -/
theorem incremental_publishes_full_rebuild_after_loss :
    let s := StepRun.exec (indexStep ['m']) (.unindexed oneLineStage)
      [.build .incrementalUpdate .collapse .complete, .damageIndex (some []),
        .build .fullRebuild .keepAll .complete]
    (buildActivityIndex .incrementalUpdate ['m'] .keepAll s.stage s.index s.state).map Prod.fst =
      (buildActivityIndex .fullRebuild ['m'] .keepAll s.stage s.index s.state).map Prod.fst := by
  refine incremental_publishes_full_rebuild ['m'] oneLineStage
    [.build .incrementalUpdate .collapse .complete, .damageIndex (some []),
      .build .fullRebuild .keepAll .complete] ?_ .keepAll
  refine ⟨trivial, And.intro ?_ ⟨trivial, trivial⟩⟩
  rintro sessionId row ⟨⟩

/-- A line altered into another row of the same body is carried: the incremental build publishes it
where a full rebuild would publish the body's own row. -/
theorem incremental_carries_altered_row :
    let actions : List (IndexAction lineCountRules) :=
      [.build .fullRebuild .collapse .complete,
        .damageIndex (some [⟨['s'], none, some (measure .verbatim [(1, [97, 10])]), 7⟩])]
    let s := StepRun.exec (indexStep ['m']) (.unindexed oneLineStage) actions
    StepRun.Along (indexStep ['m']) Appended (.unindexed oneLineStage) actions ∧
      (buildActivityIndex .incrementalUpdate ['m'] .collapse s.stage s.index s.state).map Prod.fst ≠
        (buildActivityIndex .fullRebuild ['m'] .collapse s.stage s.index s.state).map Prod.fst := by
  intro actions s
  have hcarried : (buildActivityIndex .incrementalUpdate ['m'] .collapse s.stage s.index
      s.state).map (fun built => built.1.map fun row => row.content) = some [7] := rfl
  have hderived : (buildActivityIndex .fullRebuild ['m'] .collapse s.stage s.index
      s.state).map (fun built => built.1.map fun row => row.content) = some [1] := rfl
  refine ⟨⟨trivial, trivial, trivial⟩, fun hsame => ?_⟩
  have hcontents := congrArg (Option.map fun lines => lines.map fun row => row.content) hsame
  rw [Option.map_map, Option.map_map] at hcontents
  have hne := hcarried.symm.trans (hcontents.trans hderived)
  cases hne

end Runs

end ChatStasher.Activity
