import ChatStasher.NativeHost.Arbiter
import ChatStasher.NativeHost.CloneDetection

/-! The identity gate of the native host: processes that report, publish, deliver and coordinate in
any order, and what none of them does for a flagged install. -/
namespace ChatStasher.NativeHost

/-- What a request leaves outside the database. -/
inductive HostEffect
  | sealed (install : Option IdentityKey)
  | granted (install : IdentityKey)
  | published (install : IdentityKey) (identityConflict : Bool)
  deriving DecidableEq

/-- One transaction of a host process; each holds the write lock from its first read on. A status
report takes two, and what happens between them is any other action. -/
inductive HostAction
  | coordinate (call : CoordinationCall)
  | statusRecord (call : ReportCall) (committed : Bool)
  | statusPublish (i : ℕ)
  | deliver (machine : Ident) (installId : Option Ident) (seq : Option ℕ) (nonce : Option Ident)
      (now : ℤ) (stored committed : Bool)

/-- The database, the status reports between their two transactions, and what was done, the latest
first. -/
structure HostSite where
  db : StateDb
  pending : List IdentityKey
  effects : List HostEffect

/-- The transaction of a delivery: what it commits to the database and whether it sealed. A seal is
not undone where the commit fails. -/
def deliver (db : StateDb) (machine : Ident) (installId : Option Ident) (seq : Option ℕ)
    (nonce : Option Ident) (now : ℤ) (stored committed : Bool) : StateDb × List HostEffect :=
  match installId with
  | none => (db, if stored then [.sealed none] else [])
  | some installId =>
    let key : IdentityKey := ⟨machine, installId⟩
    let (after, state, _) := recordReportSeq db key seq nonce now
    let db := if committed then after else db
    if state.identityConflict then (db, [])
    else (db, if stored then [.sealed (some key)] else [])

def hostStep (s : HostSite) : HostAction → HostSite
  | .coordinate call =>
    let (db, handled) := handle s.db call
    { s with
      db
      effects := (if call.request.mode.gated && handled.granted then
        [.granted ⟨call.machine, call.request.installId⟩] else []) ++ s.effects }
  | .statusRecord call committed =>
    if committed then { s with db := reportStep s.db call, pending := s.pending ++ [call.key] } else s
  | .statusPublish i =>
    match s.pending[i]? with
    | some key =>
      { s with
        pending := s.pending.eraseIdx i
        effects := .published key (s.db.identityConflict key) :: s.effects }
    | none => s
  | .deliver machine installId seq nonce now stored committed =>
    let (db, effects) := deliver s.db machine installId seq nonce now stored committed
    { s with db, effects := effects ++ s.effects }

/-- What must not be done for a shared install. -/
def HostEffect.forbidden (key : IdentityKey) : HostEffect → Prop
  | .sealed install => install = some key
  | .granted install => install = key
  | .published install identityConflict => install = key ∧ identityConflict = false

/-- A flagged install, and nothing forbidden done for it since the effects `before`. -/
structure Gated (key : IdentityKey) (before : List HostEffect) (s : HostSite) : Prop where
  keyed : Keyed s.db
  flagged : s.db.identityConflict key = true
  clean : ∃ since, s.effects = since ++ before ∧ ∀ e ∈ since, ¬ e.forbidden key

section Step
variable {db : StateDb} {s : HostSite} {key : IdentityKey} {before : List HostEffect}

lemma handle_identities (db : StateDb) (call : CoordinationCall) :
    (handle db call).1.identities = db.identities ∧ (handle db call).1.seqs = db.seqs := by
  unfold handle coordination
  cases hbody : coordinateInTransaction db call.machine call.request call.now call.today
    call.accountKey with
  | none => exact ⟨rfl, rfl⟩
  | some result =>
    obtain ⟨after, answer⟩ := result
    cases call.committed with
    | true => exact (coordinateInTransaction_eq_some hbody).2.1
    | false => exact ⟨rfl, rfl⟩

lemma identityConflict_of_granted {call : CoordinationCall}
    (h : (call.request.mode.gated && (handle db call).2.granted) = true) :
    db.identityConflict ⟨call.machine, call.request.installId⟩ = false := by
  rw [Bool.and_eq_true] at h
  obtain ⟨hgated, hgranted⟩ := h
  unfold handle coordination Handled.granted at hgranted
  cases hbody : coordinateInTransaction db call.machine call.request call.now call.today
    call.accountKey with
  | none => simp [hbody] at hgranted
  | some result =>
    obtain ⟨after, answer⟩ := result
    exact (coordinateInTransaction_eq_some hbody).1 hgated

/-- A delivery commits the fold of its report, if anything, and seals for no flagged install. -/
inductive Delivered (db : StateDb) : StateDb × List HostEffect → Prop
  | nameless (stored : Bool) : Delivered db (db, if stored then [.sealed none] else [])
  | reported (call : ReportCall) (committed : Bool) {effects : List HostEffect}
      (heffects : ∀ e ∈ effects, e = .sealed (some call.key) ∧
        (reportStep db call).identityConflict call.key = false) :
      Delivered db (if committed then reportStep db call else db, effects)

lemma deliver_cases (h : Keyed db) (machine : Ident) (installId : Option Ident) (seq : Option ℕ)
    (nonce : Option Ident) (now : ℤ) (stored committed : Bool) :
    Delivered db (deliver db machine installId seq nonce now stored committed) := by
  cases installId with
  | none => exact .nameless stored
  | some installId =>
    let call : ReportCall := ⟨⟨machine, installId⟩, seq, nonce, now⟩
    have hstate : (reportStep db call).identityConflict call.key =
        (recordReportSeq db call.key seq nonce now).2.1.identityConflict := by
      rw [StateDb.identityConflict, reportStep_identity_self h, Option.any_some]
      rfl
    cases hflag : (recordReportSeq db call.key seq nonce now).2.1.identityConflict with
    | true =>
      have heq : deliver db machine (some installId) seq nonce now stored committed =
          (if committed then reportStep db call else db, []) := by
        unfold deliver
        dsimp only
        rw [if_pos hflag]
        rfl
      rw [heq]
      exact .reported call committed (by simp)
    | false =>
      have heq : deliver db machine (some installId) seq nonce now stored committed =
          (if committed then reportStep db call else db,
            if stored then [.sealed (some call.key)] else []) := by
        unfold deliver
        dsimp only
        rw [if_neg (by rw [hflag]; exact Bool.false_ne_true)]
        rfl
      rw [heq]
      refine .reported call committed fun e he => ⟨?_, by rw [hstate, hflag]⟩
      cases stored with
      | true => simpa using he
      | false => simp at he

lemma Gated.coordinate (h : Gated key before s) (call : CoordinationCall) :
    Gated key before (hostStep s (.coordinate call)) := by
  obtain ⟨hidentities, hseqs⟩ := handle_identities s.db call
  refine ⟨⟨?_, ?_⟩, ?_, ?_⟩
  · change ((handle s.db call).1.identities.map Prod.fst).Nodup
    rw [hidentities]
    exact h.keyed.identities
  · change ((handle s.db call).1.seqs.map Prod.fst).Nodup
    rw [hseqs]
    exact h.keyed.seqs
  · change (((handle s.db call).1.identities.lookup key).any fun row => row.identityConflict) = true
    rw [hidentities]
    exact h.flagged
  · obtain ⟨since, hsince, hclean⟩ := h.clean
    refine ⟨(if call.request.mode.gated && (handle s.db call).2.granted then
      [.granted ⟨call.machine, call.request.installId⟩] else []) ++ since,
      by rw [List.append_assoc, ← hsince]; rfl, fun e he => ?_⟩
    rcases List.mem_append.mp he with he | he
    · split at he
      next hgranted =>
        intro hforbidden
        rw [List.mem_singleton.mp he] at hforbidden
        have hkey : (⟨call.machine, call.request.installId⟩ : IdentityKey) = key := hforbidden
        have hnot := identityConflict_of_granted hgranted
        rw [hkey, h.flagged] at hnot
        cases hnot
      next => cases he
    · exact hclean e he

lemma Gated.statusRecord (h : Gated key before s) (call : ReportCall) (committed : Bool) :
    Gated key before (hostStep s (.statusRecord call committed)) := by
  cases committed with
  | true => exact ⟨h.keyed.step call, h.keyed.identityConflict_step call h.flagged, h.clean⟩
  | false => exact h

lemma Gated.statusPublish (h : Gated key before s) (i : ℕ) :
    Gated key before (hostStep s (.statusPublish i)) := by
  unfold hostStep
  dsimp only
  split
  next install _ =>
    refine ⟨h.keyed, h.flagged, ?_⟩
    obtain ⟨since, hsince, hclean⟩ := h.clean
    refine ⟨_ :: since, by rw [List.cons_append, ← hsince], ?_⟩
    rw [List.forall_mem_cons]
    refine ⟨?_, hclean⟩
    rintro ⟨rfl, hnot⟩
    rw [h.flagged] at hnot
    cases hnot
  next => exact h

lemma Gated.deliver (h : Gated key before s) (machine : Ident) (installId : Option Ident)
    (seq : Option ℕ) (nonce : Option Ident) (now : ℤ) (stored committed : Bool) :
    Gated key before (hostStep s (.deliver machine installId seq nonce now stored committed)) := by
  have hcases := deliver_cases h.keyed machine installId seq nonce now stored committed
  obtain ⟨since, hsince, hclean⟩ := h.clean
  unfold hostStep
  dsimp only
  generalize NativeHost.deliver s.db machine installId seq nonce now stored committed = result
    at hcases ⊢
  cases hcases with
  | nameless stored =>
    refine ⟨h.keyed, h.flagged, _ ++ since, by rw [List.append_assoc, ← hsince], fun e he => ?_⟩
    rcases List.mem_append.mp he with he | he
    · split at he
      next =>
        rw [List.mem_singleton.mp he]
        rintro ⟨⟩
      next => cases he
    · exact hclean e he
  | reported call committed heffects =>
    have hafter := h.keyed.identityConflict_step call h.flagged
    refine ⟨?_, ?_, _ ++ since, by rw [List.append_assoc, ← hsince], fun e he => ?_⟩
    · dsimp only
      split
      · exact h.keyed.step call
      · exact h.keyed
    · dsimp only
      split
      · exact hafter
      · exact h.flagged
    · rcases List.mem_append.mp he with he | he
      · obtain ⟨rfl, hnot⟩ := heffects e he
        intro hforbidden
        have hkey : call.key = key := Option.some.inj hforbidden
        rw [hkey, hafter] at hnot
        cases hnot
      · exact hclean e he

lemma Gated.step (h : Gated key before s) (action : HostAction) :
    Gated key before (hostStep s action) := by
  cases action with
  | coordinate call => exact h.coordinate call
  | statusRecord call committed => exact h.statusRecord call committed
  | statusPublish i => exact h.statusPublish i
  | deliver machine installId seq nonce now stored committed =>
    exact h.deliver machine installId seq nonce now stored committed

/-- From a flag on, no interleaving of requests does anything forbidden for the install, and the flag
stays. -/
theorem Gated.run (h : Gated key before s) (actions : List HostAction) :
    Gated key before (StepRun.exec hostStep s actions) := by
  have hstep : ∀ (s : HostSite) (action : HostAction), Gated key before s →
      Gated key before (hostStep s action) := fun _ action h => h.step action
  exact StepRun.invariant_all hstep h actions

lemma keyed_hostStep (h : Keyed s.db) (action : HostAction) : Keyed (hostStep s action).db := by
  cases action with
  | coordinate call =>
    obtain ⟨hidentities, hseqs⟩ := handle_identities s.db call
    refine ⟨?_, ?_⟩
    · change ((handle s.db call).1.identities.map Prod.fst).Nodup
      rw [hidentities]
      exact h.identities
    · change ((handle s.db call).1.seqs.map Prod.fst).Nodup
      rw [hseqs]
      exact h.seqs
  | statusRecord call committed =>
    cases committed with
    | true => exact h.step call
    | false => exact h
  | statusPublish i =>
    unfold hostStep
    dsimp only
    split <;> exact h
  | deliver machine installId seq nonce now stored committed =>
    have hcases := deliver_cases h machine installId seq nonce now stored committed
    unfold hostStep
    dsimp only
    generalize deliver s.db machine installId seq nonce now stored committed = result at hcases ⊢
    cases hcases with
    | nameless stored => exact h
    | reported call committed heffects =>
      dsimp only
      split
      · exact h.step call
      · exact h

lemma keyed_hostRun (h : Keyed s.db) (actions : List HostAction) :
    Keyed (StepRun.exec hostStep s actions).db := by
  have hstep : ∀ (s : HostSite) (action : HostAction), Keyed s.db → Keyed (hostStep s action).db :=
    fun _ action h => keyed_hostStep h action
  exact StepRun.invariant_all hstep h actions

end Step

/-- Clone detection: no install is accused that pairs no sequence with two nonces; two nonces under
one sequence of the window flag an install that is not idle, from the second on; a flag stays and the
highest sequence of a row that lives does not go down; and once the flag is committed no process
seals, grants or publishes as if it were not. -/
theorem clone_detection :
    (∀ key calls, NeverPairs key calls →
      (StepRun.exec reportStep .empty calls).identityConflict key = false) ∧
    (∀ (calls mid later : List ReportCall) (first second : ReportCall) (value : ℕ)
      (nonce other : Ident), second.key = first.key → first.seq = some value →
      second.seq = some value → first.nonce = some nonce → second.nonce = some other →
      nonce ≠ other →
      (∀ low ∈ windowLow (StepRun.exec reportStep .empty calls) first.key, low ≤ value) →
      (∀ low ∈ windowLow (StepRun.exec reportStep .empty (calls ++ first :: mid)) first.key,
        low ≤ value) →
      StepRun.Along reportStep (NotIdle first.key)
        (StepRun.exec reportStep .empty (calls ++ [first])) mid →
      (StepRun.exec reportStep .empty (calls ++ first :: mid ++ second :: later)).identityConflict
        first.key = true) ∧
    (∀ key calls call, let db := StepRun.exec reportStep .empty calls
      (db.identityConflict key = true → (reportStep db call).identityConflict key = true) ∧
      ∀ row after value, db.identities.lookup key = some row →
        (reportStep db call).identities.lookup key = some after → row.lastReportSeq = some value →
        ∃ later, after.lastReportSeq = some later ∧ value ≤ later) ∧
    ∀ key actions later, let s := StepRun.exec hostStep ⟨.empty, [], []⟩ actions
      s.db.identityConflict key = true →
      (StepRun.exec hostStep s later).db.identityConflict key = true ∧
      ∃ since, (StepRun.exec hostStep s later).effects = since ++ s.effects ∧
        ∀ e ∈ since, ¬ e.forbidden key := by
  refine ⟨fun key calls hnever => ?_, fun calls mid later first second value nonce other hkey hfirst
    hsecond hnonce hother hne hreach hreach' hidle => ?_, fun key calls call => ?_, ?_⟩
  · have hsent : NoncesSent .empty [] := fun _ _ _ _ h => by cases h
    exact not_flagged_of_neverPairs keyed_empty hsent rfl hnever
  · exact flagged_of_two_nonces hkey hfirst hsecond hnonce hother hne hreach hreach' hidle keyed_empty
  · have h := keyed_empty.run calls
    exact ⟨h.identityConflict_step call, fun row after value hrow hafter hvalue =>
      h.lastReportSeq_step call hrow hafter hvalue⟩
  · intro key actions later s hflag
    have h : Gated key s.effects s :=
      ⟨keyed_hostRun keyed_empty actions, hflag, [], rfl, by simp⟩
    exact ⟨(h.run later).flagged, (h.run later).clean⟩

/-- A copy that sends an old sequence under its own nonce is caught, and its delivery is refused. -/
theorem clone_detection_of_two_copies :
    let call (seq : ℕ) (nonce : Ident) (now : ℤ) : ReportCall :=
      ⟨⟨['m'], ['i']⟩, some seq, some nonce, now⟩
    (StepRun.exec reportStep .empty ([call 1 ['a'] 1] ++ call 2 ['b'] 2 :: [call 3 ['c'] 3] ++
      call 2 ['d'] 4 :: [])).identityConflict ⟨['m'], ['i']⟩ = true ∧
    ∃ since, (StepRun.exec hostStep
      (StepRun.exec hostStep ⟨.empty, [], []⟩ [.statusRecord (call 2 ['b'] 2) true,
        .statusRecord (call 2 ['d'] 4) true])
      [.deliver ['m'] (some ['i']) (some 5) (some ['e']) 5 true true, .statusPublish 0]).effects =
        since ++ [] ∧ ∀ e ∈ since, ¬ e.forbidden ⟨['m'], ['i']⟩ := by
  intro call
  obtain ⟨-, hdetected, -, hgate⟩ := clone_detection
  refine ⟨?_, ?_⟩
  · exact hdetected [call 1 ['a'] 1] [call 3 ['c'] 3] [] (call 2 ['b'] 2) (call 2 ['d'] 4) 2
      ['b'] ['d'] rfl rfl rfl rfl rfl (by decide) (by decide) (by decide) (by decide)
  · exact (hgate ⟨['m'], ['i']⟩ [.statusRecord (call 2 ['b'] 2) true,
      .statusRecord (call 2 ['d'] 4) true]
      [.deliver ['m'] (some ['i']) (some 5) (some ['e']) 5 true true, .statusPublish 0]
      (by decide)).2

end ChatStasher.NativeHost
