import ChatStasher.Outbox.KeptUntilDelivered

/-! What a drain attempts of the queue, and what its report says of the entries that are left. -/
namespace ChatStasher

/-- What happens while a drain runs. -/
inductive DrainAction
  | enqueue (c : Capture)
  | deliver (result : DeliverResult)
  | settle (now : ℕ)

/-- The queue with a drain over it, and the entries that the drain attempted, with their answers. -/
structure Draining (H : Sha256) where
  site : DeliverySite H
  attempted : List (OutboxEntry H.Digest × DeliverResult)

section Step
variable {H : Sha256} (hexLe : H.Digest → H.Digest → Bool) (worker : ℕ)

def DrainAction.ofWorker (H : Sha256) (worker : ℕ) : DrainAction → DeliveryAction H
  | .enqueue c => .enqueue c
  | .deliver result => .deliver worker result
  | .settle now => .settle worker true now

def DrainRun.awaiting {D : Type} : DrainRun D → Option (OutboxEntry D)
  | .inFlight _ (entry :: _) none _ => some entry
  | _ => none

def Draining.step (s : Draining H) (a : DrainAction) : Draining H where
  site := deliveryStep hexLe s.site (a.ofWorker H worker)
  attempted :=
    match a, (s.site.workers worker).awaiting with
    | .deliver result, some entry => s.attempted ++ [(entry, result)]
    | _, _ => s.attempted

/-- A worker starts to drain the queue, its clock asked once for each pending entry. -/
def Draining.start (site : DeliverySite H) (maxPerRun : Option ℕ) (clock : ℕ → ℕ) : Draining H :=
  ⟨site.setRun worker (startDrain hexLe site.outbox true maxPerRun clock), []⟩

end Step

section Queue
variable {D : Type} (hexLe : D → D → Bool) (outbox : Outbox D) (clock : ℕ → ℕ)

/-- The pending entries in queue order, each with the turn that the clock is asked in. -/
def pendingTurns : List (OutboxEntry D × ℕ) :=
  ((readAll hexLe outbox).filter fun e => e.state = .pending).zipIdx

def dueEntries : List (OutboxEntry D) :=
  ((pendingTurns hexLe outbox).filter fun p => isDue p.1 (clock p.2)).map Prod.fst

def waitingEntries : List (OutboxEntry D) :=
  ((pendingTurns hexLe outbox).filter fun p => !isDue p.1 (clock p.2)).map Prod.fst

/-- What the report says of the queue that is left: drained where nothing is pending, idle where
nothing was due but entries are waiting. -/
def ReportRight (left : Outbox D) (report : DrainReport) : Prop :=
  (report.stoppedBy = .drained ↔ ∀ e ∈ left.entries, e.state ≠ .pending) ∧
    (report.stoppedBy = .idle ↔
      dueEntries hexLe outbox clock = [] ∧ waitingEntries hexLe outbox clock ≠ [])

def DeliverResult.goesOn (result : DeliverResult) : Bool :=
  decide (result = .delivered) || isItemRejected result

/-- The drain ends before the last due entry: a delivery fails on the host's account, or the batch is
full. -/
def StopsEarly (maxPerRun : Option ℕ) (due : List (OutboxEntry D))
    (answers : List DeliverResult) : Prop :=
  (∃ result ∈ answers, result.goesOn = false) ∨ maxPerRun.any (· < due.length) = true

variable {hexLe outbox clock}

lemma pendingTurns_fst : (pendingTurns hexLe outbox).map Prod.fst =
    (readAll hexLe outbox).filter fun e => e.state = .pending := List.zipIdx_map_fst _ _

lemma due_waiting_perm : (dueEntries hexLe outbox clock ++ waitingEntries hexLe outbox clock).Perm
    ((readAll hexLe outbox).filter fun e => e.state = .pending) := by
  rw [← pendingTurns_fst, dueEntries, waitingEntries, ← List.map_append]
  exact (List.filter_append_perm _ _).map _

lemma waiting_length : (pendingTurns hexLe outbox).length -
    ((pendingTurns hexLe outbox).filter fun p => isDue p.1 (clock p.2)).length =
      (waitingEntries hexLe outbox clock).length := by
  have hlength := (List.filter_append_perm (fun p => isDue p.1 (clock p.2))
    (pendingTurns hexLe outbox)).length_eq
  rw [List.length_append] at hlength
  rw [waitingEntries, List.length_map, ← hlength, Nat.add_sub_cancel_left]

def PendingAre (outbox : Outbox D) (keys : List D) : Prop :=
  ∀ sha256, (∃ e ∈ outbox.entries, e.sha256 = sha256 ∧ e.state = .pending) ↔ sha256 ∈ keys

lemma pendingAre_start : PendingAre outbox ((dueEntries hexLe outbox clock ++
    waitingEntries hexLe outbox clock).map fun e => e.sha256) := by
  intro sha256
  rw [((@due_waiting_perm D hexLe outbox clock).map _).mem_iff]
  simp only [List.mem_map, List.mem_filter, decide_eq_true_eq, readAll, List.mem_insertionSort]
  exact exists_congr fun e => by tauto

lemma start_keys_nodup (h : (outbox.entries.map fun e => e.sha256).Nodup) :
    ((dueEntries hexLe outbox clock ++ waitingEntries hexLe outbox clock).map fun e =>
      e.sha256).Nodup := by
  rw [((@due_waiting_perm D hexLe outbox clock).map _).nodup_iff]
  exact (((List.perm_insertionSort _ _).map _).nodup_iff.mpr h).sublist
    (List.filter_sublist.map _)

lemma PendingAre.eq_nil {keys : List D} (h : PendingAre outbox keys) :
    (∀ e ∈ outbox.entries, e.state ≠ .pending) ↔ keys = [] := by
  rw [List.eq_nil_iff_forall_not_mem]
  constructor
  · intro hnone sha256 hmem
    obtain ⟨e, he, -, hpending⟩ := (h sha256).mpr hmem
    exact hnone e he hpending
  · exact fun hnone e he hpending => hnone e.sha256 ((h e.sha256).mp ⟨e, he, rfl, hpending⟩)

end Queue

section Settled
variable {H : Sha256} {outbox : Outbox H.Digest} {keys : List H.Digest}

lemma PendingAre.queued {sha256 : H.Digest} (h : PendingAre outbox (sha256 :: keys)) :
    ∃ existing, getEntry outbox sha256 = some existing := by
  obtain ⟨e, he, hsha, -⟩ := (h sha256).mpr List.mem_cons_self
  rw [← Option.isSome_iff_exists, getEntry, List.find?_isSome]
  exact ⟨e, he, by simpa using hsha⟩

lemma PendingAre.markDelivered {sha256 : H.Digest} (h : PendingAre outbox (sha256 :: keys))
    (hnew : sha256 ∉ keys) : PendingAre (markDelivered outbox sha256) keys := by
  obtain ⟨existing, hget⟩ := h.queued
  intro k
  rw [ChatStasher.markDelivered, hget]
  dsimp only
  constructor
  · rintro ⟨e, he, rfl, hpending⟩
    obtain ⟨hmem, hne⟩ := mem_withoutEntry.mp he
    exact (List.mem_cons.mp ((h _).mp ⟨e, hmem, rfl, hpending⟩)).resolve_left hne
  · intro hk
    obtain ⟨e, he, rfl, hpending⟩ := (h k).mpr (List.mem_cons_of_mem _ hk)
    exact ⟨e, mem_withoutEntry.mpr ⟨he, fun heq => hnew (heq ▸ hk)⟩, rfl, hpending⟩

lemma PendingAre.recordFailure {sha256 : H.Digest} (h : PendingAre outbox (sha256 :: keys))
    (hnew : sha256 ∉ keys) (input : FailureInput) :
    PendingAre (recordFailure outbox sha256 input).1
      (if input.retryable then sha256 :: keys else keys) := by
  obtain ⟨existing, hget⟩ := h.queued
  obtain ⟨-, hsha⟩ := getEntry_eq_some hget
  rw [ChatStasher.recordFailure, hget]
  dsimp only
  intro k
  have hrest : (∃ e ∈ withoutEntry outbox.entries sha256, e.sha256 = k ∧ e.state = .pending) ↔
      k ∈ keys := by
    constructor
    · rintro ⟨e, he, rfl, hpending⟩
      obtain ⟨hmem, hne⟩ := mem_withoutEntry.mp he
      exact (List.mem_cons.mp ((h _).mp ⟨e, hmem, rfl, hpending⟩)).resolve_left hne
    · intro hk
      obtain ⟨e, he, rfl, hpending⟩ := (h k).mpr (List.mem_cons_of_mem _ hk)
      exact ⟨e, mem_withoutEntry.mpr ⟨he, fun heq => hnew (heq ▸ hk)⟩, rfl, hpending⟩
  have hput : ∀ next : OutboxEntry H.Digest, next.sha256 = sha256 →
      ((∃ e ∈ putEntry outbox.entries next, e.sha256 = k ∧ e.state = .pending) ↔
        k ∈ keys ∨ sha256 = k ∧ next.state = .pending) := by
    rintro next rfl
    rw [← hrest, putEntry]
    simp only [List.mem_append, List.mem_singleton, or_and_right, exists_or, exists_eq_left]
  cases hretry : input.retryable with
  | true =>
    rw [hput _ (by simpa using hsha)]
    simp [or_comm, eq_comm]
  | false =>
    rw [hput _ (by simpa using hsha)]
    simp

end Settled

section Drain
variable {H : Sha256} {maxPerRun : Option ℕ} {due : List (OutboxEntry H.Digest)} {idle : Bool}

/-- Where a drain of these due entries stands: what it has yet to settle, and what it attempted. `idle`
tells that nothing is due but entries are waiting. -/
inductive DrainAt (maxPerRun : Option ℕ) (due : List (OutboxEntry H.Digest)) (idle : Bool) :
    List (OutboxEntry H.Digest) → DrainRun H.Digest →
      List (OutboxEntry H.Digest × DeliverResult) → Prop
  | asking {entry rest done report} (hdue : done.map Prod.fst ++ entry :: rest = due)
      (hdone : ∀ x ∈ done, x.2.goesOn = true) (hcount : report.attempted = done.length)
      (hroom : maxPerRun.any (· ≤ done.length) = false) :
      DrainAt maxPerRun due idle (entry :: rest)
        (.inFlight maxPerRun (entry :: rest) none report) done
  | answered {entry rest done result report} (hdue : done.map Prod.fst ++ entry :: rest = due)
      (hdone : ∀ x ∈ done, x.2.goesOn = true) (hcount : report.attempted = done.length + 1)
      (hroom : maxPerRun.any (· ≤ done.length) = false) :
      DrainAt maxPerRun due idle (entry :: rest)
        (.inFlight maxPerRun (entry :: rest) (some result) report) (done ++ [(entry, result)])
  | ended {done report} (hdue : done.map Prod.fst = due) (hdone : ∀ x ∈ done, x.2.goesOn = true)
      (hroom : maxPerRun.any (· < due.length) = false) (hidle : idle = false)
      (hstop : report.stoppedBy = .drained) : DrainAt maxPerRun due idle [] (.returned report) done
  | idle {report} (hdue : due = []) (hidle : idle = true) (hstop : report.stoppedBy = .idle) :
      DrainAt maxPerRun due idle [] (.returned report) []
  | batch {entry rest done report} (hdue : done.map Prod.fst ++ entry :: rest = due)
      (hdone : ∀ x ∈ done, x.2.goesOn = true) (hroom : maxPerRun.any (· < due.length) = true)
      (hstop : report.stoppedBy = .batch) :
      DrainAt maxPerRun due idle (entry :: rest) (.returned report) done
  | failed {entry rest done result report} (hdue : done.map Prod.fst ++ entry :: rest = due)
      (hdone : ∀ x ∈ done, x.2.goesOn = true) (hresult : result.goesOn = false)
      (hstop : report.stoppedBy = .hostUnavailable) :
      DrainAt maxPerRun due idle (entry :: rest) (.returned report) (done ++ [(entry, result)])

lemma drainNext_at {rest : List (OutboxEntry H.Digest)}
    {done : List (OutboxEntry H.Digest × DeliverResult)} {report : DrainReport}
    (hdue : done.map Prod.fst ++ rest = due) (hdone : ∀ x ∈ done, x.2.goesOn = true)
    (hcount : report.attempted = done.length) (hidle : idle = false)
    (hroom : maxPerRun.any (· < done.length) = false) :
    DrainAt maxPerRun due idle rest (drainNext maxPerRun rest report) done := by
  have hlength : done.length + rest.length = due.length := by
    rw [← hdue, List.length_append, List.length_map]
  rw [drainNext]
  cases rest with
  | nil =>
    rw [List.isEmpty_nil, if_pos rfl]
    refine .ended (by simpa using hdue) hdone ?_ hidle rfl
    rw [List.length_nil, Nat.add_zero] at hlength
    rwa [← hlength]
  | cons entry rest =>
    rw [if_neg (by simp), hcount]
    split
    next hfull =>
      refine .batch hdue hdone ?_ rfl
      rw [List.length_cons] at hlength
      cases maxPerRun with
      | none => simp at hfull
      | some m =>
        simp only [Option.any_some, decide_eq_true_eq] at hfull ⊢
        omega
    next hnot => exact .asking hdue hdone hcount (by simpa using hnot)

section Run
variable {hexLe : H.Digest → H.Digest → Bool} {worker : ℕ} {s : Draining H} {clock : ℕ → ℕ}
  {site : DeliverySite H} {waiting : List (OutboxEntry H.Digest)}

lemma settleAnswer_at {entry : OutboxEntry H.Digest} {rest : List (OutboxEntry H.Digest)}
    {done : List (OutboxEntry H.Digest × DeliverResult)} {result : DeliverResult}
    {report : DrainReport} (hdue : done.map Prod.fst ++ entry :: rest = due)
    (hdone : ∀ x ∈ done, x.2.goesOn = true) (hcount : report.attempted = done.length + 1)
    (hroom : maxPerRun.any (· ≤ done.length) = false) (hidle : idle = false)
    (outbox : Outbox H.Digest) (now : ℕ) :
    DrainAt maxPerRun due idle (if result.goesOn then rest else entry :: rest)
      (settleAnswer outbox true now maxPerRun entry rest result report).2
      (done ++ [(entry, result)]) := by
  have hdue' : (done ++ [(entry, result)]).map Prod.fst ++ rest = due := by simpa using hdue
  have hroom' : maxPerRun.any (· < (done ++ [(entry, result)]).length) = false := by
    cases maxPerRun with
    | none => rfl
    | some m =>
      simp only [Option.any_some, decide_eq_false_iff_not, List.length_append,
        List.length_singleton] at hroom ⊢
      omega
  have hdone' : result.goesOn = true → ∀ x ∈ done ++ [(entry, result)], x.2.goesOn = true := by
    intro hresult x hx
    rcases List.mem_append.mp hx with hx | hx
    · exact hdone x hx
    · obtain rfl := List.mem_singleton.mp hx
      exact hresult
  cases result with
  | delivered =>
    exact drainNext_at hdue' (hdone' rfl) (by simpa using hcount) hidle hroom'
  | notDelivered reason kind detail retryable =>
    rw [settleAnswer]
    cases hrejected : isItemRejected (.notDelivered reason kind detail retryable) with
    | true =>
      have hresult : (DeliverResult.notDelivered reason kind detail retryable).goesOn = true := by
        simp [DeliverResult.goesOn, hrejected]
      rw [if_pos hresult]
      exact drainNext_at hdue' (hdone' hresult) (by simpa using hcount) hidle hroom'
    | false =>
      have hresult : (DeliverResult.notDelivered reason kind detail retryable).goesOn = false := by
        simp [DeliverResult.goesOn, hrejected]
      rw [if_neg (by simp [hresult])]
      exact .failed hdue hdone hresult rfl

lemma deliveryStep_enqueue_workers (site : DeliverySite H) (c : Capture) :
    (deliveryStep hexLe site (.enqueue c)).workers = site.workers := by
  unfold deliveryStep
  dsimp only
  split <;> rfl

/-- The queue is as the settled entries leave it. -/
structure DrainHolds (hexLe : H.Digest → H.Digest → Bool) (worker : ℕ) (maxPerRun : Option ℕ)
    (due waiting : List (OutboxEntry H.Digest)) (idle alone : Bool) (s : Draining H)
    (left : List (OutboxEntry H.Digest)) : Prop where
  position : DrainAt maxPerRun due idle left (s.site.workers worker) s.attempted
  keys : ((left ++ waiting).map fun e => e.sha256).Nodup
  pending : alone = true →
    PendingAre s.site.outbox ((left ++ waiting).map fun e => e.sha256)

def DrainAction.enqueues : DrainAction → Bool
  | .enqueue _ => true
  | _ => false

lemma settleAnswer_pending {outbox : Outbox H.Digest} {entry : OutboxEntry H.Digest}
    {rest : List (OutboxEntry H.Digest)} {result : DeliverResult} {report : DrainReport}
    (hkeys : ((entry :: rest ++ waiting).map fun e => e.sha256).Nodup)
    (h : PendingAre outbox ((entry :: rest ++ waiting).map fun e => e.sha256)) (now : ℕ) :
    PendingAre (settleAnswer outbox true now maxPerRun entry rest result report).1
      (((if result.goesOn then rest else entry :: rest) ++ waiting).map fun e => e.sha256) := by
  have hnew := (List.nodup_cons.mp hkeys).1
  cases result with
  | delivered => exact h.markDelivered hnew
  | notDelivered reason kind detail retryable =>
    rw [settleAnswer]
    cases hrejected : isItemRejected (.notDelivered reason kind detail retryable) with
    | true =>
      have hgone := h.recordFailure hnew ⟨reason, now, false, kind, detail⟩
      simpa [DeliverResult.goesOn, hrejected] using hgone
    | false =>
      have hkept := h.recordFailure hnew ⟨reason, now, true, kind, detail⟩
      simpa [DeliverResult.goesOn, hrejected] using hkept

lemma DrainHolds.step {left : List (OutboxEntry H.Digest)} {alone : Bool}
    (hidle : due ≠ [] → idle = false)
    (h : DrainHolds hexLe worker maxPerRun due waiting idle alone s left) {a : DrainAction}
    (ha : alone = true → a.enqueues = false) :
    ∃ left', DrainHolds hexLe worker maxPerRun due waiting idle alone
      (s.step hexLe worker a) left' := by
  obtain ⟨site, attempted⟩ := s
  obtain ⟨hposition, hkeys, hpending⟩ := h
  dsimp only at hposition hpending
  cases a with
  | enqueue c =>
    refine ⟨left, ⟨?_, hkeys, fun halone => absurd (ha halone) (by simp [DrainAction.enqueues])⟩⟩
    change DrainAt maxPerRun due idle left
      ((deliveryStep hexLe site (.enqueue c)).workers worker) attempted
    rwa [deliveryStep_enqueue_workers]
  | deliver result =>
    cases hrun : site.workers worker with
    | idle =>
      rw [hrun] at hposition
      cases hposition
    | returned report =>
      refine ⟨left, ⟨?_, hkeys, ?_⟩⟩
      · simp only [Draining.step, DrainAction.ofWorker, deliveryStep, hrun, DrainRun.awaiting]
        rwa [hrun] at hposition
      · simpa only [Draining.step, DrainAction.ofWorker, deliveryStep, hrun] using hpending
    | inFlight m rest answered report =>
      rw [hrun] at hposition
      cases hposition with
      | @asking entry rest _ _ hdue hdone hcount hroom =>
        refine ⟨entry :: rest, ⟨?_, hkeys, ?_⟩⟩
        · simp only [Draining.step, DrainAction.ofWorker, deliveryStep, hrun, DrainRun.awaiting,
            DeliverySite.setRun, Function.update_self]
          exact .answered hdue hdone (congrArg (· + 1) hcount) hroom
        · simpa only [Draining.step, DrainAction.ofWorker, deliveryStep, hrun,
            DeliverySite.setRun] using hpending
      | @answered entry rest done _ _ hdue hdone hcount hroom =>
        refine ⟨entry :: rest, ⟨?_, hkeys, ?_⟩⟩
        · simp only [Draining.step, DrainAction.ofWorker, deliveryStep, hrun, DrainRun.awaiting]
          exact .answered hdue hdone hcount hroom
        · simpa only [Draining.step, DrainAction.ofWorker, deliveryStep, hrun] using hpending
  | settle now =>
    cases hrun : site.workers worker with
    | idle =>
      rw [hrun] at hposition
      cases hposition
    | returned report =>
      refine ⟨left, ⟨?_, hkeys, ?_⟩⟩
      · simp only [Draining.step, DrainAction.ofWorker, deliveryStep, hrun]
        rwa [hrun] at hposition
      · simpa only [Draining.step, DrainAction.ofWorker, deliveryStep, hrun] using hpending
    | inFlight m rest answered report =>
      rw [hrun] at hposition
      cases hposition with
      | @asking entry rest _ _ hdue hdone hcount hroom =>
        refine ⟨entry :: rest, ⟨?_, hkeys, ?_⟩⟩
        · simp only [Draining.step, DrainAction.ofWorker, deliveryStep, hrun]
          exact .asking hdue hdone hcount hroom
        · simpa only [Draining.step, DrainAction.ofWorker, deliveryStep, hrun] using hpending
      | @answered entry rest done result _ hdue hdone hcount hroom =>
        refine ⟨if result.goesOn then rest else entry :: rest, ⟨?_, ?_, fun halone => ?_⟩⟩
        · simp only [Draining.step, DrainAction.ofWorker, deliveryStep, hrun, DeliverySite.setRun,
            Function.update_self]
          exact settleAnswer_at hdue hdone hcount hroom
            (hidle fun hnil => by simp [← hdue] at hnil) _ now
        · split
          · exact (List.nodup_cons.mp hkeys).2
          · exact hkeys
        · simp only [Draining.step, DrainAction.ofWorker, deliveryStep, hrun]
          exact settleAnswer_pending hkeys (hpending halone) now

lemma startDrain_eq (outbox : Outbox H.Digest) :
    startDrain hexLe outbox true maxPerRun clock =
      if dueEntries hexLe outbox clock = [] then
        .returned { waiting := (waitingEntries hexLe outbox clock).length
                    stoppedBy := if waitingEntries hexLe outbox clock = [] then .drained else .idle }
      else drainNext maxPerRun (dueEntries hexLe outbox clock)
        { waiting := (waitingEntries hexLe outbox clock).length } := by
  have hdue : ((pendingTurns hexLe outbox).filter fun p => isDue p.1 (clock p.2)).isEmpty = true ↔
      dueEntries hexLe outbox clock = [] := by
    rw [dueEntries, List.map_eq_nil_iff, List.isEmpty_iff]
  have hwaiting : (waitingEntries hexLe outbox clock).length =
      (pendingTurns hexLe outbox).length -
        ((pendingTurns hexLe outbox).filter fun p => isDue p.1 (clock p.2)).length :=
    waiting_length.symm
  unfold startDrain
  rw [if_neg (by simp)]
  by_cases hnil : dueEntries hexLe outbox clock = []
  · rw [if_pos hnil, hwaiting]
    refine (if_pos (hdue.mpr hnil)).trans ?_
    by_cases hnone : waitingEntries hexLe outbox clock = []
    · rw [if_pos hnone]
      rw [hnone, List.length_nil] at hwaiting
      exact congrArg (fun stop => DrainRun.returned { waiting := _, stoppedBy := stop })
        (if_neg hwaiting.symm.not_gt)
    · rw [if_neg hnone]
      have hpos := List.length_pos_iff.mpr hnone
      rw [hwaiting] at hpos
      exact congrArg (fun stop => DrainRun.returned { waiting := _, stoppedBy := stop })
        (if_pos hpos)
  · rw [if_neg hnil, hwaiting]
    exact if_neg fun hempty => hnil (hdue.mp hempty)

lemma DrainHolds.start (hkeys : (site.outbox.entries.map fun e => e.sha256).Nodup)
    (alone : Bool) : ∃ left, DrainHolds hexLe worker maxPerRun (dueEntries hexLe site.outbox clock)
      (waitingEntries hexLe site.outbox clock)
      (decide (dueEntries hexLe site.outbox clock = [] ∧
        waitingEntries hexLe site.outbox clock ≠ [])) alone
      (Draining.start hexLe worker site maxPerRun clock) left := by
  refine ⟨dueEntries hexLe site.outbox clock, ⟨?_, start_keys_nodup hkeys,
    fun _ => pendingAre_start⟩⟩
  simp only [Draining.start, DeliverySite.setRun, Function.update_self]
  rw [startDrain_eq]
  by_cases hnil : dueEntries hexLe site.outbox clock = []
  · rw [hnil, if_pos rfl]
    by_cases hnone : waitingEntries hexLe site.outbox clock = []
    · exact .ended rfl (by simp) (by simp) (by simp [hnone]) (if_pos hnone)
    · exact .idle rfl (by simp [hnone]) (if_neg hnone)
  · rw [if_neg hnil]
    exact drainNext_at rfl (by simp) rfl (by simp [hnil]) (by simp)

lemma DrainHolds.run {left : List (OutboxEntry H.Digest)} {alone : Bool}
    (hidle : due ≠ [] → idle = false)
    (h : DrainHolds hexLe worker maxPerRun due waiting idle alone s left)
    (actions : List DrainAction) (ha : ∀ a ∈ actions, alone = true → a.enqueues = false) :
    ∃ left', DrainHolds hexLe worker maxPerRun due waiting idle alone
      (StepRun.exec (Draining.step hexLe worker) s actions) left' :=
  @StepRun.invariant _ _ (Draining.step hexLe worker) (fun _ a => alone = true → a.enqueues = false)
    (fun s => ∃ left, DrainHolds hexLe worker maxPerRun due waiting idle alone s left)
    (fun _ _ ⟨_, hs⟩ ha => hs.step hidle ha) s ⟨left, h⟩ actions (StepRun.along_of_forall ha)

/-- What a drain has attempted are the first of the due entries, and it went on after all of them but
the last. -/
lemma DrainAt.attempted {left : List (OutboxEntry H.Digest)} {run : DrainRun H.Digest}
    {attempted : List (OutboxEntry H.Digest × DeliverResult)}
    (h : DrainAt maxPerRun due idle left run attempted) :
    attempted.map Prod.fst <+: due ∧ ∀ x ∈ attempted.dropLast, x.2.goesOn = true := by
  cases h with
  | asking hdue hdone | batch hdue hdone =>
    exact ⟨⟨_, hdue⟩, fun x hx => hdone x (List.dropLast_subset _ hx)⟩
  | ended hdue hdone =>
    exact ⟨hdue ▸ List.prefix_rfl, fun x hx => hdone x (List.dropLast_subset _ hx)⟩
  | idle hdue => exact ⟨List.nil_prefix, by simp⟩
  | answered hdue hdone | failed hdue hdone =>
    exact ⟨⟨_, by simpa using hdue⟩, by simpa using hdone⟩

/-- A report is right unless the drain went through all due entries while others were waiting. -/
lemma DrainHolds.reportRight_iff {left : List (OutboxEntry H.Digest)} {report : DrainReport}
    (h : DrainHolds hexLe worker maxPerRun (dueEntries hexLe site.outbox clock)
      (waitingEntries hexLe site.outbox clock)
      (decide (dueEntries hexLe site.outbox clock = [] ∧
        waitingEntries hexLe site.outbox clock ≠ [])) true s left)
    (hreport : s.site.workers worker = .returned report) :
    ReportRight hexLe site.outbox clock s.site.outbox report ↔
      (dueEntries hexLe site.outbox clock ≠ [] → waitingEntries hexLe site.outbox clock ≠ [] →
        StopsEarly maxPerRun (dueEntries hexLe site.outbox clock) (s.attempted.map Prod.snd)) := by
  obtain ⟨hposition, -, hpending⟩ := h
  have hnone := (hpending rfl).eq_nil
  rw [List.map_eq_nil_iff, List.append_eq_nil_iff] at hnone
  rw [ReportRight, hnone]
  rw [hreport] at hposition
  generalize dueEntries hexLe site.outbox clock = due at hposition hnone ⊢
  generalize waitingEntries hexLe site.outbox clock = waiting at hposition hnone ⊢
  generalize s.attempted = attempted at hposition ⊢
  cases hposition with
  | ended hdue hdone hroom hidle hstop =>
    have hnot : ¬ StopsEarly maxPerRun due (attempted.map Prod.snd) := by
      rintro (⟨result, hresult, hfails⟩ | hfull)
      · obtain ⟨x, hx, rfl⟩ := List.mem_map.mp hresult
        simp [hdone x hx] at hfails
      · simp [hfull] at hroom
    have hidle := of_decide_eq_false hidle
    simp only [hstop, hnot, true_iff, true_and, reduceCtorEq, false_iff]
    tauto
  | idle hdue hidle hstop =>
    have hidle := of_decide_eq_true hidle
    simp [hstop, hidle.1, hidle.2]
  | batch hdue hdone hroom hstop =>
    have hearly : StopsEarly maxPerRun due (attempted.map Prod.snd) := Or.inr hroom
    have hne : due ≠ [] := by
      rintro rfl
      simp at hdue
    simp [hstop, hearly, hne]
  | @failed entry rest done result _ hdue hdone hresult hstop =>
    have hearly : StopsEarly maxPerRun due ((done ++ [(entry, result)]).map Prod.snd) :=
      Or.inl ⟨result, by simp, hresult⟩
    have hne : due ≠ [] := by
      rintro rfl
      simp at hdue
    simp only [hstop, hearly, reduceCtorEq, List.cons_ne_nil, false_and, hne, implies_true,
      and_self]

/-- A drain attempts the first of the entries that were pending and due, in queue order and each once,
and none after a failure on the host's account. Where nothing is queued meanwhile, its report is right
exactly if it did not go through all due entries while others were waiting. -/
theorem drain_report_iff (hkeys : (site.outbox.entries.map fun e => e.sha256).Nodup)
    (actions : List DrainAction) :
    let due := dueEntries hexLe site.outbox clock
    let s := StepRun.exec (Draining.step hexLe worker)
      (Draining.start hexLe worker site maxPerRun clock) actions
    (s.attempted.map Prod.fst <+: due ∧ due.Nodup ∧
      ∀ x ∈ s.attempted.dropLast, x.2.goesOn = true) ∧
      ((∀ a ∈ actions, a.enqueues = false) → ∀ report, s.site.workers worker = .returned report →
        (ReportRight hexLe site.outbox clock s.site.outbox report ↔
          (due ≠ [] → waitingEntries hexLe site.outbox clock ≠ [] →
            StopsEarly maxPerRun due (s.attempted.map Prod.snd)))) := by
  intro due s
  have hidle : due ≠ [] → decide (due = [] ∧ waitingEntries hexLe site.outbox clock ≠ []) =
      false := fun hne => by simp [hne]
  have hholds : ∀ alone : Bool, (∀ a ∈ actions, alone = true → a.enqueues = false) →
      ∃ left, DrainHolds hexLe worker maxPerRun due (waitingEntries hexLe site.outbox clock)
        (decide (due = [] ∧ waitingEntries hexLe site.outbox clock ≠ [])) alone s left := by
    intro alone ha
    obtain ⟨start, hstart⟩ := @DrainHolds.start H maxPerRun hexLe worker clock site hkeys alone
    exact hstart.run hidle actions ha
  refine ⟨?_, fun ha report hreport => ?_⟩
  · obtain ⟨left, hposition, -, -⟩ := hholds false fun _ _ h => absurd h Bool.false_ne_true
    obtain ⟨hattempted, hgoesOn⟩ := hposition.attempted
    have hnodup := (@start_keys_nodup _ hexLe _ clock hkeys).of_map
    exact ⟨hattempted, (List.nodup_append.mp hnodup).1, hgoesOn⟩
  · obtain ⟨left, h⟩ := hholds true fun a hmem _ => ha a hmem
    exact h.reportRight_iff hreport

end Run

end Drain

section Sample

/-- One capture that was never tried, and one that failed a second ago. -/
def oneDueOneWaiting : DeliverySite .verbatim where
  outbox := ⟨[⟨[1], "a".toList, [1], none, 1, 5, 0, none, none, .pending, none, none⟩,
    ⟨[2], "b".toList, [2], none, 1, 6, 1, some "timeout", some 9000, .pending, none, none⟩], some 2⟩
  workers := fun _ => .idle
  accepted := [[1], [2]]
  delivered := []
  largest := 100

def deliveredOnce : List DrainAction := [.deliver .delivered, .settle 10000]

def drainedOnce : Draining .verbatim :=
  StepRun.exec (Draining.step (fun _ _ => true) 0)
    (Draining.start (fun _ _ => true) 0 oneDueOneWaiting none fun _ => 10000) deliveredOnce

/-- The due capture is delivered, the other waits out its backoff, and the report says drained. -/
theorem drained_with_entry_pending :
    (∀ a ∈ deliveredOnce, a.enqueues = false) ∧
      ∃ report, drainedOnce.site.workers 0 = .returned report ∧ report.stoppedBy = .drained ∧
        ¬ ReportRight (fun _ _ => true) oneDueOneWaiting.outbox (fun _ => 10000)
          drainedOnce.site.outbox report := by
  refine ⟨by decide, { attempted := 1, delivered := 1, waiting := 1, stoppedBy := .drained },
    by decide +kernel, rfl, fun hright => ?_⟩
  have hnone := hright.1.mp rfl
  have hpending : (drainedOnce.site.outbox.entries.any fun e => e.state = .pending) = true := by
    decide +kernel
  obtain ⟨e, he, hstate⟩ := List.any_eq_true.mp hpending
  exact hnone e he (of_decide_eq_true hstate)

theorem drain_report_iff_waiting :
    (drainedOnce.attempted.map Prod.fst).length = 1 ∧
      (∀ report, drainedOnce.site.workers 0 = .returned report →
        (ReportRight (fun _ _ => true) oneDueOneWaiting.outbox (fun _ => 10000)
          drainedOnce.site.outbox report ↔
          (dueEntries (fun _ _ => true) oneDueOneWaiting.outbox (fun _ => 10000) ≠ [] →
            waitingEntries (fun _ _ => true) oneDueOneWaiting.outbox (fun _ => 10000) ≠ [] →
              StopsEarly none (dueEntries (fun _ _ => true) oneDueOneWaiting.outbox fun _ => 10000)
                (drainedOnce.attempted.map Prod.snd)))) :=
  ⟨by decide +kernel, (drain_report_iff (by decide) deliveredOnce).2 (by decide)⟩

end Sample

end ChatStasher
