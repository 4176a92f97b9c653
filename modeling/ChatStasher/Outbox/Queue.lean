import Mathlib.Algebra.BigOperators.Group.List.Basic
import ChatStasher.Collect.Facts

/-! The delivery outbox: the queue of captures that no delivery has acknowledged, and its
transactions. -/
namespace ChatStasher

inductive EntryState
  | pending
  | rejected
  deriving DecidableEq

/-- Every way a request can end without a matching acknowledgement. -/
inductive UndeliveredReason
  | noRuntimeApi
  | sendFailed
  | timeout
  | nack
  | malformedResponse
  | cryptoUnavailable
  deriving DecidableEq

def UndeliveredReason.text : UndeliveredReason → String
  | .noRuntimeApi => "no-runtime-api"
  | .sendFailed => "send-failed"
  | .timeout => "timeout"
  | .nack => "nack"
  | .malformedResponse => "malformed-response"
  | .cryptoUnavailable => "crypto-unavailable"

inductive NackKind
  | protocolVersion
  | badRequest
  | tooLarge
  | integrity
  | invalidBundle
  | installConflict
  | identityConflict
  | config
  | stageUnavailable
  | io
  deriving DecidableEq

def NackKind.text : NackKind → String
  | .protocolVersion => "protocol-version"
  | .badRequest => "bad-request"
  | .tooLarge => "too-large"
  | .integrity => "integrity"
  | .invalidBundle => "invalid-bundle"
  | .installConflict => "install-conflict"
  | .identityConflict => "identity-conflict"
  | .config => "config"
  | .stageUnavailable => "stage-unavailable"
  | .io => "io"

/-- A queued capture. Payload and account id are their UTF-8 bytes. -/
structure OutboxEntry (D : Type) where
  sha256 : D
  name : Ident
  payload : Bytes
  accountId : Option Bytes
  bytes : ℕ
  enqueuedAt : ℕ
  attempts : ℕ
  lastError : Option String
  lastAttemptAt : Option ℕ
  state : EntryState
  rejectKind : Option String
  rejectDetail : Option String
  deriving DecidableEq

/-- The two object stores: the entries, and the byte counter once it has been written. -/
structure Outbox (D : Type) where
  entries : List (OutboxEntry D)
  bytes : Option ℕ
  deriving DecidableEq

def Outbox.empty (D : Type) : Outbox D := ⟨[], none⟩

section Entries
variable {D : Type}

def Outbox.used (outbox : Outbox D) : ℕ := outbox.bytes.getD 0

def accountIdBytes (accountId : Option Bytes) : ℕ := (accountId.map List.length).getD 0

def OutboxEntry.storageBytes (entry : OutboxEntry D) : ℕ :=
  entry.bytes + accountIdBytes entry.accountId

def storedBytes (entries : List (OutboxEntry D)) : ℕ :=
  (entries.map OutboxEntry.storageBytes).sum

structure OutboxSummary where
  pendingCount : ℕ
  rejectedCount : ℕ
  bytes : ℕ
  capacityBytes : ℕ
  full : Bool
  nearFull : Bool
  deriving DecidableEq

/-- The counts of a queue with its flags at these bytes; near full is from 0.8 of the capacity on. -/
def summaryAt (entries : List (OutboxEntry D)) (bytes capacityBytes : ℕ) : OutboxSummary where
  pendingCount := entries.countP fun e => e.state = .pending
  rejectedCount := entries.countP fun e => e.state = .rejected
  bytes := bytes
  capacityBytes := capacityBytes
  full := decide (capacityBytes ≤ bytes)
  nearFull := decide (4 * capacityBytes ≤ 5 * bytes)

def summary (outbox : Outbox D) (capacityBytes : ℕ) : OutboxSummary :=
  summaryAt outbox.entries (outbox.entries.map fun e => e.bytes).sum capacityBytes

variable [DecidableEq D]

def getEntry (outbox : Outbox D) (sha256 : D) : Option (OutboxEntry D) :=
  outbox.entries.find? fun e => e.sha256 = sha256

def withoutEntry (entries : List (OutboxEntry D)) (sha256 : D) : List (OutboxEntry D) :=
  entries.filter fun e => e.sha256 ≠ sha256

def putEntry (entries : List (OutboxEntry D)) (entry : OutboxEntry D) : List (OutboxEntry D) :=
  withoutEntry entries entry.sha256 ++ [entry]

/-- `markDelivered`: the only deletion. -/
def markDelivered (outbox : Outbox D) (sha256 : D) : Outbox D :=
  match getEntry outbox sha256 with
  | none => outbox
  | some existing =>
    { entries := withoutEntry outbox.entries sha256
      bytes := some (outbox.used - existing.bytes - accountIdBytes existing.accountId) }

structure FailureInput where
  reason : UndeliveredReason
  at_ : ℕ
  retryable : Bool
  kind : Option NackKind
  detail : Option String

/-- `recordFailure`: a failed attempt leaves the entry where it is, pending or rejected. -/
def recordFailure (outbox : Outbox D) (sha256 : D) (input : FailureInput) :
    Outbox D × Option (OutboxEntry D) :=
  match getEntry outbox sha256 with
  | none => (outbox, none)
  | some existing =>
    let next := { existing with
      attempts := existing.attempts + 1
      lastError := some (match input.kind with
        | some kind => input.reason.text ++ ":" ++ kind.text
        | none => input.reason.text)
      lastAttemptAt := some input.at_
      state := if input.retryable then .pending else .rejected }
    let next :=
      if input.retryable then next
      else { next with
        rejectKind := some ((input.kind.map NackKind.text).getD input.reason.text)
        rejectDetail := match input.detail with
          | some detail => if detail.isEmpty then next.rejectDetail else some detail
          | none => next.rejectDetail }
    ({ outbox with entries := putEntry outbox.entries next }, some next)

end Entries

inductive EnqueueRefusal
  | outboxUnavailable
  | outboxFull
  | cryptoUnavailable
  deriving DecidableEq

/-- The answer to a capture. -/
inductive EnqueueResult (D : Type)
  | accepted (duplicate : Bool) (entry : OutboxEntry D)
  | refused (reason : EnqueueRefusal) (sha256 : Option D) (summary : Option OutboxSummary)
  deriving DecidableEq

/-- A capture to be queued, in a context whose database opens and whose WebCrypto is there or not.
An empty account id is none. -/
structure Capture where
  name : Ident
  payload : Bytes
  accountId : Option Bytes
  capacityBytes : ℕ
  now : ℕ
  opened : Bool
  crypto : Bool

def Capture.account (c : Capture) : Option Bytes := c.accountId.filter fun id => !id.isEmpty

/-- `enqueue`: refuse the newcomer rather than touch an entry that is queued. -/
def enqueue (H : Sha256) (outbox : Outbox H.Digest) (c : Capture) :
    Outbox H.Digest × EnqueueResult H.Digest :=
  if !c.opened then (outbox, .refused .outboxUnavailable none none)
  else if !c.crypto then (outbox, .refused .cryptoUnavailable none none)
  else
    let sha256 := H.digest c.payload
    let storageBytes := c.payload.length + accountIdBytes c.account
    match getEntry outbox sha256 with
    | some existing => (outbox, .accepted true existing)
    | none =>
      if c.capacityBytes < outbox.used + storageBytes then
        (outbox, .refused .outboxFull (some sha256)
          (some (summaryAt outbox.entries outbox.used c.capacityBytes)))
      else
        let entry : OutboxEntry H.Digest :=
          { sha256, name := c.name, payload := c.payload, accountId := c.account
            bytes := c.payload.length, enqueuedAt := c.now, attempts := 0, lastError := none
            lastAttemptAt := none, state := .pending, rejectKind := none, rejectDetail := none }
        (⟨putEntry outbox.entries entry, some (outbox.used + storageBytes)⟩, .accepted false entry)

end ChatStasher

/-! Draining the outbox: which entries are due, one delivery after the other, and the workers that
do it over the shared queue. -/
namespace ChatStasher

def retryBaseMs : ℕ := 60000

def retryMaxMs : ℕ := 3600000

/-- One minute after the first failure, doubling, capped at one hour. -/
def backoffMs (attempts : ℕ) : ℕ :=
  if attempts = 0 then 0 else min (retryBaseMs * 2 ^ min (attempts - 1) 20) retryMaxMs

inductive DeliverResult
  | delivered
  | notDelivered (reason : UndeliveredReason) (kind : Option NackKind) (detail : Option String)
      (retryable : Bool)
  deriving DecidableEq

def hostScopeKinds : List NackKind := [.protocolVersion, .config, .stageUnavailable, .io]

/-- The only condition under which an item is given up on: a nack about the item that is not
retryable. -/
def isItemRejected : DeliverResult → Bool
  | .notDelivered .nack (some kind) _ retryable => decide (kind ∉ hostScopeKinds) && !retryable
  | _ => false

inductive DrainStop
  | idle
  | drained
  | hostUnavailable
  | batch
  | outboxUnavailable
  deriving DecidableEq

structure DrainReport where
  attempted : ℕ := 0
  delivered : ℕ := 0
  deliveredRetried : ℕ := 0
  rejected : ℕ := 0
  waiting : ℕ := 0
  stoppedBy : DrainStop := .idle
  lastReason : Option UndeliveredReason := none
  lastKind : Option NackKind := none
  lastDetail : Option String := none
  deriving DecidableEq

/-- A worker's drain: none, one in flight with the entries it has yet to settle and the answer to
the first of them, or one that has returned. -/
inductive DrainRun (D : Type)
  | idle
  | inFlight (maxPerRun : Option ℕ) (rest : List (OutboxEntry D)) (answered : Option DeliverResult)
      (report : DrainReport)
  | returned (report : DrainReport)
  deriving DecidableEq

section Drain
variable {D : Type}

def dueAt (entry : OutboxEntry D) : Option ℕ :=
  if entry.state ≠ .pending ∨ entry.attempts = 0 then none
  else entry.lastAttemptAt.map fun lastAttemptAt => lastAttemptAt + backoffMs entry.attempts

def isDue (entry : OutboxEntry D) (now : ℕ) : Bool := (dueAt entry).all fun due => due ≤ now

def compareEntries (hexLe : D → D → Bool) (a b : OutboxEntry D) : Prop :=
  a.enqueuedAt < b.enqueuedAt ∨ a.enqueuedAt = b.enqueuedAt ∧ hexLe a.sha256 b.sha256

instance compareEntries.decidable (hexLe : D → D → Bool) : DecidableRel (compareEntries hexLe) :=
  fun _ _ => inferInstanceAs (Decidable (_ ∨ _))

def readAll (hexLe : D → D → Bool) (outbox : Outbox D) : List (OutboxEntry D) :=
  outbox.entries.insertionSort (compareEntries hexLe)

/-- The head of the loop: the next entry, the end of a batch, or the end of the queue. -/
def drainNext (maxPerRun : Option ℕ) (rest : List (OutboxEntry D)) (report : DrainReport) :
    DrainRun D :=
  if rest.isEmpty then .returned { report with stoppedBy := .drained }
  else if maxPerRun.any fun m => m ≤ report.attempted then
    .returned { report with stoppedBy := .batch }
  else .inFlight maxPerRun rest none report

/-- The start of a drain: the queue is read once, and `clock` is asked once for each pending entry. -/
def startDrain (hexLe : D → D → Bool) (outbox : Outbox D) (opened : Bool) (maxPerRun : Option ℕ)
    (clock : ℕ → ℕ) : DrainRun D :=
  if !opened then .returned { stoppedBy := .outboxUnavailable }
  else
    let waitingOrDue := ((readAll hexLe outbox).filter fun e => e.state = .pending).zipIdx
    let due := waitingOrDue.filter fun p => isDue p.1 (clock p.2)
    let report : DrainReport := { waiting := waitingOrDue.length - due.length }
    if due.isEmpty then
      .returned { report with stoppedBy := if 0 < report.waiting then .idle else .drained }
    else drainNext maxPerRun (due.map Prod.fst) report

variable [DecidableEq D]

/-- What follows an answer: the entry goes, or its failure is recorded. -/
def settleAnswer (outbox : Outbox D) (opened : Bool) (now : ℕ) (maxPerRun : Option ℕ)
    (entry : OutboxEntry D) (rest : List (OutboxEntry D)) (result : DeliverResult)
    (report : DrainReport) : Outbox D × DrainRun D :=
  match result with
  | .delivered =>
    (if opened then markDelivered outbox entry.sha256 else outbox,
      drainNext maxPerRun rest { report with
        delivered := report.delivered + 1
        deliveredRetried := report.deliveredRetried + if 0 < entry.attempts then 1 else 0 })
  | .notDelivered reason kind detail retryable =>
    let itemRejected := isItemRejected (.notDelivered reason kind detail retryable)
    let outbox := if opened then
        (recordFailure outbox entry.sha256 ⟨reason, now, !itemRejected, kind, detail⟩).1
      else outbox
    let report := { report with lastReason := some reason, lastKind := kind, lastDetail := detail }
    if itemRejected then
      (outbox, drainNext maxPerRun rest { report with rejected := report.rejected + 1 })
    else (outbox, .returned { report with stoppedBy := .hostUnavailable })

end Drain

/-- The queue with the workers over it, and what has been accepted and delivered so far. -/
structure DeliverySite (H : Sha256) where
  outbox : Outbox H.Digest
  workers : ℕ → DrainRun H.Digest
  /-- Payloads that `enqueue` accepted. -/
  accepted : List Bytes
  /-- Payloads of which a delivery answered delivered. -/
  delivered : List Bytes
  /-- The largest capacity in force when an entry was added. -/
  largest : ℕ

/-- Steps of the workers. `acknowledged` is a delivery outside a drain. -/
inductive DeliveryAction (H : Sha256)
  | enqueue (c : Capture)
  | drainOutbox (worker : ℕ) (opened : Bool) (maxPerRun : Option ℕ) (clock : ℕ → ℕ)
  | deliver (worker : ℕ) (result : DeliverResult)
  | settle (worker : ℕ) (opened : Bool) (now : ℕ)
  | recordFailure (sha256 : H.Digest) (input : FailureInput)
  | acknowledged (payload : Bytes)
  | markDelivered (payload : Bytes)
  | restart (worker : ℕ)

def DeliverySite.setRun {H : Sha256} (s : DeliverySite H) (worker : ℕ) (run : DrainRun H.Digest) :
    DeliverySite H :=
  { s with workers := Function.update s.workers worker run }

section Step
variable {H : Sha256} (hexLe : H.Digest → H.Digest → Bool)

def deliveryStep (s : DeliverySite H) : DeliveryAction H → DeliverySite H
  | .enqueue c =>
    match enqueue H s.outbox c with
    | (outbox, .accepted duplicate _) =>
      { s with
        outbox
        accepted := s.accepted ++ [c.payload]
        largest := if duplicate then s.largest else max s.largest c.capacityBytes }
    | (outbox, .refused ..) => { s with outbox }
  | .drainOutbox worker opened maxPerRun clock =>
    match s.workers worker with
    | .inFlight .. => s
    | _ => s.setRun worker (startDrain hexLe s.outbox opened maxPerRun clock)
  | .deliver worker result =>
    match s.workers worker with
    | .inFlight maxPerRun (entry :: rest) none report =>
      let report := { report with attempted := report.attempted + 1 }
      { s.setRun worker (.inFlight maxPerRun (entry :: rest) (some result) report) with
        delivered := if result = .delivered then s.delivered ++ [entry.payload] else s.delivered }
    | _ => s
  | .settle worker opened now =>
    match s.workers worker with
    | .inFlight maxPerRun (entry :: rest) (some result) report =>
      let (outbox, run) := settleAnswer s.outbox opened now maxPerRun entry rest result report
      { s.setRun worker run with outbox }
    | _ => s
  | .recordFailure sha256 input => { s with outbox := (recordFailure s.outbox sha256 input).1 }
  | .acknowledged payload => { s with delivered := s.delivered ++ [payload] }
  -- The callers must hold a matching acknowledgement.
  | .markDelivered payload =>
    if payload ∈ s.delivered then
      { s with outbox := markDelivered s.outbox (H.digest payload) }
    else s
  | .restart worker => s.setRun worker .idle

def DeliverySite.fresh (H : Sha256) : DeliverySite H :=
  ⟨.empty _, fun _ => .idle, [], [], 0⟩

end Step

end ChatStasher
