import ChatStasher.Inbox.Seal
import ChatStasher.Outbox.Queue

/-! The native messaging wire: the answers a host writes, and what the extension makes of whatever
comes back for a request. -/
namespace ChatStasher.Delivery
open Inbox (Text)

def protocolVersion : ℤ := 1

/-- The value of one member of a message. A string of sixty-four lowercase hex digits is told apart
from every other string. -/
inductive Value (H : Sha256)
  | null
  | bool (b : Bool)
  | int (n : ℤ)
  | str (text : Text)
  | sha256 (digest : H.Digest)
  | ints (ns : List ℤ)
  | other
  deriving DecidableEq

/-- The name of a member; whatever the contract does not name is unexpected. -/
inductive Key
  | protocol
  | type
  | ok
  | requestId
  | status
  | sha256
  | shard
  | held
  | kind
  | retryable
  | detail
  | supported
  | unexpected (name : Text)
  deriving DecidableEq

abbrev Message (H : Sha256) := List (Key × Value H)

structure Ack (H : Sha256) where
  requestId : Text
  duplicate : Bool
  sha256 : H.Digest
  shard : Text
  deriving DecidableEq

structure Nack where
  requestId : Option Text
  kind : NackKind
  retryable : Bool
  detail : Text
  deriving DecidableEq

structure HasResponse where
  requestId : Text
  held : Bool
  shard : Option Text
  deriving DecidableEq

def nackKinds : List NackKind :=
  [.protocolVersion, .badRequest, .tooLarge, .integrity, .invalidBundle, .installConflict,
    .identityConflict, .config, .stageUnavailable, .io]

def NackKind.ofText (text : Text) : Option NackKind :=
  nackKinds.find? fun kind => kind.text.toList = text

def validRequestId (id : Text) : Bool :=
  1 ≤ id.length && id.length ≤ 128 && id.all fun c => c.isAlphanum || c == '_' || c == '-'

variable {H : Sha256}

/-- Every required key is there, and no key that is neither required nor optional. -/
def keysOk (message : Message H) (required optional : List Key) : Bool :=
  required.all (fun key => (message.lookup key).isSome) &&
    message.all fun entry => decide (entry.1 ∈ required ++ optional)

def requestIdOf : Option (Value H) → Option Text
  | some (.str id) => if validRequestId id then some id else none
  | _ => none

def stringOf : Option (Value H) → Option Text
  | some (.str text) => some text
  | some (.sha256 _) => some []
  | _ => none

def boolOf : Option (Value H) → Option Bool
  | some (.bool b) => some b
  | _ => none

def digestOf : Option (Value H) → Option H.Digest
  | some (.sha256 digest) => some digest
  | _ => none

def hasType (message : Message H) (type : Text) : Bool :=
  message.lookup .protocol = some (.int protocolVersion) && message.lookup .type = some (.str type)

def ackType : Text := "ack".toList

def nackType : Text := "nack".toList

def hasAnswerType : Text := "has".toList

/-- Whether the status says that the bytes were there before. -/
def statusOf : Option (Value H) → Option Bool
  | some (.str text) =>
    if text = "stored".toList then some false
    else if text = "duplicate".toList then some true else none
  | _ => none

def validateAck (message : Message H) : Option (Ack H) :=
  if hasType message ackType &&
      keysOk message [.protocol, .type, .requestId, .status, .sha256, .shard] [] then do
    let requestId ← requestIdOf (message.lookup .requestId)
    let duplicate ← statusOf (message.lookup .status)
    let sha256 ← digestOf (message.lookup .sha256)
    let shard ← stringOf (message.lookup .shard)
    return ⟨requestId, duplicate, sha256, shard⟩
  else none

/-- The id of a refusal is null when the host could not read the request's. -/
def nackRequestIdOf (value : Option (Value H)) : Option (Option Text) :=
  if value = some .null then some none else (requestIdOf value).map some

def kindOf : Option (Value H) → Option NackKind
  | some (.str text) => NackKind.ofText text
  | _ => none

/-- Where the supported versions are named, they are integers. -/
def supportedOk : Option (Value H) → Bool
  | none => true
  | some (.ints _) => true
  | some _ => false

def validateNack (message : Message H) : Option Nack :=
  if hasType message nackType && keysOk message
      [.protocol, .type, .requestId, .kind, .retryable, .detail] [.supported] then do
    let requestId ← nackRequestIdOf (message.lookup .requestId)
    let kind ← kindOf (message.lookup .kind)
    let retryable ← boolOf (message.lookup .retryable)
    let detail ← stringOf (message.lookup .detail)
    if supportedOk (message.lookup .supported) then some ⟨requestId, kind, retryable, detail⟩ else none
  else none

def heldShardOf (value : Option (Value H)) : Option (Option Text) :=
  if value = some .null then some none else (stringOf value).map some

def validateHas (message : Message H) : Option HasResponse :=
  if hasType message hasAnswerType &&
      keysOk message [.protocol, .type, .ok, .requestId, .held, .shard] [] &&
      message.lookup .ok = some (.bool true) then do
    let requestId ← requestIdOf (message.lookup .requestId)
    let held ← boolOf (message.lookup .held)
    let shard ← heldShardOf (message.lookup .shard)
    return ⟨requestId, held, shard⟩
  else none

/-- How one round trip ended; a response that is no object carries no members. -/
inductive SendOutcome (H : Sha256)
  | response (message : Option (Message H))
  | error (detail : String)
  | timeout
  | noApi
  deriving DecidableEq

/-- A named failure of a call. -/
structure Failure where
  reason : UndeliveredReason
  kind : Option NackKind
  detail : Option String
  retryable : Bool
  deriving DecidableEq

def malformed : Failure := ⟨.malformedResponse, none, none, true⟩

def isNack (message : Message H) : Bool := hasType message nackType

def classify {α : Type} (outcome : SendOutcome H) (validate : Message H → Option α)
    (expectedRequestId : Text) : Except Failure α :=
  match outcome with
  | .noApi => .error ⟨.noRuntimeApi, none, none, false⟩
  | .timeout => .error ⟨.timeout, none, none, true⟩
  | .error detail => .error ⟨.sendFailed, none, some detail, true⟩
  | .response none => .error malformed
  | .response (some message) =>
    if isNack message then
      match validateNack message with
      | none => .error malformed
      | some nack =>
        if nack.requestId ≠ none ∧ nack.requestId ≠ some expectedRequestId then .error malformed
        else .error ⟨.nack, some nack.kind, some (String.ofList nack.detail), nack.retryable⟩
    else
      match validate message with
      | none => .error malformed
      | some value => .ok value

/-- The answer to a delivery: only an acknowledgement that names the request and the payload's digest
counts. -/
def deliverResult (outcome : SendOutcome H) (requestId : Text) (sha256 : H.Digest) : DeliverResult :=
  match classify outcome (fun message => (validateAck message).filter fun ack =>
      ack.requestId = requestId ∧ ack.sha256 = sha256) requestId with
  | .ok _ => .delivered
  | .error failure => .notDelivered failure.reason failure.kind failure.detail failure.retryable

def hasResult (outcome : SendOutcome H) (requestId : Text) : Except Failure HasResponse :=
  classify outcome (fun message => (validateHas message).filter fun answer =>
    answer.requestId = requestId) requestId

/-- Whether the same bytes sent again may succeed. -/
def retryableKind : NackKind → Bool
  | .integrity => true
  | .stageUnavailable => true
  | .io => true
  | .identityConflict => true
  | _ => false

/-- The members of a refusal. -/
def nack (requestId : Option Text) (kind : NackKind) (detail : Text) : Message H :=
  [(.protocol, .int protocolVersion), (.type, .str nackType),
    (.requestId, requestId.elim .null .str), (.kind, .str kind.text.toList),
    (.retryable, .bool (retryableKind kind)), (.detail, .str detail)] ++
  if kind = .protocolVersion then [(.supported, .ints [protocolVersion])] else []

def ack (requestId : Text) (duplicate : Bool) (sha256 : H.Digest) (shard : FileName) : Message H :=
  [(.protocol, .int protocolVersion), (.type, .str ackType), (.requestId, .str requestId),
    (.status, .str (if duplicate then "duplicate" else "stored").toList),
    (.sha256, .sha256 sha256), (.shard, .str shard)]

def hasAnswer (requestId : Text) (found : Option FileName) : Message H :=
  [(.protocol, .int protocolVersion), (.type, .str hasAnswerType), (.ok, .bool true),
    (.requestId, .str requestId), (.held, .bool found.isSome), (.shard, found.elim .null .str)]

section Wire

lemma ackType_ne_nackType : ackType ≠ nackType := by decide +kernel

lemma hasAnswerType_ne_nackType : hasAnswerType ≠ nackType := by decide +kernel

lemma ackType_ne_hasAnswerType : ackType ≠ hasAnswerType := by decide +kernel

lemma hasType_of_type {message : Message H} {type type' : Text}
    (hmessage : message.lookup .type = some (.str type)) (hne : type ≠ type') :
    hasType message type' = false := by
  simp [hasType, hmessage, hne]

lemma validateAck_eq_some {message : Message H} {read : Ack H} (h : validateAck message = some read) :
    hasType message ackType = true ∧
      message.lookup .requestId = some (.str read.requestId) ∧
      message.lookup .sha256 = some (.sha256 read.sha256) := by
  unfold validateAck at h
  split at h
  next hshape =>
    simp only [Option.bind_eq_bind, Option.bind_eq_some_iff, Option.pure_def,
      Option.some.injEq] at h
    obtain ⟨requestId, hid, duplicate, -, sha256, hsha, shard, -, rfl⟩ := h
    refine ⟨(Bool.and_eq_true_iff.mp hshape).1, ?_, ?_⟩
    · cases hvalue : message.lookup .requestId with
      | none => simp [hvalue, requestIdOf] at hid
      | some value =>
        cases value <;> simp_all [requestIdOf]
    · cases hvalue : message.lookup .sha256 with
      | none => simp [hvalue, digestOf] at hsha
      | some value =>
        cases value <;> simp_all [digestOf]
  · cases h

lemma validateNack_eq_some {message : Message H} {read : Nack} (h : validateNack message = some read) :
    hasType message nackType = true ∧
      message.lookup .requestId = some (read.requestId.elim .null .str) ∧
      kindOf (message.lookup .kind) = some read.kind ∧
      message.lookup .retryable = some (.bool read.retryable) := by
  unfold validateNack at h
  split at h
  next hshape =>
    simp only [Option.bind_eq_bind, Option.bind_eq_some_iff] at h
    obtain ⟨requestId, hid, kind, hkind, retryable, hretryable, detail, -, hread⟩ := h
    split at hread
    next =>
      obtain rfl := Option.some.inj hread
      refine ⟨(Bool.and_eq_true_iff.mp hshape).1, ?_, hkind, ?_⟩
      · unfold nackRequestIdOf at hid
        split at hid
        next hnull =>
          obtain rfl := Option.some.inj hid
          exact hnull
        · obtain ⟨id, hid, rfl⟩ := Option.map_eq_some_iff.mp hid
          cases hvalue : message.lookup .requestId with
          | none => simp [hvalue, requestIdOf] at hid
          | some value => cases value <;> simp_all [requestIdOf]
      · cases hvalue : message.lookup .retryable with
        | none => simp [hvalue, boolOf] at hretryable
        | some value => cases value <;> simp_all [boolOf]
    · cases hread
  · cases h

lemma validateHas_eq_some {message : Message H} {read : HasResponse}
    (h : validateHas message = some read) :
    hasType message hasAnswerType = true ∧
      message.lookup .requestId = some (.str read.requestId) ∧
      message.lookup .held = some (.bool read.held) := by
  unfold validateHas at h
  split at h
  next hshape =>
    simp only [Option.bind_eq_bind, Option.bind_eq_some_iff, Option.pure_def,
      Option.some.injEq] at h
    obtain ⟨requestId, hid, held, hheld, shard, -, rfl⟩ := h
    refine ⟨(Bool.and_eq_true_iff.mp (Bool.and_eq_true_iff.mp hshape).1).1, ?_, ?_⟩
    · cases hvalue : message.lookup .requestId with
      | none => simp [hvalue, requestIdOf] at hid
      | some value => cases value <;> simp_all [requestIdOf]
    · cases hvalue : message.lookup .held with
      | none => simp [hvalue, boolOf] at hheld
      | some value => cases value <;> simp_all [boolOf]
  · cases h

lemma classify_nack {α : Type} {message : Message H} (validate : Message H → Option α)
    (expectedRequestId : Text) (hnack : isNack message = true) :
    classify (.response (some message)) validate expectedRequestId = .error malformed ∨
      ∃ read, validateNack message = some read ∧
        (read.requestId = none ∨ read.requestId = some expectedRequestId) ∧
        classify (.response (some message)) validate expectedRequestId =
          .error ⟨.nack, some read.kind, some (String.ofList read.detail), read.retryable⟩ := by
  simp only [classify, hnack, if_true]
  cases hread : validateNack message with
  | none => exact Or.inl rfl
  | some read =>
    dsimp only
    split
    · exact Or.inl rfl
    next hid =>
      refine Or.inr ⟨read, rfl, ?_, rfl⟩
      by_contra hne
      exact hid ⟨fun h => hne (Or.inl h), fun h => hne (Or.inr h)⟩

lemma classify_ok {α : Type} {outcome : SendOutcome H} {validate : Message H → Option α}
    {expectedRequestId : Text} {value : α} (h : classify outcome validate expectedRequestId = .ok value) :
    ∃ message, outcome = .response (some message) ∧ validate message = some value := by
  unfold classify at h
  split at h
  · cases h
  · cases h
  · cases h
  · cases h
  next message =>
    split at h
    · split at h
      · cases h
      · split at h <;> cases h
    · split at h
      · cases h
      next hvalue =>
        obtain rfl := Except.ok.inj h
        exact ⟨message, rfl, hvalue⟩

theorem ack_of_delivered {outcome : SendOutcome H} {requestId : Text} {sha256 : H.Digest}
    (h : deliverResult outcome requestId sha256 = .delivered) :
    ∃ message read, outcome = .response (some message) ∧ validateAck message = some read ∧
      read.requestId = requestId ∧ read.sha256 = sha256 := by
  unfold deliverResult at h
  split at h
  next hok =>
    obtain ⟨message, rfl, hread⟩ := classify_ok hok
    obtain ⟨hvalid, hmatch⟩ := Option.filter_eq_some_iff.mp hread
    exact ⟨message, _, rfl, hvalid, by simpa using hmatch⟩
  · cases h

lemma isItemRejected_notDelivered {reason : UndeliveredReason} {kind : Option NackKind}
    {detail : Option String} {retryable : Bool} :
    isItemRejected (.notDelivered reason kind detail retryable) = true ↔
      reason = .nack ∧ retryable = false ∧ ∃ k, kind = some k ∧ k ∉ hostScopeKinds := by
  unfold isItemRejected
  split
  next hresult => simp_all [and_comm]
  next hother =>
    simp only [Bool.false_eq_true, false_iff]
    rintro ⟨rfl, -, k, rfl, -⟩
    exact hother _ _ _ rfl

lemma nack_of_error {α : Type} {outcome : SendOutcome H} {validate : Message H → Option α}
    {expectedRequestId : Text} {failure : Failure}
    (h : classify outcome validate expectedRequestId = .error failure)
    (hreason : failure.reason = .nack) :
    ∃ message read, outcome = .response (some message) ∧ validateNack message = some read ∧
      (read.requestId = none ∨ read.requestId = some expectedRequestId) ∧
      failure.kind = some read.kind ∧ failure.retryable = read.retryable := by
  match outcome, h with
  | .noApi, h | .timeout, h | .error _, h | .response none, h =>
    obtain rfl := Except.error.inj h
    cases hreason
  | .response (some message), h =>
    by_cases hnack : isNack message = true
    · rcases classify_nack validate expectedRequestId hnack with hmalformed | ⟨read, hread, hid, hclassify⟩
      · obtain rfl := Except.error.inj (hmalformed.symm.trans h)
        cases hreason
      · obtain rfl := Except.error.inj (hclassify.symm.trans h)
        exact ⟨message, read, rfl, hread, hid, rfl, rfl⟩
    · simp only [classify, hnack, Bool.false_eq_true, if_false] at h
      split at h
      · obtain rfl := Except.error.inj h
        cases hreason
      · cases h

/-- Only a refusal that names the request or none gives an item up, and only one about the item that
is not retryable. -/
theorem nack_of_rejected {outcome : SendOutcome H} {requestId : Text} {sha256 : H.Digest}
    (h : isItemRejected (deliverResult outcome requestId sha256) = true) :
    ∃ message read, outcome = .response (some message) ∧ validateNack message = some read ∧
      (read.requestId = none ∨ read.requestId = some requestId) ∧ read.retryable = false ∧
      read.kind ∉ hostScopeKinds := by
  unfold deliverResult at h
  split at h
  · simp [isItemRejected] at h
  next failure hfailed =>
    obtain ⟨hreason, hretryable, kind, hkind, hitem⟩ := isItemRejected_notDelivered.mp h
    obtain ⟨message, read, rfl, hread, hid, hkind', hretryable'⟩ := nack_of_error hfailed hreason
    obtain rfl := Option.some.inj (hkind'.symm.trans hkind)
    exact ⟨message, read, rfl, hread, hid, hretryable'.symm.trans hretryable, hitem⟩

end Wire

end ChatStasher.Delivery
