import ChatStasher.Delivery.Wire
import ChatStasher.Library.Tasks
import ChatStasher.Library.StepRun

/-! Deliveries and content questions: the calls of the extension, the host processes that handle
them over one stage, and what comes back. -/
namespace ChatStasher.Delivery
open Inbox (Bundle Incoming Reader SealCall SealError SealOutcome Shard Stage Text)

variable {H : Sha256}

/-- A request as it goes out. -/
inductive Request (H : Sha256)
  | deliver (requestId name : Text) (payload : Bytes) (sha256 : H.Digest)
      (fingerprint accountId : Option Text)
  | has (requestId platform sessionId fingerprint : Text)
  deriving DecidableEq

def Request.requestId : Request H → Text
  | .deliver requestId _ _ _ _ _ => requestId
  | .has requestId _ _ _ => requestId

def deliverRequest (requestId name : Text) (payload : Bytes) (fingerprint accountId : Option Text) :
    Request H :=
  .deliver requestId name payload (H.digest payload) fingerprint (accountId.filter (· ≠ []))

/-- What arrives on the host's standard input. -/
inductive Frame
  | request
  | notJson
  | tooLarge
  | truncated
  deriving DecidableEq

/-- What the host finds where its configuration points. -/
inductive HostTarget
  | ready
  | noConfig
  | noStage
  deriving DecidableEq

/-- What the record of the sender's identity comes to. -/
inductive IdentityGate
  | clear
  | conflict
  | fault
  deriving DecidableEq

def isLowerHex (c : Char) : Bool := c.isDigit || ('a' ≤ c && c ≤ 'f')

def validSha256 (sha : Text) : Bool := sha.length = 64 && sha.all isLowerHex

/-- `^[a-z0-9]+-[^/\\]+\.json$`. -/
def validName (name : Text) : Bool :=
  match stripSuffix ".json".toList name with
  | none => false
  | some stem =>
    let head := stem.takeWhile (· ≠ '-')
    let tail := (stem.dropWhile (· ≠ '-')).drop 1
    !head.isEmpty && head.all (fun c => c.isLower || c.isDigit) && !tail.isEmpty &&
      tail.all fun c => c ≠ '/' && c ≠ '\\'

def isControl (c : Char) : Bool := c.toNat < 0x20 || (0x7F ≤ c.toNat && c.toNat < 0xA0)

def validAccountId (id : Text) : Bool :=
  !id.isEmpty && (Inbox.utf8 id).length ≤ 4096 && !id.any isControl

def validFingerprintedChatgptScope (scope : Text) : Bool :=
  "chatgpt:fp1:".toList.isPrefixOf scope && validSha256 (scope.drop "chatgpt:fp1:".length)

def chatgptAccountScopeIsMarked (platform : Text) (scope : Option Text) : Bool :=
  platform ≠ "chatgpt".toList || scope.all validFingerprintedChatgptScope

/-- The platform as the bundle spells it; a bundle without one has the empty platform. -/
def rawPlatform : Incoming H → Text
  | .legacy bundle => bundle.platform.getD []
  | .v3 (some (.webCapture bundle _)) => bundle.platform.getD []
  | _ => []

def echoedId (requestId : Text) : Option Text :=
  if validRequestId requestId then some requestId else none

/-- What the host takes from elsewhere: how bundles are read, its machine, and the archive key of an
account. -/
structure HostEnv (H : Sha256) where
  reader : Reader H
  machine : Text
  accountKey : Text → Text → Option Text

variable (E : HostEnv H)

/-- A delivery up to its seal: the refusal, or the call of the seal. -/
def openDelivery (requestId name : Text) (payload : Bytes) (sha256 : H.Digest)
    (fingerprint accountId : Option Text) (target : HostTarget) (gate : IdentityGate) :
    Except (Option Text × NackKind) (SealCall H) :=
  let requestId := echoedId requestId
  if requestId.isNone || !validName name || !fingerprint.all validSha256 ||
      !accountId.all validAccountId then .error (requestId, .badRequest)
  else if H.digest payload ≠ sha256 then .error (requestId, .integrity)
  else
    match Inbox.checkBundleParsed E.reader payload with
    | none => .error (requestId, .invalidBundle)
    | some parsed =>
      let platform := rawPlatform (E.reader.read payload)
      if !chatgptAccountScopeIsMarked platform accountId then .error (requestId, .badRequest)
      else
        match target, gate with
        | .noConfig, _ => .error (requestId, .config)
        | .noStage, _ => .error (requestId, .stageUnavailable)
        | .ready, .fault => .error (requestId, .io)
        | .ready, .conflict => .error (requestId, .identityConflict)
        | .ready, .clear =>
          .ok ⟨(name, none), payload, fingerprint, accountId.bind (E.accountKey platform), parsed,
            .parsed⟩

/-- A content question up to its lookup: the refusal, or the session directory. -/
def openHas (requestId platform sessionId fingerprint : Text) (target : HostTarget) :
    Except (Option Text × NackKind) Text :=
  let requestId := echoedId requestId
  if requestId.isNone || !validSha256 fingerprint || platform.isEmpty ||
      512 < (Inbox.utf8 platform).length || sessionId.isEmpty || 512 < (Inbox.utf8 sessionId).length then
    .error (requestId, .badRequest)
  else
    match target with
    | .noConfig => .error (requestId, .config)
    | .noStage => .error (requestId, .stageUnavailable)
    | .ready => .ok (Inbox.sessionDirId E.reader.hexPrefix platform sessionId)

/-- A host process and the call it handles: none, a seal, a seal whose identity record is still to be
committed, or a lookup with the numbers of the shards still to be read. -/
inductive Host (H : Sha256)
  | idle
  | sealing (i : ℕ) (call : SealCall H)
  | committing (i : ℕ) (call : SealCall H) (result : Except SealError (SealOutcome H))
  | looking (i : ℕ) (session fingerprint : Text) (rest : List ℕ)

/-- A call of the extension's: the request it sent and what came back. -/
structure Call (H : Sha256) where
  request : Request H
  outcome : Option (SendOutcome H)
  deriving DecidableEq

/-- A response of some host to a call's request, with the shards on the stage at that moment. -/
structure Answer (H : Sha256) where
  call : ℕ
  message : Message H
  shards : List (Shard H)

/-- The stage and its write lock, the host processes, the calls, and every response a host wrote. -/
structure WireSite (H : Sha256) where
  stage : Stage H
  lock : Option ℕ
  hosts : ℕ → Host H
  calls : List (Call H)
  answers : List (Answer H)

/-- How a call's round trip may end: with a response that some host wrote, to this call or to another,
with a response that no validator accepts, or without any. -/
inductive Arrival (H : Sha256)
  | answer (j : ℕ)
  | malformed (message : Option (Message H))
  | error (detail : String)
  | timeout
  | noApi

/-- The extension sends a delivery or a question; a host process is started for it, does its next operation, which
may fail, or is killed; a call's round trip ends. -/
inductive WireAction (H : Sha256)
  | deliver (requestId name : Text) (payload : Bytes) (fingerprint accountId : Option Text)
  | has (requestId platform sessionId fingerprint : Text)
  | start (p i : ℕ) (frame : Frame) (target : HostTarget) (gate : IdentityGate) (detail : Text)
  | work (p : ℕ) (succeeds : Bool) (detail : Text)
  | kill (p : ℕ)
  | receive (i : ℕ) (arrival : Arrival H)

namespace WireSite

def atRest (stage : Stage H) : WireSite H := ⟨stage, none, fun _ => .idle, [], []⟩

def request (s : WireSite H) (i : ℕ) : Option (Request H) := s.calls[i]?.map Call.request

def become (s : WireSite H) (p : ℕ) (host : Host H) : WireSite H :=
  { s with hosts := Function.update s.hosts p host }

/-- The kernel drops the lock of a process that returns from a seal or dies. -/
def release (s : WireSite H) (p : ℕ) : WireSite H := { s with lock := Mutex.release s.lock p }

def send (s : WireSite H) (request : Request H) : WireSite H :=
  { s with calls := s.calls ++ [⟨request, none⟩] }

def answer (s : WireSite H) (p i : ℕ) (message : Message H) : WireSite H :=
  { s.become p .idle with answers := s.answers ++ [⟨i, message, s.stage.shards⟩] }

end WireSite

def isMalformed (message : Message H) : Bool :=
  (validateAck message).isNone && (validateNack message).isNone && (validateHas message).isNone

/-- A host reads its request, checks it and takes it up, or answers at once. -/
def start (s : WireSite H) (p i : ℕ) (frame : Frame) (target : HostTarget) (gate : IdentityGate)
    (detail : Text) : WireSite H :=
  match s.hosts p, s.request i, frame with
  | .idle, some _, .truncated => s
  | .idle, some _, .notJson => s.answer p i (nack none .badRequest detail)
  | .idle, some _, .tooLarge => s.answer p i (nack none .tooLarge detail)
  | .idle, some (.deliver requestId name payload sha256 fingerprint accountId), .request =>
    match openDelivery E requestId name payload sha256 fingerprint accountId target gate with
    | .error refusal => s.answer p i (nack refusal.1 refusal.2 detail)
    | .ok call => s.become p (.sealing i call)
  | .idle, some (.has requestId platform sessionId fingerprint), .request =>
    match openHas E requestId platform sessionId fingerprint target with
    | .error refusal => s.answer p i (nack refusal.1 refusal.2 detail)
    | .ok session =>
      s.become p (.looking i session fingerprint
        ((s.stage.sealedShardEntries session).map Shard.seq))
  | _, _, _ => s

/-- The kind of refusal that a failed seal becomes. -/
def sealNackKind : SealError → NackKind
  | .lock => .stageUnavailable
  | .identityCollision => .installConflict
  | .other => .io

/-- What a delivery answers once its identity record is committed. -/
def sealAnswer (requestId : Text) (sha256 : H.Digest) (detail : Text) :
    Except SealError (SealOutcome H) → Message H
  | .ok (.stored _ shard _) => ack requestId false sha256 shard
  | .ok (.duplicate _ shard _) => ack requestId true sha256 shard
  | .error error => nack (some requestId) (sealNackKind error) detail

/-- The next operation of a host process. One that finds the lock taken polls it again. -/
def work (s : WireSite H) (p : ℕ) (succeeds : Bool) (detail : Text) : WireSite H :=
  match s.hosts p with
  | .idle => s
  | .sealing i call =>
    if call.holdsLock = false ∧ succeeds = true ∧ s.lock ≠ none then s
    else
      match Inbox.advanceSeal E.reader E.machine s.stage call succeeds with
      | (stage, .running call) => { s with stage, lock := some p }.become p (.sealing i call)
      | (stage, .returned result) =>
        { (s.release p).become p (.committing i call result) with stage }
  | .committing i _ result =>
    match s.request i with
    | some (.deliver requestId _ _ sha256 _ _) =>
      if succeeds then s.answer p i (sealAnswer requestId sha256 detail result)
      else s.answer p i (nack (some requestId) .io detail)
    | _ => s
  | .looking i session fingerprint rest =>
    match s.request i, rest with
    | some (.has requestId _ _ _), [] => s.answer p i (hasAnswer requestId none)
    | some (.has requestId _ _ _), seq :: rest =>
      match (if succeeds then s.stage.shards.find? fun shard =>
          shard.session = session ∧ shard.seq = seq else none) with
      | none => s.answer p i (nack (some requestId) .io detail)
      | some shard =>
        if shard.record.fingerprint = some fingerprint then
          s.answer p i (hasAnswer requestId (some (shardFilename seq)))
        else s.become p (.looking i session fingerprint rest)
    | _, _ => s

/-- What the runtime hands to the waiting call. -/
def arrived (s : WireSite H) : Arrival H → Option (SendOutcome H)
  | .answer j => s.answers[j]?.map fun answer => .response (some answer.message)
  | .malformed none => some (.response none)
  | .malformed (some message) =>
    if isMalformed message then some (.response (some message)) else none
  | .error detail => some (.error detail)
  | .timeout => some .timeout
  | .noApi => some .noApi

/-- The first thing to arrive ends the round trip. -/
def receive (s : WireSite H) (i : ℕ) (arrival : Arrival H) : WireSite H :=
  match s.calls[i]?, arrived s arrival with
  | some ⟨request, none⟩, some outcome => { s with calls := s.calls.set i ⟨request, some outcome⟩ }
  | _, _ => s

def wireStep (s : WireSite H) : WireAction H → WireSite H
  | .deliver requestId name payload fingerprint accountId =>
    s.send (deliverRequest requestId name payload fingerprint accountId)
  | .has requestId platform sessionId fingerprint =>
    s.send (.has requestId platform sessionId fingerprint)
  | .start p i frame target gate detail => start E s p i frame target gate detail
  | .work p succeeds detail => work E s p succeeds detail
  | .kill p => (s.become p .idle).release p
  | .receive i arrival => receive s i arrival

end ChatStasher.Delivery
