import Mathlib.Data.Char
import Mathlib.Data.List.Lex
import ChatStasher.Inbox.Seal
import ChatStasher.Library.StepRun
import ChatStasher.Library.Tasks

/-! The rolling-hour accounting of authenticated pull attempts, one key. -/
namespace ChatStasher.Inbox

def windowSecs : ℕ := 3600

/-- The rows of one key: the clock of the last reservation and the attempts not yet expired. -/
structure KeyRate where
  lastNow : Option ℕ
  attempts : List ℕ
  deriving DecidableEq

/-- What becomes of the transaction: committed, not begun, or committed with a failure reported
afterwards. -/
inductive Fate
  | done
  | failed
  | failedAfter
  deriving DecidableEq

namespace KeyRate

def empty : KeyRate := ⟨none, []⟩

/-- The reservation's transaction: `none` where it fails, else whether the attempt is admitted. Times
and limits outside the range of an `i64` are errors. -/
def reserve (rate : KeyRate) (now limit : ℕ) : KeyRate × Option Bool :=
  if 2 ^ 63 ≤ now ∨ 2 ^ 63 ≤ limit ∨ rate.lastNow.any (now < ·) then (rate, none)
  else
    let kept := rate.attempts.filter fun attempt => now < attempt + windowSecs
    if kept.length < limit then (⟨some now, kept ++ [now]⟩, some true)
    else (⟨some now, kept⟩, some false)

/-- The admitted attempts of a key, all of them, against what its rows still hold: no attempt is
later than the clock, every attempt of the last hour is held, and no window of an hour holds more
than the limit. -/
structure Accounts (rate : KeyRate) (admitted : List ℕ) (limit : ℕ) : Prop where
  past : ∀ attempt ∈ admitted, ∃ last, rate.lastNow = some last ∧ attempt ≤ last
  held : ∀ start, (∀ last, rate.lastNow = some last → last < start + windowSecs) →
    (admitted.filter fun attempt => start ≤ attempt).length ≤
      (rate.attempts.filter fun attempt => start ≤ attempt).length
  window : ∀ start, (admitted.filter fun attempt =>
    start ≤ attempt ∧ attempt < start + windowSecs).length ≤ limit

def admittedBy (now : ℕ) (answer : Option Bool) : List ℕ :=
  if answer = some true then [now] else []

variable {rate : KeyRate} {admitted : List ℕ} {now limit : ℕ}

lemma held_of_expiry (h : Accounts rate admitted limit)
    (hclock : ∀ last, rate.lastNow = some last → last ≤ now) {start : ℕ}
    (hstart : now < start + windowSecs) :
    (admitted.filter fun attempt => start ≤ attempt).length ≤
      ((rate.attempts.filter fun attempt => now < attempt + windowSecs).filter
        fun attempt => start ≤ attempt).length := by
  have hsame : (rate.attempts.filter fun attempt => now < attempt + windowSecs).filter
      (fun attempt => start ≤ attempt) = rate.attempts.filter fun attempt => start ≤ attempt := by
    rw [List.filter_filter]
    refine List.filter_congr fun attempt _ => ?_
    by_cases hle : start ≤ attempt
    · have hlt : now < attempt + windowSecs := by omega
      simp [hle, hlt]
    · simp [hle]
  rw [hsame]
  exact h.held start fun last hlast => lt_of_le_of_lt (hclock last hlast) hstart

theorem Accounts.reserve (h : Accounts rate admitted limit) :
    Accounts (rate.reserve now limit).1 (admitted ++ admittedBy now (rate.reserve now limit).2)
      limit := by
  unfold KeyRate.reserve
  split
  · simpa [admittedBy] using h
  next hvalid =>
    have hclock : ∀ last, rate.lastNow = some last → last ≤ now := by
      intro last hlast
      by_contra hlt
      exact hvalid (Or.inr (Or.inr (by simpa [hlast] using hlt)))
    have hpast : ∀ attempt ∈ admitted, attempt ≤ now := by
      intro attempt hattempt
      obtain ⟨last, hlast, hle⟩ := h.past attempt hattempt
      exact hle.trans (hclock last hlast)
    dsimp only
    split
    next hroom =>
      simp only [admittedBy, if_true]
      refine ⟨fun attempt hattempt => ⟨now, rfl, ?_⟩, fun start hstart => ?_, fun start => ?_⟩
      · rcases List.mem_append.mp hattempt with hold | hnew
        · exact hpast attempt hold
        · exact (List.mem_singleton.mp hnew).le
      · have hheld := held_of_expiry h hclock (hstart now rfl)
        simp only [List.filter_append, List.length_append]
        omega
      · by_cases hin : start ≤ now ∧ now < start + windowSecs
        · -- everything the window holds besides the new attempt is among the kept rows
          have hheld := held_of_expiry h hclock hin.2
          have hle : (admitted.filter fun attempt =>
              start ≤ attempt ∧ attempt < start + windowSecs).length ≤
              (admitted.filter fun attempt => start ≤ attempt).length := by
            refine (List.monotone_filter_right admitted fun attempt => ?_).length_le
            simp +contextual
          have hkept := List.length_filter_le (fun attempt => decide (start ≤ attempt))
            (rate.attempts.filter fun attempt => now < attempt + windowSecs)
          have hone := List.length_filter_le (fun attempt =>
            decide (start ≤ attempt ∧ attempt < start + windowSecs)) [now]
          simp only [List.filter_append, List.length_append, List.length_singleton] at hone ⊢
          omega
        · have hwindow := h.window start
          simpa [List.filter_append, List.filter_cons, hin] using hwindow
    next =>
      simp only [admittedBy, Option.some.injEq, Bool.false_eq_true, if_false, List.append_nil]
      refine ⟨fun attempt hattempt => ⟨now, rfl, hpast attempt hattempt⟩, fun start hstart => ?_,
        h.window⟩
      exact held_of_expiry h hclock (hstart now rfl)

end KeyRate

end ChatStasher.Inbox

/-! Pulling the remote inbox: authenticate an object, seal its bundle, prove that every declared
destination holds the record, and only then delete the object. -/
namespace ChatStasher.Inbox

structure Envelope where
  schema : Text
  keyId : Text
  ciphertext : Text
  signature : Text
  deriving DecidableEq

def envelopeSchema : Text := "chat-stasher/remote-inbox@1".toList

/-- Trusted pull-time state of one sending key. -/
structure KeyPolicy (PublicKey : Type) where
  publicKey : PublicKey
  platform : Text
  expiresAt : ℕ
  revoked : Bool
  maxBundleBytes : ℕ
  maxObjectsPerPull : ℕ

/-- What the code takes from the JSON, signature and encryption crates. -/
structure Crypto where
  PublicKey : Type
  Signature : Type
  envelope : Bytes → Option Envelope
  fromBase64 : Text → Option Bytes
  signature : Bytes → Option Signature
  verifyStrict : PublicKey → Bytes → Signature → Bool
  decrypt : Bytes → Option Bytes

/-- What a pull is configured with: the keys, the declared destinations, the size limit, and what
each object key of the prefix stands for. A key's bytes never change. -/
structure PullConfig (C : Crypto) where
  keys : Text → Option (KeyPolicy C.PublicKey)
  declared : List ℕ
  maxObjectBytes : ℕ
  content : Text → Bytes

inductive Refusal
  | envelope
  | unknownKey
  | revokedKey
  | expiredKey
  | sizeLimit
  | rateLimit
  | rateAccounting
  | signature
  | decrypt
  | contract
  | scope
  | seal
  | fetch
  | retire
  | unproven
  | archiveRead
  deriving DecidableEq

def lengthBytes (n : ℕ) : Bytes := (List.range 8).reverse.map fun i => UInt8.ofNat (n / 256 ^ i)

/-- Domain separation binds the envelope version and key id to the ciphertext. -/
def signedBytes (keyId : Text) (ciphertext : Bytes) : Bytes :=
  utf8 envelopeSchema ++ lengthBytes (utf8 keyId).length ++ utf8 keyId ++ ciphertext

def opaqueKey (key : Text) : Bool :=
  key.length == 64 && key.all fun c => c.isDigit || ('a' ≤ c && c ≤ 'f')

/-- An object whose envelope was authenticated, under the policy of its key. -/
structure Authenticated (C : Crypto) where
  keyId : Text
  policy : KeyPolicy C.PublicKey
  ciphertext : Bytes

/-- The object a pull is at work on and the bundle it carries. -/
structure Opened where
  key : Text
  bytes : Bytes
  keyId : Text
  bundle : Bytes
  deriving DecidableEq

section Open
variable {H : Sha256} {C : Crypto} (R : Reader H) (config : PullConfig C)

/-- Everything up to the signature; no quota is touched. -/
def authenticate (now : ℕ) (bytes : Bytes) : Except Refusal (Authenticated C) :=
  match C.envelope bytes with
  | none => .error .envelope
  | some envelope =>
    if envelope.schema ≠ envelopeSchema then .error .envelope
    else
      match config.keys envelope.keyId with
      | none => .error .unknownKey
      | some policy =>
        if policy.revoked then .error .revokedKey
        else if policy.expiresAt ≤ now then .error .expiredKey
        else
          match C.fromBase64 envelope.ciphertext with
          | none => .error .envelope
          | some ciphertext =>
            match (C.fromBase64 envelope.signature).bind C.signature with
            | none => .error .signature
            | some signature =>
              if C.verifyStrict policy.publicKey (signedBytes envelope.keyId ciphertext) signature then
                .ok ⟨envelope.keyId, policy, ciphertext⟩
              else .error .signature

/-- The platform and key that the bundle's producer names are those of the envelope's key. -/
def inScope (keyId platform : Text) (file : HarnessFile H) : Bool :=
  file.producer.any fun producer => producer.kind = "send".toList &&
    producer.sendKeyId = some keyId && producer.platform = some platform

/-- Everything after the reservation. -/
def openBundle (auth : Authenticated C) : Except Refusal Bytes :=
  match C.decrypt auth.ciphertext with
  | none => .error .decrypt
  | some bundle =>
    if auth.policy.maxBundleBytes < bundle.length then .error .sizeLimit
    else if (checkBundleParsed R bundle).isNone then .error .contract
    else
      match R.read bundle with
      | .v3 (some (.harnessFile file)) =>
        if inScope auth.keyId auth.policy.platform file then .ok bundle else .error .scope
      | _ => .error .contract

end Open

/-- How far a pull has come with the object in its hands: opening its bytes, sealing its bundle,
looking whether the sealed record is a resend and what it refers to, proving each record, reading one
destination after the other for it, deleting the object. -/
inductive PullPhase (H : Sha256)
  | listed
  | fetched (key : Text) (bytes : Bytes)
  | sealing (obj : Opened) (call : SealCall H)
  | examining (obj : Opened) (outcome : SealOutcome H)
  | resolving (obj : Opened) (outcome : SealOutcome H) (record : ShardRecord H) (reference : H.Digest)
  | proving (obj : Opened) (targets : List (SealOutcome H))
  | reading (obj : Opened) (target : SealOutcome H) (record : ShardRecord H) (held : Bool)
      (unread : List ℕ) (targets : List (SealOutcome H))
  | retiring (obj : Opened)
  deriving DecidableEq

structure Pull (H : Sha256) where
  id : ℕ
  now : ℕ
  rest : List Text
  used : Text → ℕ
  refused : List Refusal
  phase : PullPhase H

/-- A process: none, a pull, or another seal into the same stage. -/
inductive Worker (H : Sha256)
  | idle
  | pulling (pull : Pull H)
  | sealing (call : SealCall H)

/-- What one repository holds of this machine's sessions, by shard name. -/
abbrev HeldShards := Text → List (FileName × Bytes)

/-- The prefix, the stage with its lock, the destinations and the rate state; beside them every shard
ever sealed and every attempt ever admitted. -/
structure RemoteSite (H : Sha256) where
  objects : List Text
  stage : Stage H
  pool : List (Shard H)
  lock : Option ℕ
  destinations : ℕ → HeldShards
  rate : Text → KeyRate
  admitted : Text → List ℕ
  workers : ℕ → Worker H
  nextPull : ℕ

/-- Objects arrive; pulls and other seals start, take their next step or are killed; a push or
anything else changes what a destination holds; an applied reclaim takes shards from the stage. -/
inductive RemoteAction (H : Sha256)
  | upload (key : Text)
  | pull (p : ℕ) (now : ℕ)
  | deliver (p : ℕ) (sourceFile : SourceFile) (bytes : Bytes) (fingerprint accountKey : Option Text)
  | work (p : ℕ) (fate : Fate)
  | store (destination : ℕ) (archive : HeldShards)
  | reclaim (proven : Shard H → Bool)
  | kill (p : ℕ)

variable {H : Sha256} {C : Crypto}

namespace RemoteSite

def become (s : RemoteSite H) (p : ℕ) (worker : Worker H) : RemoteSite H :=
  { s with workers := Function.update s.workers p worker }

/-- The kernel drops the lock of a process that returns from a seal or dies. -/
def release (s : RemoteSite H) (p : ℕ) : RemoteSite H :=
  { s with lock := Mutex.release s.lock p }

def goOn (s : RemoteSite H) (p : ℕ) (pull : Pull H) (phase : PullPhase H) : RemoteSite H :=
  s.become p (.pulling { pull with phase })

def refuse (s : RemoteSite H) (p : ℕ) (pull : Pull H) (refusal : Refusal) : RemoteSite H :=
  s.become p (.pulling { pull with phase := .listed, refused := pull.refused ++ [refusal] })

end RemoteSite

def recordNamed (stage : Stage H) (id : Text) (name : FileName) : Option (ShardRecord H) :=
  ((stage.sealedShardEntries id).find? fun shard => shardFilename shard.seq = name).map Shard.record

def originalOf (stage : Stage H) (id : Text) (reference : H.Digest) : Option (Shard H) :=
  (stage.sealedShardEntries id).find? fun shard =>
    shard.record.kind = .harnessFile ∧ shard.record.fileSha256 = reference

def sendContentKey (record : ShardRecord H) : Option (SliceFile H) :=
  record.v3.bind CaptureMetadata.file

variable (R : Reader H) (config : PullConfig C) (line : ShardRecord H → Bytes) (machine : Text)

/-- One operation of a seal. A process that finds the lock taken polls it again. -/
def remoteSeal (s : RemoteSite H) (p : ℕ) (call : SealCall H) (succeeds : Bool)
    (goOn : SealCall H → Worker H) (after : Except SealError (SealOutcome H) → Worker H) :
    RemoteSite H :=
  if call.holdsLock = false ∧ succeeds = true ∧ s.lock ≠ none then s
  else
    let (stage, next) := advanceSeal R machine s.stage call succeeds
    let s := { s with stage, pool := s.pool ++ stage.shards.drop s.stage.shards.length }
    match next with
    | .running call => { s with lock := some p }.become p (goOn call)
    | .returned result => (s.release p).become p (after result)

/-- Authenticate the object, reserve an attempt, and only then decrypt and check its bundle. -/
def openObject (s : RemoteSite H) (p : ℕ) (pull : Pull H) (key : Text) (bytes : Bytes) (fate : Fate) :
    RemoteSite H :=
  match authenticate config pull.now bytes with
  | .error refusal => s.refuse p pull refusal
  | .ok auth =>
    if auth.policy.maxObjectsPerPull ≤ pull.used auth.keyId then s.refuse p pull .rateLimit
    else if fate = .failed then s.refuse p pull .rateAccounting
    else
      let (rate, answer) :=
        (s.rate auth.keyId).reserve pull.now auth.policy.maxObjectsPerPull
      let s := { s with
        rate := Function.update s.rate auth.keyId rate
        admitted := Function.update s.admitted auth.keyId
          (s.admitted auth.keyId ++ KeyRate.admittedBy pull.now answer) }
      match answer, fate with
      | some true, .done =>
        let pull := { pull with
          used := Function.update pull.used auth.keyId (pull.used auth.keyId + 1) }
        match openBundle R auth with
        | .error refusal => s.refuse p pull refusal
        | .ok bundle =>
          match parseBundle R key bundle with
          | none => s.refuse p pull .seal
          | some payload =>
            s.goOn p pull (.sealing ⟨key, bytes, auth.keyId, bundle⟩
              ⟨(key, none), bundle, none, none, payload, .parsed⟩)
      | some false, .done => s.refuse p pull .rateLimit
      | _, _ => s.refuse p pull .rateAccounting

/-- Read one destination for a record: the shard of that name with the record's digest. -/
def holdsRecord (archive : HeldShards) (target : SealOutcome H) (record : ShardRecord H) : Bool :=
  (archive target.id).any fun shard =>
    shard.1 = target.shard ∧ H.digest shard.2 = H.digest (line record)

/-- The next operation of a pull. -/
def pullWork (s : RemoteSite H) (p : ℕ) (pull : Pull H) (fate : Fate) : RemoteSite H :=
  match pull.phase with
  | .listed =>
    match pull.rest with
    | [] => s.become p .idle
    | key :: rest =>
      let pull := { pull with rest }
      if fate = .done ∧ key ∈ s.objects ∧ (config.content key).length ≤ config.maxObjectBytes then
        s.goOn p pull (.fetched key (config.content key))
      else s.refuse p pull .fetch
  | .fetched key bytes => openObject R config s p pull key bytes fate
  | .sealing obj call =>
    remoteSeal R machine s p call (fate = .done) (fun call => .pulling { pull with phase := .sealing obj call })
      fun result => .pulling (match result with
        | .ok outcome => { pull with phase := .examining obj outcome }
        | .error _ => { pull with phase := .listed, refused := pull.refused ++ [.seal] })
  | .examining obj outcome =>
    match (if fate = .done then recordNamed s.stage outcome.id outcome.shard else none) with
    | none => s.refuse p pull .seal
    | some record =>
      if record.kind ≠ .harnessResend then s.goOn p pull (.proving obj [outcome])
      else
        match record.contentRef with
        | none => s.refuse p pull .seal
        | some reference => s.goOn p pull (.resolving obj outcome record reference)
  | .resolving obj outcome record reference =>
    match (if fate = .done then originalOf s.stage outcome.id reference else none) with
    | none => s.refuse p pull .seal
    | some original =>
      if sendContentKey original.record = sendContentKey record ∧
          (recordBody R original.record).isSome then
        s.goOn p pull (.proving obj
          [.duplicate outcome.id (shardFilename original.seq) reference, outcome])
      else s.refuse p pull .seal
  | .proving obj [] => s.goOn p pull (.retiring obj)
  | .proving obj (target :: targets) =>
    if config.declared = [] then s.refuse p pull .unproven
    else
      match (if fate = .done then recordNamed s.stage target.id target.shard else none) with
      | none => s.refuse p pull .archiveRead
      | some record =>
        if record.id = target.id ∧ record.machine = machine ∧
            record.fileSha256 = target.fileSha256 then
          s.goOn p pull (.reading obj target record true config.declared targets)
        else s.refuse p pull .archiveRead
  | .reading obj target record held (destination :: unread) targets =>
    if fate = .done then
      s.goOn p pull (.reading obj target record
        (held && holdsRecord line (s.destinations destination) target record) unread targets)
    else s.refuse p pull .archiveRead
  | .reading obj _ _ held [] targets =>
    if held then s.goOn p pull (.proving obj targets) else s.refuse p pull .unproven
  | .retiring obj =>
    let gone := { s with objects := s.objects.filter fun key => key ≠ obj.key }
    match fate with
    | .done => gone.goOn p pull .listed
    | .failed => s.refuse p pull .retire
    | .failedAfter => gone.refuse p pull .retire

/-- A pull lists the prefix; only opaque keys are taken up. -/
def startPull (s : RemoteSite H) (p now : ℕ) : RemoteSite H :=
  let pull : Pull H :=
    { id := s.nextPull
      now
      rest := (s.objects.filter opaqueKey).insertionSort (· ≤ ·)
      used := fun _ => 0
      refused := (s.objects.filter fun key => !opaqueKey key).map fun _ => .fetch
      phase := .listed }
  { s with nextPull := s.nextPull + 1 }.become p (.pulling pull)

def remoteStep (s : RemoteSite H) : RemoteAction H → RemoteSite H
  | .upload key => { s with objects := if key ∈ s.objects then s.objects else s.objects ++ [key] }
  | .pull p now =>
    match s.workers p with
    | .idle => startPull s p now
    | _ => s
  | .deliver p sourceFile bytes fingerprint accountKey =>
    match s.workers p, parseBundle R sourceFile.1 bytes with
    | .idle, some payload =>
      s.become p (.sealing ⟨sourceFile, bytes, fingerprint, accountKey, payload, .parsed⟩)
    | _, _ => s
  | .work p fate =>
    match s.workers p with
    | .idle => s
    | .pulling pull => pullWork R config line machine s p pull fate
    | .sealing call => remoteSeal R machine s p call (fate = .done) .sealing fun _ => .idle
  | .store destination archive =>
    { s with destinations := Function.update s.destinations destination archive }
  | .reclaim proven =>
    { s with stage := { s.stage with shards := s.stage.shards.filter fun shard => !proven shard } }
  | .kill p => (s.become p .idle).release p

end ChatStasher.Inbox
