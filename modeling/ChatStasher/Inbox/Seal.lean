import ChatStasher.Inbox.Bundle

/-! Sealing one bundle into the stage: the duplicate search, the record and the file operations of
the shard write, one after the other. -/
namespace ChatStasher.Inbox

inductive RecordKind
  | raw
  | bundle
  | webCapture
  | harnessFile
  | harnessResend
  deriving DecidableEq

abbrev SourceFile := Text × Option ℕ

/-- The one line of a sealed shard. -/
structure ShardRecord (H : Sha256) where
  kind : RecordKind
  v3 : Option (CaptureMetadata H)
  id : Text
  platform : Text
  sessionId : Text
  sourceFile : SourceFile
  fileSha256 : H.Digest
  fileBytes : ℕ
  raw : Option BundleRaw
  contentRef : Option H.Digest
  accountKey : Option Text
  installId : Option Text
  browser : Option Text
  profileLabel : Option Text
  machine : Text
  fingerprint : Option Text
  deriving DecidableEq

/-- A sealed shard: its session directory, its sequence number and its record. -/
structure Shard (H : Sha256) where
  session : Text
  seq : ℕ
  record : ShardRecord H
  deriving DecidableEq

/-- The session directories of one machine: what each counter has reached and the sealed shards. -/
structure Stage (H : Sha256) where
  counter : Text → ℕ
  shards : List (Shard H)

inductive SealOutcome (H : Sha256)
  | stored (id : Text) (shard : FileName) (fileSha256 : H.Digest)
  | duplicate (id : Text) (matchedShard : FileName) (fileSha256 : H.Digest)
  deriving DecidableEq

inductive SealError
  | lock
  | identityCollision
  | other
  deriving DecidableEq

/-- How far a seal has come: parsed, the stage lock taken, a number reserved for the record, the
shard renamed into place and not yet proven durable. -/
inductive SealPhase (H : Sha256)
  | parsed
  | locked
  | numbered (record : ShardRecord H) (seq : ℕ)
  | renamed (record : ShardRecord H) (seq : ℕ)
  deriving DecidableEq

/-- A call of `seal_payload` whose payload has been parsed. -/
structure SealCall (H : Sha256) where
  sourceFile : SourceFile
  bytes : Bytes
  fingerprint : Option Text
  accountKey : Option Text
  payload : ParseOutcome H
  phase : SealPhase H
  deriving DecidableEq

def SealCall.holdsLock {H : Sha256} (call : SealCall H) : Bool :=
  match call.phase with
  | .parsed => false
  | _ => true

/-- A call after its next operation: still running, or returned. -/
inductive SealNext (H : Sha256)
  | running (call : SealCall H)
  | returned (result : Except SealError (SealOutcome H))

variable {H : Sha256}

/-- The shard's name is one that the reader of a session directory takes for a shard. -/
def Shard.isListed (shard : Shard H) : Bool := (parseShardSeq (shardFilename shard.seq)).isSome

namespace Stage

def empty : Stage H := ⟨fun _ => 0, []⟩

/-- The sealed shards of one session whose names are read as such, in sequence order. -/
def sealedShardEntries (stage : Stage H) (id : Text) : List (Shard H) :=
  (stage.shards.filter fun shard => shard.session = id ∧ shard.isListed).insertionSort
    fun a b => a.seq ≤ b.seq

def nextShardSeq (stage : Stage H) (id : Text) : Stage H × ℕ :=
  let seq := stage.counter id + 1
  ({ stage with counter := Function.update stage.counter id seq }, seq)

/-- Rename a prepared shard onto its path, replacing what is there. -/
def install (stage : Stage H) (shard : Shard H) : Stage H :=
  { stage with
    shards := stage.shards.filter (fun other =>
      ¬ (other.session = shard.session ∧ other.seq = shard.seq)) ++ [shard] }

end Stage

def existingFileSha (stage : Stage H) (id : Text) (fileSha256 : H.Digest) : Option (Shard H) :=
  (stage.sealedShardEntries id).find? fun shard => shard.record.fileSha256 = fileSha256

def unnamedProfileLabel : Text := "Unnamed profile".toList

def namesAProfile (label : Text) : Bool := label ≠ unnamedProfileLabel

/-- A sealed record that carries the install id under another browser or another named profile. -/
def installIdentityConflicts (stage : Stage H) (installId browser profileLabel : Text) : Bool :=
  stage.shards.any fun shard =>
    let labelConflict := shard.record.profileLabel.any fun saved =>
      namesAProfile saved && namesAProfile profileLabel && saved ≠ profileLabel
    shard.isListed && shard.record.installId = some installId &&
      (shard.record.browser ≠ some browser || labelConflict)

def identityCollides (stage : Stage H) (payload : ParseOutcome H) : Bool :=
  match payload.installId, payload.browser, payload.profileLabel with
  | some installId, some browser, some profileLabel =>
    installIdentityConflicts stage installId browser profileLabel
  | _, _, _ => false

variable (R : Reader H)

/-- The body of a sealed record, re-checked against the metadata it stands under. -/
def recordBody (record : ShardRecord H) : Option Bytes :=
  match record.raw with
  | none => none
  | some (.web envelope) => some (utf8 envelope.text)
  | some (.slice encoded) =>
    if encoded.encoding = "base64".toList ∨ encoded.encoding = "utf-8".toList then do
      let bytes ← if encoded.encoding = "base64".toList then R.fromBase64 encoded.data
        else some (utf8 encoded.data)
      let file ← record.v3.bind CaptureMetadata.file
      if sliceMatches file bytes then some bytes else none
    else none

def isSend (metadata : CaptureMetadata H) : Bool :=
  metadata.producer.any fun producer => producer.kind = "send".toList

def holdsSendContent (key : SliceFile H) (record : ShardRecord H) : Bool :=
  record.kind = .harnessFile && record.v3.any fun metadata =>
    isSend metadata && metadata.file = some key

/-- The digest of the first held record with the slice of this send: `some none` when it is held by
none, `none` when what should hold it cannot be read. -/
def matchingSendContent (stage : Stage H) (payload : ParseOutcome H) : Option (Option H.Digest) :=
  match payload.v3 with
  | none => some none
  | some metadata =>
    if payload.raw.isSlice && isSend metadata then
      match metadata.file with
      | none => none
      | some key =>
        match (stage.sealedShardEntries payload.id).find? fun s => holdsSendContent key s.record with
        | none => some none
        | some shard => (recordBody R shard.record).map fun _ => some shard.record.fileSha256
    else some none

def recordKind (payload : ParseOutcome H) (contentRef : Option H.Digest) : RecordKind :=
  match payload.v3 with
  | some _ =>
    if contentRef.isSome then .harnessResend
    else if payload.raw.isSlice then .harnessFile else .webCapture
  | none => if payload.isBundle then .bundle else .raw

/-- The record sealed for a payload; one that refers to a held record carries no body. -/
def shardRecord (machine : Text) (call : SealCall H) (contentRef : Option H.Digest) :
    ShardRecord H :=
  { kind := recordKind call.payload contentRef
    v3 := call.payload.v3
    id := call.payload.id
    platform := call.payload.platform
    sessionId := call.payload.sessionId
    sourceFile := call.sourceFile
    fileSha256 := H.digest call.bytes
    fileBytes := call.bytes.length
    raw := if contentRef.isSome then none else some call.payload.raw
    contentRef
    accountKey := call.accountKey
    installId := call.payload.installId
    browser := call.payload.browser
    profileLabel := call.payload.profileLabel
    machine
    fingerprint := call.fingerprint }

/-- Under the lock: refuse a collision, recognise a duplicate, else reserve a number for the record.
The shard writer's own search for the same line comes before the reservation. -/
def decideSeal (machine : Text) (stage : Stage H) (call : SealCall H) : Stage H × SealNext H :=
  if identityCollides stage call.payload then (stage, .returned (.error .identityCollision))
  else
    match existingFileSha stage call.payload.id (H.digest call.bytes) with
    | some shard =>
      (stage, .returned (.ok
        (.duplicate call.payload.id (shardFilename shard.seq) (H.digest call.bytes))))
    | none =>
      match matchingSendContent R stage call.payload with
      | none => (stage, .returned (.error .other))
      | some contentRef =>
        let record := shardRecord machine call contentRef
        match (stage.sealedShardEntries call.payload.id).find? fun s => s.record = record with
        | some shard =>
          (stage, .returned (.ok
            (.stored call.payload.id (shardFilename shard.seq) (H.digest call.bytes))))
        | none =>
          let (stage, seq) := stage.nextShardSeq call.payload.id
          (stage, .running { call with phase := .numbered record seq })

/-- The next operation of a seal, or its failure. -/
def advanceSeal (machine : Text) (stage : Stage H) (call : SealCall H) (succeeds : Bool) :
    Stage H × SealNext H :=
  match call.phase, succeeds with
  | .parsed, true => (stage, .running { call with phase := .locked })
  | .parsed, false => (stage, .returned (.error .lock))
  | .locked, true => decideSeal R machine stage call
  | .numbered record seq, true =>
    (stage.install ⟨call.payload.id, seq, record⟩, .running { call with phase := .renamed record seq })
  | .renamed _ seq, true =>
    (stage, .returned (.ok (.stored call.payload.id (shardFilename seq) (H.digest call.bytes))))
  | _, false => (stage, .returned (.error .other))

def copies (stage : Stage H) (id : Text) (fileSha256 : H.Digest) : List (Shard H) :=
  stage.shards.filter fun shard => shard.session = id ∧ shard.record.fileSha256 = fileSha256

end ChatStasher.Inbox

/-! What one operation of a seal does to the stage, whoever else is at work. -/
namespace ChatStasher.Inbox

variable {H : Sha256} {R : Reader H} {machine : Text} {pool : List (Shard H)} {stage : Stage H}
  {call : SealCall H}

namespace SealOutcome

def id : SealOutcome H → Text
  | stored id _ _ => id
  | duplicate id _ _ => id

def shard : SealOutcome H → FileName
  | stored _ shard _ => shard
  | duplicate _ shard _ => shard

def fileSha256 : SealOutcome H → H.Digest
  | stored _ _ fileSha256 => fileSha256
  | duplicate _ _ fileSha256 => fileSha256

end SealOutcome

/-- Of all the shards ever sealed no two of one session carry the same number, and none a number above
its counter. -/
structure SoundStage (pool : List (Shard H)) (stage : Stage H) : Prop where
  kept : stage.shards ⊆ pool
  numbered : pool.Pairwise fun a b => ¬ (a.session = b.session ∧ a.seq = b.seq)
  belowCounter : ∀ shard ∈ pool, shard.seq ≤ stage.counter shard.session

def Apart (stage : Stage H) : Prop :=
  stage.shards.Pairwise fun a b =>
    ¬ (a.session = b.session ∧ a.record.fileSha256 = b.record.fileSha256)

def Unlisted (stage : Stage H) (id : Text) (fileSha256 : H.Digest) : Prop :=
  ∀ shard ∈ stage.shards, shard.isListed = true → shard.session = id →
    shard.record.fileSha256 ≠ fileSha256

def Held (stage : Stage H) (id : Text) (fileSha256 : H.Digest) : Prop :=
  ∃ shard ∈ stage.shards, shard.session = id ∧ shard.record.fileSha256 = fileSha256

/-- A record made for the payload: with its raw envelope, or referring to a record of the session
that holds the same slice of the same file. -/
def RecordOf (R : Reader H) (machine : Text) (pool : List (Shard H)) (call : SealCall H)
    (record : ShardRecord H) : Prop :=
  ∃ contentRef, record = shardRecord machine call contentRef ∧ ∀ digest, contentRef = some digest →
    ∃ original ∈ pool, original.session = call.payload.id ∧
      original.record.fileSha256 = digest ∧ (recordBody R original.record).isSome ∧
      ∃ key, call.payload.v3.bind CaptureMetadata.file = some key ∧
        holdsSendContent key original.record = true

/-- What a running seal relies on once it holds the lock. -/
def CallReady (R : Reader H) (machine : Text) (pool : List (Shard H)) (stage : Stage H)
    (call : SealCall H) : Prop :=
  match call.phase with
  | .parsed => True
  | .locked => True
  | .numbered record seq =>
    RecordOf R machine pool call record ∧ seq = stage.counter call.payload.id ∧
      (∀ shard ∈ pool, shard.session = call.payload.id → shard.seq < seq) ∧
      Unlisted stage call.payload.id (H.digest call.bytes)
  | .renamed record seq =>
    RecordOf R machine pool call record ∧ ⟨call.payload.id, seq, record⟩ ∈ pool

/-- An outcome names a shard of the payload's session that carries the payload's digest. -/
structure OutcomeOf (pool : List (Shard H)) (call : SealCall H) (outcome : SealOutcome H) : Prop where
  id_eq : outcome.id = call.payload.id
  fileSha256_eq : outcome.fileSha256 = H.digest call.bytes
  names : ∃ shard ∈ pool, shard.session = call.payload.id ∧
    shard.record.fileSha256 = H.digest call.bytes ∧ outcome.shard = shardFilename shard.seq

section Stage

lemma isListed_of_lt {shard : Shard H} (h : shard.seq < 10 ^ 6) : shard.isListed = true := by
  simp [Shard.isListed, parseShardSeq_of_lt h]

lemma mem_sealedShardEntries {id : Text} {shard : Shard H} :
    shard ∈ stage.sealedShardEntries id ↔
      shard ∈ stage.shards ∧ shard.session = id ∧ shard.isListed = true := by
  simp [Stage.sealedShardEntries]

lemma held_of_existingFileSha {id : Text} {digest : H.Digest} {shard : Shard H}
    (h : existingFileSha stage id digest = some shard) :
    shard ∈ stage.shards ∧ shard.session = id ∧ shard.record.fileSha256 = digest := by
  obtain ⟨hmem, hid, -⟩ := mem_sealedShardEntries.mp (List.mem_of_find?_eq_some h)
  exact ⟨hmem, hid, by simpa using List.find?_some h⟩

lemma unlisted_of_existingFileSha {id : Text} {digest : H.Digest}
    (h : existingFileSha stage id digest = none) : Unlisted stage id digest := by
  intro shard hmem hlisted hid hsha
  have := List.find?_eq_none.mp h shard (mem_sealedShardEntries.mpr ⟨hmem, hid, hlisted⟩)
  simp [hsha] at this

lemma install_shards_of_new {shard : Shard H}
    (h : ∀ other ∈ stage.shards, other.session = shard.session → other.seq < shard.seq) :
    (stage.install shard).shards = stage.shards ++ [shard] := by
  have hkept : stage.shards.filter (fun other =>
      ¬ (other.session = shard.session ∧ other.seq = shard.seq)) = stage.shards := by
    refine List.filter_eq_self.mpr fun other hother => decide_eq_true ?_
    rintro ⟨hsession, hseq⟩
    have := h other hother hsession
    omega
  exact congrArg (· ++ [shard]) hkept

lemma SoundStage.install {shard : Shard H} (hsound : SoundStage pool stage)
    (hnew : ∀ other ∈ pool, other.session = shard.session → other.seq < shard.seq)
    (hcounter : shard.seq ≤ stage.counter shard.session) :
    SoundStage (pool ++ [shard]) (stage.install shard) where
  kept := by
    rw [install_shards_of_new fun other hother => hnew other (hsound.kept hother)]
    exact List.append_subset.mpr ⟨fun other hother => List.mem_append_left _ (hsound.kept hother),
      List.subset_append_right _ _⟩
  numbered := by
    refine List.pairwise_append.mpr ⟨hsound.numbered, List.pairwise_singleton _ _, ?_⟩
    rintro other hother _ hlast ⟨hsession, hseq⟩
    obtain rfl := List.mem_singleton.mp hlast
    have := hnew other hother hsession
    omega
  belowCounter := by
    intro other hother
    rcases List.mem_append.mp hother with hold | hlast
    · exact hsound.belowCounter other hold
    · obtain rfl := List.mem_singleton.mp hlast
      exact hcounter

lemma Apart.copies_le_one (hapart : Apart stage) (id : Text) (digest : H.Digest) :
    (copies stage id digest).length ≤ 1 := by
  have hpair := hapart.filter fun shard => shard.session = id ∧ shard.record.fileSha256 = digest
  rw [← copies] at hpair
  match hcopies : copies stage id digest with
  | [] => simp
  | [_] => simp
  | a :: b :: rest =>
    have hmem : ∀ shard ∈ copies stage id digest,
        shard.session = id ∧ shard.record.fileSha256 = digest := by
      intro shard hshard
      simpa using (List.mem_filter.mp hshard).2
    rw [hcopies] at hpair hmem
    have ha := hmem a (by simp)
    have hb := hmem b (by simp)
    exact absurd ⟨ha.1.trans hb.1.symm, ha.2.trans hb.2.symm⟩
      ((List.pairwise_cons.mp hpair).1 b (by simp))

lemma Apart.copies_eq_one (hapart : Apart stage) {id : Text} {digest : H.Digest}
    (hheld : Held stage id digest) : (copies stage id digest).length = 1 := by
  obtain ⟨shard, hmem, hid, hsha⟩ := hheld
  have hcopy : shard ∈ copies stage id digest :=
    List.mem_filter.mpr ⟨hmem, decide_eq_true ⟨hid, hsha⟩⟩
  have hpos := List.length_pos_of_mem hcopy
  have hle := hapart.copies_le_one id digest
  omega

lemma soundStage_empty : SoundStage [] (Stage.empty : Stage H) :=
  ⟨List.Subset.refl _, List.Pairwise.nil, by simp⟩

end Stage

section Growth
variable {stage' : Stage H}

lemma Held.mono (h : stage.shards ⊆ stage'.shards) {id : Text} {digest : H.Digest}
    (hheld : Held stage id digest) : Held stage' id digest := by
  obtain ⟨shard, hmem, hfacts⟩ := hheld
  exact ⟨shard, h hmem, hfacts⟩

lemma RecordOf.mono {pool' : List (Shard H)} (h : pool ⊆ pool') {record : ShardRecord H}
    (hrecord : RecordOf R machine pool call record) : RecordOf R machine pool' call record := by
  obtain ⟨contentRef, rfl, href⟩ := hrecord
  refine ⟨contentRef, rfl, fun digest hdigest => ?_⟩
  obtain ⟨original, hmem, hfacts⟩ := href digest hdigest
  exact ⟨original, h hmem, hfacts⟩

lemma OutcomeOf.mono {pool' : List (Shard H)} (h : pool ⊆ pool') {outcome : SealOutcome H}
    (houtcome : OutcomeOf pool call outcome) : OutcomeOf pool' call outcome := by
  obtain ⟨hid, hsha, shard, hmem, hfacts⟩ := houtcome
  exact ⟨hid, hsha, shard, h hmem, hfacts⟩

lemma RecordOf.fileSha256_eq {record : ShardRecord H}
    (hrecord : RecordOf R machine pool call record) :
    record.fileSha256 = H.digest call.bytes := by
  obtain ⟨contentRef, rfl, -⟩ := hrecord
  rfl

lemma callReady_of_not_holdsLock (h : call.holdsLock = false) :
    CallReady R machine pool stage call := by
  rw [CallReady]
  cases hphase : call.phase <;> simp_all [SealCall.holdsLock]

end Growth

lemma original_of_matchingSendContent {digest : H.Digest}
    (h : matchingSendContent R stage call.payload = some (some digest)) :
    ∃ original ∈ stage.shards, original.session = call.payload.id ∧
      original.record.fileSha256 = digest ∧ (recordBody R original.record).isSome ∧
      ∃ key, call.payload.v3.bind CaptureMetadata.file = some key ∧
        holdsSendContent key original.record = true := by
  unfold matchingSendContent at h
  split at h
  · simp at h
  next metadata hv3 =>
    split at h
    · split at h
      · simp at h
      next key hkey =>
        split at h
        · simp at h
        next original hfind =>
          obtain ⟨body, hbody, hdigest⟩ := Option.map_eq_some_iff.mp h
          obtain ⟨hmem, hid, -⟩ := mem_sealedShardEntries.mp (List.mem_of_find?_eq_some hfind)
          refine ⟨original, hmem, hid, Option.some.inj hdigest, ?_, key, ?_, ?_⟩
          · simp [hbody]
          · simp [hv3, hkey]
          · simpa using List.find?_some hfind
    · simp at h

/-- What an operation of a seal leaves: at most one shard more and none less, a sound stage, and a
call that can go on or an outcome that names a sealed shard. -/
structure Advanced (R : Reader H) (machine : Text) (pool : List (Shard H)) (stage : Stage H)
    (call : SealCall H) (after : Stage H × SealNext H) (installed : List (Shard H)) : Prop where
  grown : after.1.shards = stage.shards ++ installed
  one : installed.length ≤ 1
  counter_eq : ∀ id, after.1.counter id = stage.counter id ∨
    id = call.payload.id ∧ after.1.counter id = stage.counter id + 1
  sound : SoundStage (pool ++ installed) after.1
  made : ∀ shard ∈ installed, shard.session = call.payload.id ∧
    RecordOf R machine pool call shard.record ∧
    Unlisted stage shard.session shard.record.fileSha256
  running : ∀ call', after.2 = .running call' →
    (∃ phase, call' = { call with phase }) ∧ call'.holdsLock = true ∧
      CallReady R machine (pool ++ installed) after.1 call'
  returned : ∀ outcome, after.2 = .returned (.ok outcome) →
    OutcomeOf (pool ++ installed) call outcome

lemma advanced_of_error (hsound : SoundStage pool stage) (error : SealError) :
    Advanced R machine pool stage call (stage, .returned (.error error)) [] :=
  ⟨by simp, by simp, fun _ => Or.inl rfl, by simpa using hsound, by simp, by simp, by simp⟩

lemma advanced_of_outcome (hsound : SoundStage pool stage) {outcome : SealOutcome H}
    (h : OutcomeOf pool call outcome) :
    Advanced R machine pool stage call (stage, .returned (.ok outcome)) [] := by
  refine ⟨by simp, by simp, fun _ => Or.inl rfl, by simpa using hsound, by simp, by simp, fun other hother => ?_⟩
  simp only [SealNext.returned.injEq, Except.ok.injEq] at hother
  rw [List.append_nil]
  exact hother ▸ h

lemma advanced_decideSeal (hsound : SoundStage pool stage) :
    Advanced R machine pool stage call (decideSeal R machine stage call) [] := by
  unfold decideSeal
  split
  · exact advanced_of_error hsound _
  split
  next shard hexisting =>
    obtain ⟨hmem, hid, hsha⟩ := held_of_existingFileSha hexisting
    exact advanced_of_outcome hsound ⟨rfl, rfl, shard, hsound.kept hmem, hid, hsha, rfl⟩
  next hnone =>
    have hfresh := unlisted_of_existingFileSha hnone
    split
    · exact advanced_of_error hsound _
    next contentRef hcontent =>
      dsimp only
      have hrecord : RecordOf R machine pool call (shardRecord machine call contentRef) := by
        refine ⟨contentRef, rfl, fun digest hdigest => ?_⟩
        obtain ⟨original, hmem, hfacts⟩ :=
          original_of_matchingSendContent (hcontent.trans (congrArg some hdigest))
        exact ⟨original, hsound.kept hmem, hfacts⟩
      split
      next shard hfind =>
        obtain ⟨hmem, hid, -⟩ := mem_sealedShardEntries.mp (List.mem_of_find?_eq_some hfind)
        have hsame : shard.record = shardRecord machine call contentRef := by
          simpa using List.find?_some hfind
        exact advanced_of_outcome hsound
          ⟨rfl, rfl, shard, hsound.kept hmem, hid, hsame ▸ hrecord.fileSha256_eq, rfl⟩
      · let counter := Function.update stage.counter call.payload.id
          (stage.counter call.payload.id + 1)
        have hcounter : ∀ id, counter id = stage.counter id ∨
            id = call.payload.id ∧ counter id = stage.counter id + 1 := by
          intro id
          by_cases hid : id = call.payload.id
          · exact Or.inr ⟨hid, by simp [counter, hid]⟩
          · exact Or.inl (Function.update_of_ne hid _ _)
        -- the reserved number is above every shard the session ever had
        refine ⟨by simp [Stage.nextShardSeq], by simp, hcounter, ?_, by simp, ?_, by simp⟩
        · rw [List.append_nil]
          refine ⟨hsound.kept, hsound.numbered, fun shard hshard => ?_⟩
          have hle := hsound.belowCounter shard hshard
          have hstep : counter shard.session = stage.counter shard.session ∨ _ :=
            hcounter shard.session
          change shard.seq ≤ counter shard.session
          omega
        · intro call' hcall'
          obtain rfl := SealNext.running.inj hcall'
          rw [List.append_nil]
          refine ⟨⟨_, rfl⟩, rfl, hrecord, by simp [Stage.nextShardSeq], fun shard hshard hid => ?_, hfresh⟩
          have hle : shard.seq ≤ stage.counter call.payload.id :=
            hid ▸ hsound.belowCounter shard hshard
          exact Nat.lt_succ_of_le hle

theorem advanced_advanceSeal (hsound : SoundStage pool stage)
    (hready : CallReady R machine pool stage call) (succeeds : Bool) :
    ∃ installed, Advanced R machine pool stage call (advanceSeal R machine stage call succeeds)
      installed := by
  rw [CallReady] at hready
  unfold advanceSeal
  split
  next =>
    refine ⟨[], by simp, by simp, fun _ => Or.inl rfl, by simpa using hsound, by simp, ?_, by simp⟩
    intro call' hcall'
    obtain rfl := SealNext.running.inj hcall'
    exact ⟨⟨_, rfl⟩, rfl, trivial⟩
  next => exact ⟨[], advanced_of_error hsound _⟩
  next => exact ⟨[], advanced_decideSeal hsound⟩
  next record seq hphase =>
    rw [hphase] at hready
    obtain ⟨hrecord, hseq, hnew, hfresh⟩ := hready
    refine ⟨[⟨call.payload.id, seq, record⟩], ?_, by simp, fun _ => Or.inl rfl,
      hsound.install hnew hseq.le, ?_, ?_, by simp⟩
    · exact install_shards_of_new fun other hother => hnew other (hsound.kept hother)
    · intro shard hshard
      obtain rfl := List.mem_singleton.mp hshard
      exact ⟨rfl, hrecord, hrecord.fileSha256_eq ▸ hfresh⟩
    · intro call' hcall'
      obtain rfl := SealNext.running.inj hcall'
      exact ⟨⟨_, rfl⟩, rfl, hrecord.mono (List.subset_append_left _ _), by simp⟩
  next record seq hphase =>
    rw [hphase] at hready
    exact ⟨[], advanced_of_outcome hsound ⟨rfl, rfl, _, hready.2, rfl, hready.1.fileSha256_eq, rfl⟩⟩
  next => exact ⟨[], advanced_of_error hsound _⟩

/-- A record whose digest no listed shard carries keeps the bundles of the stage apart, as long as
every shard is listed. -/
lemma Advanced.apart {after : Stage H × SealNext H} {installed : List (Shard H)}
    (h : Advanced R machine pool stage call after installed) (hapart : Apart stage)
    (hlisted : ∀ shard ∈ stage.shards, shard.isListed = true) : Apart after.1 := by
  have halone : installed.Pairwise fun a b =>
      ¬ (a.session = b.session ∧ a.record.fileSha256 = b.record.fileSha256) := by
    have hone := h.one
    rcases installed with _ | ⟨shard, _ | ⟨other, rest⟩⟩
    · exact List.Pairwise.nil
    · exact List.pairwise_singleton _ _
    · simp at hone
  rw [Apart, h.grown]
  refine List.pairwise_append.mpr ⟨hapart, halone, ?_⟩
  rintro a ha b hb ⟨hsession, hsha⟩
  exact (h.made b hb).2.2 a ha (hlisted a ha) hsession hsha

lemma advanceSeal_of_not_holdsLock (hcall : call.holdsLock = false) (succeeds : Bool) :
    advanceSeal R machine stage call succeeds =
      (stage, if succeeds then .running { call with phase := .locked }
        else .returned (.error .lock)) := by
  cases hphase : call.phase <;> simp_all [SealCall.holdsLock]
  cases succeeds <;> simp [advanceSeal, hphase]

/-- A stage that nothing is ever taken from: what was sealed is staged, no bundle twice, and every
number has at most six digits. -/
structure InPlace (stage : Stage H) : Prop where
  sound : SoundStage stage.shards stage
  apart : Apart stage
  sixDigits : ∀ id, stage.counter id < 10 ^ 6

lemma inPlace_empty : InPlace (Stage.empty : Stage H) :=
  ⟨soundStage_empty, List.Pairwise.nil, by simp [Stage.empty]⟩

lemma InPlace.isListed (h : InPlace stage) {shard : Shard H} (hshard : shard ∈ stage.shards) :
    shard.isListed = true :=
  isListed_of_lt ((h.sound.belowCounter shard hshard).trans_lt (h.sixDigits shard.session))

theorem advanced_in_place (h : InPlace stage) (hready : CallReady R machine stage.shards stage call)
    (hroom : stage.counter call.payload.id + 1 < 10 ^ 6) (succeeds : Bool)
    {after : Stage H × SealNext H} (hafter : advanceSeal R machine stage call succeeds = after) :
    InPlace after.1 ∧ stage.shards ⊆ after.1.shards ∧
      (∀ call', after.2 = .running call' → (∃ phase, call' = { call with phase }) ∧
        call'.holdsLock = true ∧ CallReady R machine after.1.shards after.1 call') ∧
      ∀ outcome, after.2 = .returned (.ok outcome) → OutcomeOf after.1.shards call outcome := by
  obtain ⟨installed, hadvanced⟩ := advanced_advanceSeal h.sound hready succeeds
  rw [hafter] at hadvanced
  have hapart := hadvanced.apart h.apart fun shard hshard => h.isListed hshard
  refine ⟨⟨?_, hapart, fun id => ?_⟩, ?_, ?_, ?_⟩
  · rw [hadvanced.grown]
    exact hadvanced.sound
  · rcases hadvanced.counter_eq id with hsame | ⟨rfl, hnext⟩
    · exact hsame ▸ h.sixDigits id
    · omega
  · rw [hadvanced.grown]
    exact List.subset_append_left _ _
  · rw [hadvanced.grown]
    exact hadvanced.running
  · rw [hadvanced.grown]
    exact hadvanced.returned

end ChatStasher.Inbox
