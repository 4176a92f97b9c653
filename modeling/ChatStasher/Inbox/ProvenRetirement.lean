import ChatStasher.Inbox.RemotePull
import Mathlib.Data.List.Pairwise

/-! An object leaves the remote inbox only after every declared destination was read and held the
record sealed for it. -/
namespace ChatStasher.Inbox

variable {H : Sha256} {C : Crypto} {R : Reader H} {config : PullConfig C}
  {line : ShardRecord H → Bytes} {machine : Text}

/-- The signature of the object's envelope verifies under a known key. -/
def SignatureVerifies (config : PullConfig C) (bytes : Bytes) : Prop :=
  ∃ envelope policy ciphertext signature, C.envelope bytes = some envelope ∧
    config.keys envelope.keyId = some policy ∧ C.fromBase64 envelope.ciphertext = some ciphertext ∧
    (C.fromBase64 envelope.signature).bind C.signature = some signature ∧
    C.verifyStrict policy.publicKey (signedBytes envelope.keyId ciphertext) signature = true

/-- The object was authenticated under a key neither revoked nor expired, and its bundle is a send of
that key from that key's platform. -/
structure Authentic (R : Reader H) (config : PullConfig C) (now : ℕ) (obj : Opened) : Prop where
  bytes_eq : obj.bytes = config.content obj.key
  verifies : SignatureVerifies config obj.bytes
  inForce : ∃ policy file, config.keys obj.keyId = some policy ∧ policy.revoked = false ∧
    now < policy.expiresAt ∧ (checkBundleParsed R obj.bundle).isSome = true ∧
    R.read obj.bundle = .v3 (some (.harnessFile file)) ∧ inScope obj.keyId policy.platform file = true

section Open

lemma authenticate_ok {now : ℕ} {bytes : Bytes} {auth : Authenticated C}
    (h : authenticate config now bytes = .ok auth) :
    SignatureVerifies config bytes ∧ config.keys auth.keyId = some auth.policy ∧
      auth.policy.revoked = false ∧ now < auth.policy.expiresAt := by
  unfold authenticate at h
  split at h
  · cases h
  next envelope henvelope =>
    split at h
    · cases h
    split at h
    · cases h
    next policy hpolicy =>
      split at h
      · cases h
      next hrevoked =>
        split at h
        · cases h
        next hexpired =>
          split at h
          · cases h
          next ciphertext hciphertext =>
            split at h
            · cases h
            next signature hsignature =>
              split at h
              next hverify =>
                obtain rfl := Except.ok.inj h
                exact ⟨⟨envelope, policy, ciphertext, signature, henvelope, hpolicy, hciphertext,
                  hsignature, hverify⟩, hpolicy, by simpa using hrevoked, by simpa using hexpired⟩
              · cases h

lemma openBundle_ok {auth : Authenticated C} {bundle : Bytes} (h : openBundle R auth = .ok bundle) :
    (checkBundleParsed R bundle).isSome = true ∧ ∃ file,
      R.read bundle = .v3 (some (.harnessFile file)) ∧
        inScope auth.keyId auth.policy.platform file = true := by
  unfold openBundle at h
  split at h
  · cases h
  next decrypted =>
    split at h
    · cases h
    split at h
    · cases h
    next hchecked =>
      split at h
      next file hread =>
        split at h
        next hscope =>
          obtain rfl := Except.ok.inj h
          exact ⟨by simpa [Option.isSome_iff_ne_none] using hchecked, file, hread, hscope⟩
        · cases h
      · cases h

end Open

def Sealed (pool : List (Shard H)) (id : Text) (name : FileName) (record : ShardRecord H) : Prop :=
  ∃ shard ∈ pool, shard.session = id ∧ shardFilename shard.seq = name ∧ shard.record = record

lemma Sealed.mono {pool pool' : List (Shard H)} (h : pool ⊆ pool') {id : Text} {name : FileName}
    {record : ShardRecord H} (hsealed : Sealed pool id name record) :
    Sealed pool' id name record := by
  obtain ⟨shard, hmem, hfacts⟩ := hsealed
  exact ⟨shard, h hmem, hfacts⟩

lemma Sealed.unique {pool : List (Shard H)} {stage : Stage H} (hsound : SoundStage pool stage)
    {id : Text} {name : FileName} {a b : ShardRecord H} (ha : Sealed pool id name a)
    (hb : Sealed pool id name b) : a = b := by
  obtain ⟨x, hx, hxid, hxname, rfl⟩ := ha
  obtain ⟨y, hy, hyid, hyname, rfl⟩ := hb
  have hsymm : Std.Symm fun a b : Shard H => ¬ (a.session = b.session ∧ a.seq = b.seq) :=
    ⟨fun a b hab hba => hab ⟨hba.1.symm, hba.2.symm⟩⟩
  by_contra hne
  refine hsound.numbered.forall hx hy (fun hxy => hne (congrArg Shard.record hxy)) ⟨?_, ?_⟩
  · exact hxid.trans hyid.symm
  · exact shardFilename_injective (hxname.trans hyname.symm)

namespace Worker

def call : Worker H → Option (SealCall H)
  | pulling pull =>
    match pull.phase with
    | .sealing _ call => some call
    | _ => none
  | sealing call => some call
  | idle => none

def holdsLock (w : Worker H) : Bool := w.call.any SealCall.holdsLock

end Worker

def PullPhase.object : PullPhase H → Option (Text × Bytes)
  | listed => none
  | fetched key bytes => some (key, bytes)
  | sealing obj _ => some (obj.key, obj.bytes)
  | examining obj _ => some (obj.key, obj.bytes)
  | resolving obj _ _ _ => some (obj.key, obj.bytes)
  | proving obj _ => some (obj.key, obj.bytes)
  | reading obj _ _ _ _ _ => some (obj.key, obj.bytes)
  | retiring obj => some (obj.key, obj.bytes)

section Runs
variable (R config line machine) (s₀ : RemoteSite H)

def siteAfter (as : List (RemoteAction H)) : RemoteSite H :=
  StepRun.exec (remoteStep R config line machine) s₀ as

/-- At some moment of the run the process was at work on the pull, and pull and site were so. -/
def During (as : List (RemoteAction H)) (p id : ℕ) (P : Pull H → RemoteSite H → Prop) : Prop :=
  ∃ pre pull, pre <+: as ∧ (siteAfter R config line machine s₀ pre).workers p = .pulling pull ∧
    pull.id = id ∧ P pull (siteAfter R config line machine s₀ pre)

def Reads (pull : Pull H) (destination : ℕ) (target : SealOutcome H) : Prop :=
  ∃ obj record held unread targets,
    pull.phase = .reading obj target record held (destination :: unread) targets

/-- During the pull the stage held the target's record under its name, and every declared destination
was read when it held the bytes of that record under that name. -/
structure Proven (as : List (RemoteAction H)) (p id : ℕ) (target : SealOutcome H)
    (record : ShardRecord H) : Prop where
  declared : config.declared ≠ []
  id_eq : record.id = target.id
  machine_eq : record.machine = machine
  fileSha256_eq : record.fileSha256 = target.fileSha256
  staged : During R config line machine s₀ as p id fun _ s =>
    recordNamed s.stage target.id target.shard = some record
  everSealed : Sealed (siteAfter R config line machine s₀ as).pool target.id target.shard record
  held : ∀ destination ∈ config.declared, During R config line machine s₀ as p id fun pull s =>
    Reads pull destination target ∧
      (target.shard, line record) ∈ s.destinations destination target.id

/-- The outcome of the object's seal names a shard that carries the bundle's digest. -/
structure SealedAs (as : List (RemoteAction H)) (obj : Opened) (outcome : SealOutcome H) : Prop where
  fileSha256_eq : outcome.fileSha256 = H.digest obj.bundle
  names : ∃ record, Sealed (siteAfter R config line machine s₀ as).pool outcome.id outcome.shard record

/-- What has to be proven before the object may go: its own record, and the one with the body if its
own is a resend. -/
inductive Targets (as : List (RemoteAction H)) (outcome : SealOutcome H) : List (SealOutcome H) → Prop
  | own (record : ShardRecord H)
      (hsealed : Sealed (siteAfter R config line machine s₀ as).pool outcome.id outcome.shard record)
      (hkind : record.kind ≠ .harnessResend) : Targets as outcome [outcome]
  | resend (record original : ShardRecord H) (name : FileName)
      (hsealed : Sealed (siteAfter R config line machine s₀ as).pool outcome.id outcome.shard record)
      (horiginal : Sealed (siteAfter R config line machine s₀ as).pool outcome.id name original)
      (href : record.contentRef = some original.fileSha256) (hkind : original.kind = .harnessFile)
      (hkey : sendContentKey original = sendContentKey record)
      (hbody : (recordBody R original).isSome = true) :
      Targets as outcome [.duplicate outcome.id name original.fileSha256, outcome]

/-- A pull has proven all of its targets but those left. -/
def ProvenBut (as : List (RemoteAction H)) (p id : ℕ) (obj : Opened)
    (targets : List (SealOutcome H)) : Prop :=
  ∃ outcome done, SealedAs R config line machine s₀ as obj outcome ∧
    Targets R config line machine s₀ as outcome (done ++ targets) ∧
    ∀ target ∈ done, ∃ record, Proven R config line machine s₀ as p id target record

def PhaseOk (as : List (RemoteAction H)) (p : ℕ) (pull : Pull H) : Prop :=
  match pull.phase with
  | .listed => True
  | .fetched key bytes => bytes = config.content key
  | .sealing obj call => Authentic R config pull.now obj ∧ call.bytes = obj.bundle
  | .examining obj outcome => Authentic R config pull.now obj ∧
      SealedAs R config line machine s₀ as obj outcome
  | .resolving obj outcome record reference => Authentic R config pull.now obj ∧
      SealedAs R config line machine s₀ as obj outcome ∧
      Sealed (siteAfter R config line machine s₀ as).pool outcome.id outcome.shard record ∧
      record.contentRef = some reference
  | .proving obj targets => Authentic R config pull.now obj ∧
      ProvenBut R config line machine s₀ as p pull.id obj targets
  | .reading obj target record held unread targets => Authentic R config pull.now obj ∧
      ProvenBut R config line machine s₀ as p pull.id obj (target :: targets) ∧
      config.declared ≠ [] ∧ record.id = target.id ∧ record.machine = machine ∧
      record.fileSha256 = target.fileSha256 ∧
      (During R config line machine s₀ as p pull.id fun _ s =>
        recordNamed s.stage target.id target.shard = some record) ∧
      Sealed (siteAfter R config line machine s₀ as).pool target.id target.shard record ∧
      ∃ read, config.declared = read ++ unread ∧ (held = true → ∀ destination ∈ read,
        During R config line machine s₀ as p pull.id fun pull s =>
          Reads pull destination target ∧
            (target.shard, line record) ∈ s.destinations destination target.id)
  | .retiring obj => Authentic R config pull.now obj ∧
      ProvenBut R config line machine s₀ as p pull.id obj []

section Growth
variable {R config line machine s₀} {as bs : List (RemoteAction H)}

lemma During.mono (h : as <+: bs) {p id : ℕ} {P : Pull H → RemoteSite H → Prop}
    (hduring : During R config line machine s₀ as p id P) :
    During R config line machine s₀ bs p id P := by
  obtain ⟨pre, pull, hpre, hfacts⟩ := hduring
  exact ⟨pre, pull, hpre.trans h, hfacts⟩

lemma during_of_now {p : ℕ} {pull : Pull H} {P : Pull H → RemoteSite H → Prop}
    (hpull : (siteAfter R config line machine s₀ as).workers p = .pulling pull)
    (hnow : P pull (siteAfter R config line machine s₀ as)) (h : as <+: bs) :
    During R config line machine s₀ bs p pull.id P :=
  ⟨as, pull, h, hpull, rfl, hnow⟩

/-- A longer run that has lost none of what was ever sealed. -/
structure Extends (R : Reader H) (config : PullConfig C) (line : ShardRecord H → Bytes)
    (machine : Text) (s₀ : RemoteSite H) (as bs : List (RemoteAction H)) : Prop where
  isPrefix : as <+: bs
  pool : (siteAfter R config line machine s₀ as).pool ⊆ (siteAfter R config line machine s₀ bs).pool

variable (h : Extends R config line machine s₀ as bs)
include h

lemma Proven.mono {p id : ℕ} {target : SealOutcome H} {record : ShardRecord H}
    (hproven : Proven R config line machine s₀ as p id target record) :
    Proven R config line machine s₀ bs p id target record :=
  { hproven with
    staged := hproven.staged.mono h.isPrefix
    everSealed := hproven.everSealed.mono h.pool
    held := fun destination hdestination => (hproven.held destination hdestination).mono h.isPrefix }

lemma SealedAs.mono {obj : Opened} {outcome : SealOutcome H}
    (hsealed : SealedAs R config line machine s₀ as obj outcome) :
    SealedAs R config line machine s₀ bs obj outcome := by
  obtain ⟨hsha, record, hrecord⟩ := hsealed
  exact ⟨hsha, record, hrecord.mono h.pool⟩

lemma Targets.mono {outcome : SealOutcome H} {targets : List (SealOutcome H)}
    (htargets : Targets R config line machine s₀ as outcome targets) :
    Targets R config line machine s₀ bs outcome targets := by
  cases htargets with
  | own record hsealed hkind => exact .own record (hsealed.mono h.pool) hkind
  | resend record original name hsealed horiginal href hkind hkey hbody =>
    exact .resend record original name (hsealed.mono h.pool) (horiginal.mono h.pool) href hkind hkey
      hbody

lemma ProvenBut.mono {p id : ℕ} {obj : Opened} {targets : List (SealOutcome H)}
    (hproven : ProvenBut R config line machine s₀ as p id obj targets) :
    ProvenBut R config line machine s₀ bs p id obj targets := by
  obtain ⟨outcome, done, hsealed, htargets, hdone⟩ := hproven
  refine ⟨outcome, done, hsealed.mono h, htargets.mono h, fun target htarget => ?_⟩
  obtain ⟨record, hrecord⟩ := hdone target htarget
  exact ⟨record, hrecord.mono h⟩

lemma PhaseOk.mono {p : ℕ} {pull : Pull H} (hok : PhaseOk R config line machine s₀ as p pull) :
    PhaseOk R config line machine s₀ bs p pull := by
  unfold PhaseOk at hok ⊢
  split at hok
  next => trivial
  next => exact hok
  next => exact hok
  next => exact ⟨hok.1, hok.2.mono h⟩
  next =>
    obtain ⟨hauthentic, hsealedAs, hsealed, href⟩ := hok
    exact ⟨hauthentic, hsealedAs.mono h, hsealed.mono h.pool, href⟩
  next => exact ⟨hok.1, hok.2.mono h⟩
  next =>
    obtain ⟨hauthentic, hbut, hdeclared, hid, hmachine, hsha, hstaged, hsealed, read, hread, hheld⟩ :=
      hok
    exact ⟨hauthentic, hbut.mono h, hdeclared, hid, hmachine, hsha, hstaged.mono h.isPrefix,
      hsealed.mono h.pool, read, hread, fun hyes destination hdestination =>
        (hheld hyes destination hdestination).mono h.isPrefix⟩
  next => exact ⟨hok.1, hok.2.mono h⟩

omit h

end Growth

/-- The lock is held by the seal that has taken it, every pull has established what its phase says,
and the rate rows account for every admitted attempt. -/
structure RemoteInv (as : List (RemoteAction H)) : Prop where
  sound : SoundStage (siteAfter R config line machine s₀ as).pool
    (siteAfter R config line machine s₀ as).stage
  locked : Mutex.Agrees (fun p => ((siteAfter R config line machine s₀ as).workers p).holdsLock)
    (siteAfter R config line machine s₀ as).lock
  ready : ∀ p call, ((siteAfter R config line machine s₀ as).workers p).call = some call →
    CallReady R machine (siteAfter R config line machine s₀ as).pool
      (siteAfter R config line machine s₀ as).stage call
  phases : ∀ p pull, (siteAfter R config line machine s₀ as).workers p = .pulling pull →
    PhaseOk R config line machine s₀ as p pull
  rates : ∀ keyId policy, config.keys keyId = some policy →
    ((siteAfter R config line machine s₀ as).rate keyId).Accounts
      ((siteAfter R config line machine s₀ as).admitted keyId) policy.maxObjectsPerPull

end Runs

section Step
variable {s₀ : RemoteSite H} {as : List (RemoteAction H)} {a : RemoteAction H} {s s' : RemoteSite H}

lemma siteAfter_concat : siteAfter R config line machine s₀ (as ++ [a]) =
    remoteStep R config line machine (siteAfter R config line machine s₀ as) a :=
  StepRun.exec_concat _ _ _ _

variable (h : RemoteInv R config line machine s₀ as)
  (hs : siteAfter R config line machine s₀ as = s)
  (hs' : siteAfter R config line machine s₀ (as ++ [a]) = s')
include h hs hs'

lemma RemoteInv.environment (hworkers : s'.workers = s.workers) (hlock : s'.lock = s.lock)
    (hpool : s'.pool = s.pool) (hshards : s'.stage.shards ⊆ s.stage.shards)
    (hcounter : s'.stage.counter = s.stage.counter) (hrate : s'.rate = s.rate)
    (hadmitted : s'.admitted = s.admitted) : RemoteInv R config line machine s₀ (as ++ [a]) := by
  have hextends : Extends R config line machine s₀ as (as ++ [a]) :=
    ⟨List.prefix_append _ _, by rw [hs, hs', hpool]; exact List.Subset.refl _⟩
  obtain ⟨hsound, hlocked, hready, hphases, hrates⟩ := h
  rw [hs] at hsound hlocked hready hphases hrates
  constructor
  · rw [hs']
    exact ⟨fun shard hshard => hpool ▸ hsound.kept (hshards hshard), hpool ▸ hsound.numbered,
      fun shard hshard => hcounter ▸ hsound.belowCounter shard (hpool ▸ hshard)⟩
  · rw [hs', hworkers, hlock]
    exact hlocked
  · rw [hs', hworkers]
    intro p call hcall
    have hbefore := hready p call hcall
    unfold CallReady at hbefore ⊢
    split at hbefore
    next => trivial
    next => trivial
    next =>
      obtain ⟨hrecord, hseq, hnew, hunlisted⟩ := hbefore
      exact ⟨hpool ▸ hrecord, hcounter ▸ hseq, hpool ▸ hnew, fun shard hshard =>
        hunlisted shard (hshards hshard)⟩
    next => exact ⟨hpool ▸ hbefore.1, hpool ▸ hbefore.2⟩
  · rw [hs', hworkers]
    exact fun p pull hpull => (hphases p pull hpull).mono hextends
  · rw [hs', hrate, hadmitted]
    exact hrates

/-- The step of one process keeps the invariant of all. -/
lemma RemoteInv.ofWorker {p : ℕ} {w : Worker H}
    (hworkers : s'.workers = Function.update s.workers p w) (hsound : SoundStage s'.pool s'.stage)
    (hpool : s.pool ⊆ s'.pool) (hlock : Mutex.Turn s.lock p w.holdsLock s'.lock)
    (hothers : s'.stage = s.stage ∧ s'.pool = s.pool ∨ s.lock = some p)
    (hready : ∀ call, w.call = some call → CallReady R machine s'.pool s'.stage call)
    (hphase : ∀ pull, w = .pulling pull → PhaseOk R config line machine s₀ (as ++ [a]) p pull)
    (hrates : ∀ keyId policy, config.keys keyId = some policy →
      (s'.rate keyId).Accounts (s'.admitted keyId) policy.maxObjectsPerPull) :
    RemoteInv R config line machine s₀ (as ++ [a]) := by
  have hextends : Extends R config line machine s₀ as (as ++ [a]) :=
    ⟨List.prefix_append _ _, by rw [hs, hs']; exact hpool⟩
  have hlocked := h.locked
  have hreadyBefore := h.ready
  have hphases := h.phases
  rw [hs] at hlocked hreadyBefore hphases
  constructor
  · rwa [hs']
  · rw [hs']
    refine hlocked.turn (p := p) ?_ fun q hq => ?_
    · simpa [hworkers] using hlock
    · simp [hworkers, Function.update_of_ne hq]
  · rw [hs', hworkers]
    intro q call hcall
    by_cases hq : q = p
    · subst hq
      rw [Function.update_self] at hcall
      exact hready call hcall
    · rw [Function.update_of_ne hq] at hcall
      rcases hothers with ⟨hstage, hsame⟩ | hown
      · rw [hstage, hsame]
        exact hreadyBefore q call hcall
      · -- the lock is not this process's, so its call relies on nothing
        refine callReady_of_not_holdsLock (Bool.eq_false_iff.mpr fun hholds => hq ?_)
        exact hlocked.unique (by simp [Worker.holdsLock, hcall, hholds]) hown
  · rw [hs', hworkers]
    intro q pull hpull
    by_cases hq : q = p
    · subst hq
      rw [Function.update_self] at hpull
      exact hphase pull hpull
    · rw [Function.update_of_ne hq] at hpull
      exact (hphases q pull hpull).mono hextends
  · rwa [hs']

lemma RemoteInv.ofPull {p : ℕ} {w : Worker H}
    (hworkers : s'.workers = Function.update s.workers p w) (hstage : s'.stage = s.stage)
    (hpool : s'.pool = s.pool) (hlock : s'.lock = s.lock)
    (hbefore : (s.workers p).holdsLock = false) (hafter : w.holdsLock = false)
    (hphase : ∀ pull, w = .pulling pull → PhaseOk R config line machine s₀ as p pull)
    (hrates : ∀ keyId policy, config.keys keyId = some policy →
      (s'.rate keyId).Accounts (s'.admitted keyId) policy.maxObjectsPerPull) :
    RemoteInv R config line machine s₀ (as ++ [a]) := by
  have hextends : Extends R config line machine s₀ as (as ++ [a]) :=
    ⟨List.prefix_append _ _, by rw [hs, hs', hpool]; exact List.Subset.refl _⟩
  have hsound := h.sound
  have hlocked := h.locked
  rw [hs] at hsound hlocked
  refine h.ofWorker hs hs' hworkers (by rwa [hstage, hpool]) (by rw [hpool]; exact List.Subset.refl _)
    (Or.inr ⟨hafter, ?_⟩) (Or.inl ⟨hstage, hpool⟩) (fun call hcall => ?_)
    (fun pull hpull => (hphase pull hpull).mono hextends) hrates
  · rw [hlock]
    exact (hlocked.release_of_not hbefore).symm
  · exact callReady_of_not_holdsLock (by simpa [Worker.holdsLock, hcall] using hafter)

omit h hs hs'

end Step

section Read
variable {s₀ : RemoteSite H} {as : List (RemoteAction H)}

lemma sealed_of_recordNamed {pool : List (Shard H)} {stage : Stage H}
    (hsound : SoundStage pool stage) {id : Text} {name : FileName} {record : ShardRecord H}
    (hnamed : recordNamed stage id name = some record) : Sealed pool id name record := by
  obtain ⟨shard, hfind, rfl⟩ := Option.map_eq_some_iff.mp hnamed
  obtain ⟨hmem, hid, -⟩ := mem_sealedShardEntries.mp (List.mem_of_find?_eq_some hfind)
  exact ⟨shard, hsound.kept hmem, hid, by simpa using List.find?_some hfind, rfl⟩

lemma sealed_of_originalOf {pool : List (Shard H)} {stage : Stage H}
    (hsound : SoundStage pool stage) {id : Text} {reference : H.Digest} {original : Shard H}
    (hfound : originalOf stage id reference = some original) :
    Sealed pool id (shardFilename original.seq) original.record ∧
      original.record.kind = .harnessFile ∧ original.record.fileSha256 = reference := by
  obtain ⟨hmem, hid, -⟩ := mem_sealedShardEntries.mp (List.mem_of_find?_eq_some hfound)
  exact ⟨⟨original, hsound.kept hmem, hid, rfl, rfl⟩, by simpa using List.find?_some hfound⟩

lemma sealedAs_of_outcomeOf {obj : Opened} {call : SealCall H} {outcome : SealOutcome H}
    (hbytes : call.bytes = obj.bundle)
    (houtcome : OutcomeOf (siteAfter R config line machine s₀ as).pool call outcome) :
    SealedAs R config line machine s₀ as obj outcome := by
  obtain ⟨hid, hsha, shard, hmem, hsession, -, hname⟩ := houtcome
  exact ⟨hsha.trans (congrArg H.digest hbytes), shard.record, shard, hmem,
    hsession.trans hid.symm, hname.symm, rfl⟩

lemma holdsRecord_iff {archive : HeldShards} {target : SealOutcome H} {record : ShardRecord H} :
    holdsRecord line archive target record = true ↔
      (target.shard, line record) ∈ archive target.id := by
  simp [holdsRecord]

end Read

section Pull
variable {s₀ : RemoteSite H} {as : List (RemoteAction H)} {a : RemoteAction H} {s : RemoteSite H}
  (h : RemoteInv R config line machine s₀ as) (hs : siteAfter R config line machine s₀ as = s)
include h hs

lemma RemoteInv.refuse {p : ℕ} {pull : Pull H} {refusal : Refusal}
    (hs' : siteAfter R config line machine s₀ (as ++ [a]) = s.refuse p pull refusal)
    (hbefore : (s.workers p).holdsLock = false) : RemoteInv R config line machine s₀ (as ++ [a]) := by
  refine h.ofPull hs hs' rfl rfl rfl rfl hbefore rfl (fun other hother => ?_) ?_
  · obtain rfl := Worker.pulling.inj hother
    trivial
  · exact hs ▸ h.rates

lemma RemoteInv.goOn {p : ℕ} {pull : Pull H} {phase : PullPhase H}
    (hs' : siteAfter R config line machine s₀ (as ++ [a]) = s.goOn p pull phase)
    (hbefore : (s.workers p).holdsLock = false)
    (hafter : (Worker.pulling { pull with phase }).holdsLock = false)
    (hok : PhaseOk R config line machine s₀ as p { pull with phase }) :
    RemoteInv R config line machine s₀ (as ++ [a]) := by
  refine h.ofPull hs hs' rfl rfl rfl rfl hbefore hafter (fun other hother => ?_) ?_
  · obtain rfl := Worker.pulling.inj hother
    exact hok
  · exact hs ▸ h.rates

/-- One operation of a seal keeps the invariant, whatever its process does next. -/
lemma RemoteInv.remoteSeal {p : ℕ} {call : SealCall H} {succeeds : Bool}
    {goOn : SealCall H → Worker H} {after : Except SealError (SealOutcome H) → Worker H}
    (hs' : siteAfter R config line machine s₀ (as ++ [a]) =
      remoteSeal R machine s p call succeeds goOn after)
    (hcall : (s.workers p).call = some call)
    (hgoOn : ∀ phase, (goOn { call with phase }).call = some { call with phase } ∧
      ∀ pull, goOn { call with phase } = .pulling pull → PhaseOk R config line machine s₀ as p pull)
    (hafter : ∀ result, (after result).call = none ∧ ∀ pull, after result = .pulling pull →
      (∀ outcome, result = .ok outcome →
        OutcomeOf (siteAfter R config line machine s₀ (as ++ [a])).pool call outcome) →
      PhaseOk R config line machine s₀ (as ++ [a]) p pull) :
    RemoteInv R config line machine s₀ (as ++ [a]) := by
  have hsound := h.sound
  have hlocked := h.locked
  have hready := h.ready p call
  have hrates := h.rates
  have hphases := h.phases
  rw [hs] at hsound hlocked hready hrates hphases
  have hholds : (s.workers p).holdsLock = call.holdsLock := by
    simp [Worker.holdsLock, hcall]
  unfold Inbox.remoteSeal at hs'
  split at hs'
  · -- the lock is taken: the process polls it again
    exact h.environment hs hs' rfl rfl rfl (List.Subset.refl _) rfl rfl rfl
  next hturn =>
    obtain ⟨installed, hadvanced⟩ := advanced_advanceSeal hsound (hready hcall) succeeds
    have hothers : (advanceSeal R machine s.stage call succeeds).1 = s.stage ∧ installed = [] ∨
        s.lock = some p := by
      cases hlock : call.holdsLock with
      | true => exact Or.inr ((hlocked p).mp (hholds.trans hlock))
      | false =>
        have hsame : (advanceSeal R machine s.stage call succeeds).1 = s.stage := by
          rw [advanceSeal_of_not_holdsLock hlock]
        have hgrown := hadvanced.grown
        rw [hsame] at hgrown
        exact Or.inl ⟨hsame, by simpa using hgrown⟩
    generalize hnext : advanceSeal R machine s.stage call succeeds = next at hadvanced hothers hs'
    obtain ⟨stage, call' | result⟩ := next <;> dsimp only at hs' <;>
      rw [hadvanced.grown, List.drop_left] at hs' <;>
      have hothers' : stage = s.stage ∧ s.pool ++ installed = s.pool ∨ s.lock = some p :=
        hothers.imp_left fun hsame => ⟨hsame.1, by simp [hsame.2]⟩
    · obtain ⟨⟨phase, rfl⟩, hlock, hready'⟩ := hadvanced.running call' rfl
      obtain ⟨hcall', hphase'⟩ := hgoOn phase
      have hextends : Extends R config line machine s₀ as (as ++ [a]) :=
        ⟨List.prefix_append _ _, by rw [hs, hs']; exact List.subset_append_left _ _⟩
      refine h.ofWorker hs hs' rfl hadvanced.sound (List.subset_append_left _ _)
        (Or.inl ⟨?_, rfl, ?_⟩) hothers' (fun other hother => ?_)
        (fun pull hpull => (hphase' pull hpull).mono hextends) hrates
      · simpa [Worker.holdsLock, hcall'] using hlock
      · cases hlock' : call.holdsLock with
        | true => exact Or.inr ((hlocked p).mp (hholds.trans hlock'))
        | false =>
          have hsucceeds : succeeds = true := by
            rw [advanceSeal_of_not_holdsLock hlock'] at hnext
            cases succeeds <;> simp at hnext ⊢
          exact Or.inl (by simpa [hlock', hsucceeds] using hturn)
      · obtain rfl := Option.some.inj (hcall'.symm.trans hother)
        exact hready'
    · obtain ⟨hcall', hphase'⟩ := hafter result
      refine h.ofWorker hs hs' rfl hadvanced.sound (List.subset_append_left _ _)
        (Or.inr ⟨?_, rfl⟩) hothers' (fun other hother => ?_) (fun pull hpull => ?_) hrates
      · simp [Worker.holdsLock, hcall']
      · simp [hcall'] at hother
      · refine hphase' pull hpull fun outcome hresult => ?_
        rw [hs']
        exact hadvanced.returned outcome (by rw [hresult])

lemma RemoteInv.openObject {p : ℕ} {pull : Pull H} {key : Text} {bytes : Bytes} {fate : Fate}
    (hs' : siteAfter R config line machine s₀ (as ++ [a]) = openObject R config s p pull key bytes fate)
    (hbefore : (s.workers p).holdsLock = false) (hbytes : bytes = config.content key) :
    RemoteInv R config line machine s₀ (as ++ [a]) := by
  have hrates := h.rates
  rw [hs] at hrates
  unfold Inbox.openObject at hs'
  split at hs'
  · exact h.refuse hs hs' hbefore
  next auth hauth =>
    obtain ⟨hverifies, hpolicy, hrevoked, hexpires⟩ := authenticate_ok hauth
    split at hs'
    · exact h.refuse hs hs' hbefore
    split at hs'
    · exact h.refuse hs hs' hbefore
    dsimp only at hs'
    have hreserved : ∀ keyId policy, config.keys keyId = some policy →
        (Function.update s.rate auth.keyId
          ((s.rate auth.keyId).reserve pull.now auth.policy.maxObjectsPerPull).1 keyId).Accounts
          (Function.update s.admitted auth.keyId (s.admitted auth.keyId ++ KeyRate.admittedBy pull.now
            ((s.rate auth.keyId).reserve pull.now auth.policy.maxObjectsPerPull).2) keyId)
          policy.maxObjectsPerPull := by
      intro keyId policy hkey
      by_cases hid : keyId = auth.keyId
      · subst hid
        obtain rfl := Option.some.inj (hpolicy.symm.trans hkey)
        simpa only [Function.update_self] using (hrates _ _ hkey).reserve
      · simpa only [Function.update_of_ne hid] using hrates keyId policy hkey
    have hrefuse : ∀ pull' : Pull H, pull'.phase = .listed →
        siteAfter R config line machine s₀ (as ++ [a]) = ({ s with
          rate := Function.update s.rate auth.keyId
            ((s.rate auth.keyId).reserve pull.now auth.policy.maxObjectsPerPull).1
          admitted := Function.update s.admitted auth.keyId
            (s.admitted auth.keyId ++ KeyRate.admittedBy pull.now
              ((s.rate auth.keyId).reserve pull.now auth.policy.maxObjectsPerPull).2) } :
          RemoteSite H).become p (.pulling pull') → RemoteInv R config line machine s₀ (as ++ [a]) := by
      intro pull' hlisted hsite
      refine h.ofPull hs hsite rfl rfl rfl rfl hbefore ?_ (fun other hother => ?_) hreserved
      · simp [Worker.holdsLock, Worker.call, hlisted]
      · obtain rfl := Worker.pulling.inj hother
        simp [PhaseOk, hlisted]
    split at hs'
    · split at hs'
      · exact hrefuse _ rfl hs'
      next bundle hbundle =>
        obtain ⟨hchecked, file, hread, hscope⟩ := openBundle_ok hbundle
        split at hs'
        · exact hrefuse _ rfl hs'
        · refine h.ofPull hs hs' rfl rfl rfl rfl hbefore rfl (fun other hother => ?_) hreserved
          obtain rfl := Worker.pulling.inj hother
          exact ⟨⟨hbytes, hverifies, _, file, hpolicy, hrevoked, hexpires, hchecked, hread, hscope⟩, rfl⟩
    · exact hrefuse _ rfl hs'
    · exact hrefuse _ rfl hs'

lemma RemoteInv.pullWork {p : ℕ} {pull : Pull H} {fate : Fate}
    (hs' : siteAfter R config line machine s₀ (as ++ [a]) =
      pullWork R config line machine s p pull fate)
    (hpull : s.workers p = .pulling pull) : RemoteInv R config line machine s₀ (as ++ [a]) := by
  have hsound := h.sound
  have hok := h.phases p pull (hs ▸ hpull)
  have hnow : ∀ P : Pull H → RemoteSite H → Prop, P pull s →
      During R config line machine s₀ as p pull.id P := fun P hP =>
    during_of_now (hs ▸ hpull) (hs ▸ hP) List.prefix_rfl
  rw [hs] at hsound
  unfold PhaseOk at hok
  unfold Inbox.pullWork at hs'
  split at hs'
  next hphase =>
    have hbefore : (s.workers p).holdsLock = false := by
      simp [Worker.holdsLock, Worker.call, hpull, hphase]
    split at hs'
    · exact h.ofPull hs hs' rfl rfl rfl rfl hbefore rfl (fun _ hother => by cases hother)
        (hs ▸ h.rates)
    · dsimp only at hs'
      split at hs'
      · exact h.goOn hs hs' hbefore rfl rfl
      · exact h.refuse hs hs' hbefore
  next key bytes hphase =>
    rw [hphase] at hok
    exact h.openObject hs hs' (by simp [Worker.holdsLock, Worker.call, hpull, hphase]) hok
  next obj call hphase =>
    rw [hphase] at hok
    refine h.remoteSeal hs hs' (by simp [Worker.call, hpull, hphase]) (fun phase => ⟨rfl, ?_⟩)
      fun result => ?_
    · intro other hother
      obtain rfl := Worker.pulling.inj hother
      exact hok
    · cases result with
      | error error =>
        refine ⟨rfl, fun other hother _ => ?_⟩
        obtain rfl := Worker.pulling.inj hother
        trivial
      | ok outcome =>
        refine ⟨rfl, fun other hother houtcome => ?_⟩
        obtain rfl := Worker.pulling.inj hother
        exact ⟨hok.1, sealedAs_of_outcomeOf hok.2 (houtcome outcome rfl)⟩
  next obj outcome hphase =>
    have hbefore : (s.workers p).holdsLock = false := by
      simp [Worker.holdsLock, Worker.call, hpull, hphase]
    rw [hphase] at hok
    obtain ⟨hauthentic, hsealedAs⟩ := hok
    split at hs'
    · exact h.refuse hs hs' hbefore
    next record hnamed =>
      have hsealed : Sealed (siteAfter R config line machine s₀ as).pool outcome.id outcome.shard
          record := by
        rw [hs]
        split at hnamed
        · exact sealed_of_recordNamed hsound hnamed
        · cases hnamed
      split at hs'
      next hkind =>
        exact h.goOn hs hs' hbefore rfl
          ⟨hauthentic, outcome, [], hsealedAs, .own record hsealed hkind, by simp⟩
      · split at hs'
        · exact h.refuse hs hs' hbefore
        next reference href =>
          exact h.goOn hs hs' hbefore rfl ⟨hauthentic, hsealedAs, hsealed, href⟩
  next obj outcome record reference hphase =>
    have hbefore : (s.workers p).holdsLock = false := by
      simp [Worker.holdsLock, Worker.call, hpull, hphase]
    rw [hphase] at hok
    obtain ⟨hauthentic, hsealedAs, hsealed, href⟩ := hok
    split at hs'
    · exact h.refuse hs hs' hbefore
    next original hfound =>
      split at hs'
      next hsame =>
        have hfound' : originalOf s.stage outcome.id reference = some original := by
          split at hfound
          · exact hfound
          · cases hfound
        obtain ⟨horiginal, hkind, rfl⟩ := sealed_of_originalOf hsound hfound'
        rw [← hs] at horiginal
        exact h.goOn hs hs' hbefore rfl ⟨hauthentic, outcome, [], hsealedAs,
          .resend record original.record _ hsealed horiginal href hkind hsame.1 hsame.2, by simp⟩
      · exact h.refuse hs hs' hbefore
  next obj hphase =>
    rw [hphase] at hok
    exact h.goOn hs hs' (by simp [Worker.holdsLock, Worker.call, hpull, hphase]) rfl hok
  next obj target targets hphase =>
    have hbefore : (s.workers p).holdsLock = false := by
      simp [Worker.holdsLock, Worker.call, hpull, hphase]
    rw [hphase] at hok
    split at hs'
    · exact h.refuse hs hs' hbefore
    next hdeclared =>
      split at hs'
      · exact h.refuse hs hs' hbefore
      next record hnamed =>
        split at hs'
        next hmatches =>
          have hnamed' : recordNamed s.stage target.id target.shard = some record := by
            split at hnamed
            · exact hnamed
            · cases hnamed
          refine h.goOn hs hs' hbefore rfl ⟨hok.1, hok.2, hdeclared, hmatches.1, hmatches.2.1,
            hmatches.2.2, hnow (fun _ s => recordNamed s.stage target.id target.shard = some record)
              hnamed', ?_, [], rfl, fun _ _ hnone => absurd hnone List.not_mem_nil⟩
          rw [hs]
          exact sealed_of_recordNamed hsound hnamed'
        · exact h.refuse hs hs' hbefore
  next obj target record held destination unread targets hphase =>
    have hbefore : (s.workers p).holdsLock = false := by
      simp [Worker.holdsLock, Worker.call, hpull, hphase]
    rw [hphase] at hok
    obtain ⟨hauthentic, hbut, hdeclared, hid, hmachine, hsha, hstaged, hsealed, read, hread, hheld⟩ :=
      hok
    split at hs'
    · refine h.goOn hs hs' hbefore rfl ⟨hauthentic, hbut, hdeclared, hid, hmachine, hsha, hstaged,
        hsealed, read ++ [destination], by simp [hread], fun hyes other hother => ?_⟩
      obtain ⟨hbeforehand, hholds⟩ := Bool.and_eq_true_iff.mp hyes
      rcases List.mem_append.mp hother with hold | hnew
      · exact hheld hbeforehand other hold
      · obtain rfl := List.mem_singleton.mp hnew
        exact hnow (fun pull s => Reads pull other target ∧
          (target.shard, line record) ∈ s.destinations other target.id)
          ⟨⟨obj, record, held, unread, targets, hphase⟩, holdsRecord_iff.mp hholds⟩
    · exact h.refuse hs hs' hbefore
  next obj target record held targets hphase =>
    have hbefore : (s.workers p).holdsLock = false := by
      simp [Worker.holdsLock, Worker.call, hpull, hphase]
    rw [hphase] at hok
    obtain ⟨hauthentic, hbut, hdeclared, hid, hmachine, hsha, hstaged, hsealed, read, hread, hheld⟩ :=
      hok
    split at hs'
    next hyes =>
      obtain ⟨outcome, done, hsealedAs, htargets, hdone⟩ := hbut
      rw [List.append_nil] at hread
      have hproven : Proven R config line machine s₀ as p pull.id target record :=
        ⟨hdeclared, hid, hmachine, hsha, hstaged, hsealed, hread ▸ hheld hyes⟩
      refine h.goOn hs hs' hbefore rfl ⟨hauthentic, outcome, done ++ [target], hsealedAs,
        by simpa using htargets, fun other hother => ?_⟩
      rcases List.mem_append.mp hother with hold | hnew
      · exact hdone other hold
      · obtain rfl := List.mem_singleton.mp hnew
        exact ⟨record, hproven⟩
    · exact h.refuse hs hs' hbefore
  next obj hphase =>
    have hbefore : (s.workers p).holdsLock = false := by
      simp [Worker.holdsLock, Worker.call, hpull, hphase]
    dsimp only at hs'
    split at hs'
    · refine h.ofPull hs hs' rfl rfl rfl rfl hbefore rfl (fun other hother => ?_) (hs ▸ h.rates)
      obtain rfl := Worker.pulling.inj hother
      trivial
    · exact h.refuse hs hs' hbefore
    · refine h.ofPull hs hs' rfl rfl rfl rfl hbefore rfl (fun other hother => ?_) (hs ▸ h.rates)
      obtain rfl := Worker.pulling.inj hother
      trivial

lemma RemoteInv.step : RemoteInv R config line machine s₀ (as ++ [a]) := by
  have hsite : siteAfter R config line machine s₀ (as ++ [a]) = remoteStep R config line machine s a :=
    hs ▸ siteAfter_concat
  have henvironment : ∀ s', siteAfter R config line machine s₀ (as ++ [a]) = s' → s'.workers = s.workers →
      s'.lock = s.lock → s'.pool = s.pool → s'.stage.shards ⊆ s.stage.shards →
      s'.stage.counter = s.stage.counter → s'.rate = s.rate → s'.admitted = s.admitted →
      RemoteInv R config line machine s₀ (as ++ [a]) := fun s' hs' => h.environment hs hs'
  cases a with
  | upload key => exact henvironment _ hsite rfl rfl rfl (List.Subset.refl _) rfl rfl rfl
  | store destination archive =>
    exact henvironment _ hsite rfl rfl rfl (List.Subset.refl _) rfl rfl rfl
  | reclaim proven => exact henvironment _ hsite rfl rfl rfl (List.filter_subset_self _) rfl rfl rfl
  | kill p =>
    have hsound := h.sound
    rw [hs] at hsound
    exact h.ofWorker hs hsite rfl hsound (List.Subset.refl _) (Or.inr ⟨rfl, rfl⟩)
      (Or.inl ⟨rfl, rfl⟩) (fun _ hcall => by cases hcall) (fun _ hpull => by cases hpull) (hs ▸ h.rates)
  | pull p now =>
    dsimp only [remoteStep] at hsite
    split at hsite
    next hidle =>
      refine h.ofPull hs hsite rfl rfl rfl rfl (by simp [Worker.holdsLock, Worker.call, hidle]) rfl
        (fun other hother => ?_) (hs ▸ h.rates)
      obtain rfl := Worker.pulling.inj hother
      trivial
    · exact henvironment _ hsite rfl rfl rfl (List.Subset.refl _) rfl rfl rfl
  | deliver p sourceFile bytes fingerprint accountKey =>
    dsimp only [remoteStep] at hsite
    split at hsite
    next hidle _ =>
      exact h.ofPull hs hsite rfl rfl rfl rfl (by simp [Worker.holdsLock, Worker.call, hidle]) rfl
        (fun _ hother => by cases hother) (hs ▸ h.rates)
    · exact henvironment _ hsite rfl rfl rfl (List.Subset.refl _) rfl rfl rfl
  | work p fate =>
    dsimp only [remoteStep] at hsite
    split at hsite
    next => exact henvironment _ hsite rfl rfl rfl (List.Subset.refl _) rfl rfl rfl
    next pull hpull => exact h.pullWork hs hsite hpull
    next call hcall =>
      exact h.remoteSeal hs hsite (by simp [Worker.call, hcall])
        (fun phase => ⟨rfl, fun _ hother => by cases hother⟩)
        fun result => ⟨rfl, fun _ hother => by cases hother⟩

omit h hs

end Pull

section Retirement
variable {s : RemoteSite H}

end Retirement

end ChatStasher.Inbox
