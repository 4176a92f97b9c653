import ChatStasher.Delivery.Host

/-! What the extension concludes from a response agrees with what the hosts sealed. -/
namespace ChatStasher.Delivery
open Inbox

variable {H : Sha256} {R : Reader H} {E : HostEnv H} {machine : Text}

/-- A shard sealed for some bytes: its record is of what they parse to, and refers to another only
for a slice. -/
def Made (R : Reader H) (machine : Text) (pool : List (Shard H)) (shard : Shard H) : Prop :=
  ∃ call : SealCall H, (∃ name, parseBundle R name call.bytes = some call.payload) ∧
    shard.session = call.payload.id ∧ RecordOf R machine pool call shard.record ∧
    (shard.record.contentRef.isSome = true → call.payload.raw.isSlice = true)

/-- The record carries the raw envelope, or refers to a record of the session that holds the slice. -/
def Carries (R : Reader H) (shards : List (Shard H)) (parsed : ParseOutcome H)
    (record : ShardRecord H) : Prop :=
  record.raw = some parsed.raw ∨
    ∃ slice body original, parsed.raw = .slice slice ∧ decodeSlice R slice = some body ∧
      original ∈ shards ∧ original.session = parsed.id ∧
      record.contentRef = some original.record.fileSha256 ∧ recordBody R original.record = some body

/-- Some shard of the payload's session is sealed under its digest and carries it. -/
def SealedFor (R : Reader H) (shards : List (Shard H)) (payload : Bytes) : Prop :=
  ∃ parsed, checkBundleParsed R payload = some parsed ∧ ∃ shard ∈ shards,
    shard.session = parsed.id ∧ shard.record.fileSha256 = H.digest payload ∧
      Carries R shards parsed shard.record

/-- Some shard of the conversation's session directory carries the fingerprint. -/
def HeldFor (R : Reader H) (shards : List (Shard H)) (platform sessionId fingerprint : Text) : Prop :=
  ∃ shard ∈ shards, shard.session = sessionDirId R.hexPrefix platform sessionId ∧
    shard.record.fingerprint = some fingerprint

section Records
variable {pool pool' : List (Shard H)}

lemma Made.mono (h : pool ⊆ pool') {shard : Shard H} (hmade : Made R machine pool shard) :
    Made R machine pool' shard := by
  obtain ⟨call, hparse, hsession, hrecord, hslice⟩ := hmade
  exact ⟨call, hparse, hsession, hrecord.mono h, hslice⟩

lemma web_of_bundleRaw {bytes : Bytes} {bundle : Bundle} {raw : BundleRaw}
    (h : bundleRaw R bytes bundle = some raw) : raw.isSlice = false := by
  unfold bundleRaw at h
  split at h
  · obtain ⟨envelope, -, rfl⟩ := Option.map_eq_some_iff.mp h
    rfl
  · split at h
    · obtain rfl := Option.some.inj h
      rfl
    · cases h

lemma web_of_parseLegacy {bytes : Bytes} {bundle : Bundle} {out : ParseOutcome H}
    (h : parseLegacy R bytes bundle = some out) : out.raw.isSlice = false := by
  simp only [parseLegacy, Option.bind_eq_bind, Option.bind_eq_some_iff, Option.pure_def,
    Option.some.injEq] at h
  obtain ⟨platform, -, session, -, raw, hraw, rfl⟩ := h
  exact web_of_bundleRaw hraw

lemma slice_of_parseBundle {name : Text} {bytes : Bytes} {out : ParseOutcome H}
    (h : parseBundle R name bytes = some out) (hslice : out.raw.isSlice = true) :
    ∃ slice body key, out.raw = .slice slice ∧ decodeSlice R slice = some body ∧
      out.v3.bind CaptureMetadata.file = some key ∧ sliceMatches key body = true := by
  unfold parseBundle at h
  split at h
  · obtain rfl := Option.some.inj h
    cases hslice
  · exact absurd hslice (by simp [web_of_parseLegacy h])
  · cases h
  · obtain ⟨legacy, hlegacy, rfl⟩ := Option.map_eq_some_iff.mp h
    exact absurd hslice (by simp [web_of_parseLegacy hlegacy])
  next file _ =>
    simp only [parseHarness, Option.bind_eq_bind, Option.bind_eq_some_iff] at h
    obtain ⟨body, hbody, h⟩ := h
    split at h
    next hmatches =>
      obtain rfl := Option.some.inj h
      exact ⟨file.raw, body, file.file, rfl, hbody, rfl, hmatches⟩
    · cases h

lemma body_of_holdsSendContent {shard : Shard H} (hmade : Made R machine pool shard)
    {key : SliceFile H} (hholds : holdsSendContent key shard.record = true) {body : Bytes}
    (hbody : recordBody R shard.record = some body) : sliceMatches key body = true := by
  obtain ⟨call, -, -, ⟨contentRef, hrecord, -⟩, -⟩ := hmade
  rw [hrecord] at hholds hbody
  simp only [holdsSendContent, shardRecord, Bool.and_eq_true] at hholds
  obtain ⟨hkind, hkey⟩ := hholds
  cases hv3 : call.payload.v3 with
  | none => simp [hv3] at hkey
  | some metadata =>
    cases contentRef with
    | some digest => simp [recordKind, hv3] at hkind
    | none =>
      cases hraw : call.payload.raw with
      | web envelope => simp [recordKind, hv3, hraw, BundleRaw.isSlice] at hkind
      | slice encoded =>
        have hfile : metadata.file = some key := by
          simp only [hv3, Option.any_some, Bool.and_eq_true, decide_eq_true_eq] at hkey
          exact hkey.2
        simp only [recordBody, shardRecord, hraw, hv3, Option.isSome_none, Bool.false_eq_true,
          if_false, Option.bind_some, hfile] at hbody
        split at hbody
        · obtain ⟨bytes, hbytes⟩ : ∃ bytes : Bytes,
              (if sliceMatches key bytes then some bytes else none) = some body := by
            split at hbody
            · obtain ⟨bytes, -, hbytes⟩ := Option.bind_eq_some_iff.mp hbody
              exact ⟨bytes, hbytes⟩
            · exact ⟨utf8 encoded.data, hbody⟩
          split at hbytes
          next hmatches => exact Option.some.inj hbytes ▸ hmatches
          · cases hbytes
        · cases hbody

lemma sliceMatches_inj {key : SliceFile H} {a b : Bytes} (ha : sliceMatches key a = true)
    (hb : sliceMatches key b = true) : a = b := by
  simp only [sliceMatches, Bool.and_eq_true, beq_iff_eq] at ha hb
  exact H.digest_injective (ha.2.trans hb.2.symm)

theorem carries_of_made (hall : ∀ shard ∈ pool, Made R machine pool shard) {shard : Shard H}
    (hshard : shard ∈ pool) {payload : Bytes} {parsed : ParseOutcome H}
    (hparsed : checkBundleParsed R payload = some parsed)
    (hsha : shard.record.fileSha256 = H.digest payload) : Carries R pool parsed shard.record := by
  obtain ⟨call, ⟨name, hparse⟩, -, hrecord, hslice⟩ := hall shard hshard
  obtain rfl : call.bytes = payload :=
    H.digest_injective (hrecord.fileSha256_eq.symm.trans hsha)
  obtain rfl : call.payload = parsed :=
    Option.some.inj (hparse.symm.trans (parseBundle_of_checkBundleParsed R hparsed name))
  obtain ⟨contentRef, hrecord, horiginal⟩ := hrecord
  cases contentRef with
  | none => exact Or.inl (by simp [hrecord, shardRecord])
  | some digest =>
    obtain ⟨original, hmem, hsession, hdigest, hbody, key, hkey, hholds⟩ := horiginal digest rfl
    obtain ⟨body, hbody⟩ := Option.isSome_iff_exists.mp hbody
    obtain ⟨slice, decoded, key', hraw, hdecode, hkey', hmatches⟩ :=
      slice_of_parseBundle hparse (hslice (by simp [hrecord, shardRecord]))
    obtain rfl := Option.some.inj (hkey.symm.trans hkey')
    obtain rfl : decoded = body :=
      sliceMatches_inj hmatches (body_of_holdsSendContent (hall original hmem) hholds hbody)
    refine Or.inr ⟨slice, decoded, original, hraw, hdecode, hmem, hsession, ?_, hbody⟩
    simp [hrecord, shardRecord, hdigest]

end Records

section Seals
variable {stage : Stage H} {call : SealCall H}

def RefersOnlySlices (call : SealCall H) : Prop :=
  match call.phase with
  | .numbered record _ => record.contentRef.isSome = true → call.payload.raw.isSlice = true
  | _ => True

lemma isSlice_of_matchingSendContent {payload : ParseOutcome H} {digest : H.Digest}
    (h : matchingSendContent R stage payload = some (some digest)) :
    payload.raw.isSlice = true := by
  unfold matchingSendContent at h
  split at h
  · simp at h
  · split at h
    next hslice => exact (Bool.and_eq_true_iff.mp hslice).1
    · simp at h

lemma refersOnlySlices_advanceSeal {succeeds : Bool} {call' : SealCall H}
    (hnext : (advanceSeal R machine stage call succeeds).2 = .running call') :
    RefersOnlySlices call' := by
  unfold advanceSeal at hnext
  split at hnext
  · obtain rfl := SealNext.running.inj hnext
    trivial
  · cases hnext
  · unfold decideSeal at hnext
    split at hnext
    · cases hnext
    split at hnext
    · cases hnext
    split at hnext
    · cases hnext
    next contentRef hcontent =>
      dsimp only at hnext
      split at hnext
      · cases hnext
      · obtain rfl := SealNext.running.inj hnext
        intro href
        obtain ⟨digest, rfl⟩ := Option.isSome_iff_exists.mp href
        exact isSlice_of_matchingSendContent hcontent
  · obtain rfl := SealNext.running.inj hnext
    trivial
  · cases hnext
  · cases hnext

lemma decideSeal_shards : (decideSeal R machine stage call).1.shards = stage.shards := by
  unfold decideSeal
  split
  · rfl
  split
  · rfl
  split
  · rfl
  dsimp only
  split <;> rfl

lemma mem_advanceSeal_shards {succeeds : Bool} {shard : Shard H}
    (h : shard ∈ (advanceSeal R machine stage call succeeds).1.shards) :
    shard ∈ stage.shards ∨
      ∃ record seq, call.phase = .numbered record seq ∧ shard = ⟨call.payload.id, seq, record⟩ := by
  unfold advanceSeal at h
  split at h
  · exact Or.inl h
  · exact Or.inl h
  · exact Or.inl (decideSeal_shards ▸ h)
  next record seq hphase =>
    rcases List.mem_append.mp h with hold | hnew
    · exact Or.inl (List.mem_of_mem_filter hold)
    · exact Or.inr ⟨record, seq, hphase, List.mem_singleton.mp hnew⟩
  · exact Or.inl h
  · exact Or.inl h

lemma made_advanceSeal (hall : ∀ shard ∈ stage.shards, Made R machine stage.shards shard)
    (hready : CallReady R machine stage.shards stage call) {name : Text}
    (hparse : parseBundle R name call.bytes = some call.payload) (hslices : RefersOnlySlices call)
    {succeeds : Bool}
    (hgrown : stage.shards ⊆ (advanceSeal R machine stage call succeeds).1.shards) :
    ∀ shard ∈ (advanceSeal R machine stage call succeeds).1.shards,
      Made R machine (advanceSeal R machine stage call succeeds).1.shards shard := by
  intro shard hshard
  rcases mem_advanceSeal_shards hshard with hold | ⟨record, seq, hphase, rfl⟩
  · exact (hall shard hold).mono hgrown
  · rw [CallReady, hphase] at hready
    rw [RefersOnlySlices, hphase] at hslices
    exact ⟨call, ⟨name, hparse⟩, rfl, hready.1.mono hgrown, hslices⟩

end Seals

namespace Host

def call : Host H → Option (SealCall H)
  | sealing _ call => some call
  | _ => none

def holdsLock (host : Host H) : Bool := host.call.any SealCall.holdsLock

end Host

/-- A seal of the payload that a call asked to be delivered. -/
def Opened (R : Reader H) (request : ℕ → Option (Request H)) (i : ℕ) (call : SealCall H) : Prop :=
  checkBundleParsed R call.bytes = some call.payload ∧
    ∃ requestId name sha256 fingerprint accountId,
      request i = some (.deliver requestId name call.bytes sha256 fingerprint accountId)

/-- What a host relies on while it handles a call. -/
def HostReady (E : HostEnv H) (request : ℕ → Option (Request H)) (stage : Stage H) : Host H → Prop
  | .idle => True
  | .sealing i call => Opened E.reader request i call ∧ RefersOnlySlices call ∧
      CallReady E.reader E.machine stage.shards stage call
  | .committing i call result => Opened E.reader request i call ∧
      ∀ outcome, result = .ok outcome → OutcomeOf stage.shards call outcome
  | .looking i session fingerprint _ => ∃ requestId platform sessionId,
      request i = some (.has requestId platform sessionId fingerprint) ∧
        session = sessionDirId E.reader.hexPrefix platform sessionId

/-- What a response says of the request it answers: a refusal of it or of no request at all, an
acknowledgement of what is sealed, or a conversation's fingerprint that is held if it says so. -/
inductive Responds (R : Reader H) (shards : List (Shard H)) : Request H → Message H → Prop
  | refused {request requestId kind detail}
      (hid : requestId = none ∨ requestId = some request.requestId) :
      Responds R shards request (nack requestId kind detail)
  | acknowledged {requestId name payload sha256 fingerprint accountId duplicate shard}
      (hsealed : SealedFor R shards payload) :
      Responds R shards (.deliver requestId name payload sha256 fingerprint accountId)
        (ack requestId duplicate sha256 shard)
  | looked {requestId platform sessionId fingerprint found}
      (hheld : found.isSome = true → HeldFor R shards platform sessionId fingerprint) :
      Responds R shards (.has requestId platform sessionId fingerprint) (hasAnswer requestId found)

/-- A response computed for the request of its call, over shards that are still on the stage. -/
def Sound (R : Reader H) (s : WireSite H) (answer : Answer H) : Prop :=
  answer.shards ⊆ s.stage.shards ∧
    ∃ request, s.request answer.call = some request ∧ Responds R answer.shards request answer.message

structure WireInv (E : HostEnv H) (s : WireSite H) : Prop where
  inPlace : InPlace s.stage
  made : ∀ shard ∈ s.stage.shards, Made E.reader E.machine s.stage.shards shard
  locked : Mutex.Agrees (fun p => (s.hosts p).holdsLock) s.lock
  ready : ∀ p, HostReady E s.request s.stage (s.hosts p)
  sound : ∀ answer ∈ s.answers, Sound E.reader s answer
  outcomes : ∀ (i : ℕ) request message, s.calls[i]? = some ⟨request, some (.response (some message))⟩ →
    (∃ answer ∈ s.answers, answer.message = message) ∨ isMalformed message = true
  distinct : ∀ i j request request', s.request i = some request → s.request j = some request' →
    request.requestId = request'.requestId → i = j

/-- Request ids are fresh, and no seal goes on where the next number of its session has more than six
digits. -/
def Allowed (s : WireSite H) : WireAction H → Prop
  | .deliver requestId _ _ _ _ => ∀ call ∈ s.calls, call.request.requestId ≠ requestId
  | .has requestId _ _ _ => ∀ call ∈ s.calls, call.request.requestId ≠ requestId
  | .work p _ _ => (s.hosts p).call.all fun call =>
      decide (s.stage.counter call.payload.id + 1 < 10 ^ 6)
  | _ => True

section Step
variable {s s' : WireSite H}

lemma request_of_calls (h : s'.calls = s.calls) : s'.request = s.request := by
  funext i
  rw [WireSite.request, WireSite.request, h]

lemma HostReady.mono {request request' : ℕ → Option (Request H)} {stage stage' : Stage H}
    {host : Host H} (h : HostReady E request stage host)
    (hrequest : ∀ i asked, request i = some asked → request' i = some asked)
    (hgrown : stage.shards ⊆ stage'.shards) (hlock : stage' = stage ∨ host.holdsLock = false) :
    HostReady E request' stage' host := by
  cases host with
  | idle => trivial
  | sealing i call =>
    obtain ⟨⟨hparsed, requestId, name, sha256, fingerprint, accountId, hasked⟩, hslices, hready⟩ := h
    refine ⟨⟨hparsed, requestId, name, sha256, fingerprint, accountId, hrequest _ _ hasked⟩, hslices, ?_⟩
    rcases hlock with rfl | hlock
    · exact hready
    · exact callReady_of_not_holdsLock (by simpa [Host.holdsLock, Host.call] using hlock)
  | committing i call result =>
    obtain ⟨⟨hparsed, requestId, name, sha256, fingerprint, accountId, hasked⟩, houtcome⟩ := h
    exact ⟨⟨hparsed, requestId, name, sha256, fingerprint, accountId, hrequest _ _ hasked⟩,
      fun outcome hresult => (houtcome outcome hresult).mono hgrown⟩
  | looking i session fingerprint rest =>
    obtain ⟨requestId, platform, sessionId, hasked, hsession⟩ := h
    exact ⟨requestId, platform, sessionId, hrequest _ _ hasked, hsession⟩

/-- What one host process may change: its own state, the lock if it is free or its own, the stage
while it holds the lock, and the responses, each of them sound. -/
structure HostStep (E : HostEnv H) (s : WireSite H) (p : ℕ) (host : Host H) (s' : WireSite H) :
    Prop where
  hosts : s'.hosts = Function.update s.hosts p host
  calls : s'.calls = s.calls
  inPlace : InPlace s'.stage
  made : ∀ shard ∈ s'.stage.shards, Made E.reader E.machine s'.stage.shards shard
  grown : s.stage.shards ⊆ s'.stage.shards
  lock : Mutex.Turn s.lock p host.holdsLock s'.lock
  others : s'.stage = s.stage ∨ s.lock = some p
  ready : HostReady E s'.request s'.stage host
  kept : s.answers ⊆ s'.answers
  sound : ∀ answer ∈ s'.answers, answer ∈ s.answers ∨ Sound E.reader s' answer

lemma WireInv.of_hostStep (h : WireInv E s) (p : ℕ) (host : Host H)
    (hstep : HostStep E s p host s') : WireInv E s' := by
  have hrequest : s'.request = s.request := request_of_calls hstep.calls
  refine ⟨hstep.inPlace, hstep.made, ?_, fun q => ?_, fun answer hanswer => ?_,
    fun i request message hcall => ?_, ?_⟩
  · refine h.locked.turn (p := p) ?_ fun q hq => ?_
    · simpa [hstep.hosts] using hstep.lock
    · simp [hstep.hosts, Function.update_of_ne hq]
  · rw [hstep.hosts]
    by_cases hq : q = p
    · subst hq
      rw [Function.update_self]
      exact hstep.ready
    · rw [Function.update_of_ne hq]
      refine (h.ready q).mono (fun i asked hasked => by rw [hrequest]; exact hasked) hstep.grown ?_
      refine hstep.others.imp_right fun hown => Bool.eq_false_iff.mpr fun hholds => hq ?_
      exact h.locked.unique hholds hown
  · rcases hstep.sound answer hanswer with hold | hnew
    · obtain ⟨hshards, request, hasked, hresponds⟩ := h.sound answer hold
      exact ⟨List.Subset.trans hshards hstep.grown, request, by rw [hrequest]; exact hasked, hresponds⟩
    · exact hnew
  · rw [hstep.calls] at hcall
    refine (h.outcomes i request message hcall).imp_left ?_
    rintro ⟨answer, hanswer, hmessage⟩
    exact ⟨answer, hstep.kept hanswer, hmessage⟩
  · rw [hrequest]
    exact h.distinct

lemma WireInv.become (h : WireInv E s) {p : ℕ} {host : Host H}
    (hbefore : (s.hosts p).holdsLock = false) (hafter : host.holdsLock = false)
    (hready : HostReady E s.request s.stage host) : WireInv E (s.become p host) := by
  refine h.of_hostStep p host ⟨rfl, rfl, h.inPlace, h.made, List.Subset.refl _,
    Or.inr ⟨hafter, ?_⟩, Or.inl rfl, hready, List.Subset.refl _, fun answer hanswer => Or.inl hanswer⟩
  exact (h.locked.release_of_not hbefore).symm

lemma WireInv.answer (h : WireInv E s) {p i : ℕ} {request : Request H} {message : Message H}
    (hbefore : (s.hosts p).holdsLock = false) (hasked : s.request i = some request)
    (hresponds : Responds E.reader s.stage.shards request message) :
    WireInv E (s.answer p i message) := by
  refine h.of_hostStep p .idle ⟨rfl, rfl, h.inPlace, h.made, List.Subset.refl _,
    Or.inr ⟨rfl, ?_⟩, Or.inl rfl, trivial, List.subset_append_left _ _, fun answer hanswer => ?_⟩
  · exact (h.locked.release_of_not hbefore).symm
  · refine (List.mem_append.mp hanswer).imp_right fun hnew => ?_
    obtain rfl := List.mem_singleton.mp hnew
    exact ⟨List.Subset.refl _, request, hasked, hresponds⟩

/-- The refusals of a delivery echo its id or none, and a seal that is taken up is one of its
payload. -/
lemma openDelivery_spec {requestId name : Text} {payload : Bytes} {sha256 : H.Digest}
    {fingerprint accountId : Option Text} {target : HostTarget} {gate : IdentityGate}
    {result : Except (Option Text × NackKind) (SealCall H)}
    (h : openDelivery E requestId name payload sha256 fingerprint accountId target gate = result) :
    (∃ kind, result = .error (echoedId requestId, kind)) ∨
      ∃ call, result = .ok call ∧ call.bytes = payload ∧ call.phase = .parsed ∧
        checkBundleParsed E.reader payload = some call.payload := by
  subst h
  unfold openDelivery
  dsimp only
  split
  · exact Or.inl ⟨_, rfl⟩
  split
  · exact Or.inl ⟨_, rfl⟩
  split
  · exact Or.inl ⟨_, rfl⟩
  next parsed hparsed =>
    split
    · exact Or.inl ⟨_, rfl⟩
    cases target <;> cases gate <;> first | exact Or.inl ⟨_, rfl⟩ | exact Or.inr ⟨_, rfl, rfl, rfl, hparsed⟩

lemma openHas_spec {requestId platform sessionId fingerprint : Text} {target : HostTarget}
    {result : Except (Option Text × NackKind) Text}
    (h : openHas E requestId platform sessionId fingerprint target = result) :
    (∃ kind, result = .error (echoedId requestId, kind)) ∨
      result = .ok (sessionDirId E.reader.hexPrefix platform sessionId) := by
  subst h
  unfold openHas
  dsimp only
  split
  · exact Or.inl ⟨_, rfl⟩
  cases target <;> first | exact Or.inl ⟨_, rfl⟩ | exact Or.inr rfl

lemma echoedId_eq (requestId : Text) : echoedId requestId = none ∨ echoedId requestId = some requestId := by
  unfold echoedId
  split <;> simp

lemma WireInv.start (h : WireInv E s) (p i : ℕ) (frame : Frame) (target : HostTarget)
    (gate : IdentityGate) (detail : Text) :
    WireInv E (start E s p i frame target gate detail) := by
  unfold Delivery.start
  split
  · exact h
  next _ request hidle hasked =>
    exact h.answer (by simp [hidle, Host.holdsLock, Host.call]) hasked (.refused (Or.inl rfl))
  next _ request hidle hasked =>
    exact h.answer (by simp [hidle, Host.holdsLock, Host.call]) hasked (.refused (Or.inl rfl))
  next _ requestId name payload sha256 fingerprint accountId hidle hasked =>
    have hbefore : (s.hosts p).holdsLock = false := by simp [hidle, Host.holdsLock, Host.call]
    split
    next refusal hopen =>
      obtain ⟨kind, hrefusal⟩ | ⟨call, hcall, -⟩ := openDelivery_spec hopen
      · obtain rfl := Except.error.inj hrefusal
        exact h.answer hbefore hasked (.refused (echoedId_eq requestId))
      · cases hcall
    next call hopen =>
      obtain ⟨kind, hrefusal⟩ | ⟨call', hcall, rfl, hphase, hparsed⟩ := openDelivery_spec hopen
      · cases hrefusal
      · obtain rfl := Except.ok.inj hcall
        have hlock : call.holdsLock = false := by simp [SealCall.holdsLock, hphase]
        refine h.become hbefore (by simpa [Host.holdsLock, Host.call] using hlock)
          ⟨⟨hparsed, requestId, name, sha256, fingerprint, accountId, hasked⟩, ?_,
            callReady_of_not_holdsLock hlock⟩
        simp [RefersOnlySlices, hphase]
  next _ requestId platform sessionId fingerprint hidle hasked =>
    have hbefore : (s.hosts p).holdsLock = false := by simp [hidle, Host.holdsLock, Host.call]
    split
    next refusal hopen =>
      obtain ⟨kind, hrefusal⟩ | hsession := openHas_spec hopen
      · obtain rfl := Except.error.inj hrefusal
        exact h.answer hbefore hasked (.refused (echoedId_eq requestId))
      · cases hsession
    next session hopen =>
      obtain ⟨kind, hrefusal⟩ | hsession := openHas_spec hopen
      · cases hrefusal
      · obtain rfl := Except.ok.inj hsession
        exact h.become hbefore rfl ⟨requestId, platform, sessionId, hasked, rfl⟩
  · exact h

/-- What a delivery answers once its seal has returned. -/
lemma responds_sealAnswer (h : WireInv E s) {i : ℕ} {call : SealCall H}
    {result : Except SealError (SealOutcome H)} (hopened : Opened E.reader s.request i call)
    (houtcome : ∀ outcome, result = .ok outcome → OutcomeOf s.stage.shards call outcome)
    {requestId name : Text} {payload : Bytes} {sha256 : H.Digest} {fingerprint accountId : Option Text}
    (hasked : s.request i = some (.deliver requestId name payload sha256 fingerprint accountId))
    (detail : Text) :
    Responds E.reader s.stage.shards
      (.deliver requestId name payload sha256 fingerprint accountId)
      (sealAnswer requestId sha256 detail result) := by
  obtain ⟨hparsed, requestId', name', sha', fingerprint', accountId', hasked'⟩ := hopened
  obtain ⟨rfl, rfl, rfl, rfl, rfl, rfl⟩ :=
    Request.deliver.inj (Option.some.inj (hasked.symm.trans hasked'))
  have hsealed : ∀ outcome, result = .ok outcome → SealedFor E.reader s.stage.shards call.bytes := by
    intro outcome hresult
    obtain ⟨-, -, shard, hmem, hsession, hsha, -⟩ := houtcome outcome hresult
    exact ⟨call.payload, hparsed, shard, hmem, hsession, hsha,
      carries_of_made h.made hmem hparsed hsha⟩
  match result, hsealed with
  | .ok (.stored _ _ _), hsealed => exact .acknowledged (hsealed _ rfl)
  | .ok (.duplicate _ _ _), hsealed => exact .acknowledged (hsealed _ rfl)
  | .error _, _ => exact .refused (Or.inr rfl)

lemma WireInv.sealing (h : WireInv E s) {p i : ℕ} {call : SealCall H} (succeeds : Bool)
    (hhost : s.hosts p = .sealing i call)
    (hroom : s.stage.counter call.payload.id + 1 < 10 ^ 6)
    (hturn : ¬ (call.holdsLock = false ∧ succeeds = true ∧ s.lock ≠ none)) :
    WireInv E (match advanceSeal E.reader E.machine s.stage call succeeds with
      | (stage, .running call) => { s with stage, lock := some p }.become p (.sealing i call)
      | (stage, .returned result) =>
        { (s.release p).become p (.committing i call result) with stage }) := by
  have hready := h.ready p
  rw [hhost] at hready
  obtain ⟨⟨hparsed, hasked⟩, hslices, hready⟩ := hready
  have hholds : (s.hosts p).holdsLock = call.holdsLock := by simp [hhost, Host.holdsLock, Host.call]
  obtain ⟨hplace, hgrown, hrunning, hreturned⟩ :=
    advanced_in_place h.inPlace hready hroom succeeds rfl
  have hmade := made_advanceSeal h.made hready
    (parseBundle_of_checkBundleParsed E.reader hparsed []) hslices hgrown
  have hothers : (advanceSeal E.reader E.machine s.stage call succeeds).1 = s.stage ∨
      s.lock = some p := by
    cases hlock : call.holdsLock with
    | true => exact Or.inr ((h.locked p).mp (hholds.trans hlock))
    | false => exact Or.inl (by rw [advanceSeal_of_not_holdsLock hlock])
  have hnextSlices : ∀ call', (advanceSeal E.reader E.machine s.stage call succeeds).2 =
      .running call' → RefersOnlySlices call' := fun _ => refersOnlySlices_advanceSeal
  generalize hnext : advanceSeal E.reader E.machine s.stage call succeeds = next
    at hplace hgrown hrunning hreturned hmade hothers hnextSlices ⊢
  obtain ⟨stage, call' | result⟩ := next
  · obtain ⟨⟨phase, rfl⟩, hlocked, hready'⟩ := hrunning call' rfl
    refine h.of_hostStep p (.sealing i { call with phase })
      ⟨rfl, rfl, hplace, hmade, hgrown, Or.inl ⟨hlocked, rfl, ?_⟩, hothers,
        ⟨⟨hparsed, hasked⟩, hnextSlices _ rfl, hready'⟩, List.Subset.refl _,
        fun answer hanswer => Or.inl hanswer⟩
    cases hlock : call.holdsLock with
    | true => exact Or.inr ((h.locked p).mp (hholds.trans hlock))
    | false =>
      have hsucceeds : succeeds = true := by
        rw [advanceSeal_of_not_holdsLock hlock] at hnext
        cases succeeds <;> simp at hnext ⊢
      exact Or.inl (by simpa [hlock, hsucceeds] using hturn)
  · exact h.of_hostStep p (.committing i call result)
      ⟨rfl, rfl, hplace, hmade, hgrown, Or.inr ⟨rfl, rfl⟩, hothers,
        ⟨⟨hparsed, hasked⟩, fun outcome hresult => hreturned outcome (by rw [hresult])⟩,
        List.Subset.refl _, fun answer hanswer => Or.inl hanswer⟩

lemma heldFor_of_find {shards : List (Shard H)} {platform sessionId fingerprint : Text} {seq : ℕ}
    {shard : Shard H}
    (hfind : (shards.find? fun shard =>
      shard.session = sessionDirId R.hexPrefix platform sessionId ∧ shard.seq = seq) = some shard)
    (hfingerprint : shard.record.fingerprint = some fingerprint) :
    HeldFor R shards platform sessionId fingerprint := by
  have hsession := List.find?_some hfind
  simp only [decide_eq_true_eq] at hsession
  exact ⟨shard, List.mem_of_find?_eq_some hfind, hsession.1, hfingerprint⟩

lemma WireInv.work (h : WireInv E s) {p : ℕ} {succeeds : Bool} {detail : Text}
    (hok : Allowed s (.work p succeeds detail)) : WireInv E (work E s p succeeds detail) := by
  have hready := h.ready p
  unfold Delivery.work
  split
  · exact h
  next i call hhost =>
    split
    · exact h
    next hturn =>
      have hroom : s.stage.counter call.payload.id + 1 < 10 ^ 6 := by
        simpa [Allowed, hhost, Host.call] using hok
      exact h.sealing succeeds hhost hroom hturn
  next i call result hhost =>
    rw [hhost] at hready
    obtain ⟨hopened, houtcome⟩ := hready
    have hbefore : (s.hosts p).holdsLock = false := by simp [hhost, Host.holdsLock, Host.call]
    split
    next requestId name payload sha256 fingerprint accountId hasked =>
      split
      · exact h.answer hbefore hasked (responds_sealAnswer h hopened houtcome hasked detail)
      · exact h.answer hbefore hasked (.refused (Or.inr rfl))
    · exact h
  next i session fingerprint rest hhost =>
    rw [hhost] at hready
    obtain ⟨requestId, platform, sessionId, hasked, rfl⟩ := hready
    have hbefore : (s.hosts p).holdsLock = false := by simp [hhost, Host.holdsLock, Host.call]
    rw [hasked]
    match rest with
    | [] => exact h.answer hbefore hasked (.looked (by simp))
    | seq :: rest =>
      dsimp only
      split
      · exact h.answer hbefore hasked (.refused (Or.inr rfl))
      next shard hfind =>
        split
        next hfingerprint =>
          cases succeeds with
          | false => cases hfind
          | true => exact h.answer hbefore hasked (.looked fun _ => heldFor_of_find hfind hfingerprint)
        · exact h.become hbefore rfl ⟨requestId, platform, sessionId, hasked, rfl⟩

lemma WireInv.kill (h : WireInv E s) (p : ℕ) : WireInv E ((s.become p .idle).release p) :=
  h.of_hostStep p .idle ⟨rfl, rfl, h.inPlace, h.made, List.Subset.refl _,
    Or.inr ⟨rfl, rfl⟩, Or.inl rfl, trivial, List.Subset.refl _, fun _ hanswer => Or.inl hanswer⟩

lemma request_send (s : WireSite H) (request : Request H) (i : ℕ) :
    (s.send request).request i =
      if i = s.calls.length then some request else s.request i := by
  simp only [WireSite.send, WireSite.request]
  split
  next hi => simp [hi]
  next hi =>
    rcases Nat.lt_or_gt_of_ne hi with hlt | hgt
    · rw [List.getElem?_append_left hlt]
    · rw [List.getElem?_eq_none (by simp; omega), List.getElem?_eq_none (by omega)]

lemma WireInv.send (h : WireInv E s) {request : Request H}
    (hfresh : ∀ call ∈ s.calls, call.request.requestId ≠ request.requestId) :
    WireInv E (s.send request) := by
  have hgrown : ∀ i asked, s.request i = some asked → (s.send request).request i = some asked := by
    intro i asked hasked
    rw [request_send, if_neg, hasked]
    rintro rfl
    simp [WireSite.request] at hasked
  have hother : ∀ i asked, s.request i = some asked → asked.requestId ≠ request.requestId := by
    intro i asked hasked
    obtain ⟨call, hcall, rfl⟩ := Option.map_eq_some_iff.mp hasked
    exact hfresh call (List.mem_of_getElem? hcall)
  refine ⟨h.inPlace, h.made, h.locked, fun p => (h.ready p).mono hgrown (List.Subset.refl _) (Or.inl rfl),
    fun answer hanswer => ?_, fun i asked message hcall => ?_, fun i j asked asked' hi hj hid => ?_⟩
  · obtain ⟨hshards, asked, hasked, hresponds⟩ := h.sound answer hanswer
    exact ⟨hshards, asked, hgrown _ _ hasked, hresponds⟩
  · refine h.outcomes i asked message ?_
    simp only [WireSite.send] at hcall
    rw [List.getElem?_append] at hcall
    split at hcall
    · exact hcall
    · rw [List.getElem?_singleton] at hcall
      split at hcall <;> simp at hcall
  · rw [request_send] at hi hj
    split at hi <;> split at hj
    next hi' hj' => exact hi'.trans hj'.symm
    · obtain rfl := Option.some.inj hi
      exact absurd hid.symm (hother j asked' hj)
    · obtain rfl := Option.some.inj hj
      exact absurd hid (hother i asked hi)
    · exact h.distinct i j asked asked' hi hj hid

lemma arrived_response {arrival : Arrival H} {message : Message H}
    (h : arrived s arrival = some (.response (some message))) :
    (∃ answer ∈ s.answers, answer.message = message) ∨ isMalformed message = true := by
  unfold arrived at h
  split at h
  next j =>
    obtain ⟨answer, hanswer, heq⟩ := Option.map_eq_some_iff.mp h
    exact Or.inl ⟨answer, List.mem_of_getElem? hanswer, by simpa using heq⟩
  · simp at h
  next other =>
    split at h
    next hmalformed =>
      have heq : other = message := by simpa using h
      exact Or.inr (heq ▸ hmalformed)
    · cases h
  · simp at h
  · simp at h
  · simp at h

lemma WireInv.receive (h : WireInv E s) (i : ℕ) (arrival : Arrival H) :
    WireInv E (receive s i arrival) := by
  unfold Delivery.receive
  split
  next request outcome hcall harrived =>
    have hrequest : ∀ j, WireSite.request { s with calls := s.calls.set i ⟨request, some outcome⟩ } j =
        s.request j := by
      intro j
      simp only [WireSite.request, List.getElem?_set]
      split
      next hij =>
        subst hij
        obtain ⟨hlt, -⟩ := List.getElem?_eq_some_iff.mp hcall
        rw [if_pos hlt, hcall]
        rfl
      · rfl
    have hsame : WireSite.request { s with calls := s.calls.set i ⟨request, some outcome⟩ } =
        s.request := funext hrequest
    refine ⟨h.inPlace, h.made, h.locked, fun p => ?_, fun answer hanswer => ?_,
      fun j asked message hlookup => ?_, ?_⟩
    · rw [hsame]
      exact h.ready p
    · obtain ⟨hshards, asked, hasked, hresponds⟩ := h.sound answer hanswer
      exact ⟨hshards, asked, (hrequest _).trans hasked, hresponds⟩
    · dsimp only at hlookup
      rw [List.getElem?_set] at hlookup
      split at hlookup
      · split at hlookup
        · obtain ⟨-, houtcome⟩ := Call.mk.inj (Option.some.inj hlookup)
          exact arrived_response (harrived.trans houtcome)
        · cases hlookup
      · exact h.outcomes j asked message hlookup
    · rw [hsame]
      exact h.distinct
  · exact h

lemma WireInv.step (h : WireInv E s) {a : WireAction H} (hok : Allowed s a) :
    WireInv E (wireStep E s a) := by
  cases a with
  | deliver requestId name payload fingerprint accountId => exact h.send hok
  | has requestId platform sessionId fingerprint => exact h.send hok
  | start p i frame target gate detail => exact h.start p i frame target gate detail
  | work p succeeds detail => exact h.work hok
  | kill p => exact h.kill p
  | receive i arrival => exact h.receive i arrival

end Step

def SealedStage (E : HostEnv H) (stage : Stage H) : Prop :=
  InPlace stage ∧ ∀ shard ∈ stage.shards, Made E.reader E.machine stage.shards shard

section Runs
variable {s : WireSite H}

lemma wireInv_atRest {stage : Stage H} (h : SealedStage E stage) : WireInv E (WireSite.atRest stage) where
  inPlace := h.1
  made := h.2
  locked := Mutex.agrees_none
  ready _ := trivial
  sound := by simp [WireSite.atRest]
  outcomes := by simp [WireSite.atRest]
  distinct := by simp [WireSite.atRest, WireSite.request]

lemma not_hasType {message : Message H} {type type' : Text}
    (hmessage : message.lookup .type = some (.str type)) (hne : type ≠ type') :
    ¬ hasType message type' = true := by
  simp [hasType_of_type hmessage hne]

lemma WireInv.acknowledged (h : WireInv E s) {i : ℕ} {request : Request H}
    (hasked : s.request i = some request) {answer : Answer H} (hanswer : answer ∈ s.answers)
    {read : Ack H} (hread : validateAck answer.message = some read)
    (hid : read.requestId = request.requestId) :
    answer.call = i ∧ ∃ requestId name payload sha256 fingerprint accountId,
      request = .deliver requestId name payload sha256 fingerprint accountId ∧
        SealedFor E.reader answer.shards payload := by
  obtain ⟨-, asked, hcall, hresponds⟩ := h.sound answer hanswer
  obtain ⟨htype, hlookup, -⟩ := validateAck_eq_some hread
  generalize hmessage : answer.message = message at hresponds htype hlookup
  cases hresponds with
  | refused => exact absurd htype (not_hasType rfl ackType_ne_nackType.symm)
  | looked => exact absurd htype (not_hasType rfl ackType_ne_hasAnswerType.symm)
  | @acknowledged requestId name payload sha256 fingerprint accountId duplicate shard hsealed =>
    obtain rfl : requestId = read.requestId := Value.str.inj (Option.some.inj hlookup)
    obtain rfl := h.distinct _ _ _ _ hcall hasked hid
    obtain rfl := Option.some.inj (hcall.symm.trans hasked)
    exact ⟨rfl, _, _, _, _, _, _, rfl, hsealed⟩

lemma WireInv.looked (h : WireInv E s) {i : ℕ} {request : Request H}
    (hasked : s.request i = some request) {answer : Answer H} (hanswer : answer ∈ s.answers)
    {read : HasResponse} (hread : validateHas answer.message = some read)
    (hid : read.requestId = request.requestId) (hheld : read.held = true) :
    answer.call = i ∧ ∃ requestId platform sessionId fingerprint,
      request = .has requestId platform sessionId fingerprint ∧
        HeldFor E.reader answer.shards platform sessionId fingerprint := by
  obtain ⟨-, asked, hcall, hresponds⟩ := h.sound answer hanswer
  obtain ⟨htype, hlookup, hlookupHeld⟩ := validateHas_eq_some hread
  generalize hmessage : answer.message = message at hresponds htype hlookup hlookupHeld
  cases hresponds with
  | refused => exact absurd htype (not_hasType rfl hasAnswerType_ne_nackType.symm)
  | acknowledged => exact absurd htype (not_hasType rfl ackType_ne_hasAnswerType)
  | @looked requestId platform sessionId fingerprint found hfound =>
    obtain rfl : requestId = read.requestId := Value.str.inj (Option.some.inj hlookup)
    have hsome : found.isSome = read.held := Value.bool.inj (Option.some.inj hlookupHeld)
    obtain rfl := h.distinct _ _ _ _ hcall hasked hid
    obtain rfl := Option.some.inj (hcall.symm.trans hasked)
    exact ⟨rfl, _, _, _, _, rfl, hfound (hsome.trans hheld)⟩

lemma WireInv.refused (h : WireInv E s) {i : ℕ} {request : Request H}
    (hasked : s.request i = some request) {answer : Answer H} (hanswer : answer ∈ s.answers)
    {read : Nack} (hread : validateNack answer.message = some read)
    (hid : read.requestId = none ∨ read.requestId = some request.requestId) :
    answer.call = i ∨ read.requestId = none := by
  obtain ⟨-, asked, hcall, hresponds⟩ := h.sound answer hanswer
  obtain ⟨htype, hlookup, -⟩ := validateNack_eq_some hread
  generalize hmessage : answer.message = message at hresponds htype hlookup
  cases hresponds with
  | acknowledged => exact absurd htype (not_hasType rfl ackType_ne_nackType)
  | looked => exact absurd htype (not_hasType rfl hasAnswerType_ne_nackType)
  | @refused _ requestId kind detail hnamed =>
    refine hid.symm.imp (fun hid => ?_) id
    have hlookup : requestId.elim Value.null Value.str = (.str request.requestId : Value H) := by
      simpa [hid] using Option.some.inj hlookup
    rcases hnamed with rfl | rfl
    · cases hlookup
    · exact h.distinct _ _ _ _ hcall hasked (Value.str.inj hlookup)

lemma WireInv.written (h : WireInv E s) {i : ℕ} {request : Request H} {message : Message H}
    (hcall : s.calls[i]? = some ⟨request, some (.response (some message))⟩)
    (hvalid : isMalformed message = false) : ∃ answer ∈ s.answers, answer.message = message :=
  (h.outcomes i request message hcall).resolve_right (by simp [hvalid])

/-- In every run over a sealed stage in which request ids are fresh and numbers have at most six
digits, a delivery counts as made only by the acknowledgement of that very call, written over a stage
that holds its payload sealed; a capture is given up only for a refusal of that very call or of no
call by name; a fingerprint counts as held only where its session directory has it; and no payload is
sealed twice. -/
theorem delivery_agrees (E : HostEnv H) (stage : Stage H) (hstage : SealedStage E stage)
    (as : List (WireAction H))
    (hrun : StepRun.Along (wireStep E) Allowed (WireSite.atRest stage) as) :
    let s := StepRun.exec (wireStep E) (WireSite.atRest stage) as
    (∀ (i : ℕ) requestId name payload fingerprint accountId outcome,
      s.calls[i]? = some ⟨deliverRequest requestId name payload fingerprint accountId, some outcome⟩ →
        (deliverResult outcome requestId (H.digest payload) = .delivered →
          (∃ answer ∈ s.answers, answer.call = i ∧ outcome = .response (some answer.message) ∧
            SealedFor E.reader answer.shards payload) ∧
          ∃ parsed, checkBundleParsed E.reader payload = some parsed ∧
            (copies s.stage parsed.id (H.digest payload)).length = 1) ∧
        (isItemRejected (deliverResult outcome requestId (H.digest payload)) = true →
          ∃ answer ∈ s.answers, outcome = .response (some answer.message) ∧
            ∃ read, validateNack answer.message = some read ∧ read.retryable = false ∧
              read.kind ∉ hostScopeKinds ∧ (answer.call = i ∨ read.requestId = none))) ∧
      (∀ (i : ℕ) requestId platform sessionId fingerprint outcome read,
        s.calls[i]? = some ⟨.has requestId platform sessionId fingerprint, some outcome⟩ →
          hasResult outcome requestId = .ok read → read.held = true →
            ∃ answer ∈ s.answers, answer.call = i ∧ outcome = .response (some answer.message) ∧
              HeldFor E.reader answer.shards platform sessionId fingerprint) ∧
      ∀ id fileSha256, (copies s.stage id fileSha256).length ≤ 1 := by
  intro s
  have hstep : ∀ s a, WireInv E s → Allowed s a → WireInv E (wireStep E s a) :=
    fun s a hs hok => hs.step hok
  have hinv : WireInv E s := StepRun.invariant hstep (wireInv_atRest hstage) hrun
  refine ⟨fun i requestId name payload fingerprint accountId outcome hcall =>
    ⟨fun hdelivered => ?_, fun hrejected => ?_⟩,
    fun i requestId platform sessionId fingerprint outcome read hcall hresult hheld => ?_,
    hinv.inPlace.apart.copies_le_one⟩
  · obtain ⟨message, read, rfl, hread, hid, -⟩ := ack_of_delivered hdelivered
    obtain ⟨answer, hanswer, rfl⟩ := hinv.written hcall (by simp [isMalformed, hread])
    have hasked : s.request i = some (deliverRequest requestId name payload fingerprint accountId) := by
      rw [WireSite.request, hcall]
      rfl
    obtain ⟨rfl, _, _, _, _, _, _, hrequest, hsealed⟩ :=
      hinv.acknowledged hasked hanswer hread hid
    obtain ⟨-, -, rfl, -⟩ := Request.deliver.inj hrequest
    refine ⟨⟨answer, hanswer, rfl, rfl, hsealed⟩, ?_⟩
    obtain ⟨parsed, hparsed, shard, hmem, hsession, hsha, -⟩ := hsealed
    exact ⟨parsed, hparsed, hinv.inPlace.apart.copies_eq_one
      ⟨shard, (hinv.sound answer hanswer).1 hmem, hsession, hsha⟩⟩
  · obtain ⟨message, read, rfl, hread, hid, hretryable, hitem⟩ := nack_of_rejected hrejected
    obtain ⟨answer, hanswer, rfl⟩ := hinv.written hcall (by simp [isMalformed, hread])
    have hasked : s.request i = some (deliverRequest requestId name payload fingerprint accountId) := by
      rw [WireSite.request, hcall]
      rfl
    exact ⟨answer, hanswer, rfl, read, hread, hretryable, hitem,
      hinv.refused hasked hanswer hread hid⟩
  · obtain ⟨message, rfl, hread⟩ := classify_ok hresult
    obtain ⟨hread, hid⟩ := Option.filter_eq_some_iff.mp hread
    obtain ⟨answer, hanswer, rfl⟩ := hinv.written hcall (by simp [isMalformed, hread])
    have hasked : s.request i = some (.has requestId platform sessionId fingerprint) := by
      rw [WireSite.request, hcall]
      rfl
    obtain ⟨rfl, _, _, _, _, hrequest, hfound⟩ :=
      hinv.looked hasked hanswer hread (show read.requestId = requestId by simpa using hid) hheld
    obtain ⟨-, rfl, rfl, rfl⟩ := Request.has.inj hrequest
    exact ⟨answer, hanswer, rfl, rfl, hfound⟩

/-- Reads every payload as a bundle of one conversation, whose id does not survive as a name. -/
def oneConversation : HostEnv Sha256.verbatim where
  reader :=
    { read := fun _ => .legacy
        ⟨some ['p'], some ['a', '/', 'b'], some (some ⟨[], 0⟩), false, none, none, none, none⟩
      lossyText := fun _ => []
      fromBase64 := fun _ => none
      toBase64 := fun _ => []
      hexPrefix := fun _ _ => [] }
  machine := []
  accountKey := fun _ _ => none

def someFingerprint : Text := List.replicate 64 '0'

def payloadName : Text := "p-a.json".toList

def handleDelivery (p i : ℕ) : List (WireAction Sha256.verbatim) :=
  .start p i .request .ready .clear [] :: List.replicate 5 (.work p true [])

theorem delivery_acknowledged :
    let s := StepRun.exec (wireStep oneConversation) (WireSite.atRest .empty)
      (.deliver ['x'] payloadName [1] none none :: handleDelivery 0 0 ++ [.receive 0 (.answer 0)])
    ∃ answer ∈ s.answers, answer.call = 0 ∧ SealedFor oneConversation.reader answer.shards [1] := by
  have hstage : SealedStage oneConversation .empty := ⟨inPlace_empty, by simp [Stage.empty]⟩
  have hrun : StepRun.Along (wireStep oneConversation) Allowed (WireSite.atRest .empty)
      (.deliver ['x'] payloadName [1] none none :: handleDelivery 0 0 ++ [.receive 0 (.answer 0)]) := by
    simp only [handleDelivery, List.replicate, List.cons_append, List.nil_append, StepRun.along_cons]
    refine ⟨by simp [Allowed, WireSite.atRest], trivial, ?_, ?_, ?_, ?_, ?_, trivial, trivial⟩ <;>
    · change Option.all _ _ = true
      decide +kernel
  obtain ⟨answer, hmem, hcall, -, hsealed⟩ :=
    ((delivery_agrees oneConversation .empty hstage _ hrun).1 0 ['x'] payloadName [1] none none
      (.response (some (ack ['x'] false [1] (shardFilename 1)))) (by decide +kernel)).1 (by decide +kernel) |>.1
  exact ⟨answer, hmem, hcall, hsealed⟩

/-- The refusal of a request that no host could read gives up another capture; a conversation counts
as held by a shard of another one whose id makes the same name; and past the last six-digit number a
payload is sealed a second time. -/
theorem delivery_disagrees :
    (let s := StepRun.exec (wireStep oneConversation) (WireSite.atRest .empty)
        [.deliver ['x'] payloadName [1] none none, .deliver ['y'] payloadName [2] none none,
          .start 0 0 .tooLarge .ready .clear [], .receive 1 (.answer 0)]
      ∃ outcome, s.calls.map Call.outcome = [none, some outcome] ∧
        isItemRejected (deliverResult outcome ['y'] [2]) = true ∧
        s.answers.map Answer.call = [0]) ∧
    (let s := StepRun.exec (wireStep oneConversation) (WireSite.atRest .empty)
        (.deliver ['x'] payloadName [1] (some someFingerprint) none :: handleDelivery 0 0 ++
          [.has ['y'] ['p'] ['a', '-', 'b'] someFingerprint, .start 1 1 .request .ready .clear [],
            .work 1 true [], .receive 1 (.answer 1)])
      ∃ outcome, s.calls.map Call.outcome = [none, some outcome] ∧
        (hasResult outcome ['y']).toOption.map HasResponse.held = some true ∧
        s.stage.shards.map (fun shard => shard.seq) = [1] ∧
        oneConversation.reader.read [1] = .legacy
          ⟨some ['p'], some ['a', '/', 'b'], some (some ⟨[], 0⟩), false, none, none, none, none⟩) ∧
    (copies (StepRun.exec (wireStep oneConversation) (WireSite.atRest ⟨fun _ => 999999, []⟩)
        (.deliver ['x'] payloadName [1] none none :: handleDelivery 0 0 ++
          .deliver ['y'] payloadName [1] none none :: handleDelivery 1 1)).stage
      "p.a-b".toList [1]).length = 2 := by
  refine ⟨⟨.response (some (nack none .tooLarge [])), ?_⟩,
    ⟨.response (some (hasAnswer ['y'] (some (shardFilename 1)))), ?_⟩, ?_⟩ <;> decide +kernel

end Runs

end ChatStasher.Delivery
