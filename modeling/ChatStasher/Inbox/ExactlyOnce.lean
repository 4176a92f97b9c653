import ChatStasher.Inbox.Ingest

/-! Every file that leaves the inbox is sealed, and nothing is sealed twice, whatever the order of
the processes and wherever they are killed. -/
namespace ChatStasher.Inbox

variable {H : Sha256} {R : Reader H} {machine : Text} {s s' : InboxSite H}

namespace Consumer

def call : Consumer H → Option (SealCall H)
  | sealing _ _ call => some call
  | delivering call => some call
  | _ => none

def item : Consumer H → Option Item
  | holding item _ => some item
  | sealing item _ _ => some item
  | _ => none

def holdsLock (c : Consumer H) : Bool := c.call.any SealCall.holdsLock

end Consumer

def PayloadHeld (R : Reader H) (stage : Stage H) (payload : SourceFile × Bytes) : Prop :=
  ∃ call, openPayload R payload = some call ∧ Held stage call.payload.id (H.digest payload.2)

def FileHeld (R : Reader H) (stage : Stage H) (file : FileName × Bytes) : Prop :=
  ∀ payload ∈ payloads file.1 file.2, PayloadHeld R stage payload

/-- The payload parses and exactly one shard of its session carries its bytes. -/
def SealedOnce (R : Reader H) (stage : Stage H) (payload : SourceFile × Bytes) : Prop :=
  ∃ call, openPayload R payload = some call ∧
    (copies stage call.payload.id (H.digest payload.2)).length = 1

/-- What a process at work on a file has made of its payloads so far. -/
def Works (R : Reader H) (stage : Stage H) : Consumer H → Prop
  | .holding item _ => item.failed = false → ∀ payload ∈ payloads item.name item.bytes,
      payload ∈ item.todo ∨ PayloadHeld R stage payload
  | .sealing item _ call =>
    openPayload R (call.sourceFile, call.bytes) = some { call with phase := .parsed } ∧
      (item.failed = false → ∀ payload ∈ payloads item.name item.bytes,
        payload ∈ item.todo ∨ payload = (call.sourceFile, call.bytes) ∨ PayloadHeld R stage payload)
  | _ => True

/-- The lock is held by the process whose seal has taken it, every file in a process's hands is
still the one in the inbox, and whatever was retired or answered is held. -/
structure InboxInv (R : Reader H) (machine : Text) (s : InboxSite H) : Prop where
  inPlace : InPlace s.stage
  locked : Mutex.Agrees (fun p => (s.consumers p).holdsLock) s.lock
  ready : ∀ p call, (s.consumers p).call = some call → CallReady R machine s.stage.shards s.stage call
  works : ∀ p, Works R s.stage (s.consumers p)
  unchanged : ∀ p item, (s.consumers p).item = some item →
    ∀ bytes, s.inbox.lookup item.name = some bytes → bytes = item.bytes
  retired : ∀ file ∈ s.retired, FileHeld R s.stage file
  answered : ∀ answer ∈ s.answered, OutcomeOf s.stage.shards answer.1 answer.2

/-- No producer puts other bytes under the name of a file that a process has fetched and is not yet
done with, and no seal goes on where the next number of its session has more than six digits. -/
def Undisturbed (s : InboxSite H) : InboxAction → Prop
  | .publish name bytes => ∀ p item, (s.consumers p).item = some item → item.name = name →
      item.bytes = bytes
  | .work p _ => (s.consumers p).call.all fun call =>
      decide (s.stage.counter call.payload.id + 1 < 10 ^ 6)
  | _ => True

def NotReplacing (s : InboxSite H) : InboxAction → Prop
  | .publish name bytes => ∀ waiting, s.inbox.lookup name = some waiting → waiting = bytes
  | _ => True

lemma room_of_undisturbed {p : ℕ} {succeeds : Bool} (hok : Undisturbed s (.work p succeeds))
    {call : SealCall H} (hcall : (s.consumers p).call = some call) :
    s.stage.counter call.payload.id + 1 < 10 ^ 6 := by
  simpa [Undisturbed, hcall] using hok

section Growth
variable {stage stage' : Stage H}

lemma PayloadHeld.mono (h : stage.shards ⊆ stage'.shards) {payload : SourceFile × Bytes}
    (hheld : PayloadHeld R stage payload) : PayloadHeld R stage' payload := by
  obtain ⟨call, hopen, hsealed⟩ := hheld
  exact ⟨call, hopen, hsealed.mono h⟩

lemma FileHeld.mono (h : stage.shards ⊆ stage'.shards) {file : FileName × Bytes}
    (hheld : FileHeld R stage file) : FileHeld R stage' file :=
  fun payload hpayload => (hheld payload hpayload).mono h

lemma Works.mono (h : stage.shards ⊆ stage'.shards) {c : Consumer H} (hworks : Works R stage c) :
    Works R stage' c := by
  cases c with
  | holding item rest =>
    exact fun hok payload hpayload => (hworks hok payload hpayload).imp_right (PayloadHeld.mono h)
  | sealing item rest call =>
    exact ⟨hworks.1, fun hok payload hpayload =>
      (hworks.2 hok payload hpayload).imp_right (Or.imp_right (PayloadHeld.mono h))⟩
  | _ => trivial

lemma sealedOnce_of_held (hapart : Apart stage) {payload : SourceFile × Bytes}
    (hheld : PayloadHeld R stage payload) : SealedOnce R stage payload := by
  obtain ⟨call, hopen, hsealed⟩ := hheld
  exact ⟨call, hopen, hapart.copies_eq_one hsealed⟩

end Growth

section Step

/-- What one process may change: its own state, the lock if it is free or its own, and the stage
while it holds the lock; nothing held is lost, and what is newly retired or answered is held. -/
structure ProcessStep (R : Reader H) (machine : Text) (s : InboxSite H) (p : ℕ) (c : Consumer H)
    (s' : InboxSite H) : Prop where
  consumers : s'.consumers = Function.update s.consumers p c
  inPlace : InPlace s'.stage
  grown : s.stage.shards ⊆ s'.stage.shards
  lock : Mutex.Turn s.lock p c.holdsLock s'.lock
  others : s'.stage = s.stage ∨ s.lock = some p
  ready : ∀ call, c.call = some call → CallReady R machine s'.stage.shards s'.stage call
  works : Works R s'.stage c
  inbox : ∀ name bytes, s'.inbox.lookup name = some bytes → s.inbox.lookup name = some bytes
  unchanged : ∀ item, c.item = some item →
    ∀ bytes, s.inbox.lookup item.name = some bytes → bytes = item.bytes
  retired : ∀ file ∈ s'.retired, file ∈ s.retired ∨ FileHeld R s'.stage file
  answered : ∀ answer ∈ s'.answered, answer ∈ s.answered ∨ OutcomeOf s'.stage.shards answer.1 answer.2

lemma InboxInv.of_processStep (h : InboxInv R machine s) {p : ℕ} {c : Consumer H}
    (hstep : ProcessStep R machine s p c s') : InboxInv R machine s' where
  inPlace := hstep.inPlace
  locked := by
    refine h.locked.turn (p := p) ?_ fun q hq => ?_
    · simpa [hstep.consumers] using hstep.lock
    · simp [hstep.consumers, Function.update_of_ne hq]
  ready q call hcall := by
    rw [hstep.consumers] at hcall
    by_cases hq : q = p
    · subst hq
      rw [Function.update_self] at hcall
      exact hstep.ready call hcall
    · rw [Function.update_of_ne hq] at hcall
      rcases hstep.others with hsame | hown
      · exact hsame ▸ h.ready q call hcall
      · -- the lock is not this process's, so its call relies on nothing
        refine callReady_of_not_holdsLock (Bool.eq_false_iff.mpr fun hholds => hq ?_)
        exact h.locked.unique (by simp [Consumer.holdsLock, hcall, hholds]) hown
  works q := by
    rw [hstep.consumers]
    by_cases hq : q = p
    · subst hq
      rw [Function.update_self]
      exact hstep.works
    · rw [Function.update_of_ne hq]
      exact (h.works q).mono hstep.grown
  unchanged q item hitem bytes hlookup := by
    rw [hstep.consumers] at hitem
    have hbefore := hstep.inbox item.name bytes hlookup
    by_cases hq : q = p
    · subst hq
      rw [Function.update_self] at hitem
      exact hstep.unchanged item hitem bytes hbefore
    · rw [Function.update_of_ne hq] at hitem
      exact h.unchanged q item hitem bytes hbefore
  retired file hfile := (hstep.retired file hfile).elim
    (fun hold => (h.retired file hold).mono hstep.grown) id
  answered answer hanswer := (hstep.answered answer hanswer).elim
    (fun hold => (h.answered answer hold).mono hstep.grown) id

lemma InboxInv.become (h : InboxInv R machine s) {p : ℕ} {c : Consumer H}
    (hbefore : (s.consumers p).holdsLock = false) (hafter : c.holdsLock = false)
    (hworks : Works R s.stage c)
    (hunchanged : ∀ item, c.item = some item →
      ∀ bytes, s.inbox.lookup item.name = some bytes → bytes = item.bytes) :
    InboxInv R machine (s.become p c) := by
  refine h.of_processStep (c := c) ⟨rfl, h.inPlace, List.Subset.refl _, Or.inr ⟨hafter, ?_⟩,
    Or.inl rfl, fun call hcall => ?_, hworks, fun _ _ hlookup => hlookup, hunchanged,
    fun file hfile => Or.inl hfile, fun answer hanswer => Or.inl hanswer⟩
  · exact (h.locked.release_of_not hbefore).symm
  · exact callReady_of_not_holdsLock (by simpa [Consumer.holdsLock, hcall] using hafter)

/-- One operation of a seal keeps the invariant, whatever the process does next with the call. -/
lemma InboxInv.sealWork (h : InboxInv R machine s) {p : ℕ} {call : SealCall H} {succeeds : Bool}
    {goOn : SealCall H → Consumer H} {after : Except SealError (SealOutcome H) → Consumer H}
    {answers : Except SealError (SealOutcome H) → List (SealCall H × SealOutcome H)}
    (hcall : (s.consumers p).call = some call)
    (hroom : s.stage.counter call.payload.id + 1 < 10 ^ 6)
    (hgoOn : ∀ phase, (goOn { call with phase }).call = some { call with phase } ∧
      (goOn { call with phase }).item = (s.consumers p).item)
    (hgoOnWorks : ∀ phase stage, s.stage.shards ⊆ stage.shards →
      Works R stage (goOn { call with phase }))
    (hafter : ∀ result, (after result).call = none ∧ ∀ item, (after result).item = some item →
      ∃ before, (s.consumers p).item = some before ∧ item.name = before.name ∧
        item.bytes = before.bytes)
    (hafterWorks : ∀ stage result, s.stage.shards ⊆ stage.shards →
      (∀ outcome, result = .ok outcome → OutcomeOf stage.shards call outcome) → Works R stage (after result))
    (hanswers : ∀ result, ∀ answer ∈ answers result, ∃ outcome, result = .ok outcome ∧
      answer = (call, outcome)) :
    InboxInv R machine (sealWork R machine s p call succeeds goOn after answers) := by
  have hholds : (s.consumers p).holdsLock = call.holdsLock := by
    simp [Consumer.holdsLock, hcall]
  unfold Inbox.sealWork
  split
  · exact h
  next hturn =>
    obtain ⟨hsound, hgrown, hrunning, hreturned⟩ :=
      advanced_in_place h.inPlace (h.ready p call hcall) hroom succeeds rfl
    have hothers : (advanceSeal R machine s.stage call succeeds).1 = s.stage ∨ s.lock = some p := by
      cases hlock : call.holdsLock with
      | true => exact Or.inr ((h.locked p).mp (hholds.trans hlock))
      | false => exact Or.inl (by rw [advanceSeal_of_not_holdsLock hlock])
    generalize hnext : advanceSeal R machine s.stage call succeeds = next
      at hsound hgrown hrunning hreturned hothers ⊢
    obtain ⟨stage, call' | result⟩ := next
    · obtain ⟨⟨phase, rfl⟩, hlocked, hready⟩ := hrunning call' rfl
      obtain ⟨hcall', hitem'⟩ := hgoOn phase
      refine h.of_processStep (p := p) (c := goOn { call with phase })
        ⟨rfl, hsound, hgrown, Or.inl ⟨?_, rfl, ?_⟩, hothers, fun other hother => ?_,
          hgoOnWorks phase stage hgrown, fun _ _ hlookup => hlookup, fun item hitem => ?_,
          fun file hfile => Or.inl hfile, fun answer hanswer => Or.inl hanswer⟩
      · simpa [Consumer.holdsLock, hcall'] using hlocked
      · cases hlock : call.holdsLock with
        | true => exact Or.inr ((h.locked p).mp (hholds.trans hlock))
        | false =>
          have hsucceeds : succeeds = true := by
            rw [advanceSeal_of_not_holdsLock hlock] at hnext
            cases succeeds <;> simp at hnext ⊢
          exact Or.inl (by simpa [hlock, hsucceeds] using hturn)
      · obtain rfl := Option.some.inj (hcall'.symm.trans hother)
        exact hready
      · exact h.unchanged p item (hitem'.symm.trans hitem)
    · obtain ⟨hcall', hitem'⟩ := hafter result
      have houtcome : ∀ outcome, result = .ok outcome → OutcomeOf stage.shards call outcome :=
        fun outcome hresult => hreturned outcome (by rw [hresult])
      refine h.of_processStep (p := p) (c := after result)
        ⟨rfl, hsound, hgrown, Or.inr ⟨?_, rfl⟩, hothers, ?_,
          hafterWorks stage result hgrown houtcome, fun _ _ hlookup => hlookup,
          fun item hitem => ?_, fun file hfile => Or.inl hfile, fun answer hanswer => ?_⟩
      · simp [Consumer.holdsLock, hcall']
      · simp [hcall']
      · obtain ⟨before, hbefore, hname, hbytes⟩ := hitem' item hitem
        rw [hname, hbytes]
        exact h.unchanged p before hbefore
      · rcases List.mem_append.mp hanswer with hold | hnew
        · exact Or.inl hold
        · obtain ⟨outcome, hresult, rfl⟩ := hanswers result answer hnew
          exact Or.inr (houtcome outcome hresult)

end Step

section Runs

lemma openPayload_spec {payload : SourceFile × Bytes} {call : SealCall H}
    (h : openPayload R payload = some call) :
    payload = (call.sourceFile, call.bytes) ∧ call.phase = .parsed := by
  unfold openPayload at h
  split at h <;>
    simp only [Option.bind_eq_bind, Option.bind_eq_some_iff, Option.pure_def,
      Option.some.injEq] at h
  · obtain ⟨-, -, parsed, -, rfl⟩ := h
    exact ⟨rfl, rfl⟩
  · obtain ⟨parsed, -, rfl⟩ := h
    exact ⟨rfl, rfl⟩

lemma InboxInv.retire (h : InboxInv R machine s) {p : ℕ} {item : Item} {rest : List FileName}
    (hconsumer : s.consumers p = .holding item rest) (htodo : item.todo = [])
    (hfailed : item.failed = false) :
    InboxInv R machine ((s.become p (.ingesting rest)).retire item.name) := by
  have hidle : InboxInv R machine (s.become p (.ingesting rest)) :=
    h.become (by simp [Consumer.holdsLock, hconsumer, Consumer.call]) rfl trivial
      (by simp [Consumer.item])
  unfold InboxSite.retire
  split
  · exact hidle
  next bytes hlookup =>
    have hitem : (s.consumers p).item = some item := by rw [hconsumer]; rfl
    obtain rfl : bytes = item.bytes := h.unchanged p item hitem bytes hlookup
    have hheld : FileHeld R s.stage (item.name, item.bytes) := by
      have hworks := h.works p
      rw [hconsumer] at hworks
      intro payload hpayload
      exact (hworks hfailed payload hpayload).resolve_left (by simp [htodo])
    refine { hidle with
      unchanged := fun q other hother bytes hother' => ?_
      retired := fun file hfile => ?_ }
    · rw [KeyedList.lookup_filter_ne] at hother'
      split at hother'
      · simp at hother'
      · exact hidle.unchanged q other hother bytes hother'
    · rcases List.mem_append.mp hfile with hold | hnew
      · exact h.retired file hold
      · obtain rfl := List.mem_singleton.mp hnew
        exact hheld

lemma InboxInv.work (h : InboxInv R machine s) {p : ℕ} {succeeds : Bool}
    (hok : Undisturbed s (.work p succeeds)) :
    InboxInv R machine (work R machine s p succeeds) := by
  unfold Inbox.work
  split
  next => exact h
  next hconsumer =>
    exact h.become (by simp [Consumer.holdsLock, hconsumer, Consumer.call]) rfl trivial
      (by simp [Consumer.item])
  next name rest hconsumer =>
    have hbefore : (s.consumers p).holdsLock = false := by
      simp [Consumer.holdsLock, hconsumer, Consumer.call]
    split
    · exact h.become hbefore rfl trivial (by simp [Consumer.item])
    next bytes hfetch =>
      refine h.become hbefore rfl (fun _ payload hpayload => Or.inl hpayload) ?_
      intro item hitem bytes' hlookup
      obtain rfl := Option.some.inj hitem
      cases succeeds with
      | false => simp at hfetch
      | true => exact Option.some.inj (hlookup.symm.trans (by simpa using hfetch))
  next item rest hconsumer =>
    have hbefore : (s.consumers p).holdsLock = false := by
      simp [Consumer.holdsLock, hconsumer, Consumer.call]
    have hitem : (s.consumers p).item = some item := by rw [hconsumer]; rfl
    have hworks := h.works p
    rw [hconsumer] at hworks
    split
    next payload todo htodo =>
      have hrest : item.failed = false → ∀ other ∈ payloads item.name item.bytes,
          other ∈ todo ∨ other = payload ∨ PayloadHeld R s.stage other := by
        intro hfailed other hother
        rcases hworks hfailed other hother with hmem | hheld
        · rw [htodo] at hmem
          rcases List.mem_cons.mp hmem with rfl | hmem
          · exact Or.inr (Or.inl rfl)
          · exact Or.inl hmem
        · exact Or.inr (Or.inr hheld)
      split
      · refine h.become hbefore rfl (fun hfailed => by simp at hfailed) ?_
        intro other hother
        obtain rfl := Option.some.inj hother
        exact h.unchanged p item hitem
      next call hopen =>
        obtain ⟨rfl, hphase⟩ := openPayload_spec hopen
        refine h.become hbefore (by simp [Consumer.holdsLock, Consumer.call, SealCall.holdsLock, hphase])
          ⟨?_, hrest⟩ ?_
        · rw [hopen, ← hphase]
        · intro other hother
          obtain rfl := Option.some.inj hother
          exact h.unchanged p item hitem
    next htodo =>
      dsimp only
      split
      next hretire => exact h.retire hconsumer htodo hretire.1
      · exact h.become hbefore rfl trivial (by simp [Consumer.item])
  next item rest call hconsumer =>
    have hworks := h.works p
    rw [hconsumer] at hworks
    obtain ⟨hopen, hrest⟩ := hworks
    refine h.sealWork (by rw [hconsumer]; rfl) (room_of_undisturbed hok (by rw [hconsumer]; rfl)) (fun phase => ⟨rfl, by rw [hconsumer]; rfl⟩) ?_ ?_ ?_
      (by simp)
    · exact fun phase stage hgrown => Works.mono hgrown ⟨hopen, hrest⟩
    · refine fun result => ⟨rfl, fun other hother => ⟨item, by rw [hconsumer]; rfl, ?_⟩⟩
      obtain rfl := Option.some.inj hother
      cases result <;> exact ⟨rfl, rfl⟩
    · intro stage result hgrown houtcome
      cases result with
      | error error => exact fun hfailed => by simp [Item.finish] at hfailed
      | ok outcome =>
        obtain ⟨-, -, shard, hmem, hid, hsha, -⟩ := houtcome outcome rfl
        intro hfailed payload hpayload
        rcases hrest hfailed payload hpayload with htodo | rfl | hheld
        · exact Or.inl htodo
        · exact Or.inr ⟨_, hopen, shard, hmem, hid, hsha⟩
        · exact Or.inr (hheld.mono hgrown)
  next call hconsumer =>
    refine h.sealWork (by rw [hconsumer]; rfl) (room_of_undisturbed hok (by rw [hconsumer]; rfl)) (fun phase => ⟨rfl, by rw [hconsumer]; rfl⟩)
      (fun _ _ _ => trivial) (fun result => ⟨rfl, by simp [Consumer.item]⟩) (fun _ _ _ _ => trivial) ?_
    intro result answer hanswer
    cases result with
    | error error => simp [answersOf] at hanswer
    | ok outcome => exact ⟨outcome, rfl, List.mem_singleton.mp hanswer⟩

theorem InboxInv.step (h : InboxInv R machine s) {a : InboxAction} (hok : Undisturbed s a) :
    InboxInv R machine (inboxStep R machine s a) := by
  cases a with
  | publish name bytes =>
    refine { h with unchanged := fun p item hitem waiting hlookup => ?_ }
    rw [inboxStep, KeyedList.lookup_put] at hlookup
    split at hlookup
    next hname =>
      obtain rfl := Option.some.inj hlookup
      exact (hok p item hitem hname).symm
    · exact h.unchanged p item hitem waiting hlookup
  | ingest p =>
    dsimp only [inboxStep]
    split
    next hidle =>
      exact h.become (by simp [Consumer.holdsLock, hidle, Consumer.call]) rfl trivial
        (by simp [Consumer.item])
    · exact h
  | deliver p name payload fingerprint accountKey =>
    dsimp only [inboxStep]
    split
    next hidle _ =>
      split
      · exact h.become (by simp [Consumer.holdsLock, hidle, Consumer.call]) rfl trivial
          (by simp [Consumer.item])
      · exact h
    · exact h
  | work p succeeds => exact h.work hok
  | kill p =>
    exact h.of_processStep (p := p) (c := .idle) ⟨rfl, h.inPlace, List.Subset.refl _, Or.inr ⟨rfl, rfl⟩,
      Or.inl rfl, by simp [Consumer.call], trivial, fun _ _ hlookup => hlookup,
      by simp [Consumer.item], fun file hfile => Or.inl hfile, fun answer hanswer => Or.inl hanswer⟩

lemma inboxInv_empty : InboxInv R machine InboxSite.empty where
  inPlace := inPlace_empty
  locked := by simp [InboxSite.empty, Consumer.holdsLock, Consumer.call]
  ready := by simp [InboxSite.empty, Consumer.call]
  works _ := trivial
  unchanged := by simp [InboxSite.empty, Consumer.item]
  retired := by simp [InboxSite.empty]
  answered := by simp [InboxSite.empty]

lemma sealWork_files (p : ℕ) (call : SealCall H) (succeeds : Bool) (goOn : SealCall H → Consumer H)
    (after : Except SealError (SealOutcome H) → Consumer H)
    (answers : Except SealError (SealOutcome H) → List (SealCall H × SealOutcome H)) :
    (sealWork R machine s p call succeeds goOn after answers).inbox = s.inbox ∧
      (sealWork R machine s p call succeeds goOn after answers).published = s.published := by
  unfold sealWork
  split
  · exact ⟨rfl, rfl⟩
  split <;> exact ⟨rfl, rfl⟩

lemma retire_files (name : FileName) : (s.retire name).published = s.published ∧
    ∀ file, s.inbox.lookup file.1 = some file.2 →
      (s.retire name).inbox.lookup file.1 = some file.2 ∨ file ∈ (s.retire name).retired := by
  unfold InboxSite.retire
  split
  · exact ⟨rfl, fun _ hlookup => Or.inl hlookup⟩
  next bytes hbytes =>
    refine ⟨rfl, fun file hlookup => ?_⟩
    by_cases hname : file.1 = name
    · have hfile : file = (name, bytes) := by
        rw [hname, hbytes] at hlookup
        exact Prod.ext hname (Option.some.inj hlookup).symm
      exact Or.inr (List.mem_append_right _ (List.mem_singleton.mpr hfile))
    · refine Or.inl ?_
      rw [KeyedList.lookup_filter_ne, if_neg hname]
      exact hlookup

lemma work_files (p : ℕ) (succeeds : Bool) :
    (work R machine s p succeeds).published = s.published ∧
    ∀ file, s.inbox.lookup file.1 = some file.2 →
      (work R machine s p succeeds).inbox.lookup file.1 = some file.2 ∨
        file ∈ (work R machine s p succeeds).retired := by
  have hsame : ∀ t : InboxSite H, t.inbox = s.inbox ∧ t.published = s.published →
      t.published = s.published ∧ ∀ file, s.inbox.lookup file.1 = some file.2 →
        t.inbox.lookup file.1 = some file.2 ∨ file ∈ t.retired := by
    rintro t ⟨hinbox, hpublished⟩
    exact ⟨hpublished, fun file hlookup => Or.inl (hinbox ▸ hlookup)⟩
  unfold work
  split
  next => exact hsame _ ⟨rfl, rfl⟩
  next => exact hsame _ ⟨rfl, rfl⟩
  next =>
    split
    · exact hsame _ ⟨rfl, rfl⟩
    · exact hsame _ ⟨rfl, rfl⟩
  next item rest _ =>
    split
    · split
      · exact hsame _ ⟨rfl, rfl⟩
      · exact hsame _ ⟨rfl, rfl⟩
    · dsimp only
      split
      · exact retire_files item.name
      · exact hsame _ ⟨rfl, rfl⟩
  next => exact hsame _ (sealWork_files ..)
  next => exact hsame _ (sealWork_files ..)

def Covered (R : Reader H) (s : InboxSite H) : Prop :=
  ∀ file ∈ s.published, s.inbox.lookup file.1 = some file.2 ∨ FileHeld R s.stage file

lemma covered_of_files (hcovered : Covered R s) (hgrown : s.stage.shards ⊆ s'.stage.shards)
    (hretired : ∀ file ∈ s'.retired, FileHeld R s'.stage file)
    (hfiles : s'.published = s.published ∧ ∀ file, s.inbox.lookup file.1 = some file.2 →
      s'.inbox.lookup file.1 = some file.2 ∨ file ∈ s'.retired) : Covered R s' := by
  intro file hfile
  rw [hfiles.1] at hfile
  rcases hcovered file hfile with hwaiting | hheld
  · exact (hfiles.2 file hwaiting).imp_right (hretired file)
  · exact Or.inr (hheld.mono hgrown)

lemma sealWork_grown (h : InboxInv R machine s) {p : ℕ} {call : SealCall H}
    (hcall : (s.consumers p).call = some call)
    (hroom : s.stage.counter call.payload.id + 1 < 10 ^ 6) (succeeds : Bool) (goOn : SealCall H → Consumer H)
    (after : Except SealError (SealOutcome H) → Consumer H)
    (answers : Except SealError (SealOutcome H) → List (SealCall H × SealOutcome H)) :
    s.stage.shards ⊆ (sealWork R machine s p call succeeds goOn after answers).stage.shards := by
  obtain ⟨-, hgrown, -, -⟩ := advanced_in_place h.inPlace (h.ready p call hcall) hroom succeeds rfl
  unfold sealWork
  split
  · exact List.Subset.refl _
  · split <;> (next hnext => rw [hnext] at hgrown; exact hgrown)

lemma retire_stage (name : FileName) : (s.retire name).stage = s.stage := by
  unfold InboxSite.retire
  split <;> rfl

lemma work_grown (h : InboxInv R machine s) {p : ℕ} {succeeds : Bool}
    (hok : Undisturbed s (.work p succeeds)) :
    s.stage.shards ⊆ (work R machine s p succeeds).stage.shards := by
  unfold work
  split
  next => exact List.Subset.refl _
  next => exact List.Subset.refl _
  next => split <;> exact List.Subset.refl _
  next =>
    split
    · split <;> exact List.Subset.refl _
    · dsimp only
      split
      · rw [retire_stage]
        exact List.Subset.refl _
      · exact List.Subset.refl _
  next hconsumer =>
    exact sealWork_grown h (by rw [hconsumer]; rfl) (room_of_undisturbed hok (by rw [hconsumer]; rfl)) ..
  next hconsumer =>
    exact sealWork_grown h (by rw [hconsumer]; rfl) (room_of_undisturbed hok (by rw [hconsumer]; rfl)) ..

lemma Covered.step (h : InboxInv R machine s) (hcovered : Covered R s) {a : InboxAction}
    (hok : Undisturbed s a) (hreplace : NotReplacing s a) :
    Covered R (inboxStep R machine s a) := by
  have hretired := (h.step hok).retired
  cases a with
  | publish name bytes =>
    intro file hfile
    rcases List.mem_append.mp hfile with hold | hnew
    · refine (hcovered file hold).imp_left fun hwaiting => ?_
      rw [inboxStep, KeyedList.lookup_put]
      split
      next hname =>
        have hwaiting' : s.inbox.lookup name = some file.2 := by rw [← hwaiting, hname]
        exact congrArg some (hreplace file.2 hwaiting').symm
      · exact hwaiting
    · obtain rfl := List.mem_singleton.mp hnew
      exact Or.inl (by simp [inboxStep, KeyedList.lookup_put])
  | ingest p =>
    dsimp only [inboxStep]
    split <;> exact hcovered
  | deliver p name payload fingerprint accountKey =>
    dsimp only [inboxStep]
    split
    · split <;> exact hcovered
    · exact hcovered
  | work p succeeds =>
    exact covered_of_files hcovered (work_grown h hok) hretired (work_files p succeeds)
  | kill p => exact hcovered

/-- After a run in which no producer replaces a file between its fetch and its retirement and every
number has at most six digits, no bundle is held twice, and what was retired or answered is held exactly once; if no waiting file is replaced
either, so is everything published that does not wait any more. -/
theorem inbox_seals_exactly_once (R : Reader H) (machine : Text) (as : List InboxAction)
    (hrun : StepRun.Along (inboxStep R machine) Undisturbed InboxSite.empty as) :
    let s := StepRun.exec (inboxStep R machine) InboxSite.empty as
    (∀ id fileSha256, (copies s.stage id fileSha256).length ≤ 1) ∧
      (∀ file ∈ s.retired, ∀ payload ∈ payloads file.1 file.2, SealedOnce R s.stage payload) ∧
      (∀ answer ∈ s.answered,
        (copies s.stage answer.1.payload.id (H.digest answer.1.bytes)).length = 1) ∧
      (StepRun.Along (inboxStep R machine) NotReplacing InboxSite.empty as →
        ∀ file ∈ s.published, s.inbox.lookup file.1 = some file.2 ∨
          ∀ payload ∈ payloads file.1 file.2, SealedOnce R s.stage payload) := by
  intro s
  have hstep : ∀ s a, InboxInv R machine s → Undisturbed s a →
      InboxInv R machine (inboxStep R machine s a) := fun s a hs hok => hs.step hok
  have hinv : InboxInv R machine s := StepRun.invariant hstep inboxInv_empty hrun
  have honce : ∀ payload, PayloadHeld R s.stage payload → SealedOnce R s.stage payload :=
    fun payload => sealedOnce_of_held hinv.inPlace.apart
  refine ⟨hinv.inPlace.apart.copies_le_one,
    fun file hfile payload hpayload => honce payload (hinv.retired file hfile payload hpayload),
    fun answer hanswer => ?_, fun hreplace file hfile => ?_⟩
  · obtain ⟨-, -, shard, hmem, hid, hsha, -⟩ := hinv.answered answer hanswer
    exact hinv.inPlace.apart.copies_eq_one ⟨shard, hmem, hid, hsha⟩
  · have hboth : ∀ s a, InboxInv R machine s ∧ Covered R s → Undisturbed s a ∧ NotReplacing s a →
        InboxInv R machine (inboxStep R machine s a) ∧ Covered R (inboxStep R machine s a) :=
      fun s a hs hok => ⟨hs.1.step hok.1, hs.2.step hs.1 hok.1 hok.2⟩
    have hcovered : Covered R s :=
      (StepRun.invariant hboth ⟨inboxInv_empty, by simp [Covered, InboxSite.empty]⟩
        (hrun.and hreplace)).2
    exact (hcovered file hfile).imp_right fun hheld payload hpayload =>
      honce payload (hheld payload hpayload)

/-- Reads every file as a bundle of one conversation. -/
def oneSessionReader : Reader Sha256.verbatim where
  read _ := .legacy ⟨some ['p'], some ['s'], some (some ⟨[], 0⟩), false, none, none, none, none⟩
  lossyText _ := []
  fromBase64 _ := none
  toBase64 _ := []
  hexPrefix _ _ := []

def sealFirstFile : List InboxAction :=
  [.ingest 0, .work 0 true, .work 0 true, .work 0 true, .work 0 true, .work 0 true, .work 0 true]

theorem inbox_seals_published_file :
    let s := StepRun.exec (inboxStep oneSessionReader []) InboxSite.empty
      (.publish ['a'] [1] :: sealFirstFile ++ [.work 0 true])
    (∀ file ∈ s.retired, ∀ payload ∈ payloads file.1 file.2,
      SealedOnce oneSessionReader s.stage payload) ∧ s.retired = [(['a'], [1])] := by
  have hrun : StepRun.Along (inboxStep oneSessionReader []) Undisturbed InboxSite.empty
      (.publish ['a'] [1] :: sealFirstFile ++ [.work 0 true]) := by
    simp only [sealFirstFile, List.cons_append, List.nil_append, StepRun.along_cons]
    refine ⟨by simp [Undisturbed, InboxSite.empty, Consumer.item], trivial, ?_, ?_, ?_, ?_, ?_, ?_, ?_,
      trivial⟩ <;>
    · change Option.all _ _ = true
      decide +kernel
  exact ⟨(inbox_seals_exactly_once oneSessionReader [] _ hrun).2.1, by decide +kernel⟩

/-- A producer replaces the file while its first version is being sealed: the second version is
retired unsealed. -/
theorem inbox_retires_replaced_file :
    let s := StepRun.exec (inboxStep oneSessionReader []) InboxSite.empty
      (.publish ['a'] [1] :: sealFirstFile ++ [.publish ['a'] [2], .work 0 true, .work 0 true])
    s.consumers 0 = .idle ∧ s.inbox = [] ∧ s.published = [(['a'], [1]), (['a'], [2])] ∧
      s.retired = [(['a'], [2])] ∧ ∃ call, openPayload oneSessionReader ((['a'], none), [2]) = some call ∧
        copies s.stage call.payload.id [2] = [] :=
  ⟨by decide +kernel, by decide +kernel, by decide +kernel, by decide +kernel, _, rfl,
    by decide +kernel⟩

end Runs

end ChatStasher.Inbox
