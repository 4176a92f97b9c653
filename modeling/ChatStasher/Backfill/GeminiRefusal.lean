import ChatStasher.Backfill.BatchExecute
import ChatStasher.Backfill.Enumeration
import ChatStasher.Backfill.RequestBudget

/-! The answers of a backfill run on a platform that may refuse in-band: where the engine asks the
plan's `refusalOf`, and what it does before it asks. -/
namespace ChatStasher.RefusalGate
open RequestBudget

/-- The reasons that an in-band refusal may give. -/
inductive InBandReason
  | authRefused
  | rateLimited
  | refusedUnknown
  deriving DecidableEq

inductive HaltReason
  | authRefused
  | rateLimited
  | refusedUnknown
  | shapeChanged
  | transportError
  | scopeMismatch
  | orgAmbiguous
  | orgUnresolved
  | accountChanged
  | detailEmptyUnverified
  deriving DecidableEq

def InBandReason.halt : InBandReason → HaltReason
  | .authRefused => .authRefused
  | .rateLimited => .rateLimited
  | .refusedUnknown => .refusedUnknown

/-- How a run ends: with a halt that is recorded, or without one. -/
inductive Ending
  | halted (reason : HaltReason)
  | aborted
  | hostUnavailable
  | queueEmpty
  | died
  deriving DecidableEq

inductive DetailOutcome
  | nonEmpty
  | emptyUnverified
  | pagedUnsupported
  | unverified
  | treeIncomplete
  | emptyConfirmed
  deriving DecidableEq

inductive FailureReason
  | detailTooLong
  | detailPagedUnsupported
  | detailUnverified
  | detailTreeIncomplete
  | detailEmpty
  | notSaved
  deriving DecidableEq

/-- What a page of a paged body says of the next one. -/
inductive PageStep (R K : Type*)
  | last
  | unreadable
  | more (token : K) (responseIds : List R)

section Plans

variable (T R K : Type*)

/-- A body that is more than one request. -/
structure DetailPages where
  nextPage : T → Ident → PageStep R K
  maxPages : ℕ
  assemble : Ident → List T → T

/-- What a run asks its plan about the texts that it receives. -/
structure Plan where
  list : ListPlan
  parseListPage : T → Option ListPage
  refusalOf : Option (T → Option InBandReason)
  matchesResponseShape : T → Bool
  /-- The body of the second request, from the first one's answer. -/
  detailStep2 : Option (Ident → T → Option T)
  detailPages : Option (DetailPages T R K)
  /-- `none` where the body does not have the shape that the plan knows. -/
  parseDetailPage : Option (T → Option DetailOutcome)

/-- An answer to a request, with the reasons that its status and the checks on the account that it
was made for stop the run with. -/
structure Response where
  text : T
  refusedStatus : Option HaltReason
  unattributable : Option HaltReason

inductive Reply
  | threw (reason : HaltReason)
  | answered (r : Response T)

/-- The replies to the requests of one body, as far as they come, and what the sink makes of it.
Before each later page the run may be asked to abort. -/
structure BodyReplies where
  first : Reply T
  second : Option (Reply T)
  later : List (Bool × Reply T)
  sink : Sink

inductive Event
  | listPage (reply : Reply T)
  | body (replies : BodyReplies T)

/-- A run between two requests. `sunk` are the bodies that were handed to the sink. -/
structure Leg (F : Type*) where
  cursor : EnumCursor F
  debts : BackfillState
  parkedEmpty : List Ident
  emptyStreak : ℕ
  failures : List (Ident × FailureReason)
  sunk : List (Ident × T)
  ended : Option Ending

end Plans

variable {T R K F : Type*}

def Plan.refusal (plan : Plan T R K) (text : T) : Option InBandReason :=
  plan.refusalOf.bind fun refusalOf => refusalOf text

def Plan.withoutHook (plan : Plan T R K) : Plan T R K := { plan with refusalOf := none }

section Leg

def Leg.ending (s : Leg T F) (e : Ending) : Leg T F := { s with ended := some e }

def Leg.halt (s : Leg T F) (reason : HaltReason) : Leg T F := s.ending (.halted reason)

def Leg.settle (s : Leg T F) (id : Ident) : Leg T F := { s with debts := settleDebt s.debts id }

def Leg.drop (s : Leg T F) (id : Ident) (why : FailureReason) : Leg T F :=
  { s with debts := dropDebt s.debts id, failures := s.failures ++ [(id, why)] }

def Leg.park (s : Leg T F) (id : Ident) : Leg T F :=
  { s with
    debts := rotatePendingToTail s.debts id
    parkedEmpty := setAdd s.parkedEmpty id }

def Leg.settleParked (s : Leg T F) : Leg T F :=
  { s.parkedEmpty.foldl (fun s id => s.drop id .detailEmpty) s with
    parkedEmpty := []
    emptyStreak := 0 }

end Leg

section Engine

/-- The text of an answer that the checks on its account and its status let through. -/
def Reply.read : Reply T → Except HaltReason T
  | .threw reason => .error reason
  | .answered r =>
    match r.unattributable, r.refusedStatus with
    | some reason, _ => .error reason
    | none, some reason => .error reason
    | none, none => .ok r.text

def Reply.success : Reply T → Option T
  | .threw _ => none
  | .answered r => if r.refusedStatus.isNone then some r.text else none

variable [DecidableEq F] [DecidableEq R] (plan : Plan T R K) (fingerprint : List Ident → F)
  (account : T → Option HaltReason)

def listPage (s : Leg T F) (reply : Reply T) : Leg T F :=
  match reply.read with
  | .error reason => s.halt reason
  | .ok text =>
    match plan.refusal text with
    | some refused => s.halt refused.halt
    | none =>
      match account text with
      | some reason => s.halt reason
      | none =>
        match plan.parseListPage text with
        | none => s.halt .shapeChanged
        | some page =>
          match readMainPage plan.list fingerprint s.cursor page with
          | none => s.halt .shapeChanged
          | some cursor =>
            { s with
              cursor
              debts := (enqueueDebts s.debts page.ids).1 }

inductive BodyEnd (T : Type*)
  | ended (e : Ending)
  | tooLong
  | delivered (text : T)

/-- The 2xx answers to the requests of one body, and how the requests end. -/
structure BodyRead (T : Type*) where
  answers : List T
  stop : BodyEnd T

def laterPages (matchesResponseShape : T → Bool) (pages : DetailPages T R K) (id : Ident) :
    List (Bool × Reply T) → List T → List R → PageStep R K → BodyRead T
  | _, raw, _, .unreadable => ⟨raw, .ended (.halted .shapeChanged)⟩
  | _, raw, _, .last => ⟨raw, .delivered (pages.assemble id raw)⟩
  | later, raw, seen, .more _ responseIds =>
    if responseIds ≠ [] ∧ ∀ r ∈ responseIds, r ∈ seen then
      ⟨raw, .ended (.halted .shapeChanged)⟩
    else if pages.maxPages ≤ raw.length then ⟨raw, .tooLong⟩
    else
      match later with
      | [] => ⟨raw, .ended .died⟩
      | (abort, reply) :: later =>
        if abort then ⟨raw, .ended .aborted⟩
        else
          match reply.read with
          | .error reason => ⟨raw ++ reply.success.toList, .ended (.halted reason)⟩
          | .ok text =>
            if matchesResponseShape text then
              laterPages matchesResponseShape pages id later (raw ++ [text]) (seen ++ responseIds)
                (pages.nextPage text id)
            else ⟨raw ++ [text], .ended (.halted .shapeChanged)⟩

def readBody (id : Ident) (replies : BodyReplies T) : BodyRead T :=
  match replies.first.read with
  | .error reason => ⟨replies.first.success.toList, .ended (.halted reason)⟩
  | .ok text =>
    match plan.detailStep2, plan.detailPages with
    | some step2, _ =>
      if (step2 id text).isNone then ⟨[text], .ended (.halted .shapeChanged)⟩
      else
        match replies.second with
        | none => ⟨[text], .ended .died⟩
        | some reply =>
          match reply.read with
          | .error reason => ⟨text :: reply.success.toList, .ended (.halted reason)⟩
          | .ok text2 => ⟨[text, text2], .delivered text2⟩
    | none, none => ⟨[text], .delivered text⟩
    | none, some pages =>
      laterPages plan.matchesResponseShape pages id replies.later [text] [] (pages.nextPage text id)

def sinkBody (s : Leg T F) (id : Ident) (text : T) (sink : Sink) : Leg T F :=
  let s := { s with sunk := s.sunk ++ [(id, text)] }
  match sink with
  | .saved => (s.settle id).settleParked
  | .retryLater => s.ending .hostUnavailable
  | .notSaved => s.drop id .notSaved
  | .threw => s.ending .died

/-- What becomes of the delivered body, from the question whether it refuses on. -/
def judgeBody (s : Leg T F) (id : Ident) (text : T) (sink : Sink) : Leg T F :=
  match plan.refusal text with
  | some refused => s.halt refused.halt
  | none =>
    if plan.matchesResponseShape text then
      match account text with
      | some reason => s.halt reason
      | none =>
        match plan.parseDetailPage with
        | none => sinkBody s id text sink
        | some parse =>
          match parse text with
          | none => s.halt .shapeChanged
          | some .emptyUnverified =>
            let s := { s with emptyStreak := s.emptyStreak + 1 }
            if detailEmptyHaltStreak ≤ s.emptyStreak then s.halt .detailEmptyUnverified
            else s.park id
          | some .pagedUnsupported => s.drop id .detailPagedUnsupported
          | some .unverified => s.drop id .detailUnverified
          | some .treeIncomplete => s.drop id .detailTreeIncomplete
          | some .emptyConfirmed => s.settle id
          | some .nonEmpty => sinkBody s id text sink
    else s.halt .shapeChanged

def fetchBody (s : Leg T F) (id : Ident) (replies : BodyReplies T) : Leg T F :=
  match (readBody plan id replies).stop with
  | .ended e => s.ending e
  | .tooLong => s.drop id .detailTooLong
  | .delivered text => judgeBody plan account s id text replies.sink

/-- The conversation whose body a turn fetches: the head of pending, unless it is parked. -/
def Leg.fetches (s : Leg T F) : Option Ident :=
  match s.debts.pending with
  | [] => none
  | id :: _ => if id ∈ s.parkedEmpty then none else some id

/-- A turn of the body loop: it fetches, or moves a parked conversation on, or ends the run. -/
def bodyTurn (s : Leg T F) (replies : BodyReplies T) : Leg T F :=
  match s.fetches with
  | some id => fetchBody plan account s id replies
  | none =>
    match s.debts.pending with
    | [] => s.ending .queueEmpty
    | id :: rest =>
      if ∃ p ∈ rest, p ∉ s.parkedEmpty then { s with debts := rotatePendingToTail s.debts id }
      else s.ending .queueEmpty

/-- A run that has ended goes no further. -/
def step (s : Leg T F) (e : Event T) : Leg T F :=
  match s.ended, e with
  | some _, _ => s
  | none, .listPage reply => listPage plan fingerprint account s reply
  | none, .body replies => bodyTurn plan account s replies

def answers (s : Leg T F) (e : Event T) : List T :=
  match s.ended, e with
  | some _, _ => []
  | none, .listPage reply => reply.success.toList
  | none, .body replies =>
    match s.fetches with
    | some id => (readBody plan id replies).answers
    | none => []

end Engine

section Refusals

variable {plan : Plan T R K} {account : T → Option HaltReason}

@[simp] lemma Plan.refusal_withoutHook (plan : Plan T R K) (text : T) :
    plan.withoutHook.refusal text = none := rfl

lemma Reply.success_of_read {reply : Reply T} {text : T} (h : reply.read = .ok text) :
    reply.success = some text := by
  cases reply with
  | threw reason => exact nomatch h
  | answered r =>
    simp only [Reply.read] at h
    simp only [Reply.success]
    cases haccount : r.unattributable with
    | some reason =>
      rw [haccount] at h
      exact nomatch h
    | none =>
      cases hstatus : r.refusedStatus with
      | some reason =>
        rw [haccount, hstatus] at h
        exact nomatch h
      | none =>
        rw [haccount, hstatus] at h
        obtain rfl := Except.ok.inj h
        rfl

lemma listPage_refused [DecidableEq F] {fingerprint : List Ident → F} {s : Leg T F}
    {reply : Reply T} {text : T} {refused : InBandReason} (hread : reply.read = .ok text)
    (h : plan.refusal text = some refused) :
    listPage plan fingerprint account s reply = s.halt refused.halt := by
  unfold listPage
  rw [hread]
  dsimp only
  rw [h]

lemma listPage_withoutHook [DecidableEq F] {fingerprint : List Ident → F} {s : Leg T F}
    {reply : Reply T}
    (h : ∀ text ∈ reply.success, plan.refusal text = none) :
    listPage plan fingerprint account s reply =
      listPage plan.withoutHook fingerprint account s reply := by
  unfold listPage
  cases hread : reply.read with
  | error reason => rfl
  | ok text =>
    dsimp only
    rw [h text (Reply.success_of_read hread)]
    rfl

lemma judgeBody_withoutHook {s : Leg T F} {id : Ident} {text : T} {sink : Sink}
    (h : plan.refusal text = none) :
    judgeBody plan account s id text sink = judgeBody plan.withoutHook account s id text sink := by
  unfold judgeBody
  rw [h]
  rfl

variable [DecidableEq R]

/-- The hook is asked about each answer that refuses: such an answer of a body is the one delivered,
no page of a body in pages and not the first answer of two, and the checks on its account let it
through. And what is delivered refuses only if an answer does. -/
def Asked (plan : Plan T R K) (s : Leg T F) (e : Event T) : Prop :=
  match s.ended, e with
  | some _, _ => True
  | none, .listPage reply =>
    ∀ text ∈ reply.success, plan.refusal text ≠ none → reply.read = .ok text
  | none, .body replies => ∀ id ∈ s.fetches,
    (∀ text ∈ (readBody plan id replies).answers, plan.refusal text ≠ none →
        (readBody plan id replies).stop = .delivered text) ∧
      ((∀ text ∈ (readBody plan id replies).answers, plan.refusal text = none) →
        ∀ text, (readBody plan id replies).stop = .delivered text → plan.refusal text = none)

lemma bodyTurn_withoutHook {s : Leg T F} {replies : BodyReplies T}
    (h : ∀ id ∈ s.fetches, ∀ text, (readBody plan id replies).stop = .delivered text →
      plan.refusal text = none) :
    bodyTurn plan account s replies = bodyTurn plan.withoutHook account s replies := by
  unfold bodyTurn
  cases hfetch : s.fetches with
  | none => rfl
  | some id =>
    dsimp only
    unfold fetchBody
    have hread : readBody plan.withoutHook id replies = readBody plan id replies := rfl
    rw [hread]
    cases hstop : (readBody plan id replies).stop with
    | ended e => rfl
    | tooLong => rfl
    | delivered text => exact judgeBody_withoutHook (h id hfetch text hstop)

lemma asked_of_single (hstep2 : plan.detailStep2 = none) (hpages : plan.detailPages = none)
    {replies : BodyReplies T} (s : Leg T F)
    (hread : ∀ text ∈ replies.first.success, replies.first.read = .ok text) :
    Asked plan s (.body replies) := by
  unfold Asked
  cases hended : s.ended with
  | some ending => trivial
  | none =>
    intro id _
    unfold readBody
    rw [hstep2, hpages]
    cases hfirst : replies.first.read with
    | error reason =>
      refine ⟨fun text ht _ => ?_, fun _ text htext => nomatch htext⟩
      have hok := hread text (Option.mem_toList.mp ht)
      rw [hfirst] at hok
      exact nomatch hok
    | ok text =>
      refine ⟨fun text' ht _ => ?_, fun hnone text' htext => ?_⟩
      · rw [List.mem_singleton.mp ht]
      · obtain rfl := BodyEnd.delivered.inj htext
        exact hnone _ List.mem_cons_self

end Refusals

section Honoured

variable [DecidableEq F] [DecidableEq R] {plan : Plan T R K} {fingerprint : List Ident → F}
  {account : T → Option HaltReason}

/-- An answer that refuses stops the run with the refusal's reason and changes nothing else; answers
of which none refuses are treated as if the plan declared no hook. -/
def Honoured (plan : Plan T R K) (fingerprint : List Ident → F)
    (account : T → Option HaltReason) (s : Leg T F) (e : Event T) : Prop :=
  (∀ text ∈ answers plan s e, ∀ refused, plan.refusal text = some refused →
      step plan fingerprint account s e = s.halt refused.halt) ∧
    ((∀ text ∈ answers plan s e, plan.refusal text = none) →
      step plan fingerprint account s e = step plan.withoutHook fingerprint account s e)

theorem honoured_of_asked (s : Leg T F) (e : Event T) (h : Asked plan s e) :
    Honoured plan fingerprint account s e := by
  unfold Asked at h
  unfold Honoured answers step
  cases hended : s.ended with
  | some ending => exact ⟨fun text ht => absurd ht List.not_mem_nil, fun _ => rfl⟩
  | none =>
    rw [hended] at h
    cases e with
    | listPage reply =>
      dsimp only at h ⊢
      refine ⟨fun text ht refused hrefused => ?_, fun hnone => ?_⟩
      · have hread := h text (Option.mem_toList.mp ht) (by rw [hrefused]; exact nofun)
        exact listPage_refused hread hrefused
      · exact listPage_withoutHook fun text ht => hnone text (Option.mem_toList.mpr ht)
    | body replies =>
      dsimp only at h ⊢
      refine ⟨fun text ht refused hrefused => ?_, fun hnone => ?_⟩
      · cases hfetch : s.fetches with
        | none =>
          rw [hfetch] at ht
          exact absurd ht List.not_mem_nil
        | some id =>
          rw [hfetch] at ht
          have hstop := (h id hfetch).1 text ht (by rw [hrefused]; exact nofun)
          unfold bodyTurn fetchBody
          rw [hfetch]
          dsimp only
          rw [hstop]
          dsimp only
          unfold judgeBody
          rw [hrefused]
      · refine bodyTurn_withoutHook fun id hid => (h id hid).2 ?_
        rw [hid] at hnone
        exact hnone

/-- In a run in which the hook is asked about every refusal, every refusal is honoured. -/
theorem refusals_honoured (s : Leg T F) (events : List (Event T))
    (h : StepRun.Along (step plan fingerprint account) (Asked plan) s events) :
    StepRun.Along (step plan fingerprint account) (Honoured plan fingerprint account) s events :=
  h.mono fun s e => honoured_of_asked s e

end Honoured

def refusesSeven : Plan ℕ ℕ ℕ :=
  ⟨⟨true, false, false, false, 20⟩, fun _ => none,
    some fun n => if n = 7 then some .rateLimited else none, fun _ => true, none, none, none⟩

def bodyOwed : Leg ℕ ℕ := ⟨.start, ⟨["c_1".toList], []⟩, [], 0, [], [], none⟩

/-- The body of the conversation refuses. -/
theorem refused_body_honoured :
    StepRun.Along (step refusesSeven (fun _ => 0) fun _ => none)
      (Honoured refusesSeven (fun _ => 0) fun _ => none) bodyOwed
      [.body ⟨.answered ⟨7, none, none⟩, none, [], .saved⟩] :=
  refusals_honoured bodyOwed _ ⟨asked_of_single rfl rfl bodyOwed (by simp [Reply.success, Reply.read]),
    trivial⟩

end ChatStasher.RefusalGate

/-! Gemini's in-band refusal and the reader of its conversation pages, which sees a refusal first. -/
namespace ChatStasher.Gemini
open JsonText BatchExecute RefusalGate

def detailRpc : Units := units "hNvQHb"

/-- Why a page cannot be read. -/
inductive ReadFailure
  | response (reason : BatchExecute.FailureReason)
  | entry (error : EntryError)
  | rpcidAbsent
  | payloadNotAnArray
  | detailTurnsPathMissing
  | conversationIdMismatch

abbrev Result := Except BatchExecute.FailureReason Parsed

/-- The payload of the first recognised entry of an rpcid. -/
def selectRpcPayload (result : Result) (rpcid : Units) : Except ReadFailure Value :=
  match result with
  | .error reason => .error (.response reason)
  | .ok parsed =>
    match parsed.entries.find? fun e => e.recognized && e.rpcid = some rpcid with
    | none => .error .rpcidAbsent
    | some entry =>
      match entry.error with
      | some error => .error (.entry error)
      | none => .ok (entry.payload.getD .null)

def arrayValue (v : Option Value) (index : ℕ) : Option Value :=
  match v with
  | some (.array elements) => elements[index]?
  | _ => none

/-- What a turn says about where it belongs. -/
structure TurnKey where
  conversationId : Option Units
  responseId : Option Units

def turnKey (turn : Value) : TurnKey :=
  let ids := arrayValue (some turn) 0
  ⟨string? (arrayValue ids 0), string? (arrayValue ids 1)⟩

structure DetailPage where
  turns : List TurnKey
  nextPageToken : Option Units

def extractDetailPage (payload : Value) : Except ReadFailure DetailPage :=
  match payload with
  | .array elements =>
    match (elements[0]? : Option Value) with
    | some (.array turns) => .ok ⟨turns.map turnKey, string? elements[1]?⟩
    | _ => .error .detailTurnsPathMissing
  | _ => .error .payloadNotAnArray

def readDetailResponse (result : Result) (expectedConversationId : Units) :
    Except ReadFailure DetailPage :=
  match selectRpcPayload result detailRpc with
  | .error why => .error why
  | .ok payload =>
    match extractDetailPage payload with
    | .error why => .error why
    | .ok page =>
      if page.turns.any fun turn => turn.conversationId.any (· ≠ expectedConversationId) then
        .error .conversationIdMismatch
      else .ok page

def detailNextPage (result : Result) (conversationId : Units) : PageStep Units Units :=
  match readDetailResponse result conversationId with
  | .error _ => .unreadable
  | .ok page =>
    match page.nextPageToken with
    | none => .last
    | some token =>
      if page.turns = [] then .unreadable
      else .more token (page.turns.filterMap TurnKey.responseId)

def authRefusalCodes : List ℚ := [7]

/-- What an entry's status code says, if it refuses. -/
def entryRefusal (num : Units → ℚ) (entry : Entry) : Option InBandReason :=
  match entry.statusCode.map num with
  | none => none
  | some code =>
    if !entry.recognized || code = 0 then none
    else if code ∈ authRefusalCodes then some .authRefused
    else if entry.error.isNone then none
    else some .refusedUnknown

def envelopeRefusal (num : Units → ℚ) (result : Result) : Option InBandReason :=
  match result with
  | .error _ => none
  | .ok parsed => parsed.entries.findSome? (entryRefusal num)

def maxDetailPages : ℕ := 20

section Hooks

variable (finite : Units → Bool) (num : Units → ℚ) (fuel : ℕ)

/-- The hook on texts whose frames the walk splits within so many turns. -/
def geminiEnvelopeRefusal (text : Units) : Option InBandReason :=
  (parseBatchExecute finite fuel text).bind (envelopeRefusal num)

/-- The reader of a page, likewise. -/
def geminiDetailNextPage (ident : Ident → Units) (text : Units) (id : Ident) :
    PageStep Units Units :=
  match parseBatchExecute finite fuel text with
  | none => .unreadable
  | some result => detailNextPage result (ident id)

/-- Gemini's plan has both hooks; its other parts are the plan's own. -/
def geminiPlan (plan : Plan Units Units Units) (ident : Ident → Units)
    (assemble : Ident → List Units → Units) : Plan Units Units Units :=
  { plan with
    refusalOf := some (geminiEnvelopeRefusal finite num fuel)
    detailStep2 := none
    detailPages := some ⟨geminiDetailNextPage finite fuel ident, maxDetailPages, assemble⟩ }

end Hooks

section Finding

variable {finite : Units → Bool} {num : Units → ℚ} {fuel : ℕ} {plan : Plan Units Units Units}
  {ident : Ident → Units} {assemble : Ident → List Units → Units} {F : Type*} [DecidableEq F]
  {fingerprint : List Ident → F} {account : Units → Option HaltReason}

def digitsNumber (digits : Units) : ℚ := digitsValue digits

/-- Gemini's plan on texts whose frames take ten turns at most. -/
def tenTurns : Plan Units Units Units :=
  geminiPlan (fun _ => true) digitsNumber 10
    ⟨⟨true, false, false, false, 20⟩, fun _ => none, none, fun _ => true, none, none, none⟩
    (fun id => id.map unit) fun _ pages => pages.flatten

def oneOwed : Leg Units ℕ :=
  ⟨.start, ⟨["c_1".toList], []⟩, [], 0, [], [], none⟩

def refusedPage : Units :=
  units ")]\x7d'\n\n[[\"wrb.fr\",\"hNvQHb\",null,null,null,[7]]]"

/-- The page refuses, and the run stops for a changed shape. -/
theorem refused_page_not_honoured :
    ¬ Honoured tenTurns (fun _ => 0) (fun _ => none) oneOwed
      (.body ⟨.answered ⟨refusedPage, none, none⟩, none, [], .saved⟩) := by
  rintro ⟨hrefused, -⟩
  have hanswer : refusedPage ∈ answers tenTurns oneOwed
      (.body ⟨.answered ⟨refusedPage, none, none⟩, none, [], .saved⟩) := by
    decide +kernel
  have hreason : tenTurns.refusal refusedPage = some .authRefused := by decide +kernel
  have hended := congrArg Leg.ended (hrefused refusedPage hanswer _ hreason)
  exact absurd hended (by decide +kernel)

end Finding

end ChatStasher.Gemini
