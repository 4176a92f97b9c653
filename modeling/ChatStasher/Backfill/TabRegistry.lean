import Mathlib.Data.Int.Notation
import ChatStasher.Library.StepRun
import ChatStasher.Library.WriteBehind

/-! The registry of platform tabs that the extension keeps in storage, with the worker's mirror of
it: hellos, ping passes, prunes and recovery sweeps, whose steps take turns in any order. -/
namespace ChatStasher.TabRegistry

/-- One row of the registry. -/
structure TabEntry (Origin : Type*) where
  tabId : ℤ
  origin : Origin
  seenAt : ℤ
  misses : Option ℕ
  deriving DecidableEq, Repr

def maxTabEntries : ℕ := 12

def tabPingMissesBeforeForget : ℕ := 2

def tabHelloMinIntervalMs : ℤ := 4 * 60000

def registryWriteSkipMs : ℤ := tabHelloMinIntervalMs / 2

def tabSweepPingCap : ℕ := maxTabEntries

/-- One row of the browser's list of tabs. -/
structure TabQueryRow where
  id : Option ℤ
  discarded : Bool
  frozen : Bool
  deriving DecidableEq, Repr

/-- What a ping comes back with: no `ok` in time, `ok` without an origin, or `ok` with one. -/
inductive PingReply (Origin : Type*)
  | failed
  | ok
  | okFrom (origin : Origin)
  deriving DecidableEq, Repr

/-- What happened to the tabs: a hello taken as registered or a row written by a sweep, a ping that
came back, a list of the open tabs with the place in the log at which it was asked for. -/
inductive Fact
  | registered (tabId : ℤ)
  | pinged (tabId : ℤ) (alive : Bool)
  | listed (since : ℕ) (liveIds : List ℤ)
  deriving DecidableEq, Repr

/-- What a call does with the rows of the channel, with the place in the log it goes back to. -/
inductive Edit (Origin : Type*)
  | remember (entry : TabEntry Origin)
  | forget (tabId : ℤ) (since : ℕ)
  | setMisses (tabId : ℤ) (misses since : ℕ)
  | prune (liveIds : List ℤ) (since : ℕ)
  | look
  deriving DecidableEq, Repr

/-- The rows that a call has read and those that it is going to write. -/
structure Write (Origin : Type*) where
  known : List (TabEntry Origin)
  next : List (TabEntry Origin)
  deriving DecidableEq, Repr

/-- Where an edit stands: in `readRawRegistry`, for itself or for its write, or in the save. -/
inductive Phase (Origin : Type*)
  | loading (write : Option (Write Origin))
  | loaded (write : Option (Write Origin)) (rows : List (TabEntry Origin))
  | read (write : Option (Write Origin)) (rows : List (TabEntry Origin))
  | saving (n : ℕ) (next : List (TabEntry Origin))
  deriving DecidableEq, Repr

/-- A recovery sweep's clock and the list of the open tabs it got. -/
structure Sweep where
  now : ℤ
  rows : List TabQueryRow
  deriving DecidableEq, Repr

/-- What a call goes on with after an edit. -/
inductive Then (Origin : Type*)
  | answer
  | ended
  | pass (since : ℕ) (rest : List (TabEntry Origin))
  | known (sweep : Sweep)
  | candidates (sweep : Sweep)
  | room (sweep : Sweep) (tabId : ℤ) (origin : Origin) (rest : List (ℤ × Origin))
  | recovered (sweep : Sweep) (rest : List (ℤ × Origin))
  deriving DecidableEq, Repr

inductive Call (Origin : Type*)
  | editing (edit : Edit Origin) (phase : Phase Origin) (next : Then Origin)
  | turnedAway (tabId : ℤ) (loaded : Bool)
  | taking (origin : Option Origin)
  | taken (origin : Option Origin) (since : ℕ) (rows : List (TabEntry Origin))
  | pinging (since : ℕ) (entry : TabEntry Origin) (rest : List (TabEntry Origin))
  | querying (now : ℤ) (since : ℕ)
  | sweeping (sweep : Sweep) (replies : List (ℤ × Option (PingReply Origin)))
  | ended
  deriving DecidableEq, Repr

/-- The stored rows, the worker's mirror, its calls and what happened so far. -/
structure Site (Origin : Type*) where
  disk : WriteBehind (List (TabEntry Origin))
  mirror : Option (List (TabEntry Origin))
  calls : List (Call Origin)
  log : List Fact
  deriving DecidableEq, Repr

variable {Origin : Type*} [DecidableEq Origin] (active : Origin → Bool)

def TabEntry.missCount (t : TabEntry Origin) : ℕ := t.misses.getD 0

def served (rows : List (TabEntry Origin)) : List (TabEntry Origin) :=
  rows.filter fun t => active t.origin

def leftover (rows : List (TabEntry Origin)) : List (TabEntry Origin) :=
  rows.filter fun t => !active t.origin

/-- The registry already says what the hello does. -/
def isRepeat (known : List (TabEntry Origin)) (entry : TabEntry Origin) : Bool :=
  match known.find? fun t => t.tabId = entry.tabId with
  | some previous =>
    previous.origin = entry.origin && entry.seenAt - previous.seenAt < registryWriteSkipMs
  | none => false

/-- The rows that an edit writes, if it writes. -/
def Edit.next (known : List (TabEntry Origin)) : Edit Origin → Option (List (TabEntry Origin))
  | .remember entry =>
    if isRepeat known entry then none
    else some ((entry :: known.filter fun t => t.tabId ≠ entry.tabId).take maxTabEntries)
  | .forget tabId _ => some (known.filter fun t => t.tabId ≠ tabId)
  | .setMisses tabId misses _ =>
    some (known.map fun t => if t.tabId = tabId then { t with misses := some misses } else t)
  | .prune liveIds _ =>
    let next := known.filter fun t => t.tabId ∈ liveIds
    if known.length - next.length = 0 then none else some next
  | .look => none

def liveIds (rows : List TabQueryRow) : List ℤ :=
  rows.filterMap fun row => row.id.filter fun id => 0 ≤ id

def candidates (rows : List TabQueryRow) (known : List ℤ) : List ℤ :=
  rows.filterMap fun row =>
    row.id.filter fun id => 0 ≤ id && !(id ∈ known) && !(row.discarded || row.frozen)

/-- The tabs that the sweep pings: all, or as many as the cap allows from a place that moves. -/
def takeSweepPingBatch (candidates : List ℤ) (now : ℤ) : List ℤ :=
  if candidates.length ≤ tabSweepPingCap then candidates
  else
    let start := ((now.tmod candidates.length + candidates.length).tmod candidates.length).toNat
    (List.range tabSweepPingCap).filterMap fun i => candidates[(start + i) % candidates.length]?

def PingReply.alive : PingReply Origin → Bool
  | .failed => false
  | .ok | .okFrom _ => true

/-- The tabs that answered the sweep with an origin. -/
def found (replies : List (ℤ × Option (PingReply Origin))) : List (ℤ × Origin) :=
  replies.filterMap fun
    | (tabId, some (.okFrom origin)) => some (tabId, origin)
    | _ => none

namespace Site

def start (rows : List (TabEntry Origin)) : Site Origin := ⟨.ofStored rows, none, [], []⟩

/-- The registry: what storage holds once every save has taken effect. -/
def registry (s : Site Origin) : List (TabEntry Origin) := s.disk.latest

def move (s : Site Origin) (c : ℕ) (call : Call Origin) : Site Origin :=
  { s with calls := s.calls.set c call }

def note (s : Site Origin) (fact : Fact) : Site Origin := { s with log := s.log ++ [fact] }

/-- `readRawRegistry` up to its first wait: the mirror, or storage where there is none. -/
def readRawRegistry (s : Site Origin) (write : Option (Write Origin)) : Phase Origin :=
  match s.mirror with
  | some rows => .read write rows
  | none => .loading write

def edit (s : Site Origin) (e : Edit Origin) (next : Then Origin) : Call Origin :=
  .editing e (s.readRawRegistry none) next

def nextRow (since : ℕ) : List (TabEntry Origin) → Call Origin
  | [] => .ended
  | entry :: rest => .pinging since entry rest

/-- The next answering tab of the sweep that the channel serves. -/
def nextFound (s : Site Origin) (sweep : Sweep) : List (ℤ × Origin) → Call Origin
  | [] => .ended
  | (tabId, origin) :: rest =>
    if active origin then s.edit .look (.room sweep tabId origin rest) else s.nextFound sweep rest

/-- What a call goes on with once its edit is done and the active rows are known. -/
def goOn (s : Site Origin) (known : List (TabEntry Origin)) : Then Origin → Call Origin
  | .answer | .ended => .ended
  | .pass since rest => nextRow since rest
  | .known sweep => s.edit .look (.candidates sweep)
  | .candidates sweep =>
    .sweeping sweep <| (takeSweepPingBatch
      (TabRegistry.candidates sweep.rows (known.map TabEntry.tabId)) sweep.now).map (·, none)
  | .room sweep tabId origin rest =>
    if !(known.any fun t => t.tabId = tabId) && maxTabEntries ≤ known.length then
      s.nextFound active sweep rest
    else s.edit (.remember ⟨tabId, origin, sweep.now, none⟩) (.recovered sweep rest)
  | .recovered sweep rest => s.nextFound active sweep rest

/-- An edit that writes nothing: a hello is answered as registered all the same. -/
def leave (s : Site Origin) : Edit Origin → Then Origin → Site Origin
  | .remember entry, .answer => s.note (.registered entry.tabId)
  | _, _ => s

/-- `writeRegistry` past its read: the mirror is set and the save handed over. -/
def put (s : Site Origin) (c : ℕ) (e : Edit Origin) (w : Write Origin)
    (rows : List (TabEntry Origin)) (next : Then Origin) : Site Origin where
  disk := s.disk.save (w.next ++ leftover active rows)
  mirror := some (w.next ++ leftover active rows)
  calls := s.calls.set c (.editing e (.saving (s.disk.issued + 1) w.next) next)
  log :=
    match e with
    | .remember entry => s.log ++ [.registered entry.tabId]
    | _ => s.log

/-- A call goes on, if what it waits for has come. -/
def resume (s : Site Origin) (c : ℕ) : Site Origin :=
  match s.calls[c]? with
  | some (.editing e (.loaded w rows) next) =>
    ({ s with mirror := some rows }).move c (.editing e (.read w rows) next)
  | some (.editing e (.read none rows) next) =>
    match e.next (served active rows) with
    | some written => s.move c (.editing e (s.readRawRegistry (some ⟨rows, written⟩)) next)
    | none => (s.leave e next).move c (s.goOn active (served active rows) next)
  | some (.editing e (.read (some w) rows) next) => s.put active c e w rows next
  | some (.editing _ (.saving n known) next) =>
    if s.disk.hasSettled n then s.move c (s.goOn active known next) else s
  | some (.turnedAway tabId true) => (s.note (.registered tabId)).move c .ended
  | some (.taken origin since rows) =>
    s.move c (nextRow since (rows.filter fun t => origin = none ∨ origin = some t.origin))
  | some (.sweeping sweep replies) =>
    if replies.all fun r => r.2.isSome then s.move c (s.nextFound active sweep (found replies))
    else s
  | _ => s

/-- The storage read that a call waits for takes effect. -/
def load (s : Site Origin) (c : ℕ) : Site Origin :=
  match s.calls[c]? with
  | some (.editing e (.loading w) next) => s.move c (.editing e (.loaded w s.disk.stored) next)
  | some (.turnedAway tabId false) => s.move c (.turnedAway tabId true)
  | some (.taking origin) => s.move c (.taken origin s.log.length (served active s.disk.stored))
  | _ => s

/-- The ping of a `pickLiveTab` pass comes back. -/
def pong (s : Site Origin) (c : ℕ) (reply : PingReply Origin) : Site Origin :=
  match s.calls[c]? with
  | some (.pinging since entry rest) =>
    let s := s.note (.pinged entry.tabId reply.alive)
    if reply.alive then
      if entry.missCount ≠ 0 then s.move c (s.edit (.setMisses entry.tabId 0 since) .ended)
      else s.move c .ended
    else if tabPingMissesBeforeForget ≤ entry.missCount + 1 then
      s.move c (s.edit (.forget entry.tabId since) (.pass since rest))
    else s.move c (s.edit (.setMisses entry.tabId (entry.missCount + 1) since) (.pass since rest))
  | _ => s

def sweepPong (s : Site Origin) (c i : ℕ) (reply : PingReply Origin) : Site Origin :=
  match s.calls[c]? with
  | some (.sweeping sweep replies) =>
    match replies[i]? with
    | some (tabId, none) =>
      (s.note (.pinged tabId reply.alive)).move c
        (.sweeping sweep (replies.set i (tabId, some reply)))
    | _ => s
  | _ => s

/-- The browser answers a sweep's question for the open tabs, or fails to. -/
def queried (s : Site Origin) (c : ℕ) (rows : Option (List TabQueryRow)) : Site Origin :=
  match s.calls[c]?, rows with
  | some (.querying now since), some rows =>
    let s := s.note (.listed since (liveIds rows))
    s.move c (s.edit (.prune (liveIds rows) since) (.known ⟨now, rows⟩))
  | some (.querying _ _), none => s.move c .ended
  | _, _ => s

end Site

/-- The calls of the module. A prune says when the list of tabs that it is given was asked for. -/
inductive Op (Origin : Type*)
  | rememberTab (tabId : ℤ) (origin : Origin) (seenAt : ℤ)
  | forgetTab (tabId : ℤ)
  | pickLiveTab (origin : Option Origin)
  | forgetMissingTabs (liveIds : List ℤ) (since : ℕ)
  | sweepUnregisteredTabs (now : ℤ)
  deriving DecidableEq, Repr

namespace Site

/-- A call up to its first wait. -/
def begin_ (s : Site Origin) (op : Op Origin) : Site Origin :=
  match op with
  | .rememberTab tabId origin seenAt =>
    let call :=
      if active origin then s.edit (.remember ⟨tabId, origin, seenAt, none⟩) .answer
      else .turnedAway tabId false
    { s with calls := s.calls ++ [call] }
  | .forgetTab tabId => { s with calls := s.calls ++ [s.edit (.forget tabId 0) .ended] }
  | .pickLiveTab origin => { s with calls := s.calls ++ [.taking origin] }
  | .forgetMissingTabs liveIds since =>
    let since := min since s.log.length
    let s := s.note (.listed since liveIds)
    { s with calls := s.calls ++ [s.edit (.prune liveIds since) .ended] }
  | .sweepUnregisteredTabs now => { s with calls := s.calls ++ [.querying now s.log.length] }

end Site

/-- What happens next: a call begins or goes on, storage answers a read or takes a save, a ping or the
browser answers, or the worker is started again. -/
inductive Event (Origin : Type*)
  | begin_ (op : Op Origin)
  | resume (c : ℕ)
  | load (c : ℕ)
  | settle
  | pong (c : ℕ) (reply : PingReply Origin)
  | sweepPong (c i : ℕ) (reply : PingReply Origin)
  | queried (c : ℕ) (rows : Option (List TabQueryRow))
  | restart
  deriving DecidableEq, Repr

def Site.step (s : Site Origin) : Event Origin → Site Origin
  | .begin_ op => s.begin_ active op
  | .resume c => s.resume active c
  | .load c => s.load active c
  | .settle => { s with disk := s.disk.settle }
  | .pong c reply => s.pong c reply
  | .sweepPong c i reply => s.sweepPong c i reply
  | .queried c rows => s.queried c rows
  | .restart => { s with mirror := none, calls := [] }

end ChatStasher.TabRegistry
