import Mathlib.Data.Rat.Floor
import ChatStasher.Library.StepRun

/-! The pace of a backfill: the interval between requests, the cap drawn for a day, and the brake that a
rate limit arms for the rest of it. -/
namespace ChatStasher

/-- A number between `lo` and `hi`; a random source that answers `NaN` (`none`) draws `lo`. -/
def uniformBetween (raw : Option ℚ) (lo hi : ℚ) : ℚ :=
  let clamped := match raw with
    | none => 0
    | some r => min 1 (max 0 r)
  lo + clamped * (hi - lo)

lemma le_uniformBetween (raw : Option ℚ) {lo hi : ℚ} (h : lo ≤ hi) :
    lo ≤ uniformBetween raw lo hi := by
  have hclamped : 0 ≤ (match raw with | none => 0 | some r => min 1 (max 0 r) : ℚ) := by
    cases raw with
    | none => exact le_refl 0
    | some r => exact le_min zero_le_one (le_max_left 0 r)
  have hprod := mul_nonneg hclamped (sub_nonneg.mpr h)
  unfold uniformBetween
  dsimp only
  linarith

/-- The inclusive range a day's cap is drawn from. -/
structure DailyCapBand where
  min : ℤ
  max : ℤ

/-- One segment's plan. -/
structure PacePlan where
  minIntervalMs : ℚ≥0
  maxPerDay : Option ℤ
  jitterMs : Option ℚ≥0
  dailyCapBand : Option DailyCapBand

structure BackfillPace where
  enumerate : PacePlan
  detail : PacePlan
  listOnlyEnumerate : Option PacePlan

structure SpeedPlan where
  tickDetails : ℕ
  pace : BackfillPace

def defaultDetailPace : PacePlan := ⟨20000, some 400, some 25000, none⟩

def defaultListOnlyEnumPace : PacePlan :=
  ⟨defaultDetailPace.minIntervalMs, none, defaultDetailPace.jitterMs, none⟩

section DailyCap

def defaultDailyCapBand : DailyCapBand := ⟨300, 400⟩

/-- The day's cap, drawn in the band and never above the plan's ceiling. -/
def drawDailyCap (maxPerDay : Option ℤ) (raw : Option ℚ) (band : DailyCapBand) : Option ℤ :=
  maxPerDay.map fun maxPerDay =>
    max 0 (min (min (uniformBetween raw band.min (band.max + 1)).floor band.max) maxPerDay)

end DailyCap

section DaySlow

def daySlowIntervalFactor : ℚ≥0 := 2

def quietTickDetails : ℕ := 1

/-- Every gap of the segment doubled. -/
def PacePlan.slower (segment : PacePlan) : PacePlan :=
  { segment with
    minIntervalMs := segment.minIntervalMs * daySlowIntervalFactor
    jitterMs := segment.jitterMs.map (· * daySlowIntervalFactor) }

def daySlowPlan (plan : SpeedPlan) : SpeedPlan where
  tickDetails := min plan.tickDetails quietTickDetails
  pace :=
    { enumerate := plan.pace.enumerate.slower
      detail := plan.pace.detail.slower
      listOnlyEnumerate := some (plan.pace.listOnlyEnumerate.getD defaultListOnlyEnumPace).slower }

structure DaySlowEntry where
  endsAt : ℚ
  seen : ℚ

abbrev DaySlowRecord (P : Type*) := P → Option DaySlowEntry

variable {P : Type*} [DecidableEq P]

def isPlatformDaySlowed (record : DaySlowRecord P) (platform : P) (now : ℚ) : Bool :=
  (record platform).any fun entry => now < entry.endsAt

/-- The record with this platform's brake armed to the next local midnight; expired entries go. -/
def recordPlatformRateLimit (localMidnightAfter : ℚ → ℚ) (record : DaySlowRecord P) (platform : P)
    (now : ℚ) : DaySlowRecord P := fun id =>
  if id = platform then some ⟨localMidnightAfter now, now⟩
  else (record id).filter fun entry => now < entry.endsAt

omit [DecidableEq P] in
@[simp] lemma daySlowPlan_detail_minIntervalMs (plan : SpeedPlan) :
    (daySlowPlan plan).pace.detail.minIntervalMs = plan.pace.detail.minIntervalMs * 2 := rfl

end DaySlow

section Pacer

/-- The throttler of one segment in one run, seeded with the moment of the last go-ahead. -/
structure Pacer where
  plan : PacePlan
  last : Option ℚ

/-- The interval of one gate: the plan's minimum and a fresh draw on top of it. -/
def Pacer.interval (pacer : Pacer) (raw : Option ℚ) : ℚ :=
  pacer.plan.minIntervalMs +
    uniformBetween raw 0 ((pacer.plan.jitterMs.getD 0 : ℚ≥0) : ℚ)

/-- How long a gate called at `now` sleeps. -/
def Pacer.wait (pacer : Pacer) (now : ℚ) (raw : Option ℚ) : ℚ :=
  match pacer.last with
  | none => 0
  | some last => max 0 (pacer.interval raw - (now - last))

/-- The moment of the go-ahead: the clock read again `overshoot` after the sleep was over. The first
gate of all keeps the reading it came with. -/
def Pacer.goAhead (pacer : Pacer) (now : ℚ) (raw : Option ℚ) (overshoot : ℚ≥0) : ℚ :=
  match pacer.last with
  | none => now
  | some _ => now + pacer.wait now raw + overshoot

def Pacer.gate (pacer : Pacer) (now : ℚ) (raw : Option ℚ) (overshoot : ℚ≥0) : Pacer :=
  { pacer with last := some (pacer.goAhead now raw overshoot) }

lemma Pacer.minIntervalMs_le_interval (pacer : Pacer) (raw : Option ℚ) :
    (pacer.plan.minIntervalMs : ℚ) ≤ pacer.interval raw := by
  have hjitter := le_uniformBetween raw (NNRat.coe_nonneg (pacer.plan.jitterMs.getD 0))
  unfold interval
  linarith

lemma Pacer.interval_le_goAhead_sub {pacer : Pacer} {last : ℚ} (h : pacer.last = some last)
    (now : ℚ) (raw : Option ℚ) (overshoot : ℚ≥0) :
    pacer.interval raw ≤ pacer.goAhead now raw overshoot - last := by
  have hwait := le_max_right 0 (pacer.interval raw - (now - last))
  have hover := overshoot.coe_nonneg
  simp only [goAhead, wait, h]
  linarith

end Pacer

end ChatStasher

/-! The spacing of the body requests of one scope over runs, kills and brakes. -/
namespace ChatStasher.BodyPacing

/-- Where a worker is killed between a go-ahead and its request. -/
inductive Kill
  | beforeSave
  | afterSave
  deriving DecidableEq

/-- One turn of the body loop: the raw draw of its gate, what the clock shows over the sleep asked for,
and how long the save and then the port take before the request leaves. -/
structure Fetch where
  raw : Option ℚ
  overshoot : ℚ≥0
  save : ℚ≥0
  send : ℚ≥0
  kill : Option Kill

def Fetch.late (f : Fetch) : ℚ := f.save + f.send

inductive Event (P : Type*)
  | pass (span : ℚ≥0)
  /-- A 429 seen by the gateway of any platform, and whether its record could be written. -/
  | refused (platform : P) (written : Bool)
  /-- A run starts with the chosen plan, and the brake is read if it can be. -/
  | begins (chosen : SpeedPlan) (readable : Bool)
  | fetch (f : Fetch)
  | ends

structure Run where
  chosen : SpeedPlan
  pacer : Pacer

/-- The first request of a body, with its go-ahead, its run's intervals and whether the brake held. -/
structure Request where
  goAhead : ℚ
  sent : ℚ
  interval : ℚ≥0
  chosen : ℚ≥0
  braked : Bool

/-- The clock, what the store holds (`lastFetchAt.detail` and the brakes), the run in progress, and the
requests so far, newest first. -/
structure State (P : Type*) where
  now : ℚ
  anchor : Option ℚ
  daySlow : DaySlowRecord P
  run : Option Run
  requests : List Request

variable {P : Type*} [DecidableEq P] (localMidnightAfter : ℚ → ℚ) (platform : P)

/-- `presetTickOptions`: the chosen plan, slowed while the brake is read to hold. -/
def presetTickOptions (record : DaySlowRecord P) (chosen : SpeedPlan) (readable : Bool) (now : ℚ) :
    SpeedPlan :=
  if readable && isPlatformDaySlowed record platform now then daySlowPlan chosen else chosen

/-- A turn of the body loop: the gate, the anchor and its save, and the request. -/
def bodyFetch (s : State P) (r : Run) (f : Fetch) : State P :=
  let goAhead := r.pacer.goAhead s.now f.raw f.overshoot
  let pacer := r.pacer.gate s.now f.raw f.overshoot
  match f.kill with
  | some .beforeSave => { s with now := goAhead, run := none }
  | some .afterSave => { s with now := goAhead + f.save, anchor := pacer.last, run := none }
  | none =>
    let sent := goAhead + f.late
    { s with
      now := sent
      anchor := pacer.last
      run := some { r with pacer }
      requests := ⟨goAhead, sent, r.pacer.plan.minIntervalMs, r.chosen.pace.detail.minIntervalMs,
        isPlatformDaySlowed s.daySlow platform sent⟩ :: s.requests }

def step (s : State P) : Event P → State P
  | .pass span => { s with now := s.now + span }
  | .refused other written =>
    if written then
      { s with daySlow := recordPlatformRateLimit localMidnightAfter s.daySlow other s.now }
    else s
  | .begins chosen readable =>
    let plan := presetTickOptions platform s.daySlow chosen readable s.now
    { s with run := some ⟨chosen, ⟨plan.pace.detail, s.anchor⟩⟩ }
  | .fetch f =>
    match s.run with
    | none => s
    | some r => bodyFetch platform s r f
  | .ends => { s with run := none }

/-- A scope no body of which was fetched yet, whatever the store holds of it. -/
def State.fresh (now : ℚ) (anchor : Option ℚ) (daySlow : DaySlowRecord P) : State P :=
  ⟨now, anchor, daySlow, none, []⟩

/-- The distance the pace promises between a request and the one after it. -/
def Request.apart (new old : Request) : Prop :=
  (min old.interval new.interval : ℚ≥0) ≤ new.sent - old.sent ∧
    (new.braked = true → (2 * min old.chosen new.chosen : ℚ≥0) ≤ new.sent - old.sent)

instance : DecidableRel Request.apart := fun new old =>
  inferInstanceAs (Decidable (_ ≤ new.sent - old.sent ∧ (_ → _ ≤ new.sent - old.sent)))

/-- A turn makes up `m` after a request: the turn and its own delays are that long, or the request left
no later after the anchor than the turn's interval and its delays exceed `m`. -/
def Fetch.makesUp (f : Fetch) (pacer : Pacer) (now : ℚ) (old : Request) (m : ℚ) : Prop :=
  m ≤ (now - old.sent) + f.overshoot + f.late ∨
    ∀ last ∈ pacer.last, (old.sent - last) + m ≤ pacer.interval f.raw + f.overshoot + f.late

/-- A turn that sends its request makes up the distance to the one before. -/
def OnPace (s : State P) : Event P → Prop
  | .fetch f => f.kill = none → ∀ r ∈ s.run, ∀ old ∈ s.requests.head?,
      f.makesUp r.pacer s.now old ↑(min old.interval r.pacer.plan.minIntervalMs) ∧
        (isPlatformDaySlowed s.daySlow platform
            (r.pacer.goAhead s.now f.raw f.overshoot + f.late) = true →
          f.makesUp r.pacer s.now old ↑(2 * min old.chosen r.chosen.pace.detail.minIntervalMs))
  | _ => True

/-- A scope with a request behind it has its anchor, in the store and in the run. -/
structure Anchored (s : State P) : Prop where
  stored : s.requests ≠ [] → s.anchor.isSome
  held : s.requests ≠ [] → ∀ r ∈ s.run, r.pacer.last.isSome

lemma makesUp_iff {f : Fetch} {pacer : Pacer} {now m : ℚ} {old : Request}
    (h : pacer.last.isSome) :
    f.makesUp pacer now old m ↔
      m ≤ pacer.goAhead now f.raw f.overshoot + f.late - old.sent := by
  obtain ⟨last, hlast⟩ := Option.isSome_iff_exists.mp h
  simp only [Fetch.makesUp, hlast, Option.mem_def, Option.some.injEq, forall_eq', Pacer.goAhead,
    Pacer.wait]
  rcases le_total (pacer.interval f.raw - (now - last)) 0 with hw | hw
  · rw [max_eq_left hw]
    constructor
    · rintro (hm | hm) <;> linarith
    · intro hm
      exact .inl (by linarith)
  · rw [max_eq_right hw]
    constructor
    · rintro (hm | hm) <;> linarith
    · intro hm
      exact .inr (by linarith)

section Steps

variable {localMidnightAfter} {platform}

omit [DecidableEq P] in
lemma Anchored.bodyFetch {s : State P} (hs : Anchored s) (r : Run) (f : Fetch) :
    Anchored (bodyFetch platform s r f) := by
  unfold BodyPacing.bodyFetch
  cases f.kill with
  | none => exact ⟨fun _ => rfl, fun _ r' hr' => by cases hr'; rfl⟩
  | some k =>
    cases k with
    | beforeSave => exact ⟨hs.stored, fun _ r' hr' => nomatch hr'⟩
    | afterSave => exact ⟨fun _ => rfl, fun _ r' hr' => nomatch hr'⟩

lemma Anchored.step {s : State P} (hs : Anchored s) (e : Event P) :
    Anchored (step localMidnightAfter platform s e) := by
  cases e with
  | pass span => exact ⟨hs.stored, hs.held⟩
  | refused other written =>
    cases written with
    | false => exact hs
    | true => exact ⟨hs.stored, hs.held⟩
  | begins chosen readable => exact ⟨hs.stored, fun h r hr => by cases hr; exact hs.stored h⟩
  | fetch f =>
    unfold BodyPacing.step
    cases s.run with
    | none => exact hs
    | some r => exact hs.bodyFetch r f
  | ends => exact ⟨hs.stored, fun _ r hr => nomatch hr⟩

lemma step_requests (s : State P) (e : Event P) :
    (step localMidnightAfter platform s e).requests = s.requests ∧ OnPace platform s e ∨
      ∃ f r, e = .fetch f ∧ f.kill = none ∧ s.run = some r ∧
        (step localMidnightAfter platform s e).requests =
          ⟨r.pacer.goAhead s.now f.raw f.overshoot,
            r.pacer.goAhead s.now f.raw f.overshoot + f.late, r.pacer.plan.minIntervalMs,
            r.chosen.pace.detail.minIntervalMs, isPlatformDaySlowed s.daySlow platform
              (r.pacer.goAhead s.now f.raw f.overshoot + f.late)⟩ :: s.requests := by
  cases e with
  | pass span => exact .inl ⟨rfl, trivial⟩
  | refused other written => cases written <;> exact .inl ⟨rfl, trivial⟩
  | begins chosen readable => exact .inl ⟨rfl, trivial⟩
  | ends => exact .inl ⟨rfl, trivial⟩
  | fetch f =>
    cases hr : s.run with
    | none => exact .inl ⟨by simp [step, hr], fun _ r h => by simp [hr] at h⟩
    | some r =>
      cases hk : f.kill with
      | none => exact .inr ⟨f, r, rfl, hk, rfl, by simp [step, hr, bodyFetch, hk]⟩
      | some k =>
        refine .inl ⟨?_, fun h => by simp [hk] at h⟩
        cases k <;> simp [step, hr, bodyFetch, hk]

lemma step_apart_iff {s : State P} (hs : Anchored s) (e : Event P) :
    ((step localMidnightAfter platform s e).requests.IsChain Request.apart ↔
      s.requests.IsChain Request.apart ∧ OnPace platform s e) := by
  obtain ⟨heq, hpace⟩ | ⟨f, r, rfl, hk, hr, heq⟩ := step_requests (P := P) s e
  · rw [heq]
    exact ⟨fun h => ⟨h, hpace⟩, And.left⟩
  · rw [heq]
    cases hold : s.requests with
    | nil => simp [OnPace, hold]
    | cons old rest =>
      have hlast := hs.held (by simp [hold]) r (by simp [hr])
      simp only [List.isChain_cons_cons, OnPace, hk, hr, hold, Request.apart, makesUp_iff hlast,
        List.head?_cons, Option.mem_def, Option.some.injEq, forall_eq', true_implies]
      exact and_comm

/-- The anchors of a scope, stored and held, are no earlier than its last go-ahead, and go-aheads are an
interval apart. -/
structure Paced (s : State P) : Prop extends Anchored s where
  stored_ge : ∀ old ∈ s.requests.head?, ∀ last ∈ s.anchor, old.goAhead ≤ last
  held_ge : ∀ old ∈ s.requests.head?, ∀ r ∈ s.run, ∀ last ∈ r.pacer.last, old.goAhead ≤ last
  apart : s.requests.IsChain fun new old => (new.interval : ℚ) ≤ new.goAhead - old.goAhead

omit [DecidableEq P] in
lemma Paced.gate_ge {s : State P} (hs : Paced s) {r : Run} (hr : r ∈ s.run) {old : Request}
    (hold : old ∈ s.requests.head?) (f : Fetch) :
    (r.pacer.plan.minIntervalMs : ℚ) ≤
      r.pacer.goAhead s.now f.raw f.overshoot - old.goAhead := by
  have hne : s.requests ≠ [] := by rintro h; simp [h] at hold
  obtain ⟨last, hlast⟩ := Option.isSome_iff_exists.mp (hs.held hne r hr)
  have hanchor := hs.held_ge old hold r hr last hlast
  have hplan := r.pacer.minIntervalMs_le_interval f.raw
  have hgate := Pacer.interval_le_goAhead_sub hlast s.now f.raw f.overshoot
  linarith

omit [DecidableEq P] in
lemma Paced.bodyFetch {s : State P} (hs : Paced s) {r : Run} (hr : r ∈ s.run) (f : Fetch) :
    Paced (bodyFetch platform s r f) := by
  have hanchored : Anchored (BodyPacing.bodyFetch platform s r f) := hs.toAnchored.bodyFetch r f
  have hlater : ∀ old ∈ s.requests.head?,
      old.goAhead ≤ r.pacer.goAhead s.now f.raw f.overshoot := by
    intro old hold
    have hgate := hs.gate_ge hr hold f
    have hmin := r.pacer.plan.minIntervalMs.coe_nonneg
    linarith
  revert hanchored
  unfold BodyPacing.bodyFetch
  cases f.kill with
  | none =>
    refine fun h => ⟨h, ?_, ?_, ?_⟩
    · rintro old ⟨⟩ last ⟨⟩
      exact le_refl _
    · rintro old ⟨⟩ r' ⟨⟩ last ⟨⟩
      exact le_refl _
    · cases hreq : s.requests with
      | nil => exact .singleton _
      | cons old rest =>
        exact .cons_cons (hs.gate_ge hr (by simp [hreq]) f) (hreq ▸ hs.apart)
  | some k =>
    cases k with
    | beforeSave => exact fun h => ⟨h, hs.stored_ge, (fun _ _ r' hr' => nomatch hr'), hs.apart⟩
    | afterSave =>
      refine fun h => ⟨h, ?_, (fun _ _ r' hr' => nomatch hr'), hs.apart⟩
      rintro old hold last ⟨⟩
      exact hlater old hold

lemma Paced.step {s : State P} (hs : Paced s) (e : Event P) :
    Paced (step localMidnightAfter platform s e) := by
  have hanchored : Anchored (BodyPacing.step localMidnightAfter platform s e) :=
    hs.toAnchored.step e
  cases e with
  | pass span => exact ⟨hanchored, hs.stored_ge, hs.held_ge, hs.apart⟩
  | refused other written =>
    cases written with
    | false => exact hs
    | true => exact ⟨hanchored, hs.stored_ge, hs.held_ge, hs.apart⟩
  | begins chosen readable =>
    refine ⟨hanchored, hs.stored_ge, ?_, hs.apart⟩
    rintro old hold r ⟨⟩ last hlast
    exact hs.stored_ge old hold last hlast
  | ends => exact ⟨hanchored, hs.stored_ge, (fun _ _ r hr => nomatch hr), hs.apart⟩
  | fetch f =>
    unfold BodyPacing.step
    cases hr : s.run with
    | none => exact hs
    | some r => exact hs.bodyFetch hr f

end Steps

/-- The body requests of a scope are apart over a run exactly if every turn that sends one makes up the
distance to the request before it. -/
theorem bodies_apart_iff (now : ℚ) (anchor : Option ℚ) (daySlow : DaySlowRecord P)
    (es : List (Event P)) :
    (StepRun.exec (step localMidnightAfter platform) (.fresh now anchor daySlow) es).requests.IsChain
        Request.apart ↔
      StepRun.Along (step localMidnightAfter platform) (OnPace platform)
        (.fresh now anchor daySlow) es := by
  have hfresh : Anchored (.fresh now anchor daySlow : State P) :=
    ⟨fun h => absurd rfl h, fun h => absurd rfl h⟩
  have hrun := @StepRun.exec_iff_along _ _ (step localMidnightAfter platform) (OnPace platform)
    Anchored (fun s => s.requests.IsChain Request.apart) (fun s e hs => hs.step e)
    (fun s e hs => step_apart_iff hs e) _ hfresh es
  exact hrun.trans (and_iff_right List.IsChain.nil)

/-- A first body whose save took five seconds, and a second one whose gate drew nothing. -/
def slowSave : List (Event Unit) :=
  [.begins ⟨1, ⟨defaultDetailPace, defaultDetailPace, none⟩⟩ true,
    .fetch ⟨some 0, 0, 5000, 0, none⟩, .pass 1000, .fetch ⟨some 0, 0, 0, 0, none⟩]

theorem slow_save_shortens_gap :
    ¬ ∀ es : List (Event Unit),
      (StepRun.exec (step id ()) (.fresh 0 none fun _ => none) es).requests.IsChain
        Request.apart :=
  fun h => absurd (h slowSave) (by decide +kernel)

end ChatStasher.BodyPacing
