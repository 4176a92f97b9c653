import ChatStasher.Backfill.Ledger
import ChatStasher.Backfill.Pace

/-! The body loop of a backfill run, with its budget, the day's cap and the day's counter. -/
namespace ChatStasher.RequestBudget

def dayKeyOf (nowMs : ℤ) : ℤ := nowMs / (24 * 60 * 60 * 1000)

structure DetailToday where
  day : ℤ
  count : ℕ
  cap : Option ℤ
  deriving DecidableEq

/-- The header of a scope, as far as the body loop reads and moves it. -/
structure Header where
  detailToday : DetailToday
  parkedEmpty : List Ident
  emptyStreak : ℕ
  deriving DecidableEq

def detailEmptyHaltStreak : ℕ := 3

/-- What the sink made of a body. -/
inductive Sink
  | saved
  | retryLater
  | notSaved
  /-- It threw, and the run with it. -/
  | threw
  deriving DecidableEq

/-- What the requests of one body amount to. -/
inductive Answer
  /-- No usable answer: the port threw, a status outside 2xx, a response of no or another account, an
  unreadable shape, a refusal in it, an abort between two pages, or the worker's death. -/
  | stopped
  | tooLong
  | emptyUnverified
  /-- `detail-paged-unsupported`, `detail-unverified` or `detail-tree-incomplete`. -/
  | incomplete
  | emptyConfirmed
  | body (sink : Sink)
  deriving DecidableEq

def Answer.usable (a : Answer) : Bool := a ≠ .stopped

/-- One turn of the body loop: whether it is asked to abort, what becomes of the save before the
request, the answer, and what becomes of the save after it. -/
structure Turn where
  abort : Bool
  anchorSave : SaveFate
  answer : Answer
  outcomeSave : SaveFate

/-- A run in the body loop. `fetched` counts the bodies it started and `spared` those that ended parked
or out of pending without being archived. -/
structure Run where
  plan : PacePlan
  budget : Option ℕ
  header : Header
  debts : BackfillState
  archivedThisRun : List Ident
  fetched : ℕ
  spared : ℕ

def Run.spent (r : Run) : Bool := r.budget.any fun budget => budget ≤ r.archivedThisRun.length

def Run.dailyCap (r : Run) : Option ℤ :=
  r.plan.maxPerDay.map fun planCap => min (r.header.detailToday.cap.getD planCap) planCap

def Run.capped (r : Run) : Bool :=
  r.dailyCap.any fun dailyCap => dailyCap ≤ (r.header.detailToday.count : ℤ)

def rotatePendingToTail (debts : BackfillState) (id : Ident) : BackfillState :=
  if id ∈ debts.pending then { debts with pending := debts.pending.erase id ++ [id] } else debts

def parkEmpty (r : Run) (id : Ident) : Run :=
  { r with
    debts := rotatePendingToTail r.debts id
    header := { r.header with parkedEmpty := setAdd r.header.parkedEmpty id }
    spared := r.spared + 1 }

def settleParkedEmpties (r : Run) : Run :=
  { r with
    debts := r.header.parkedEmpty.foldl dropDebt r.debts
    header := { r.header with parkedEmpty := [], emptyStreak := 0 } }

def Run.settle (r : Run) (id : Ident) : Run :=
  { r with
    debts := settleDebt r.debts id
    archivedThisRun := r.archivedThisRun ++ [id] }

def Run.drop (r : Run) (id : Ident) : Run :=
  { r with
    debts := dropDebt r.debts id
    spared := r.spared + 1 }

def Run.bumpEmptyStreak (r : Run) : Run :=
  { r with header := { r.header with emptyStreak := r.header.emptyStreak + 1 } }

/-- What the loop makes of an answer, before it counts it, and whether it goes on; `none` where the run
ends with nothing counted. -/
def Run.outcome (r : Run) (id : Ident) : Answer → Option (Run × Bool)
  | .stopped => none
  | .tooLong | .incomplete => some (r.drop id, true)
  | .emptyUnverified =>
    let r := r.bumpEmptyStreak
    if detailEmptyHaltStreak ≤ r.header.emptyStreak then some (r, false) else some (parkEmpty r id, true)
  | .emptyConfirmed => some (r.settle id, true)
  | .body .saved => some (settleParkedEmpties (r.settle id), true)
  | .body .retryLater => some (r, false)
  | .body .notSaved => some (r.drop id, true)
  | .body .threw => none

def Run.counted (r : Run) : Run :=
  { r with header.detailToday.count := r.header.detailToday.count + 1 }

/-- The start of a body: how many bodies the run had started, its budget, what the day had counted, and
the plan's ceiling. -/
structure Start where
  nth : ℕ
  budget : Option ℕ
  count : ℕ
  ceiling : Option ℤ
  deriving DecidableEq

/-- The stored header and the run in the loop, with the bodies started, the caps drawn and the usable
answers of the day, newest first. -/
structure Site where
  stored : Header
  run : Option Run
  starts : List Start
  draws : List ℤ
  usable : ℕ

/-- From the request of a body to the save of its outcome. -/
def fetchBody (s : Site) (r : Run) (id : Ident) (t : Turn) : Site :=
  let r := { r with fetched := r.fetched + 1 }
  let s := { s with
    stored := r.header
    run := none
    starts := ⟨r.fetched - 1, r.budget, r.header.detailToday.count, r.plan.maxPerDay⟩ :: s.starts
    usable := if t.answer.usable then s.usable + 1 else s.usable }
  match r.outcome id t.answer with
  | none => s
  | some (next, goesOn) =>
    match t.outcomeSave with
    | .completes =>
      { s with
        stored := next.counted.header
        run := if goesOn then some next.counted else none }
    | _ => s

/-- Whether the turn comes to a request for the head of pending. -/
def Run.fetches (r : Run) (t : Turn) : Option Ident :=
  match r.debts.pending with
  | [] => none
  | id :: _ =>
    if t.abort || r.spent || r.capped || id ∈ r.header.parkedEmpty then none
    else if t.anchorSave = .completes then some id
    else none

/-- Whether the turn only moves a parked id on. -/
def Run.rotates (r : Run) (t : Turn) : Option Ident :=
  match r.debts.pending with
  | [] => none
  | id :: _ =>
    if t.abort || r.spent || r.capped then none
    else if id ∈ r.header.parkedEmpty ∧ ∃ p ∈ r.debts.pending, p ∉ r.header.parkedEmpty then some id
    else none

/-- One turn of the loop. A turn that neither fetches nor rotates ends the run. -/
def bodyTurn (s : Site) (r : Run) (t : Turn) : Site :=
  match r.fetches t with
  | some id => fetchBody s r id t
  | none =>
    match r.rotates t with
    | some id => { s with run := some { r with debts := rotatePendingToTail r.debts id } }
    | none => { s with run := none }

structure InstantOf (day : ℤ) where
  ms : ℤ
  on : dayKeyOf ms = day

/-- A run comes to its body loop, over the debts that the ledger and its lists gave it. -/
structure Begin (day : ℤ) where
  now : InstantOf day
  plan : PacePlan
  maxDetails : Option ℕ
  debts : BackfillState
  raw : Option ℚ
  drawSave : SaveFate

inductive Event (day : ℤ)
  | begins (b : Begin day)
  | turn (t : Turn)
  | dies

/-- The counter of a new day, with the cap drawn for it. -/
def Begin.newDay {day : ℤ} (b : Begin day) : DetailToday where
  day := dayKeyOf b.now.ms
  count := 0
  cap := drawDailyCap b.plan.maxPerDay b.raw (b.plan.dailyCapBand.getD defaultDailyCapBand)

def Begin.runOn {day : ℤ} (b : Begin day) (header : Header) : Run :=
  ⟨b.plan, b.maxDetails, header, b.debts, [], 0, 0⟩

/-- The head of the body loop: the day rolls over with a draw that is saved before anything is done. -/
def beginRun {day : ℤ} (s : Site) (b : Begin day) : Site :=
  if s.stored.detailToday.day = dayKeyOf b.now.ms then
    { s with run := some (b.runOn s.stored) }
  else
    let header := { s.stored with detailToday := b.newDay }
    let s := { s with draws := b.newDay.cap.toList ++ s.draws }
    match b.drawSave with
    | .completes => { s with stored := header, run := some (b.runOn header) }
    | _ => { s with run := none }

def step {day : ℤ} (s : Site) : Event day → Site
  | .begins b => beginRun s b
  | .turn t =>
    match s.run with
    | none => s
    | some r => bodyTurn s r t
  | .dies => { s with run := none }

/-- A scope as a day finds it, whatever its header holds. -/
def Site.opened (day : ℤ) (stored : Header) : Site where
  stored := stored
  run := none
  starts := []
  draws := if stored.detailToday.day = day then stored.detailToday.cap.toList else []
  usable := if stored.detailToday.day = day then stored.detailToday.count else 0

def countedBefore (day : ℤ) (stored : Header) : ℕ :=
  if stored.detailToday.day = day then stored.detailToday.count else 0

/-- The promises of the budget and of the day's counter over a day that began with `before` counted. -/
structure Kept (day : ℤ) (before : ℕ) (s : Site) : Prop where
  budget : ∀ b ∈ s.starts, ∀ n ∈ b.budget, b.nth < n
  ceiling : ∀ b ∈ s.starts, ∀ c ∈ b.ceiling, (b.count : ℤ) < c
  drawn_once : s.draws.length ≤ 1
  draw_kept : ∀ cap ∈ s.draws, s.stored.detailToday.day = day ∧ s.stored.detailToday.cap = some cap
  below_draw : ∀ cap ∈ s.draws, (s.stored.detailToday.count : ℤ) ≤ max (before : ℤ) cap
  counted : s.usable = if s.stored.detailToday.day = day then s.stored.detailToday.count else 0

/-- A day's draw is saved, a body is started only while the bodies its run archived and those it parked
or dropped are together fewer than its budget, the outcome of a usable answer is saved, and a plan
without a ceiling gets one only while the day's cap is not used up. -/
def InBudget {day : ℤ} (before : ℕ) (s : Site) : Event day → Prop
  | .begins b => s.stored.detailToday.day ≠ day → b.newDay.cap ≠ none → b.drawSave = .completes
  | .turn t => ∀ r ∈ s.run, (r.fetches t).isSome →
      (∀ n ∈ r.budget, r.archivedThisRun.length + r.spared < n) ∧
        (t.answer.usable → t.answer ≠ .body .threw ∧ t.outcomeSave = .completes ∧
          (r.plan.maxPerDay = none → ∀ cap ∈ s.stored.detailToday.cap,
            (s.stored.detailToday.count : ℤ) < max (before : ℤ) cap))
  | .dies => True

section Outcome
variable {r next : Run} {id : Ident} {a : Answer} {goesOn : Bool}

lemma outcome_spec (h : r.outcome id a = some (next, goesOn)) :
    next.header.detailToday = r.header.detailToday ∧ next.plan = r.plan ∧ next.budget = r.budget ∧
      next.fetched = r.fetched ∧ (goesOn = true → next.archivedThisRun.length + next.spared =
        r.archivedThisRun.length + r.spared + 1) := by
  cases a with
  | stopped => cases h
  | tooLong => cases h; exact ⟨rfl, rfl, rfl, rfl, fun _ => (Nat.add_assoc _ _ 1).symm⟩
  | incomplete => cases h; exact ⟨rfl, rfl, rfl, rfl, fun _ => (Nat.add_assoc _ _ 1).symm⟩
  | emptyUnverified =>
    simp only [Run.outcome] at h
    split at h
    · cases h; exact ⟨rfl, rfl, rfl, rfl, nofun⟩
    · cases h; exact ⟨rfl, rfl, rfl, rfl, fun _ => (Nat.add_assoc _ _ 1).symm⟩
  | emptyConfirmed =>
    cases h
    refine ⟨rfl, rfl, rfl, rfl, fun _ => ?_⟩
    simp only [Run.settle, List.length_append, List.length_singleton]
    omega
  | body sink =>
    cases sink with
    | saved =>
      cases h
      refine ⟨rfl, rfl, rfl, rfl, fun _ => ?_⟩
      simp only [settleParkedEmpties, Run.settle, List.length_append, List.length_singleton]
      omega
    | retryLater => cases h; exact ⟨rfl, rfl, rfl, rfl, nofun⟩
    | notSaved => cases h; exact ⟨rfl, rfl, rfl, rfl, fun _ => (Nat.add_assoc _ _ 1).symm⟩
    | threw => cases h

lemma outcome_eq_none : r.outcome id a = none ↔ (a.usable = true → a = .body .threw) := by
  cases a with
  | body sink => cases sink <;> simp [Run.outcome, Answer.usable]
  | emptyUnverified =>
    simp only [Run.outcome, Answer.usable]
    split <;> simp
  | _ => simp [Run.outcome, Answer.usable]

end Outcome

section Runs
variable {day : ℤ} {before : ℕ}

/-- What every run of a day keeps, in or out of budget. -/
structure Sound (day : ℤ) (s : Site) : Prop where
  header : ∀ r ∈ s.run, r.header = s.stored
  today : ∀ r ∈ s.run, s.stored.detailToday.day = day
  fetched : ∀ r ∈ s.run, r.fetched = r.archivedThisRun.length + r.spared
  ceiling : ∀ b ∈ s.starts, ∀ c ∈ b.ceiling, (b.count : ℤ) < c
  drawn : s.stored.detailToday.day = day → ∀ cap ∈ s.stored.detailToday.cap, cap ∈ s.draws
  counted : s.stored.detailToday.day = day → s.stored.detailToday.count ≤ s.usable
  untouched : s.stored.detailToday.day ≠ day → s.usable = 0

lemma Sound.opened (day : ℤ) (stored : Header) : Sound day (.opened day stored) where
  header := fun r hr => (Option.not_mem_none r hr).elim
  today := fun r hr => (Option.not_mem_none r hr).elim
  fetched := fun r hr => (Option.not_mem_none r hr).elim
  ceiling := fun b hb => (List.not_mem_nil hb).elim
  drawn := fun hday cap hcap => by
    have hday : stored.detailToday.day = day := hday
    simpa [Site.opened, hday] using hcap
  counted := fun hday => by
    have hday : stored.detailToday.day = day := hday
    simp [Site.opened, hday]
  untouched := fun hday => if_neg hday

lemma Kept.opened (day : ℤ) (stored : Header) :
    Kept day (countedBefore day stored) (.opened day stored) := by
  by_cases hday : stored.detailToday.day = day
  · refine ⟨fun b hb => (List.not_mem_nil hb).elim, fun b hb => (List.not_mem_nil hb).elim, ?_, fun cap hcap => ?_, fun cap hcap => ?_, ?_⟩
    · cases hcap : stored.detailToday.cap <;> simp [Site.opened, hday, hcap]
    · exact ⟨hday, by simpa [Site.opened, hday] using hcap⟩
    · simp [Site.opened, countedBefore, hday]
    · simp [Site.opened, hday]
  · refine ⟨fun b hb => (List.not_mem_nil hb).elim, fun b hb => (List.not_mem_nil hb).elim, ?_, fun cap hcap => ?_, fun cap hcap => ?_, ?_⟩
    · simp [Site.opened, hday]
    · simp [Site.opened, hday] at hcap
    · simp [Site.opened, hday] at hcap
    · simp [Site.opened, hday]

lemma fetches_spec {r : Run} {t : Turn} {id : Ident} (h : r.fetches t = some id) :
    ∀ c ∈ r.plan.maxPerDay, (r.header.detailToday.count : ℤ) < c ∧
      ∀ cap ∈ r.header.detailToday.cap, (r.header.detailToday.count : ℤ) < cap := by
  intro c hc
  have hcapped : r.capped = false := by
    unfold Run.fetches at h
    split at h
    · cases h
    · split at h
      · cases h
      · rename_i hno
        simp only [Bool.or_eq_true, decide_eq_true_eq, not_or] at hno
        simpa using hno.1.2
  rw [Option.mem_def] at hc
  simp only [Run.capped, Run.dailyCap, hc, Option.map_some, Option.any_some, decide_eq_false_iff_not,
    not_le, lt_min_iff] at hcapped
  refine ⟨hcapped.2, fun cap hcap => ?_⟩
  rw [Option.mem_def] at hcap
  simpa [hcap] using hcapped.1

def Turn.counts (t : Turn) : Bool :=
  t.answer.usable && t.answer ≠ .body .threw && t.outcomeSave = .completes

lemma Turn.counts_le (t : Turn) : t.counts.toNat ≤ t.answer.usable.toNat := by
  unfold Turn.counts
  cases t.answer.usable with
  | false => simp
  | true => exact Bool.toNat_le _

lemma fetchBody_cases (s : Site) (r : Run) (id : Ident) (t : Turn) :
    let usable := if t.answer.usable then s.usable + 1 else s.usable
    let starts := ⟨r.fetched, r.budget, r.header.detailToday.count, r.plan.maxPerDay⟩ :: s.starts
    t.counts = false ∧ fetchBody s r id t = ⟨r.header, none, starts, s.draws, usable⟩ ∨
      t.counts = true ∧ ∃ next goesOn,
        { r with fetched := r.fetched + 1 }.outcome id t.answer = some (next, goesOn) ∧
          fetchBody s r id t = ⟨next.counted.header, if goesOn then some next.counted else none,
            starts, s.draws, usable⟩ := by
  intro usable starts
  unfold fetchBody
  dsimp only
  cases houtcome : { r with fetched := r.fetched + 1 }.outcome id t.answer with
  | none =>
    refine .inl ⟨?_, rfl⟩
    rw [outcome_eq_none] at houtcome
    cases husable : t.answer.usable with
    | false => simp [Turn.counts, husable]
    | true => simp [Turn.counts, houtcome husable]
  | some o =>
    obtain ⟨next, goesOn⟩ := o
    have hcounts : t.answer.usable = true ∧ t.answer ≠ .body .threw := by
      have hne : ¬ { r with fetched := r.fetched + 1 }.outcome id t.answer = none := by
        rw [houtcome]
        exact Option.some_ne_none _
      rwa [outcome_eq_none, Classical.not_imp] at hne
    cases hsave : t.outcomeSave with
    | completes =>
      exact .inr ⟨by simp [Turn.counts, hcounts, hsave], next, goesOn, rfl, rfl⟩
    | refused => exact .inl ⟨by simp [Turn.counts, hsave], rfl⟩
    | diesBetween => exact .inl ⟨by simp [Turn.counts, hsave], rfl⟩

lemma usable_le (t : Turn) (n : ℕ) :
    (if t.answer.usable then n + 1 else n) = n + t.answer.usable.toNat := by
  cases t.answer.usable <;> rfl

lemma fetchBody_spec (s : Site) (r : Run) (id : Ident) (t : Turn) :
    (fetchBody s r id t).stored.detailToday =
        { r.header.detailToday with
          count := r.header.detailToday.count + t.counts.toNat } ∧
      (fetchBody s r id t).starts =
        ⟨r.fetched, r.budget, r.header.detailToday.count, r.plan.maxPerDay⟩ :: s.starts ∧
      (fetchBody s r id t).draws = s.draws ∧
      (fetchBody s r id t).usable = s.usable + t.answer.usable.toNat := by
  obtain ⟨hcounts, heq⟩ | ⟨hcounts, next, goesOn, houtcome, heq⟩ := fetchBody_cases s r id t
  · rw [heq, hcounts, ← usable_le]
    exact ⟨rfl, rfl, rfl, rfl⟩
  · obtain ⟨htoday, -⟩ := outcome_spec houtcome
    rw [heq, hcounts, ← usable_le]
    refine ⟨?_, rfl, rfl, rfl⟩
    simp only [Run.counted, htoday]
    rfl

lemma Sound.fetchBody {s : Site} (hs : Sound day s) {r : Run} (hr : r ∈ s.run) {t : Turn}
    {id : Ident} (h : r.fetches t = some id) : Sound day (fetchBody s r id t) := by
  obtain ⟨htoday, hstarts, hdraws, husable⟩ := fetchBody_spec s r id t
  have hheader := hs.header r hr
  have hday := hs.today r hr
  have hle := t.counts_le
  have hruns : ∀ r' ∈ (RequestBudget.fetchBody s r id t).run,
      r'.header = (RequestBudget.fetchBody s r id t).stored ∧
        r'.fetched = r'.archivedThisRun.length + r'.spared := by
    obtain ⟨-, heq⟩ | ⟨-, next, goesOn, houtcome, heq⟩ := fetchBody_cases s r id t
    · rw [heq]
      exact fun r' hr' => (Option.not_mem_none r' hr').elim
    · obtain ⟨-, -, -, hfetched, hsum⟩ := outcome_spec houtcome
      have hold := hs.fetched r hr
      rw [heq]
      intro r' hr'
      cases goesOn with
      | false => exact (Option.not_mem_none r' hr').elim
      | true =>
        cases hr'
        refine ⟨rfl, ?_⟩
        have hsum := hsum rfl
        simp only [Run.counted] at hfetched hsum ⊢
        omega
  refine ⟨fun r' hr' => (hruns r' hr').1, fun r' hr' => ?_, fun r' hr' => (hruns r' hr').2, ?_, ?_,
    ?_, ?_⟩
  · rw [htoday, hheader]
    exact hday
  · rw [hstarts]
    intro b hb c hc
    rcases List.mem_cons.mp hb with rfl | hb
    · exact (fetches_spec h c hc).1
    · exact hs.ceiling b hb c hc
  · rw [htoday, hdraws, hheader]
    exact hs.drawn
  · rw [htoday, husable, hheader]
    have hcounted := hs.counted hday
    intro _
    dsimp only
    omega
  · rw [htoday, hheader]
    exact fun hne => absurd hday hne

lemma fetchBody_kept_iff {s : Site} (hs : Sound day s) {r : Run} (hr : r ∈ s.run) {t : Turn}
    {id : Ident} (h : r.fetches t = some id) :
    Kept day before (fetchBody s r id t) ↔ Kept day before s ∧
      (∀ n ∈ r.budget, r.archivedThisRun.length + r.spared < n) ∧
        (t.answer.usable → t.answer ≠ .body .threw ∧ t.outcomeSave = .completes ∧
          (r.plan.maxPerDay = none → ∀ cap ∈ s.stored.detailToday.cap,
            (s.stored.detailToday.count : ℤ) < max (before : ℤ) cap)) := by
  have hspec := fetchBody_spec s r id t
  rw [hs.header r hr] at hspec
  obtain ⟨htoday, hstarts, hdraws, husable⟩ := hspec
  have hday := hs.today r hr
  have hfetched := hs.fetched r hr
  have hcounted := hs.counted hday
  have hle := t.counts_le
  have hceiling := fetches_spec h
  rw [hs.header r hr] at hceiling
  constructor
  · intro hk
    have hcount := hk.counted
    rw [husable, htoday, if_pos hday] at hcount
    dsimp only at hcount
    refine ⟨⟨?_, hs.ceiling, ?_, ?_, ?_, ?_⟩, ?_, ?_⟩
    · exact fun b hb => hk.budget b (hstarts ▸ List.mem_cons_of_mem _ hb)
    · exact hdraws ▸ hk.drawn_once
    · intro cap hcap
      have hkept := hk.draw_kept cap (hdraws ▸ hcap)
      rwa [htoday] at hkept
    · intro cap hcap
      have hbelow := hk.below_draw cap (hdraws ▸ hcap)
      rw [htoday] at hbelow
      dsimp only at hbelow
      omega
    · rw [if_pos hday]
      omega
    · intro n hn
      have hnth := hk.budget _ (hstarts ▸ List.mem_cons_self) n hn
      dsimp only at hnth
      omega
    · intro hu
      have hcounts : t.counts = true := by
        rw [hu] at hcount
        by_contra hno
        rw [Bool.not_eq_true] at hno
        rw [hno] at hcount
        simp only [Bool.toNat_true, Bool.toNat_false] at hcount
        omega
      have hparts := hcounts
      simp only [Turn.counts, Bool.and_eq_true, decide_eq_true_eq] at hparts
      refine ⟨hparts.1.2, hparts.2, fun _ cap hcap => ?_⟩
      have hbelow := hk.below_draw cap (hdraws ▸ hs.drawn hday cap hcap)
      rw [htoday, hcounts] at hbelow
      simp only [Bool.toNat_true] at hbelow
      omega
  · rintro ⟨hk, hbudget, hin⟩
    have hcount := hk.counted
    rw [if_pos hday] at hcount
    have heq : t.counts = t.answer.usable := by
      cases hu : t.answer.usable with
      | false => simp [Turn.counts, hu]
      | true => simp [Turn.counts, hu, (hin hu).1, (hin hu).2.1]
    refine ⟨?_, ?_, ?_, ?_, ?_, ?_⟩
    · rw [hstarts]
      intro b hb n hn
      rcases List.mem_cons.mp hb with rfl | hb
      · exact hfetched ▸ hbudget n hn
      · exact hk.budget b hb n hn
    · rw [hstarts]
      intro b hb c hc
      rcases List.mem_cons.mp hb with rfl | hb
      · exact (hceiling c hc).1
      · exact hk.ceiling b hb c hc
    · exact hdraws ▸ hk.drawn_once
    · rw [htoday, hdraws]
      exact hk.draw_kept
    · rw [htoday, hdraws, heq]
      intro cap hcap
      have hbelow := hk.below_draw cap hcap
      cases hu : t.answer.usable with
      | false => simpa using hbelow
      | true =>
        have hstored : cap ∈ s.stored.detailToday.cap := (hk.draw_kept cap hcap).2
        have hlt : (s.stored.detailToday.count : ℤ) < max (before : ℤ) cap := by
          cases hplan : r.plan.maxPerDay with
          | none => exact (hin hu).2.2 hplan cap hstored
          | some p => exact lt_max_of_lt_right ((hceiling p hplan).2 cap hstored)
        simp only [Bool.toNat_true]
        omega
    · rw [husable, htoday, if_pos hday, heq, hcount]

lemma kept_run (s : Site) (run : Option Run) :
    Kept day before { s with run } ↔ Kept day before s :=
  ⟨fun h => ⟨h.budget, h.ceiling, h.drawn_once, h.draw_kept, h.below_draw, h.counted⟩,
    fun h => ⟨h.budget, h.ceiling, h.drawn_once, h.draw_kept, h.below_draw, h.counted⟩⟩

lemma Sound.stopped {s : Site} (hs : Sound day s) : Sound day { s with run := none } :=
  { hs with
    header := fun r hr => (Option.not_mem_none r hr).elim
    today := fun r hr => (Option.not_mem_none r hr).elim
    fetched := fun r hr => (Option.not_mem_none r hr).elim }

lemma Sound.running {s : Site} (hs : Sound day s) {r : Run} (hheader : r.header = s.stored)
    (hday : s.stored.detailToday.day = day)
    (hfetched : r.fetched = r.archivedThisRun.length + r.spared) :
    Sound day { s with run := some r } :=
  { hs with
    header := by rintro r' ⟨⟩; exact hheader
    today := by rintro r' ⟨⟩; exact hday
    fetched := by rintro r' ⟨⟩; exact hfetched }

lemma Sound.rolled {s : Site} (hs : Sound day s) (b : Begin day)
    (hday : s.stored.detailToday.day ≠ day) :
    Sound day ⟨{ s.stored with detailToday := b.newDay },
      some (b.runOn { s.stored with detailToday := b.newDay }), s.starts,
      b.newDay.cap.toList ++ s.draws, s.usable⟩ where
  header := by rintro r ⟨⟩; rfl
  today := fun _ _ => b.now.on
  fetched := by rintro r ⟨⟩; rfl
  ceiling := hs.ceiling
  drawn := fun _ cap hcap => by
    have hcap : b.newDay.cap = some cap := hcap
    simp [hcap]
  counted := fun _ => Nat.zero_le _
  untouched := fun _ => hs.untouched hday

lemma Sound.drew {s : Site} (hs : Sound day s) (b : Begin day)
    (hday : s.stored.detailToday.day ≠ day) :
    Sound day { s with draws := b.newDay.cap.toList ++ s.draws, run := none } :=
  { hs.stopped with drawn := fun h => absurd h hday }

lemma beginRun_cases (s : Site) (b : Begin day) :
    s.stored.detailToday.day = day ∧
        beginRun s b = { s with run := some (b.runOn s.stored) } ∨
      s.stored.detailToday.day ≠ day ∧ b.drawSave = .completes ∧
        beginRun s b = ⟨{ s.stored with detailToday := b.newDay },
          some (b.runOn { s.stored with detailToday := b.newDay }), s.starts,
          b.newDay.cap.toList ++ s.draws, s.usable⟩ ∨
      s.stored.detailToday.day ≠ day ∧ b.drawSave ≠ .completes ∧
        beginRun s b = { s with draws := b.newDay.cap.toList ++ s.draws, run := none } := by
  unfold beginRun
  rw [b.now.on]
  by_cases hday : s.stored.detailToday.day = day
  · exact .inl ⟨hday, if_pos hday⟩
  · rw [if_neg hday]
    cases hsave : b.drawSave with
    | completes => exact .inr (.inl ⟨hday, rfl, rfl⟩)
    | refused => exact .inr (.inr ⟨hday, by decide, rfl⟩)
    | diesBetween => exact .inr (.inr ⟨hday, by decide, rfl⟩)

lemma Sound.beginRun {s : Site} (hs : Sound day s) (b : Begin day) : Sound day (beginRun s b) := by
  obtain ⟨hday, heq⟩ | ⟨hday, -, heq⟩ | ⟨hday, -, heq⟩ := beginRun_cases s b
  · exact heq ▸ hs.running rfl hday rfl
  · exact heq ▸ hs.rolled b hday
  · exact heq ▸ hs.drew b hday

lemma Sound.bodyTurn {s : Site} (hs : Sound day s) {r : Run} (hr : r ∈ s.run) (t : Turn) :
    Sound day (bodyTurn s r t) := by
  unfold RequestBudget.bodyTurn
  cases hfetch : r.fetches t with
  | some id => exact hs.fetchBody hr hfetch
  | none =>
    cases r.rotates t with
    | some id => exact hs.running (hs.header r hr) (hs.today r hr) (hs.fetched r hr)
    | none => exact hs.stopped

lemma Sound.step {s : Site} (hs : Sound day s) (e : Event day) : Sound day (step s e) := by
  cases e with
  | begins b => exact hs.beginRun b
  | dies => exact hs.stopped
  | turn t =>
    unfold RequestBudget.step
    cases hr : s.run with
    | none => exact hs
    | some r => exact hs.bodyTurn hr t

lemma Kept.draws_eq_nil {s : Site} (hk : Kept day before s)
    (hday : s.stored.detailToday.day ≠ day) : s.draws = [] :=
  List.eq_nil_iff_forall_not_mem.mpr fun cap hcap => hday (hk.draw_kept cap hcap).1

lemma rolled_kept_iff {s : Site} (hs : Sound day s) (b : Begin day)
    (hday : s.stored.detailToday.day ≠ day) :
    Kept day before ⟨{ s.stored with detailToday := b.newDay },
      some (b.runOn { s.stored with detailToday := b.newDay }), s.starts,
      b.newDay.cap.toList ++ s.draws, s.usable⟩ ↔ Kept day before s := by
  have hnew : b.newDay.day = day := b.now.on
  constructor
  · intro hk
    have hnil : s.draws = [] := by
      refine List.eq_nil_iff_forall_not_mem.mpr fun cap hcap => ?_
      have hcap' : b.newDay.cap = some cap :=
        (hk.draw_kept cap (List.mem_append_right _ hcap)).2
      have honce := hk.drawn_once
      rw [hcap', Option.toList_some, List.length_append, List.length_singleton] at honce
      have hpos := List.length_pos_of_mem hcap
      omega
    refine ⟨hk.budget, hs.ceiling, ?_, ?_, ?_, ?_⟩
    · simp [hnil]
    · simp [hnil]
    · simp [hnil]
    · rw [if_neg hday, hs.untouched hday]
  · intro hk
    have hnil := hk.draws_eq_nil hday
    refine ⟨hk.budget, hs.ceiling, ?_, fun cap hcap => ⟨hnew, ?_⟩, fun cap _ => ?_, ?_⟩
    · rw [hnil, List.append_nil]
      cases b.newDay.cap <;> simp
    · simpa [hnil] using hcap
    · exact le_max_of_le_left (Int.natCast_nonneg before)
    · rw [if_pos hnew]
      exact hs.untouched hday

lemma drew_kept_iff {s : Site} (b : Begin day) (hday : s.stored.detailToday.day ≠ day) :
    Kept day before { s with draws := b.newDay.cap.toList ++ s.draws, run := none } ↔
      Kept day before s ∧ b.newDay.cap = none := by
  constructor
  · intro hk
    have hnone : b.newDay.cap = none := by
      cases hcap : b.newDay.cap with
      | none => rfl
      | some cap => exact absurd (hk.draw_kept cap (by simp [hcap])).1 hday
    rw [hnone, Option.toList_none, List.nil_append, kept_run] at hk
    exact ⟨hk, hnone⟩
  · rintro ⟨hk, hnone⟩
    rwa [hnone, Option.toList_none, List.nil_append, kept_run]

lemma beginRun_kept_iff {s : Site} (hs : Sound day s) (b : Begin day) :
    Kept day before (beginRun s b) ↔ Kept day before s ∧ InBudget before s (.begins b) := by
  unfold InBudget
  obtain ⟨hday, heq⟩ | ⟨hday, hsave, heq⟩ | ⟨hday, hsave, heq⟩ := beginRun_cases s b
  · rw [heq, kept_run]
    exact (and_iff_left fun hne => absurd hday hne).symm
  · rw [heq, rolled_kept_iff hs b hday]
    exact (and_iff_left fun _ _ => hsave).symm
  · rw [heq, drew_kept_iff b hday]
    exact and_congr_right fun _ =>
      ⟨fun hnone _ hcap => absurd hnone hcap, fun h => by_contra fun hcap => hsave (h hday hcap)⟩

lemma step_kept_iff {s : Site} (hs : Sound day s) (e : Event day) :
    Kept day before (step s e) ↔ Kept day before s ∧ InBudget before s e := by
  cases e with
  | begins b => exact beginRun_kept_iff hs b
  | dies => exact (kept_run s none).trans (and_iff_left trivial).symm
  | turn t =>
    unfold step InBudget
    cases hr : s.run with
    | none => simp
    | some r =>
      simp only [Option.mem_def, Option.some.injEq, forall_eq']
      unfold bodyTurn
      cases hfetch : r.fetches t with
      | some id =>
        simp only [Option.isSome_some, true_implies]
        exact fetchBody_kept_iff hs hr hfetch
      | none =>
        cases r.rotates t <;> simp [kept_run]

end Runs

/-- Over the runs of a day the budget of each run and the day's counter and cap are kept exactly if every
step is in budget. -/
theorem budget_kept_iff (day : ℤ) (stored : Header) (es : List (Event day)) :
    Kept day (countedBefore day stored) (StepRun.exec step (.opened day stored) es) ↔
      StepRun.Along step (InBudget (countedBefore day stored)) (.opened day stored) es := by
  have hrun := @StepRun.exec_iff_along _ _ step (@InBudget day (countedBefore day stored))
    (Sound day) (Kept day (countedBefore day stored)) (fun s e hs => hs.step e)
    (fun s e hs => step_kept_iff hs e) _ (Sound.opened day stored) es
  exact hrun.trans (and_iff_right (Kept.opened day stored))

/-- A run of one body over two debts, the first of which does not prove whole. -/
def unverifiedFirst : List (Event 0) :=
  [.begins ⟨⟨0, by decide⟩, defaultDetailPace, some 1, ⟨[['a'], ['b']], []⟩, none, .completes⟩,
    .turn ⟨false, .completes, .incomplete, .completes⟩,
    .turn ⟨false, .completes, .body .saved, .completes⟩]

theorem budget_of_one_fetches_two :
    ¬ ∀ (day : ℤ) (stored : Header) (es : List (Event day)),
      Kept day (countedBefore day stored) (StepRun.exec step (.opened day stored) es) := by
  intro h
  have hkept := h 0 ⟨⟨-1, 0, none⟩, [], 0⟩ unverifiedFirst
  have hstart : ⟨1, some 1, 1, some 400⟩ ∈
      (StepRun.exec step (.opened 0 ⟨⟨-1, 0, none⟩, [], 0⟩) unverifiedFirst).starts := by
    decide +kernel
  exact absurd (hkept.budget _ hstart 1 rfl) (by decide)

end ChatStasher.RequestBudget
