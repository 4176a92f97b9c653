import ChatStasher.Library.StepRun
import ChatStasher.NativeHost.Coordination

/-! The machine arbiter: leases exclude each other, tokens keep their distance and their daily cap,
and a cooldown holds. -/
namespace ChatStasher.NativeHost

/-- One coordination request as its transaction finds it. -/
structure CoordinationCall where
  machine : Ident
  request : CoordinationRequest
  now : ℤ
  today : ℕ
  accountKey : Ident
  committed : Bool

def CoordinationCall.key (call : CoordinationCall) : RowKey :=
  ⟨call.machine, call.request.platform, call.accountKey⟩

/-- A request and its answer, `none` for one refused or not committed. -/
structure Handled where
  call : CoordinationCall
  answer : Option CoordinationAnswer

/-- The database and what was handled in it, the latest first. -/
structure ArbiterSite where
  db : StateDb
  log : List Handled

def handle (db : StateDb) (call : CoordinationCall) : StateDb × Handled :=
  let (after, answer) := coordination db call.machine call.request call.now call.today
    call.accountKey call.committed
  (after, ⟨call, answer⟩)

def arbiterStep (s : ArbiterSite) (call : CoordinationCall) : ArbiterSite :=
  ⟨(handle s.db call).1, (handle s.db call).2 :: s.log⟩

def Onward (s : ArbiterSite) (call : CoordinationCall) : Prop :=
  ∀ e ∈ s.log, e.call.now ≤ call.now ∧ e.call.today ≤ call.today

instance Onward.decidable (s : ArbiterSite) (call : CoordinationCall) : Decidable (Onward s call) :=
  inferInstanceAs (Decidable (∀ e ∈ s.log, _))

section Events

def Handled.granted (e : Handled) : Bool := e.answer.any fun answer => answer.granted

def Handled.grantsLease (e : Handled) (key : RowKey) : Bool :=
  decide (e.call.key = key) && e.granted &&
    match e.call.request.mode with
    | .claim | .token _ => true
    | _ => false

def Handled.grantsToken (e : Handled) (key : RowKey) (detail : Bool) : Bool :=
  decide (e.call.key = key) && e.granted && decide (e.call.request.mode = .token detail)

def Handled.releases (e : Handled) (key : RowKey) : Bool :=
  decide (e.call.key = key) && e.granted && decide (e.call.request.mode = .release)

/-- The cooldown a request set on a row, where it was a rate limit. -/
def Handled.cooldown (e : Handled) (key : RowKey) : Option ℤ :=
  if e.call.key = key ∧ e.answer.isSome then
    match e.call.request.mode with
    | .rateLimit retryAfterMs => some (e.call.now + cooldownMs retryAfterMs)
    | _ => none
  else none

/-- When an install was last granted a claim or a token of a row, unless it has released since. -/
def lastUnreleased (key : RowKey) (installId : Ident) : List Handled → Option ℤ
  | [] => none
  | e :: log =>
    if e.call.request.installId = installId ∧ e.grantsLease key = true then some e.call.now
    else if e.call.request.installId = installId ∧ e.releases key = true then none
    else lastUnreleased key installId log

def detailGrants (key : RowKey) (day : ℕ) (log : List Handled) : ℕ :=
  (log.filter fun e => e.grantsToken key true && decide (e.call.today = day)).length

end Events

section Step

/-- What the row of a request is left as when its answer saw so many active installs. -/
def CoordinationCall.outcome (call : CoordinationCall) (row : PlatformRow) (active : ℕ) :
    ModeOutcome :=
  call.request.mode.run row call.request.installId active call.now call.today

/-- What one request can do. -/
inductive HandledOne (db : StateDb) (call : CoordinationCall) : StateDb × Handled → Prop
  | nothing : HandledOne db call (db, ⟨call, none⟩)
  | answered {after : StateDb} {answer : CoordinationAnswer}
      (hrow : after.platformRow call.key =
        (call.outcome (db.platformRow call.key) answer.activeInstalls).row)
      (hgranted : answer.granted =
        (call.outcome (db.platformRow call.key) answer.activeInstalls).granted)
      (hother : ∀ key ≠ call.key, after.platformRow key = db.platformRow key) :
      HandledOne db call (after, ⟨call, some answer⟩)

lemma handle_cases (db : StateDb) (call : CoordinationCall) :
    HandledOne db call (handle db call) := by
  unfold handle coordination
  cases hbody : coordinateInTransaction db call.machine call.request call.now call.today
    call.accountKey with
  | none => exact .nothing
  | some result =>
    obtain ⟨after, answer⟩ := result
    obtain ⟨-, -, hrow, hgranted, hother⟩ := coordinateInTransaction_eq_some hbody
    cases call.committed with
    | true => exact .answered hrow hgranted hother
    | false => exact .nothing

end Step

section Leases
variable {key : RowKey} {row : PlatformRow} {log : List Handled} {e : Handled}

/-- An unreleased grant still holds the lease or is old enough to have run out. -/
structure LeaseInv (key : RowKey) (row : PlatformRow) (log : List Handled) : Prop where
  held : ∀ installId t, lastUnreleased key installId log = some t →
    row.owner = some installId ∧ t + leaseMs ≤ row.leaseUntil ∨
      ∃ e ∈ log, t + leaseMs ≤ e.call.now
  owned : ∀ installId, row.owner = some installId →
    ∃ e ∈ log, row.leaseUntil = e.call.now + leaseMs

lemma lastUnreleased_of_not_grants (he : e.grantsLease key = false) {installId : Ident} {t : ℤ}
    (h : lastUnreleased key installId (e :: log) = some t) :
    lastUnreleased key installId log = some t ∧
      ¬ (e.call.request.installId = installId ∧ e.releases key = true) := by
  rw [lastUnreleased, if_neg (by simp [he])] at h
  split at h
  · cases h
  next hnot => exact ⟨h, hnot⟩

lemma lastUnreleased_of_grants (he : e.grantsLease key = true) {installId : Ident} {t : ℤ}
    (h : lastUnreleased key installId (e :: log) = some t) :
    installId = e.call.request.installId ∧ t = e.call.now ∨
      installId ≠ e.call.request.installId ∧ lastUnreleased key installId log = some t := by
  rw [lastUnreleased] at h
  split at h
  next hsame => exact Or.inl ⟨hsame.1.symm, (Option.some.inj h).symm⟩
  next hnot =>
    have hother : installId ≠ e.call.request.installId := fun heq => hnot ⟨heq.symm, he⟩
    split at h
    · cases h
    · exact Or.inr ⟨hother, h⟩

lemma LeaseInv.expire (h : LeaseInv key row log) (he : e.grantsLease key = false)
    {after : PlatformRow} (howner : after.owner = (row.expire e.call.now).owner)
    (hlease : after.leaseUntil = (row.expire e.call.now).leaseUntil) :
    LeaseInv key after (e :: log) := by
  refine ⟨fun installId t ht => ?_, fun installId hsome => ?_⟩
  · rcases h.held installId t (lastUnreleased_of_not_grants he ht).1 with
      ⟨hheld, hlong⟩ | ⟨g, hg, hold⟩
    · rcases row.expire_owner e.call.now with ⟨hout, -⟩ | ⟨hsame, hsame'⟩
      · exact Or.inr ⟨e, List.mem_cons_self, hlong.trans hout⟩
      · exact Or.inl ⟨by rw [howner, hsame, hheld], by rw [hlease, hsame']; exact hlong⟩
    · exact Or.inr ⟨g, List.mem_cons_of_mem e hg, hold⟩
  · rw [howner] at hsome
    rcases row.expire_owner e.call.now with ⟨-, hnone⟩ | ⟨hsame, hsame'⟩
    · rw [hnone] at hsome
      cases hsome
    · obtain ⟨g, hg, heq⟩ := h.owned installId (hsame ▸ hsome)
      exact ⟨g, List.mem_cons_of_mem e hg, by rw [hlease, hsame', heq]⟩

lemma LeaseInv.grant (h : LeaseInv key row log) (he : e.grantsLease key = true)
    (hfree : row.leaseUntil ≤ e.call.now ∨ row.owner = some e.call.request.installId)
    {after : PlatformRow} (howner : after.owner = some e.call.request.installId)
    (hlease : after.leaseUntil = e.call.now + leaseMs) : LeaseInv key after (e :: log) := by
  refine ⟨fun installId t ht => ?_, fun installId _ => ⟨e, List.mem_cons_self, hlease⟩⟩
  rcases lastUnreleased_of_grants he ht with ⟨rfl, rfl⟩ | ⟨hother, hbefore⟩
  · exact Or.inl ⟨howner, hlease.ge⟩
  · right
    rcases h.held installId t hbefore with ⟨hheld, hlong⟩ | ⟨g, hg, hold⟩
    · have hout : row.leaseUntil ≤ e.call.now := hfree.resolve_right fun hsame =>
        hother (Option.some.inj (hheld.symm.trans hsame))
      exact ⟨e, List.mem_cons_self, hlong.trans hout⟩
    · exact ⟨g, List.mem_cons_of_mem e hg, hold⟩

lemma Handled.grantsLease_eq (call : CoordinationCall) (answer : CoordinationAnswer) :
    Handled.grantsLease ⟨call, some answer⟩ call.key = (answer.granted && call.request.mode.gated) := by
  simp only [Handled.grantsLease, Handled.granted, decide_true, Bool.true_and, Option.any_some]
  cases call.request.mode <;> rfl

lemma LeaseInv.answered (h : LeaseInv key row log) {call : CoordinationCall} (hkey : call.key = key)
    {answer : CoordinationAnswer}
    (hgranted : answer.granted = (call.outcome row answer.activeInstalls).granted) :
    LeaseInv key (call.outcome row answer.activeInstalls).row (⟨call, some answer⟩ :: log) := by
  subst hkey
  have hlease := Handled.grantsLease_eq call answer
  cases hmode : call.request.mode with
  | claim =>
    simp only [CoordinationCall.outcome, CoordinationMode.run, hmode] at hgranted ⊢
    rw [claimMode_row, ← hgranted]
    cases hyes : answer.granted with
    | true =>
      refine h.grant (by simp [hlease, hmode, hyes, CoordinationMode.gated]) ?_ rfl rfl
      exact (claimMode_granted.mp (hgranted ▸ hyes)).1
    | false => exact h.expire (by simp [hlease, hyes]) rfl rfl
  | token detail =>
    simp only [CoordinationCall.outcome, CoordinationMode.run, hmode] at hgranted ⊢
    cases hyes : answer.granted with
    | true =>
      rw [hyes] at hgranted
      obtain ⟨howner, hruns⟩ := (tokenMode_granted.mp hgranted.symm).1
      have hkept : (row.expire call.now).owner = row.owner :=
        (row.expire_owner call.now).elim (fun hout => absurd hout.1 (not_le.mpr hruns)) And.left
      rw [tokenMode_row_of_granted hgranted.symm]
      refine h.grant (by simp [hlease, hmode, hyes, CoordinationMode.gated]) (Or.inr howner) ?_ ?_
      · cases detail <;> exact hkept.trans howner
      · cases detail <;> rfl
    | false =>
      rw [hyes] at hgranted
      rw [tokenMode_row_of_refused hgranted.symm]
      exact h.expire (by simp [hlease, hyes]) rfl rfl
  | release =>
    simp only [CoordinationCall.outcome, CoordinationMode.run, hmode] at hgranted ⊢
    have hgrants : Handled.grantsLease ⟨call, some answer⟩ call.key = false := by
      simp [hlease, hmode, CoordinationMode.gated]
    have hkept : LeaseInv call.key (row.expire call.now) (⟨call, some answer⟩ :: log) :=
      h.expire hgrants rfl rfl
    have hreleases : Handled.releases ⟨call, some answer⟩ call.key = true := by
      simp [Handled.releases, Handled.granted, hmode, hgranted, releaseMode]
    simp only [releaseMode]
    split
    next howner =>
      refine ⟨fun installId t ht => Or.inr ?_, by simp⟩
      have hother := (lastUnreleased_of_not_grants hgrants ht).2
      refine (hkept.held installId t ht).resolve_left fun hheld => hother ⟨?_, hreleases⟩
      exact Option.some.inj (howner.symm.trans hheld.1)
    · exact hkept
  | rateLimit retryAfterMs =>
    simp only [CoordinationCall.outcome, CoordinationMode.run, hmode]
    exact h.expire (by simp [hlease, hmode, CoordinationMode.gated]) rfl rfl

end Leases

section Tokens
variable {key : RowKey} {row : PlatformRow} {log : List Handled} {e : Handled}

def PlatformRow.next (row : PlatformRow) (detail : Bool) : ℤ :=
  if detail then row.nextDetail else row.nextEnum

def Handled.active (e : Handled) : ℕ := (e.answer.map fun answer => answer.activeInstalls).getD 0

/-- The row remembers its latest tokens and counts the detail ones of its latest day. -/
structure TokenInv (key : RowKey) (row : PlatformRow) (log : List Handled) : Prop where
  spaced : ∀ detail, ∀ g ∈ log, g.grantsToken key detail = true →
    g.call.now + tokenInterval detail g.active ≤ row.next detail
  days : ∀ g ∈ log, g.grantsToken key true = true →
    ∃ day, row.detailDay = some day ∧ g.call.today ≤ day
  seen : ∀ day, row.detailDay = some day → ∃ g ∈ log, g.call.today = day
  capped : ∀ day, detailGrants key day log ≤ maxDetailPerDay
  counted : ∀ day, row.detailDay = some day → detailGrants key day log = row.detailCount

lemma tokenInterval_nonneg (detail : Bool) (active : ℕ) : 0 ≤ tokenInterval detail active := by
  unfold tokenInterval
  split <;> split <;> decide

lemma detailGrants_cons (key : RowKey) (day : ℕ) (e : Handled) (log : List Handled) :
    detailGrants key day (e :: log) = detailGrants key day log +
      if e.grantsToken key true = true ∧ e.call.today = day then 1 else 0 := by
  simp only [detailGrants, List.filter_cons, Bool.and_eq_true, decide_eq_true_eq]
  split <;> simp

lemma TokenInv.keep (h : TokenInv key row log) (he : ∀ detail, e.grantsToken key detail = false)
    {after : PlatformRow} (hnext : ∀ detail, after.next detail = row.next detail)
    (hday : after.detailDay = row.detailDay) (hcount : after.detailCount = row.detailCount) :
    TokenInv key after (e :: log) := by
  have hgrants : ∀ day, detailGrants key day (e :: log) = detailGrants key day log := fun day => by
    rw [detailGrants_cons, if_neg (by simp [he]), Nat.add_zero]
  refine ⟨fun detail g hg htoken => ?_, fun g hg htoken => ?_, fun day hsome => ?_, fun day => ?_,
    fun day hsome => ?_⟩
  · rcases List.mem_cons.mp hg with rfl | hg
    · simp [he] at htoken
    · rw [hnext]
      exact h.spaced detail g hg htoken
  · rcases List.mem_cons.mp hg with rfl | hg
    · simp [he] at htoken
    · rw [hday]
      exact h.days g hg htoken
  · obtain ⟨g, hg, hsame⟩ := h.seen day (hday ▸ hsome)
    exact ⟨g, List.mem_cons_of_mem e hg, hsame⟩
  · rw [hgrants]
    exact h.capped day
  · rw [hgrants, hcount]
    exact h.counted day (hday ▸ hsome)

lemma TokenInv.detailGrants_eq_zero (h : TokenInv key row log) {today : ℕ}
    (honward : ∀ g ∈ log, g.call.today ≤ today) (hnew : row.detailDay ≠ some today) :
    detailGrants key today log = 0 := by
  rw [detailGrants, List.length_eq_zero_iff, List.filter_eq_nil_iff]
  intro g hg hgrant
  simp only [Bool.and_eq_true, decide_eq_true_eq] at hgrant
  obtain ⟨day, hday, hle⟩ := h.days g hg hgrant.1
  obtain ⟨g', hg', rfl⟩ := h.seen day hday
  have hsame := le_antisymm (honward g' hg') (hgrant.2 ▸ hle)
  exact hnew (hsame ▸ hday)

lemma TokenInv.grant (h : TokenInv key row log) {call : CoordinationCall} (hkey : call.key = key)
    {answer : CoordinationAnswer} {detail : Bool} (hmode : call.request.mode = .token detail)
    (hyes : answer.granted = true) (honward : ∀ g ∈ log, g.call.today ≤ call.today)
    (hgranted : (tokenMode row call.request.installId detail answer.activeInstalls call.now
      call.today).granted = true) :
    TokenInv key (tokenMode row call.request.installId detail answer.activeInstalls call.now
      call.today).row (⟨call, some answer⟩ :: log) := by
  have hgrants : ∀ other, Handled.grantsToken ⟨call, some answer⟩ key other =
      decide (detail = other) := by
    intro other
    simp [Handled.grantsToken, Handled.granted, hkey, hmode, hyes]
  obtain ⟨-, -, hnext, hdaily⟩ := tokenMode_granted.mp hgranted
  have hinterval := tokenInterval_nonneg detail answer.activeInstalls
  rw [tokenMode_row_of_granted hgranted]
  have hspaced : ∀ other, ∀ g ∈ log, g.grantsToken key other = true →
      g.call.now + tokenInterval other g.active ≤ row.next other := h.spaced
  cases detail with
  | false =>
    have hcount : ∀ day, detailGrants key day (⟨call, some answer⟩ :: log) =
        detailGrants key day log := fun day => by
      rw [detailGrants_cons, if_neg (by simp [hgrants]), Nat.add_zero]
    refine ⟨fun other g hg htoken => ?_, fun g hg htoken => ?_, fun day hsome => ?_, fun day => ?_,
      fun day hsome => ?_⟩
    · rcases List.mem_cons.mp hg with rfl | hg
      · obtain rfl : false = other := by simpa [hgrants] using htoken
        exact le_refl _
      · have hbefore := hspaced other g hg htoken
        cases other with
        | false =>
          simp only [PlatformRow.next, Bool.false_eq_true, if_false] at hbefore hnext ⊢
          omega
        | true => simpa [PlatformRow.next] using hbefore
    · rcases List.mem_cons.mp hg with rfl | hg
      · simp [hgrants] at htoken
      · simpa using h.days g hg htoken
    · obtain ⟨g, hg, hsame⟩ := h.seen day (by simpa using hsome)
      exact ⟨g, List.mem_cons_of_mem _ hg, hsame⟩
    · rw [hcount]
      exact h.capped day
    · rw [hcount, h.counted day (by simpa using hsome)]
      simp
  | true =>
    have hcount : detailGrants key call.today log =
        if row.detailDay = some call.today then row.detailCount else 0 := by
      split
      next hsome => exact h.counted _ hsome
      next hnew => exact h.detailGrants_eq_zero honward hnew
    refine ⟨fun other g hg htoken => ?_, fun g hg htoken => ?_, fun day hsome => ?_, fun day => ?_,
      fun day hsome => ?_⟩
    · rcases List.mem_cons.mp hg with rfl | hg
      · obtain rfl : true = other := by simpa [hgrants] using htoken
        exact le_refl _
      · have hbefore := hspaced other g hg htoken
        cases other with
        | false => simpa [PlatformRow.next] using hbefore
        | true =>
          simp only [PlatformRow.next, if_true] at hbefore hnext ⊢
          omega
    · refine ⟨call.today, rfl, ?_⟩
      rcases List.mem_cons.mp hg with rfl | hg
      · exact le_refl _
      · exact honward g hg
    · obtain rfl : call.today = day := Option.some.inj hsome
      exact ⟨_, List.mem_cons_self, rfl⟩
    · rw [detailGrants_cons]
      split
      next hsame =>
        obtain rfl : call.today = day := hsame.2
        rw [hcount]
        split
        next hsome => exact hdaily rfl hsome
        next => decide
      · exact h.capped day
    · obtain rfl : call.today = day := Option.some.inj hsome
      rw [detailGrants_cons, if_pos ⟨by simp [hgrants], rfl⟩, hcount]
      dsimp only
      split <;> rfl

lemma TokenInv.answered (h : TokenInv key row log) {call : CoordinationCall} (hkey : call.key = key)
    {answer : CoordinationAnswer} (honward : ∀ g ∈ log, g.call.today ≤ call.today)
    (hgranted : answer.granted = (call.outcome row answer.activeInstalls).granted) :
    TokenInv key (call.outcome row answer.activeInstalls).row (⟨call, some answer⟩ :: log) := by
  have hnone : ∀ detail, call.request.mode ≠ .token detail ∨ answer.granted = false →
      Handled.grantsToken ⟨call, some answer⟩ key detail = false := by
    intro detail hnot
    simp only [Handled.grantsToken, Handled.granted, Option.any_some]
    rcases hnot with hmode | hno
    · simp [hmode]
    · simp [hno]
  cases hmode : call.request.mode with
  | claim =>
    simp only [CoordinationCall.outcome, CoordinationMode.run, hmode, claimMode_row]
    refine h.keep (fun detail => hnone detail (Or.inl (by simp [hmode]))) (fun detail => ?_) ?_ ?_
    all_goals split <;> simp [PlatformRow.next]
  | token detail =>
    simp only [CoordinationCall.outcome, CoordinationMode.run, hmode] at hgranted ⊢
    cases hyes : answer.granted with
    | true => exact h.grant hkey hmode hyes honward (hgranted ▸ hyes)
    | false =>
      rw [hyes] at hgranted
      rw [tokenMode_row_of_refused hgranted.symm]
      exact h.keep (fun detail => hnone detail (Or.inr hyes)) (by simp [PlatformRow.next]) (by simp)
        (by simp)
  | release =>
    simp only [CoordinationCall.outcome, CoordinationMode.run, hmode, releaseMode]
    refine h.keep (fun detail => hnone detail (Or.inl (by simp [hmode]))) (fun detail => ?_) ?_ ?_
    all_goals split <;> simp [PlatformRow.next]
  | rateLimit retryAfterMs =>
    simp only [CoordinationCall.outcome, CoordinationMode.run, hmode, rateLimitMode]
    exact h.keep (fun detail => hnone detail (Or.inl (by simp [hmode])))
      (by simp [PlatformRow.next]) (by simp) (by simp)

end Tokens

section Rows
variable {key : RowKey} {row : PlatformRow} {log : List Handled} {e : Handled}

/-- What a row keeps of the requests handled so far. -/
structure RowInv (key : RowKey) (row : PlatformRow) (log : List Handled) : Prop where
  lease : LeaseInv key row log
  token : TokenInv key row log
  cooldown : ∀ r ∈ log, ∀ ends ∈ r.cooldown key, ends ≤ row.cooldownUntil

lemma rowInv_fresh (key : RowKey) : RowInv key .fresh [] where
  lease := ⟨by simp [lastUnreleased], by simp [PlatformRow.fresh]⟩
  token :=
    ⟨by simp, by simp, by simp [PlatformRow.fresh], by simp [detailGrants],
      by simp [PlatformRow.fresh]⟩
  cooldown := by simp

lemma RowInv.skip (h : RowInv key row log) (he : e.call.key ≠ key ∨ e.answer = none) :
    RowInv key row (e :: log) := by
  have hgrants : e.grantsLease key = false ∧ (∀ detail, e.grantsToken key detail = false) ∧
      e.releases key = false ∧ e.cooldown key = none := by
    rcases he with hkey | hnone
    · simp [Handled.grantsLease, Handled.grantsToken, Handled.releases, Handled.cooldown, hkey]
    · simp [Handled.grantsLease, Handled.grantsToken, Handled.releases, Handled.cooldown,
        Handled.granted, hnone]
  obtain ⟨hlease, htoken, hreleases, hcooldown⟩ := hgrants
  refine ⟨⟨fun installId t ht => ?_, fun installId hsome => ?_⟩,
    h.token.keep htoken (fun _ => rfl) rfl rfl, fun r hr ends hends => ?_⟩
  · refine (h.lease.held installId t (lastUnreleased_of_not_grants hlease ht).1).imp_right ?_
    rintro ⟨g, hg, hold⟩
    exact ⟨g, List.mem_cons_of_mem e hg, hold⟩
  · obtain ⟨g, hg, hsame⟩ := h.lease.owned installId hsome
    exact ⟨g, List.mem_cons_of_mem e hg, hsame⟩
  · rcases List.mem_cons.mp hr with rfl | hr
    · simp [hcooldown] at hends
    · exact h.cooldown r hr ends hends

lemma CoordinationCall.outcome_cooldownUntil (call : CoordinationCall) (row : PlatformRow)
    (active : ℕ) : row.cooldownUntil ≤ (call.outcome row active).row.cooldownUntil := by
  unfold CoordinationCall.outcome CoordinationMode.run
  cases call.request.mode with
  | claim =>
    dsimp only
    rw [claimMode_row]
    split <;> simp
  | token detail =>
    cases hyes : (tokenMode row call.request.installId detail active call.now call.today).granted with
    | true =>
      dsimp only
      rw [tokenMode_row_of_granted hyes]
      split <;> simp
    | false =>
      dsimp only
      rw [tokenMode_row_of_refused hyes]
      simp
  | release =>
    dsimp only [releaseMode]
    split <;> simp
  | rateLimit retryAfterMs => simp [rateLimitMode]

lemma RowInv.answered (h : RowInv key row log) {call : CoordinationCall} (hkey : call.key = key)
    {answer : CoordinationAnswer} (honward : ∀ g ∈ log, g.call.today ≤ call.today)
    (hgranted : answer.granted = (call.outcome row answer.activeInstalls).granted) :
    RowInv key (call.outcome row answer.activeInstalls).row (⟨call, some answer⟩ :: log) := by
  refine ⟨h.lease.answered hkey hgranted, h.token.answered hkey honward hgranted,
    fun r hr ends hends => ?_⟩
  rcases List.mem_cons.mp hr with rfl | hr
  · simp only [Handled.cooldown, hkey, Option.isSome_some, and_self, if_true] at hends
    cases hmode : call.request.mode with
    | rateLimit retryAfterMs =>
      simp only [hmode, Option.mem_def, Option.some.injEq] at hends
      simp only [CoordinationCall.outcome, CoordinationMode.run, hmode, rateLimitMode]
      exact hends ▸ le_max_right _ _
    | _ => simp [hmode] at hends
  · exact (h.cooldown r hr ends hends).trans (call.outcome_cooldownUntil row _)

lemma rowInv_step {s : ArbiterSite} (h : ∀ key, RowInv key (s.db.platformRow key) s.log)
    {call : CoordinationCall} (honward : Onward s call) (key : RowKey) :
    RowInv key ((arbiterStep s call).db.platformRow key) (arbiterStep s call).log := by
  have hcases := handle_cases s.db call
  rw [arbiterStep]
  generalize handle s.db call = result at hcases ⊢
  cases hcases with
  | nothing => exact (h key).skip (Or.inr rfl)
  | answered hrow hgranted hother =>
    by_cases hkey : key = call.key
    · subst hkey
      rw [hrow]
      exact (h call.key).answered rfl (fun g hg => (honward g hg).2) hgranted
    · rw [hother key hkey]
      exact (h key).skip (Or.inl (Ne.symm hkey))

end Rows

section Spec

/-- What one request keeps, given what was handled before it. -/
structure ArbiterSpec (s : ArbiterSite) (call : CoordinationCall) (after : StateDb) (e : Handled) :
    Prop where
  exclusive : e.granted = true → call.request.mode = .claim →
    ∀ other ≠ call.request.installId, ∀ t,
      lastUnreleased call.key other s.log = some t → t + 120000 ≤ call.now
  owned : ∀ detail, e.grantsToken call.key detail = true →
    ((s.db.platformRow call.key).owner = some call.request.installId ∧
      call.now < (s.db.platformRow call.key).leaseUntil) ∧
    (after.platformRow call.key).owner = some call.request.installId ∧
      (s.db.platformRow call.key).leaseUntil ≤ (after.platformRow call.key).leaseUntil ∧
      (after.platformRow call.key).leaseUntil = call.now + 120000
  detailSpaced : e.grantsToken call.key true = true →
    ∀ g ∈ s.log, g.grantsToken call.key true = true →
      g.call.now + 20000 ≤ call.now ∧ (1 < g.active → g.call.now + 45000 ≤ call.now)
  enumSpaced : e.grantsToken call.key false = true →
    ∀ g ∈ s.log, g.grantsToken call.key false = true →
      g.call.now + 2000 ≤ call.now ∧ (1 < g.active → g.call.now + 4000 ≤ call.now)
  daily : ∀ key day, detailGrants key day (e :: s.log) ≤ 400
  cooled : e.grantsLease call.key = true →
    ∀ r ∈ s.log, ∀ ends ∈ r.cooldown call.key, ends ≤ call.now
  cooldownKept : ∀ key, (s.db.platformRow key).cooldownUntil ≤ (after.platformRow key).cooldownUntil
  apart : ∀ key ≠ call.key, after.platformRow key = s.db.platformRow key

lemma arbiterSpec_nothing {s : ArbiterSite} {call : CoordinationCall}
    (h : ∀ key, RowInv key (s.db.platformRow key) (⟨call, none⟩ :: s.log)) :
    ArbiterSpec s call s.db ⟨call, none⟩ where
  exclusive := by simp [Handled.granted]
  owned := by simp [Handled.grantsToken, Handled.granted]
  detailSpaced := by simp [Handled.grantsToken, Handled.granted]
  enumSpaced := by simp [Handled.grantsToken, Handled.granted]
  daily := fun key => (h key).token.capped
  cooled := by simp [Handled.grantsLease, Handled.granted]
  cooldownKept := fun _ => le_refl _
  apart := fun _ _ => rfl

lemma TokenInv.apart {key : RowKey} {row : PlatformRow} {log : List Handled}
    (h : TokenInv key row log) {detail : Bool} {now : ℤ} (hnext : row.next detail ≤ now)
    {g : Handled} (hg : g ∈ log) (htoken : g.grantsToken key detail = true) :
    g.call.now + (if detail then 20000 else 2000) ≤ now ∧
      (1 < g.active → g.call.now + (if detail then 45000 else 4000) ≤ now) := by
  have hspaced := (h.spaced detail g hg htoken).trans hnext
  unfold tokenInterval at hspaced
  cases detail <;> simp only [Bool.false_eq_true, if_false, if_true] at hspaced ⊢ <;>
    split at hspaced <;> constructor <;> omega

/-- What an answered request keeps. -/
lemma arbiterSpec_answered {s : ArbiterSite} {call : CoordinationCall} {after : StateDb}
    {answer : CoordinationAnswer} (h : ∀ key, RowInv key (s.db.platformRow key) s.log)
    (honward : Onward s call)
    (hafter : ∀ key, RowInv key (after.platformRow key) (⟨call, some answer⟩ :: s.log))
    (hrow : after.platformRow call.key =
      (call.outcome (s.db.platformRow call.key) answer.activeInstalls).row)
    (hgranted : answer.granted =
      (call.outcome (s.db.platformRow call.key) answer.activeInstalls).granted)
    (hother : ∀ key ≠ call.key, after.platformRow key = s.db.platformRow key) :
    ArbiterSpec s call after ⟨call, some answer⟩ := by
  have hinv := h call.key
  generalize hstart : s.db.platformRow call.key = row at hinv hrow hgranted
  -- A granted token is one that its mode granted.
  have htoken : ∀ {detail}, Handled.grantsToken ⟨call, some answer⟩ call.key detail = true →
      call.request.mode = .token detail ∧ (tokenMode row call.request.installId detail
        answer.activeInstalls call.now call.today).granted = true := by
    intro detail hgrants
    simp only [Handled.grantsToken, Handled.granted, Option.any_some, Bool.and_eq_true,
      decide_eq_true_eq] at hgrants
    obtain ⟨⟨-, hyes⟩, hmode⟩ := hgrants
    rw [hgranted, CoordinationCall.outcome, hmode] at hyes
    exact ⟨hmode, hyes⟩
  have hspaced : ∀ {detail}, Handled.grantsToken ⟨call, some answer⟩ call.key detail = true →
      ∀ g ∈ s.log, g.grantsToken call.key detail = true →
        g.call.now + (if detail then 20000 else 2000) ≤ call.now ∧
          (1 < g.active → g.call.now + (if detail then 45000 else 4000) ≤ call.now) := by
    intro detail hgrants g hg hbefore
    have hnext := (tokenMode_granted.mp (htoken hgrants).2).2.2.1
    exact hinv.token.apart hnext hg hbefore
  refine ⟨fun hyes hmode other hother t ht => ?_, fun detail hgrants => ?_,
    fun hgrants g hg hbefore => ?_, fun hgrants g hg hbefore => ?_,
    fun key => (hafter key).token.capped, fun hgrants r hr ends hends => ?_, fun key => ?_, hother⟩
  · rcases hinv.lease.held other t ht with ⟨hheld, hlong⟩ | ⟨g, hg, hold⟩
    · have hclaim : (claimMode row call.request.installId call.now).granted = true := by
        rw [← hyes, Handled.granted, Option.any_some, hgranted, CoordinationCall.outcome, hmode]
        rfl
      have hout : row.leaseUntil ≤ call.now := (claimMode_granted.mp hclaim).1.resolve_right
        fun hsame => hother (Option.some.inj (hheld.symm.trans hsame))
      exact hlong.trans hout
    · exact hold.trans (honward g hg).1
  · obtain ⟨hmode, hyes⟩ := htoken hgrants
    obtain ⟨howner, hruns⟩ := (tokenMode_granted.mp hyes).1
    have hkept : (row.expire call.now).owner = row.owner :=
      (row.expire_owner call.now).elim (fun hout => absurd hout.1 (not_le.mpr hruns)) And.left
    obtain ⟨g, hg, hlease⟩ := hinv.lease.owned _ howner
    have hlater := (honward g hg).1
    have houtcome : (call.outcome row answer.activeInstalls).row = (tokenMode row
        call.request.installId detail answer.activeInstalls call.now call.today).row := by
      rw [CoordinationCall.outcome, hmode]
      rfl
    rw [hrow, houtcome, tokenMode_row_of_granted hyes, hstart]
    have hextended : row.leaseUntil ≤ call.now + leaseMs := by omega
    refine ⟨⟨howner, hruns⟩, ?_⟩
    cases detail <;> exact ⟨hkept.trans howner, hextended, rfl⟩
  · simpa using hspaced hgrants g hg hbefore
  · simpa using hspaced hgrants g hg hbefore
  · rw [Handled.grantsLease_eq, Bool.and_eq_true] at hgrants
    rw [hgranted, CoordinationCall.outcome] at hgrants
    have hcool : row.cooldownUntil ≤ call.now := by
      cases hmode : call.request.mode with
      | claim =>
        rw [hmode] at hgrants
        exact (claimMode_granted.mp hgrants.1).2
      | token detail =>
        rw [hmode] at hgrants
        exact (tokenMode_granted.mp hgrants.1).2.1
      | release => simp [hmode, CoordinationMode.gated] at hgrants
      | rateLimit retryAfterMs => simp [hmode, CoordinationMode.gated] at hgrants
    exact (hinv.cooldown r hr ends hends).trans hcool
  · by_cases hkey : key = call.key
    · rw [hkey, hrow, hstart]
      exact call.outcome_cooldownUntil row _
    · rw [hother key hkey]

/-- In every run of requests under a clock and a date that never go backwards, leases exclude each
other, tokens extend their own lease, keep their distance and their daily cap, a cooldown holds, and
rows are apart. -/
theorem arbiter_holds (db : StateDb) (hdb : db.platforms = []) (calls : List CoordinationCall)
    (honward : StepRun.Along arbiterStep Onward ⟨db, []⟩ calls) (call : CoordinationCall)
    (hcall : Onward (StepRun.exec arbiterStep ⟨db, []⟩ calls) call) :
    let s := StepRun.exec arbiterStep ⟨db, []⟩ calls
    ArbiterSpec s call (handle s.db call).1 (handle s.db call).2 := by
  intro s
  have hstart : ∀ key, RowInv key (db.platformRow key) [] := by
    intro key
    rw [StateDb.platformRow, hdb]
    exact rowInv_fresh key
  have hstep : ∀ (s : ArbiterSite) (call : CoordinationCall),
      (∀ key, RowInv key (s.db.platformRow key) s.log) → Onward s call →
        ∀ key, RowInv key ((arbiterStep s call).db.platformRow key) (arbiterStep s call).log :=
    fun _ _ h hcall => rowInv_step h hcall
  have h : ∀ key, RowInv key (s.db.platformRow key) s.log :=
    StepRun.invariant hstep hstart honward
  have hafter : ∀ key, RowInv key ((arbiterStep s call).db.platformRow key)
      (arbiterStep s call).log := rowInv_step h hcall
  rw [arbiterStep] at hafter
  have hcases := handle_cases s.db call
  generalize handle s.db call = result at hafter hcases ⊢
  cases hcases with
  | nothing => exact arbiterSpec_nothing hafter
  | answered hrow hgranted hother => exact arbiterSpec_answered h hcall hafter hrow hgranted hother

/-- Two installs take turns: the second is granted its claim only once the first lease has run out. -/
theorem arbiter_holds_for_two_installs :
    let call (mode : CoordinationMode) (installId : Ident) (now : ℤ) : CoordinationCall :=
      ⟨['m'], ⟨mode, ['p'], installId⟩, now, 1, [], true⟩
    let s := StepRun.exec arbiterStep ⟨StateDb.empty, []⟩
      [call .claim ['a'] 1000, call (.token true) ['a'] 1500, call .claim ['b'] 100000]
    ArbiterSpec s (call .claim ['b'] 121500) (handle s.db (call .claim ['b'] 121500)).1
      (handle s.db (call .claim ['b'] 121500)).2 := by
  intro call s
  exact arbiter_holds StateDb.empty rfl _ (by decide) (call .claim ['b'] 121500) (by decide)

end Spec

end ChatStasher.NativeHost
