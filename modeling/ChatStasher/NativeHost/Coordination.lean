import ChatStasher.Collect.Facts
import ChatStasher.Library.KeyedList

/-! The native host's state database and the coordination requests that run in it. -/
namespace ChatStasher.NativeHost

/-- A row of `ext_platform_v2`; no day is the empty text. -/
structure PlatformRow where
  owner : Option Ident
  leaseUntil : ℤ
  cooldownUntil : ℤ
  nextEnum : ℤ
  nextDetail : ℤ
  detailDay : Option ℕ
  detailCount : ℕ
  deriving DecidableEq

structure RowKey where
  machine : Ident
  platform : Ident
  accountKey : Ident
  deriving DecidableEq

structure InstallKey where
  platform : Ident
  installId : Ident
  accountKey : Ident
  deriving DecidableEq

structure IdentityKey where
  machine : Ident
  installId : Ident
  deriving DecidableEq

/-- A row of `ext_identity`; the evidence is the sequence its text names. -/
structure IdentityRow where
  lastReportSeq : Option ℕ
  identityConflict : Bool
  conflictAt : Option ℤ
  conflictEvidence : Option ℕ
  seenAt : ℤ
  deriving DecidableEq

/-- A row of `ext_identity_seq`. -/
structure SeqRow where
  nonce : Option Ident
  seenAt : ℤ
  deriving DecidableEq

/-- `extension-coordination.sqlite3`. -/
structure StateDb where
  installs : List (InstallKey × ℤ)
  platforms : List (RowKey × PlatformRow)
  identities : List (IdentityKey × IdentityRow)
  seqs : List ((IdentityKey × ℕ) × SeqRow)

def StateDb.empty : StateDb := ⟨[], [], [], []⟩

inductive CoordinationMode
  | claim
  | token (detail : Bool)
  | release
  | rateLimit (retryAfterMs : Option ℕ)
  deriving DecidableEq

structure CoordinationRequest where
  mode : CoordinationMode
  platform : Ident
  installId : Ident
  deriving DecidableEq

structure CoordinationAnswer where
  granted : Bool
  activeInstalls : ℕ
  gentle : Bool
  cooldownUntil : ℤ
  waitMs : ℤ
  deriving DecidableEq

def dayMs : ℤ := 24 * 60 * 60 * 1000

def leaseMs : ℤ := 120000

def maxDetailPerDay : ℕ := 400

def PlatformRow.fresh : PlatformRow := ⟨none, 0, 0, 0, 0, none, 0⟩

def StateDb.platformRow (db : StateDb) (key : RowKey) : PlatformRow :=
  (db.platforms.lookup key).getD .fresh

def StateDb.identityConflict (db : StateDb) (key : IdentityKey) : Bool :=
  (db.identities.lookup key).any fun row => row.identityConflict

def PlatformRow.expire (row : PlatformRow) (now : ℤ) : PlatformRow :=
  if row.leaseUntil ≤ now then { row with owner := none, leaseUntil := 0 } else row

def tokenInterval (detail : Bool) (active : ℕ) : ℤ :=
  if detail then if 1 < active then 45000 else 20000
  else if 1 < active then 4000 else 2000

def cooldownMs (retryAfterMs : Option ℕ) : ℤ :=
  max (min (retryAfterMs.getD 0 : ℤ) (30 * dayMs)) 60000

/-- What a mode does to the row: what it leaves, whether it grants and how long to wait. `row` is as
read, before its lease expired. -/
structure ModeOutcome where
  row : PlatformRow
  granted : Bool
  wait : ℤ

def claimMode (row : PlatformRow) (installId : Ident) (now : ℤ) : ModeOutcome :=
  let ownerAvailable := decide (row.leaseUntil ≤ now) || decide (row.owner = some installId)
  let wait :=
    if now < row.cooldownUntil then row.cooldownUntil - now
    else if !ownerAvailable then max (row.leaseUntil - now) 0
    else 0
  let granted := ownerAvailable && decide (wait = 0)
  { row :=
      if granted then { row.expire now with owner := some installId, leaseUntil := now + leaseMs }
      else row.expire now
    granted, wait }

def releaseMode (row : PlatformRow) (installId : Ident) (now : ℤ) : ModeOutcome :=
  let expired := row.expire now
  { row :=
      if expired.owner = some installId then { expired with owner := none, leaseUntil := 0 }
      else expired
    granted := true
    wait := 0 }

def rateLimitMode (row : PlatformRow) (retryAfterMs : Option ℕ) (now : ℤ) : ModeOutcome :=
  let expired := row.expire now
  { row :=
      { expired with
        cooldownUntil := max expired.cooldownUntil (now + cooldownMs retryAfterMs) }
    granted := false
    wait := cooldownMs retryAfterMs }

def tokenMode (row : PlatformRow) (installId : Ident) (detail : Bool) (active : ℕ) (now : ℤ)
    (today : ℕ) : ModeOutcome :=
  let ownerOk := decide (row.owner = some installId) && decide (now < row.leaseUntil)
  let cooldownWait := max (row.cooldownUntil - now) 0
  let next := if detail then row.nextDetail else row.nextEnum
  let dailyCount := if row.detailDay = some today then row.detailCount else 0
  let dailyWait : ℤ := if detail && decide (maxDetailPerDay ≤ dailyCount) then 60000 else 0
  let wait := max (max cooldownWait (max (next - now) 0)) dailyWait
  let granted := ownerOk && decide (wait = 0)
  let expired := row.expire now
  let nextAt := now + tokenInterval detail active
  { row :=
      if !granted then expired
      else if detail then
        { expired with
          leaseUntil := now + leaseMs
          nextDetail := nextAt
          detailDay := some today
          detailCount := if expired.detailDay = some today then expired.detailCount + 1 else 1 }
      else { expired with leaseUntil := now + leaseMs, nextEnum := nextAt }
    granted, wait }

def CoordinationMode.run (mode : CoordinationMode) (row : PlatformRow) (installId : Ident)
    (active : ℕ) (now : ℤ) (today : ℕ) : ModeOutcome :=
  match mode with
  | .claim => claimMode row installId now
  | .release => releaseMode row installId now
  | .rateLimit retryAfterMs => rateLimitMode row retryAfterMs now
  | .token detail => tokenMode row installId detail active now today

/-- Whether a mode asks for a lease or a token, which the identity gate may refuse. -/
def CoordinationMode.gated : CoordinationMode → Bool
  | .claim | .token _ => true
  | .release | .rateLimit _ => false

/-- The body of a request, for `none` refused by the identity gate. -/
def coordinateInTransaction (db : StateDb) (machine : Ident) (request : CoordinationRequest)
    (now : ℤ) (today : ℕ) (accountKey : Ident) : Option (StateDb × CoordinationAnswer) :=
  if request.mode.gated && db.identityConflict ⟨machine, request.installId⟩ then none
  else
    let installs := KeyedList.put (db.installs.filter fun e => now - 30 * dayMs < e.2)
      (⟨request.platform, request.installId, accountKey⟩, now)
    let key : RowKey := ⟨machine, request.platform, accountKey⟩
    let row := db.platformRow key
    let active := (installs.filter fun e => e.1.platform = request.platform &&
      e.1.accountKey = accountKey && decide (now - dayMs < e.2)).length
    let outcome := request.mode.run row request.installId active now today
    let cooldownUntil :=
      match request.mode with
      | .rateLimit retryAfterMs => now + cooldownMs retryAfterMs
      | _ => row.cooldownUntil
    some
      ({ db with installs, platforms := KeyedList.put db.platforms (key, outcome.row) },
        { granted := outcome.granted
          activeInstalls := active
          gentle := decide (1 < active)
          cooldownUntil
          waitMs := outcome.wait })

/-- A request in its own transaction; a refusal or a failed commit leaves nothing behind. -/
def coordination (db : StateDb) (machine : Ident) (request : CoordinationRequest) (now : ℤ)
    (today : ℕ) (accountKey : Ident) (committed : Bool) : StateDb × Option CoordinationAnswer :=
  match coordinateInTransaction db machine request now today accountKey with
  | some (after, answer) => if committed then (after, some answer) else (db, none)
  | none => (db, none)

section Modes
variable {row : PlatformRow} {installId : Ident} {now : ℤ}

@[simp] lemma PlatformRow.expire_cooldownUntil (row : PlatformRow) (now : ℤ) :
    (row.expire now).cooldownUntil = row.cooldownUntil := by
  unfold expire
  split <;> rfl

@[simp] lemma PlatformRow.expire_nextEnum (row : PlatformRow) (now : ℤ) :
    (row.expire now).nextEnum = row.nextEnum := by
  unfold expire
  split <;> rfl

@[simp] lemma PlatformRow.expire_nextDetail (row : PlatformRow) (now : ℤ) :
    (row.expire now).nextDetail = row.nextDetail := by
  unfold expire
  split <;> rfl

@[simp] lemma PlatformRow.expire_detailDay (row : PlatformRow) (now : ℤ) :
    (row.expire now).detailDay = row.detailDay := by
  unfold expire
  split <;> rfl

@[simp] lemma PlatformRow.expire_detailCount (row : PlatformRow) (now : ℤ) :
    (row.expire now).detailCount = row.detailCount := by
  unfold expire
  split <;> rfl

lemma PlatformRow.expire_owner (row : PlatformRow) (now : ℤ) :
    row.leaseUntil ≤ now ∧ (row.expire now).owner = none ∨
      (row.expire now).owner = row.owner ∧ (row.expire now).leaseUntil = row.leaseUntil := by
  unfold expire
  split
  next hout => exact Or.inl ⟨hout, rfl⟩
  next => exact Or.inr ⟨rfl, rfl⟩

lemma claimMode_row (row : PlatformRow) (installId : Ident) (now : ℤ) :
    (claimMode row installId now).row = if (claimMode row installId now).granted = true then
      { row.expire now with owner := some installId, leaseUntil := now + leaseMs }
    else row.expire now := rfl

lemma claimMode_granted : (claimMode row installId now).granted = true ↔
    (row.leaseUntil ≤ now ∨ row.owner = some installId) ∧ row.cooldownUntil ≤ now := by
  simp only [claimMode, Bool.and_eq_true, Bool.or_eq_true, decide_eq_true_eq]
  refine and_congr_right fun havailable => ?_
  by_cases hcooldown : now < row.cooldownUntil
  · rw [if_pos hcooldown]
    omega
  · rw [if_neg hcooldown]
    have hfree : (!(decide (row.leaseUntil ≤ now) || decide (row.owner = some installId))) = false := by
      rw [Bool.not_eq_false', Bool.or_eq_true, decide_eq_true_eq, decide_eq_true_eq]
      exact havailable
    rw [hfree]
    simpa using hcooldown

lemma tokenMode_row_of_granted {detail : Bool} {active today : ℕ}
    (h : (tokenMode row installId detail active now today).granted = true) :
    (tokenMode row installId detail active now today).row =
      if detail then
        { row.expire now with
          leaseUntil := now + leaseMs
          nextDetail := now + tokenInterval detail active
          detailDay := some today
          detailCount := if row.detailDay = some today then row.detailCount + 1 else 1 }
      else
        { row.expire now with
          leaseUntil := now + leaseMs
          nextEnum := now + tokenInterval detail active } := by
  simp only [tokenMode] at h ⊢
  rw [h]
  simp only [Bool.not_true, Bool.false_eq_true, if_false, PlatformRow.expire_detailDay,
    PlatformRow.expire_detailCount]

lemma tokenMode_row_of_refused {detail : Bool} {active today : ℕ}
    (h : (tokenMode row installId detail active now today).granted = false) :
    (tokenMode row installId detail active now today).row = row.expire now := by
  simp only [tokenMode] at h ⊢
  rw [h]
  rfl

lemma tokenMode_granted {detail : Bool} {active today : ℕ} :
    (tokenMode row installId detail active now today).granted = true ↔
      (row.owner = some installId ∧ now < row.leaseUntil) ∧ row.cooldownUntil ≤ now ∧
        (if detail then row.nextDetail else row.nextEnum) ≤ now ∧
          (detail = true → row.detailDay = some today → row.detailCount < maxDetailPerDay) := by
  simp only [tokenMode, Bool.and_eq_true, decide_eq_true_eq]
  refine and_congr_right fun _ => ?_
  by_cases hday : row.detailDay = some today
  · cases detail <;> simp [hday] <;> omega
  · have hfirst : ¬ maxDetailPerDay ≤ 0 := by decide
    cases detail <;> simp [hday, hfirst] <;> omega

end Modes

section Transaction
variable {db after : StateDb} {machine : Ident} {request : CoordinationRequest} {now : ℤ}
  {today : ℕ} {accountKey : Ident} {answer : CoordinationAnswer}

lemma StateDb.platformRow_put (db : StateDb) (installs : List (InstallKey × ℤ)) (key other : RowKey)
    (row : PlatformRow) :
    StateDb.platformRow { db with installs, platforms := KeyedList.put db.platforms (key, row) }
      other = if other = key then row else db.platformRow other := by
  rw [StateDb.platformRow, KeyedList.lookup_put]
  split <;> rfl

lemma coordinateInTransaction_eq_some
    (h : coordinateInTransaction db machine request now today accountKey = some (after, answer)) :
    (request.mode.gated = true → db.identityConflict ⟨machine, request.installId⟩ = false) ∧
      (after.identities = db.identities ∧ after.seqs = db.seqs) ∧
      after.platformRow ⟨machine, request.platform, accountKey⟩ =
        (request.mode.run (db.platformRow ⟨machine, request.platform, accountKey⟩)
          request.installId answer.activeInstalls now today).row ∧
      answer.granted = (request.mode.run (db.platformRow ⟨machine, request.platform, accountKey⟩)
          request.installId answer.activeInstalls now today).granted ∧
      ∀ key ≠ (⟨machine, request.platform, accountKey⟩ : RowKey),
        after.platformRow key = db.platformRow key := by
  unfold coordinateInTransaction at h
  split at h
  · cases h
  next hgate =>
    obtain ⟨rfl, rfl⟩ := Prod.mk.inj (Option.some.inj h)
    refine ⟨fun hgated => ?_, ⟨rfl, rfl⟩, ?_, rfl, fun key hkey => ?_⟩
    · simpa [hgated] using hgate
    · rw [StateDb.platformRow_put, if_pos rfl]
    · rw [StateDb.platformRow_put, if_neg hkey]

end Transaction

end ChatStasher.NativeHost
