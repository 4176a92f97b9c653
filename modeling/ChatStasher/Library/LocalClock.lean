import Mathlib.Data.Int.LeastGreatest
import Mathlib.Tactic.IntervalCases
import Mathlib.Tactic.Linarith

/-! Days of the proleptic Gregorian calendar, and the instants at which a local clock shows them. -/
namespace LocalClock

section Calendar

def isLeap (y : ℕ) : Bool := y % 4 = 0 && (y % 100 ≠ 0 || y % 400 = 0)

def daysInMonth (y : ℕ) : ℕ → ℕ
  | 2 => if isLeap y then 29 else 28
  | 4 | 6 | 9 | 11 => 30
  | 1 | 3 | 5 | 7 | 8 | 10 | 12 => 31
  | _ => 0

structure ValidDay (y m d : ℕ) : Prop where
  month : 1 ≤ m ∧ m ≤ 12
  day : 1 ≤ d ∧ d ≤ daysInMonth y m

instance (y m d : ℕ) : Decidable (ValidDay y m d) :=
  decidable_of_iff ((1 ≤ m ∧ m ≤ 12) ∧ 1 ≤ d ∧ d ≤ daysInMonth y m)
    ⟨fun h => ⟨h.1, h.2⟩, fun h => ⟨h.month, h.day⟩⟩

def daysBeforeYear (y : ℕ) : ℕ := 365 * y + (y + 3) / 4 - (y + 99) / 100 + (y + 399) / 400

def daysBeforeMonth (y : ℕ) : ℕ → ℕ
  | 0 => 0
  | m + 1 => daysBeforeMonth y m + daysInMonth y m

def dayNumber (y m d : ℕ) : ℤ := (daysBeforeYear y + daysBeforeMonth y m + d : ℕ) - 719529

end Calendar

section Zones

/-- What a local time is resolved to: no instant, one, or an earliest and a latest of several. -/
inductive LocalResult
  | none
  | single (t : ℤ)
  | ambiguous (earliest latest : ℤ)

/-- The result for the instants at which a clock shows a time. -/
def LocalResult.Of (instants : Set ℤ) : LocalResult → Prop
  | .none => instants = ∅
  | .single t => instants = {t}
  | .ambiguous earliest latest => earliest < latest ∧ IsLeast instants earliest ∧
      IsGreatest instants latest

/-- The clock of a time zone: less than a day away from universal time at every instant, with the
instants that its library resolves a local time to. -/
structure Zone where
  offset : ℤ → ℤ
  bounded : ∀ t, |offset t| < 86400
  resolve : ℤ → LocalResult
  resolves : ∀ time, (resolve time).Of {t | t + offset t = time}

namespace Zone
variable (Z : Zone)

def clock (t : ℤ) : ℤ := t + Z.offset t

def day (number : ℤ) : Set ℤ := {t | Z.clock t / 86400 = number}

/-- Where the offset changes, the clock moves from one whole minute to another. -/
def WholeMinuteChanges : Prop :=
  ∀ t, Z.offset (t - 1) ≠ Z.offset t → 60 ∣ t + Z.offset (t - 1) ∧ 60 ∣ t + Z.offset t

/-- No instant of the day shows a time before that of its first instant or after that of its
last. -/
def InOrder (number : ℤ) : Prop :=
  ∀ first last, IsLeast (Z.day number) first → IsGreatest (Z.day number) last →
    ∀ t ∈ Z.day number, Z.clock first ≤ Z.clock t ∧ Z.clock t ≤ Z.clock last

variable {Z} {number : ℤ}

lemma mem_day {t : ℤ} :
    t ∈ Z.day number ↔ 86400 * number ≤ Z.clock t ∧ Z.clock t < 86400 * number + 86400 := by
  rw [day, Set.mem_ofPred_eq]
  omega

lemma bounds_of_mem_day {t : ℤ} (h : t ∈ Z.day number) :
    86400 * number - 86400 ≤ t ∧ t ≤ 86400 * number + 2 * 86400 := by
  obtain ⟨hle, hlt⟩ := mem_day.mp h
  obtain ⟨hlow, hhigh⟩ := abs_lt.mp (Z.bounded t)
  rw [clock] at hle hlt
  constructor <;> omega

lemma exists_first (h : (Z.day number).Nonempty) : ∃ t, IsLeast (Z.day number) t := by
  obtain ⟨t, ht, hleast⟩ := Int.exists_least_of_bdd
    ⟨86400 * number - 86400, fun t ht => (bounds_of_mem_day ht).1⟩ h
  exact ⟨t, ht, fun u hu => hleast u hu⟩

lemma exists_last (h : (Z.day number).Nonempty) : ∃ t, IsGreatest (Z.day number) t := by
  obtain ⟨t, ht, hgreatest⟩ := Int.exists_greatest_of_bdd
    ⟨86400 * number + 2 * 86400, fun t ht => (bounds_of_mem_day ht).2⟩ h
  exact ⟨t, ht, fun u hu => hgreatest u hu⟩

lemma clock_back (hZ : Z.WholeMinuteChanges) {t : ℤ} (n : ℕ) (hn : (n : ℤ) ≤ Z.clock t % 60) :
    Z.clock (t - n) = Z.clock t - n := by
  induction n with
  | zero => simp
  | succ n ih =>
    have hn' := ih (by push_cast at hn; omega)
    have hsame : Z.offset (t - n - 1) = Z.offset (t - n) := by
      by_contra hne
      have hwhole := (hZ (t - n) hne).2
      rw [clock] at hn'
      push_cast at hn
      omega
    have hstep : t - ((n + 1 : ℕ) : ℤ) = t - n - 1 := by omega
    rw [hstep, clock, hsame]
    rw [clock] at hn'
    push_cast
    linarith

lemma clock_forward (hZ : Z.WholeMinuteChanges) {t : ℤ} (n : ℕ)
    (hn : Z.clock t % 60 + n ≤ 59) : Z.clock (t + n) = Z.clock t + n := by
  induction n with
  | zero => simp
  | succ n ih =>
    have hn' := ih (by push_cast at hn; omega)
    have hsame : Z.offset (t + n + 1 - 1) = Z.offset (t + n + 1) := by
      by_contra hne
      have hwhole := (hZ (t + n + 1) hne).1
      rw [add_sub_cancel_right] at hwhole
      rw [clock] at hn'
      push_cast at hn
      omega
    have hstep : t + ((n + 1 : ℕ) : ℤ) = t + n + 1 := by omega
    rw [add_sub_cancel_right] at hsame
    rw [hstep, clock, ← hsame]
    rw [clock] at hn'
    push_cast
    linarith

lemma first_whole (hZ : Z.WholeMinuteChanges) {t : ℤ} (h : IsLeast (Z.day number) t) :
    Z.clock t % 60 = 0 := by
  by_contra hne
  have hback := clock_back hZ (t := t) 1 (by push_cast; omega)
  have hmem : t - 1 ∈ Z.day number := by
    have ht := mem_day.mp h.1
    rw [mem_day]
    push_cast at hback
    omega
  have := h.2 hmem
  omega

lemma last_whole (hZ : Z.WholeMinuteChanges) {t : ℤ} (h : IsGreatest (Z.day number) t) :
    Z.clock t % 60 = 59 := by
  by_contra hne
  have hforward := clock_forward hZ (t := t) 1 (by push_cast; omega)
  have hmem : t + 1 ∈ Z.day number := by
    have ht := mem_day.mp h.1
    rw [mem_day]
    push_cast at hforward
    omega
  have := h.2 hmem
  omega

end Zone

end Zones

end LocalClock
