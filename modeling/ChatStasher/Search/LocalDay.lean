import ChatStasher.Inbox.Bundle
import ChatStasher.Library.LocalClock

/-! Calendar days as they are written in a query, and their bounds on the local clock. -/
namespace ChatStasher.Selection
open Inbox (Text utf8)
open LocalClock

section Parse

abbrev UsageError := Text

def notADate (text : Text) : UsageError :=
  "`".toList ++ text ++
    "` is not a calendar date; write it as YYYY-MM-DD, e.g. 2026-01-15".toList

/-- The standard integer parser, for a number without a minus sign: it takes a leading plus. -/
def parseNumber (part : Text) : Option ℕ :=
  let digits := match part with
    | '+' :: digits => digits
    | digits => digits
  if digits ≠ [] ∧ digits.all Char.isDigit then some (Nat.ofDigitChars 10 digits 0) else none

def parseLocalDay (text : Text) : Except UsageError (ℕ × ℕ × ℕ) :=
  match text.splitOn '-' with
  | [y, m, d] =>
    if (utf8 y).length ≠ 4 ∨ (utf8 m).length ≠ 2 ∨ (utf8 d).length ≠ 2 then
      .error (notADate text)
    else
      match parseNumber y, parseNumber m, parseNumber d with
      | some y, some m, some d =>
        if ValidDay y m d then .ok (y, m, d) else .error (notADate text)
      | _, _, _ => .error (notADate text)
  | _ => .error (notADate text)

/-- The three parts of a date, each written with its digits only. -/
structure StrictParts (ys ms ds : Text) (y m d : ℕ) : Prop where
  lengths : ys.length = 4 ∧ ms.length = 2 ∧ ds.length = 2
  digits : ∀ c ∈ ys ++ ms ++ ds, c.isDigit = true
  values : Nat.ofDigitChars 10 ys 0 = y ∧ Nat.ofDigitChars 10 ms 0 = m ∧
    Nat.ofDigitChars 10 ds 0 = d
  valid : ValidDay y m d

def joinParts (ys ms ds : Text) : Text := ys ++ '-' :: (ms ++ '-' :: ds)

/-- Four digits, a hyphen, two digits, a hyphen and two digits that name a date. -/
def StrictDay (text : Text) (y m d : ℕ) : Prop :=
  ∃ ys ms ds, text = joinParts ys ms ds ∧ StrictParts ys ms ds y m d

def unsigned : Text → Text
  | '+' :: digits => '0' :: digits
  | part => part

/-- A date in which some part is written with a plus sign for its first digit. -/
def PlusSigned (text : Text) : Prop :=
  ∃ ys ms ds, text = joinParts ys ms ds ∧ '+' ∈ text ∧
    ∃ y m d, StrictParts (unsigned ys) (unsigned ms) (unsigned ds) y m d

lemma utf8_length_of_ascii {text : Text} (h : ∀ c ∈ text, c.toNat < 128) :
    (utf8 text).length = text.length := by
  induction text with
  | nil => rfl
  | cons c text ih =>
    have hc : (String.utf8EncodeChar c).length = 1 := by
      rw [String.length_utf8EncodeChar, Char.utf8Size_eq_one_iff]
      have := h c List.mem_cons_self
      exact UInt32.le_iff_toNat_le.mpr (by simpa using Nat.le_of_lt_succ this)
    have hrest := ih fun d hd => h d (List.mem_cons_of_mem _ hd)
    rw [utf8, List.flatMap_cons, List.length_append, hc, ← utf8, hrest, List.length_cons,
      Nat.add_comm]

lemma toNat_lt_of_isDigit {c : Char} (h : c.isDigit = true) : c.toNat < 128 := by
  have hle := (Char.isDigit_iff_toNat.mp h).2
  exact lt_of_le_of_lt hle (by decide)

lemma unsigned_of_digits {part : Text} (h : ∀ c ∈ part, c.isDigit = true) :
    unsigned part = part := by
  unfold unsigned
  split
  next digits => exact absurd (h '+' List.mem_cons_self) (by decide)
  next => rfl

/-- A part of this many bytes is a number exactly when it is so many digits, a plus sign taken for
the first one. -/
lemma parseNumber_iff {part : Text} {k n : ℕ} (hk : 2 ≤ k) :
    ((utf8 part).length = k ∧ parseNumber part = some n) ↔
      (unsigned part).length = k ∧ (∀ c ∈ unsigned part, c.isDigit = true) ∧
        Nat.ofDigitChars 10 (unsigned part) 0 = n := by
  have hnumber : ∀ digits : Text, (if digits ≠ [] ∧ digits.all Char.isDigit then
      some (Nat.ofDigitChars 10 digits 0) else none) = some n ↔
        digits ≠ [] ∧ (∀ c ∈ digits, c.isDigit = true) ∧ Nat.ofDigitChars 10 digits 0 = n := by
    intro digits
    rw [Option.ite_none_right_eq_some, List.all_eq_true, Option.some.injEq, and_assoc]
  by_cases hplus : ∃ digits, part = '+' :: digits
  · obtain ⟨digits, rfl⟩ := hplus
    have hvalue : Nat.ofDigitChars 10 ('0' :: digits) 0 = Nat.ofDigitChars 10 digits 0 := rfl
    have hascii : (∀ c ∈ digits, c.isDigit = true) →
        (utf8 ('+' :: digits)).length = digits.length + 1 := fun h =>
      utf8_length_of_ascii fun c hc => by
        rcases List.mem_cons.mp hc with rfl | hc
        · decide
        · exact toNat_lt_of_isDigit (h c hc)
    have hparse : parseNumber ('+' :: digits) = some n ↔ digits ≠ [] ∧
        (∀ c ∈ digits, c.isDigit = true) ∧ Nat.ofDigitChars 10 digits 0 = n := hnumber digits
    have hunsigned : unsigned ('+' :: digits) = '0' :: digits := rfl
    rw [hparse, hunsigned, hvalue, List.forall_mem_cons, List.length_cons]
    constructor
    · rintro ⟨hlength, -, hdigits, hn⟩
      exact ⟨(hascii hdigits).symm.trans hlength, ⟨by decide, hdigits⟩, hn⟩
    · rintro ⟨hlength, ⟨-, hdigits⟩, hn⟩
      refine ⟨(hascii hdigits).trans hlength, ?_, hdigits, hn⟩
      rintro rfl
      rw [List.length_nil] at hlength
      omega
  · have hparse : parseNumber part = some n ↔ part ≠ [] ∧
        (∀ c ∈ part, c.isDigit = true) ∧ Nat.ofDigitChars 10 part 0 = n := by
      rw [← hnumber part, parseNumber]
      exact fun digits hdigits => hplus ⟨digits, hdigits⟩
    have hunsigned : unsigned part = part := by
      unfold unsigned
      split
      next digits => exact absurd ⟨digits, rfl⟩ hplus
      next => rfl
    have hascii : (∀ c ∈ part, c.isDigit = true) → (utf8 part).length = part.length := fun h =>
      utf8_length_of_ascii fun c hc => toNat_lt_of_isDigit (h c hc)
    rw [hparse, hunsigned]
    constructor
    · rintro ⟨hlength, -, hdigits, hn⟩
      exact ⟨(hascii hdigits).symm.trans hlength, hdigits, hn⟩
    · rintro ⟨hlength, hdigits, hn⟩
      refine ⟨(hascii hdigits).trans hlength, ?_, hdigits, hn⟩
      rintro rfl
      rw [List.length_nil] at hlength
      omega

lemma splitOn_joinParts {ys ms ds : Text} (hy : '-' ∉ ys) (hm : '-' ∉ ms) (hd : '-' ∉ ds) :
    (joinParts ys ms ds).splitOn '-' = [ys, ms, ds] := by
  rw [joinParts, List.splitOn_append_cons_self, List.splitOn_append_cons_self,
    List.splitOn_eq_singleton hy, List.splitOn_eq_singleton hm, List.splitOn_eq_singleton hd]
  rfl

theorem parseLocalDay_iff {text : Text} {y m d : ℕ} : parseLocalDay text = .ok (y, m, d) ↔
    ∃ ys ms ds, text = joinParts ys ms ds ∧
      StrictParts (unsigned ys) (unsigned ms) (unsigned ds) y m d := by
  constructor
  · intro h
    unfold parseLocalDay at h
    split at h
    next ys ms ds hsplit =>
      split at h
      next => cases h
      next hlengths =>
        push Not at hlengths
        split at h
        next y' m' d' hy hm hd =>
          split at h
          next hvalid =>
            obtain ⟨rfl, rfl, rfl⟩ : y' = y ∧ m' = m ∧ d' = d := by
              simpa using Except.ok.inj h
            obtain ⟨hylen, hydigits, hyval⟩ :=
              (parseNumber_iff (by decide)).mp ⟨hlengths.1, hy⟩
            obtain ⟨hmlen, hmdigits, hmval⟩ :=
              (parseNumber_iff (by decide)).mp ⟨hlengths.2.1, hm⟩
            obtain ⟨hdlen, hddigits, hdval⟩ :=
              (parseNumber_iff (by decide)).mp ⟨hlengths.2.2, hd⟩
            refine ⟨ys, ms, ds, ?_, ⟨hylen, hmlen, hdlen⟩, fun c hc => ?_, ⟨hyval, hmval, hdval⟩,
              hvalid⟩
            · have hjoin : ['-'].intercalate (text.splitOn '-') = text := List.intercalate_splitOn '-'
              rw [hsplit] at hjoin
              rw [← hjoin]
              simp [joinParts, List.intercalate]
            · rcases List.mem_append.mp hc with hc | hc
              · rcases List.mem_append.mp hc with hc | hc
                · exact hydigits c hc
                · exact hmdigits c hc
              · exact hddigits c hc
          next => cases h
        next => cases h
    next => cases h
  · rintro ⟨ys, ms, ds, rfl, ⟨hylen, hmlen, hdlen⟩, hdigits, ⟨hyval, hmval, hdval⟩, hvalid⟩
    have hyd : ∀ c ∈ unsigned ys, c.isDigit = true := fun c hc => hdigits c (by simp [hc])
    have hmd : ∀ c ∈ unsigned ms, c.isDigit = true := fun c hc => hdigits c (by simp [hc])
    have hdd : ∀ c ∈ unsigned ds, c.isDigit = true := fun c hc => hdigits c (by simp [hc])
    have hhyphen : ∀ part : Text, (∀ c ∈ unsigned part, c.isDigit = true) → '-' ∉ part := by
      intro part hpart hmem
      have hmem' : '-' ∈ unsigned part := by
        unfold unsigned
        split
        next digits =>
          rcases List.mem_cons.mp hmem with hc | hc
          · exact absurd hc (by decide)
          · exact List.mem_cons_of_mem _ hc
        next => exact hmem
      exact absurd (hpart '-' hmem') (by decide)
    obtain ⟨hylen', hy⟩ := (parseNumber_iff (by decide)).mpr ⟨hylen, hyd, hyval⟩
    obtain ⟨hmlen', hm⟩ := (parseNumber_iff (by decide)).mpr ⟨hmlen, hmd, hmval⟩
    obtain ⟨hdlen', hd⟩ := (parseNumber_iff (by decide)).mpr ⟨hdlen, hdd, hdval⟩
    unfold parseLocalDay
    rw [splitOn_joinParts (hhyphen ys hyd) (hhyphen ms hmd) (hhyphen ds hdd)]
    dsimp only
    rw [if_neg (by simp [hylen', hmlen', hdlen']), hy, hm, hd]
    dsimp only
    rw [if_pos hvalid]

def AcceptsStrict (text : Text) : Prop :=
  ∀ y m d, parseLocalDay text = .ok (y, m, d) ↔ StrictDay text y m d

lemma not_mem_plus_of_strict {text : Text} {y m d : ℕ} (h : StrictDay text y m d) :
    '+' ∉ text := by
  obtain ⟨ys, ms, ds, rfl, hparts⟩ := h
  intro hmem
  have hchar : '+' ∈ ys ++ ms ++ ds := by simpa [joinParts] using hmem
  exact absurd (hparts.digits '+' hchar) (by decide)

theorem acceptsStrict_iff (text : Text) : AcceptsStrict text ↔ ¬ PlusSigned text := by
  constructor
  · rintro h ⟨ys, ms, ds, htext, hplus, y, m, d, hparts⟩
    have hok := parseLocalDay_iff.mpr ⟨ys, ms, ds, htext, hparts⟩
    exact not_mem_plus_of_strict ((h y m d).mp hok) hplus
  · intro hplus y m d
    rw [parseLocalDay_iff]
    constructor
    · rintro ⟨ys, ms, ds, rfl, hparts⟩
      have hnot : '+' ∉ joinParts ys ms ds := fun hmem =>
        hplus ⟨ys, ms, ds, rfl, hmem, y, m, d, hparts⟩
      have hsame : ∀ part : Text, (∀ c ∈ part, c ∈ joinParts ys ms ds) → unsigned part = part := by
        intro part hpart
        unfold unsigned
        split
        next digits => exact absurd (hpart '+' List.mem_cons_self) hnot
        next => rfl
      rw [hsame ys fun c hc => by simp [joinParts, hc], hsame ms fun c hc => by simp [joinParts, hc],
        hsame ds fun c hc => by simp [joinParts, hc]] at hparts
      exact ⟨ys, ms, ds, rfl, hparts⟩
    · rintro ⟨ys, ms, ds, rfl, hparts⟩
      refine ⟨ys, ms, ds, rfl, ?_⟩
      rwa [unsigned_of_digits fun c hc => hparts.digits c (by simp [hc]),
        unsigned_of_digits fun c hc => hparts.digits c (by simp [hc]),
        unsigned_of_digits fun c hc => hparts.digits c (by simp [hc])]

end Parse

section Bounds
variable (Z : Zone)

def padded (width n : ℕ) : Text := List.leftpad width '0' (Nat.toDigits 10 n)

def noLocalTime (y m d : ℕ) : UsageError :=
  "no local time exists on ".toList ++ padded 4 y ++ '-' :: (padded 2 m ++ '-' :: padded 2 d) ++
    " at all in this timezone — refusing to invent a boundary".toList

/-- Resolve a local time to an instant: of two, the later or the earlier one. -/
def resolveLocal (y m d hh mm ss : ℕ) (latest : Bool) : Option ℤ :=
  match Z.resolve (86400 * dayNumber y m d + 3600 * hh + 60 * mm + ss) with
  | .single t => some t
  | .ambiguous earlier later => some (if latest then later else earlier)
  | .none => none

/-- Walk forward a minute at a time to the first minute that exists. -/
def localDayStart (y m d : ℕ) : Except UsageError ℤ :=
  match (List.range (24 * 60)).findSome? fun step =>
      resolveLocal Z y m d (step / 60) (step % 60) 0 false with
  | some t => .ok t
  | none => .error (noLocalTime y m d)

/-- Walk backward from the last minute. -/
def localDayEnd (y m d : ℕ) : Except UsageError ℤ :=
  match (List.range (24 * 60)).findSome? fun step =>
      resolveLocal Z y m d ((24 * 60 - 1 - step) / 60) ((24 * 60 - 1 - step) % 60) 59 true with
  | some t => .ok t
  | none => .error (noLocalTime y m d)

def localDayBounds (text : Text) : Except UsageError (ℤ × ℤ) :=
  match parseLocalDay text with
  | .error e => .error e
  | .ok (y, m, d) =>
    match localDayStart Z y m d with
    | .error e => .error e
    | .ok start =>
      match localDayEnd Z y m d with
      | .error e => .error e
      | .ok last => .ok (start, last)

/-- Of an accepted date that has an instant, the bounds are its first and its last one. -/
def BoundsRight (text : Text) : Prop :=
  ∀ y m d, parseLocalDay text = .ok (y, m, d) → (Z.day (dayNumber y m d)).Nonempty →
    ∃ first last, localDayBounds Z text = .ok (first, last) ∧
      IsLeast (Z.day (dayNumber y m d)) first ∧ IsGreatest (Z.day (dayNumber y m d)) last

variable {Z} {y m d : ℕ}

def showing (Z : Zone) (y m d : ℕ) (second : ℤ) : Set ℤ :=
  {t | Z.clock t = 86400 * dayNumber y m d + second}

lemma resolveLocal_spec (minute : ℕ) (ss : ℕ) (latest : Bool) :
    match resolveLocal Z y m d (minute / 60) (minute % 60) ss latest with
    | none => showing Z y m d (60 * minute + ss) = ∅
    | some t => if latest then IsGreatest (showing Z y m d (60 * minute + ss)) t
        else IsLeast (showing Z y m d (60 * minute + ss)) t := by
  have htime : (86400 * dayNumber y m d + 3600 * ((minute / 60 : ℕ) : ℤ) +
      60 * ((minute % 60 : ℕ) : ℤ) + (ss : ℤ)) =
        86400 * dayNumber y m d + (60 * minute + ss) := by omega
  have hspec := Z.resolves (86400 * dayNumber y m d + (60 * minute + ss))
  change (Z.resolve _).Of (showing Z y m d (60 * minute + ss)) at hspec
  rw [resolveLocal, htime]
  cases hresolve : Z.resolve (86400 * dayNumber y m d + (60 * minute + ss)) with
  | none =>
    rw [hresolve] at hspec
    exact hspec
  | single t =>
    rw [hresolve] at hspec
    have hset : showing Z y m d (60 * minute + ss) = {t} := hspec
    dsimp only
    rw [hset]
    split
    · exact isGreatest_singleton
    · exact isLeast_singleton
  | ambiguous earliest last =>
    rw [hresolve] at hspec
    obtain ⟨-, hearliest, hlast⟩ := hspec
    dsimp only
    split
    · exact hlast
    · exact hearliest

lemma mem_day_of_showing {t second : ℤ} (h : t ∈ showing Z y m d second) (hle : 0 ≤ second)
    (hlt : second < 86400) : t ∈ Z.day (dayNumber y m d) := by
  have hclock : Z.clock t = 86400 * dayNumber y m d + second := h
  rw [Zone.mem_day]
  omega

lemma findSome_range {f : ℕ → Option ℤ} {t : ℤ} {bound : ℕ} :
    (List.range bound).findSome? f = some t ↔
      ∃ n < bound, f n = some t ∧ ∀ k < n, f k = none := by
  rw [List.findSome?_eq_some_iff]
  constructor
  · rintro ⟨before, n, after, hrange, hn, hbefore⟩
    have hbefore' : before = List.range n := by
      have htake := congrArg (List.take before.length) hrange
      have hget := congrArg (fun l => l[before.length]?) hrange
      have hlen := congrArg List.length hrange
      simp only [List.length_range, List.length_append, List.length_cons] at hlen
      rw [List.take_range, Nat.min_eq_left (by omega), List.take_left] at htake
      rw [List.getElem?_range (by omega), List.getElem?_append_right (le_refl _)] at hget
      simp only [Nat.sub_self, List.getElem?_cons_zero, Option.some.injEq] at hget
      rw [← htake, hget]
    have hmem : n ∈ List.range bound := hrange ▸ List.mem_append_right before List.mem_cons_self
    refine ⟨n, List.mem_range.mp hmem, hn, fun k hk => hbefore k ?_⟩
    rw [hbefore']
    exact List.mem_range.mpr hk
  · rintro ⟨n, hn, hfn, hbefore⟩
    obtain ⟨rest, rfl⟩ := Nat.exists_eq_add_of_lt hn
    refine ⟨List.range n, n, List.range' (n + 1) rest, ?_, hfn, fun k hk =>
      hbefore k (List.mem_range.mp hk)⟩
    have happend := List.range'_append_1 (s := 0) (m := n) (n := rest + 1)
    rw [Nat.zero_add, List.range'_succ] at happend
    rw [List.range_eq_range', List.range_eq_range', Nat.add_assoc]
    exact happend.symm

lemma resolveLocal_eq_none_iff (minute ss : ℕ) (latest : Bool) :
    resolveLocal Z y m d (minute / 60) (minute % 60) ss latest = none ↔
      showing Z y m d (60 * minute + ss) = ∅ := by
  have hspec := @resolveLocal_spec Z y m d minute ss latest
  cases hresolve : resolveLocal Z y m d (minute / 60) (minute % 60) ss latest with
  | none =>
    rw [hresolve] at hspec
    exact ⟨fun _ => hspec, fun _ => rfl⟩
  | some u =>
    rw [hresolve] at hspec
    refine ⟨nofun, fun hempty => ?_⟩
    have hmem : u ∈ showing Z y m d (60 * minute + ss) := by
      dsimp only at hspec
      split at hspec
      · exact hspec.1
      · exact hspec.1
    rw [hempty] at hmem
    exact hmem.elim

lemma resolveLocal_eq_some_iff (minute ss : ℕ) (latest : Bool) {t : ℤ} :
    resolveLocal Z y m d (minute / 60) (minute % 60) ss latest = some t ↔
      if latest then IsGreatest (showing Z y m d (60 * minute + ss)) t
      else IsLeast (showing Z y m d (60 * minute + ss)) t := by
  have hspec := @resolveLocal_spec Z y m d minute ss latest
  cases hresolve : resolveLocal Z y m d (minute / 60) (minute % 60) ss latest with
  | none =>
    rw [hresolve] at hspec
    refine ⟨nofun, fun hextreme => ?_⟩
    have hmem : t ∈ showing Z y m d (60 * minute + ss) := by
      split at hextreme
      · exact hextreme.1
      · exact hextreme.1
    have hempty : showing Z y m d (60 * minute + ss) = ∅ := hspec
    rw [hempty] at hmem
    exact hmem.elim
  | some u =>
    rw [hresolve] at hspec
    refine ⟨fun h => Option.some.inj h ▸ hspec, fun hextreme => congrArg some ?_⟩
    dsimp only at hspec
    split at hspec
    next hlatest =>
      rw [if_pos hlatest] at hextreme
      exact hspec.unique hextreme
    next hlatest =>
      rw [if_neg hlatest] at hextreme
      exact hspec.unique hextreme

lemma localDayStart_eq_ok_iff {t : ℤ} : localDayStart Z y m d = .ok t ↔
    ∃ n < 24 * 60, IsLeast (showing Z y m d (60 * (n : ℕ) + (0 : ℕ))) t ∧
      ∀ k < n, showing Z y m d (60 * (k : ℕ) + (0 : ℕ)) = ∅ := by
  have hwalk : localDayStart Z y m d = .ok t ↔ ((List.range (24 * 60)).findSome? fun step =>
      resolveLocal Z y m d (step / 60) (step % 60) 0 false) = some t := by
    unfold localDayStart
    generalize ((List.range (24 * 60)).findSome? fun step =>
      resolveLocal Z y m d (step / 60) (step % 60) 0 false) = found
    cases found <;> simp
  refine hwalk.trans (findSome_range.trans ?_)
  simp only [resolveLocal_eq_some_iff, resolveLocal_eq_none_iff, Bool.false_eq_true, if_false]

lemma localDayEnd_eq_ok_iff {t : ℤ} : localDayEnd Z y m d = .ok t ↔
    ∃ n < 24 * 60, IsGreatest (showing Z y m d (60 * (24 * 60 - 1 - n : ℕ) + (59 : ℕ))) t ∧
      ∀ k < n, showing Z y m d (60 * (24 * 60 - 1 - k : ℕ) + (59 : ℕ)) = ∅ := by
  have hwalk : localDayEnd Z y m d = .ok t ↔ ((List.range (24 * 60)).findSome? fun step =>
      resolveLocal Z y m d ((24 * 60 - 1 - step) / 60) ((24 * 60 - 1 - step) % 60) 59 true) =
        some t := by
    unfold localDayEnd
    generalize ((List.range (24 * 60)).findSome? fun step =>
      resolveLocal Z y m d ((24 * 60 - 1 - step) / 60) ((24 * 60 - 1 - step) % 60) 59 true) = found
    cases found <;> simp
  refine hwalk.trans (findSome_range.trans ?_)
  simp only [resolveLocal_eq_some_iff, resolveLocal_eq_none_iff, if_true]

lemma mem_showing {t second : ℤ} :
    t ∈ showing Z y m d second ↔ Z.clock t = 86400 * dayNumber y m d + second := Iff.rfl

theorem localDayStart_iff (hZ : Z.WholeMinuteChanges) {first : ℤ}
    (hfirst : IsLeast (Z.day (dayNumber y m d)) first) :
    localDayStart Z y m d = .ok first ↔
      ∀ t ∈ Z.day (dayNumber y m d), Z.clock first ≤ Z.clock t := by
  rw [localDayStart_eq_ok_iff]
  constructor
  · rintro ⟨n, hn, hleast, hbefore⟩ t ht
    have hclock := mem_showing.mp hleast.1
    by_contra hlt
    have hback := Zone.clock_back hZ (t := t) (Z.clock t % 60).toNat (by omega)
    have hday := Zone.mem_day.mp ht
    have hempty := hbefore ((Z.clock t - 86400 * dayNumber y m d) / 60).toNat (by omega)
    have hmem : t - (Z.clock t % 60).toNat ∈ showing Z y m d
        (60 * (((Z.clock t - 86400 * dayNumber y m d) / 60).toNat : ℕ) + (0 : ℕ)) := by
      rw [mem_showing, hback]
      omega
    rw [hempty] at hmem
    exact hmem.elim
  · intro hall
    have hwhole := Zone.first_whole hZ hfirst
    have hday := Zone.mem_day.mp hfirst.1
    refine ⟨((Z.clock first - 86400 * dayNumber y m d) / 60).toNat, by omega,
      ⟨?_, fun t ht => ?_⟩, fun k hk => ?_⟩
    · rw [mem_showing]
      omega
    · have hclock := mem_showing.mp ht
      exact hfirst.2 (mem_day_of_showing (mem_showing.mpr hclock) (by omega) (by omega))
    · refine Set.eq_empty_of_forall_notMem fun t ht => ?_
      have hclock := mem_showing.mp ht
      have hle := hall t (mem_day_of_showing ht (by omega) (by omega))
      omega

theorem localDayEnd_iff (hZ : Z.WholeMinuteChanges) {last : ℤ}
    (hlast : IsGreatest (Z.day (dayNumber y m d)) last) :
    localDayEnd Z y m d = .ok last ↔
      ∀ t ∈ Z.day (dayNumber y m d), Z.clock t ≤ Z.clock last := by
  rw [localDayEnd_eq_ok_iff]
  constructor
  · rintro ⟨n, hn, hgreatest, hbefore⟩ t ht
    have hclock := mem_showing.mp hgreatest.1
    by_contra hlt
    have hforward := Zone.clock_forward hZ (t := t) (59 - Z.clock t % 60).toNat (by omega)
    have hday := Zone.mem_day.mp ht
    have hempty := hbefore
      (24 * 60 - 1 - ((Z.clock t - 86400 * dayNumber y m d) / 60).toNat) (by omega)
    have hmem : t + (59 - Z.clock t % 60).toNat ∈ showing Z y m d (60 * (24 * 60 - 1 -
        (24 * 60 - 1 - ((Z.clock t - 86400 * dayNumber y m d) / 60).toNat) : ℕ) + (59 : ℕ)) := by
      rw [mem_showing, hforward]
      omega
    rw [hempty] at hmem
    exact hmem.elim
  · intro hall
    have hwhole := Zone.last_whole hZ hlast
    have hday := Zone.mem_day.mp hlast.1
    refine ⟨24 * 60 - 1 - ((Z.clock last - 86400 * dayNumber y m d) / 60).toNat, by omega,
      ⟨?_, fun t ht => ?_⟩, fun k hk => ?_⟩
    · rw [mem_showing]
      omega
    · have hclock := mem_showing.mp ht
      exact hlast.2 (mem_day_of_showing (mem_showing.mpr hclock) (by omega) (by omega))
    · refine Set.eq_empty_of_forall_notMem fun t ht => ?_
      have hclock := mem_showing.mp ht
      have hle := hall t (mem_day_of_showing ht (by omega) (by omega))
      omega

/-- A date is parsed strictly and its bounds are right exactly when it is not written with a plus
sign and no instant of its day shows a time outside those of its first and its last instant. -/
theorem local_day_iff (Z : Zone) (hZ : Z.WholeMinuteChanges) (text : Text) :
    (AcceptsStrict text ∧ BoundsRight Z text) ↔
      ¬ PlusSigned text ∧ ∀ y m d, StrictDay text y m d → Z.InOrder (dayNumber y m d) := by
  rw [acceptsStrict_iff]
  refine and_congr_right fun hplus => ?_
  have hstrict := (acceptsStrict_iff text).mpr hplus
  refine forall₃_congr fun y m d => ?_
  rw [hstrict y m d]
  refine forall_congr' fun hday => ?_
  have hparse := (hstrict y m d).mpr hday
  constructor
  · intro hbounds first last hfirst hlast t ht
    obtain ⟨first', last', hok, hfirst', hlast'⟩ := hbounds ⟨t, ht⟩
    obtain rfl := hfirst.unique hfirst'
    obtain rfl := hlast.unique hlast'
    rw [localDayBounds, hparse] at hok
    dsimp only at hok
    cases hstart : localDayStart Z y m d with
    | error e => simp [hstart] at hok
    | ok start =>
      cases hend : localDayEnd Z y m d with
      | error e => simp [hstart, hend] at hok
      | ok finish =>
        simp only [hstart, hend, Except.ok.injEq, Prod.mk.injEq] at hok
        obtain ⟨rfl, rfl⟩ := hok
        exact ⟨(localDayStart_iff hZ hfirst).mp hstart t ht, (localDayEnd_iff hZ hlast).mp hend t ht⟩
  · intro horder hne
    obtain ⟨first, hfirst⟩ := Zone.exists_first hne
    obtain ⟨last, hlast⟩ := Zone.exists_last hne
    have hin := horder first last hfirst hlast
    have hstart := (localDayStart_iff hZ hfirst).mpr fun t ht => (hin t ht).1
    have hend := (localDayEnd_iff hZ hlast).mpr fun t ht => (hin t ht).2
    refine ⟨first, last, ?_, hfirst, hlast⟩
    rw [localDayBounds, hparse]
    dsimp only
    rw [hstart]
    dsimp only
    rw [hend]

/-- Universal time. -/
def utcZone : Zone where
  offset _ := 0
  bounded := by simp
  resolve time := .single time
  resolves time := by simp [LocalResult.Of]

theorem local_day_utc :
    AcceptsStrict "2026-01-15".toList ∧ BoundsRight utcZone "2026-01-15".toList := by
  refine (local_day_iff utcZone (fun t h => absurd rfl h) "2026-01-15".toList).mpr ⟨?_, ?_⟩
  · rintro ⟨ys, ms, ds, -, hplus, -⟩
    exact absurd hplus (by decide)
  · intro y m d _ first last hfirst hlast t ht
    have hclock : ∀ u, utcZone.clock u = u := fun u => add_zero u
    rw [hclock, hclock, hclock]
    exact ⟨hfirst.2 ht, hlast.2 ht⟩

/-- A year of three digits behind a plus sign is accepted. -/
theorem plus_signed_year_accepted :
    parseLocalDay "+202-01-15".toList = .ok (202, 1, 15) ∧ ¬ AcceptsStrict "+202-01-15".toList := by
  have hok : parseLocalDay "+202-01-15".toList = .ok (202, 1, 15) := by decide
  refine ⟨hok, fun h => ?_⟩
  exact absurd (by decide : '+' ∈ "+202-01-15".toList) (not_mem_plus_of_strict ((h 202 1 15).mp hok))

end Bounds

end ChatStasher.Selection
