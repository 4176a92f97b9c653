import ChatStasher.Activity.TimeAnalysis
import ChatStasher.GrokBot.Reader

/-! The time of one archived line, and what the analysis makes of that line alone. -/
namespace ChatStasher.Activity
open Inbox (Text trim utf8)
open GrokBot (Value)

section Epochs

def minPlausibleSeconds : ℤ := 1577836800

def maxPlausibleSeconds : ℤ := 4102444800

/-- A raw epoch in seconds, its unit inferred from its magnitude. -/
def plausibleSeconds (v : ℤ) : Option ℤ :=
  let within (scale : ℤ) := minPlausibleSeconds * scale ≤ v ∧ v ≤ maxPlausibleSeconds * scale
  if within 1 then some v
  else if within 1000 then some (v / 1000)
  else if within 1000000 then some (v / 1000000)
  else none

/-- `str::parse::<i64>`. -/
def parseI64 : Text → Option ℤ
  | '-' :: digits => (Value.parseBelow (2 ^ 63 + 1) digits).map fun n => -(n : ℤ)
  | '+' :: digits => (Value.parseBelow (2 ^ 63) digits).map Int.ofNat
  | digits => (Value.parseBelow (2 ^ 63) digits).map Int.ofNat

def parseNumericEpoch (raw : Text) : Option ℤ := (parseI64 (trim raw)).bind plausibleSeconds

end Epochs

section Rfc3339

def isAsciiDigit (b : UInt8) : Bool := 48 ≤ b && b ≤ 57

/-- So many ASCII digits from `start` on. -/
def parseDigits (b : Bytes) (start len : ℕ) : Option ℤ :=
  let digits := (b.drop start).take len
  if start + len ≤ b.length ∧ digits.all isAsciiDigit then
    some (digits.foldl (fun v c => v * 10 + (c.toNat - 48)) 0)
  else none

def daysFromCivil (year month day : ℤ) : ℤ :=
  let y := if month ≤ 2 then year - 1 else year
  let era := (if 0 ≤ y then y else y - 399).tdiv 400
  let yoe := y - era * 400
  let mp := (month + 9) % 12
  let doy := (153 * mp + 2) / 5 + day - 1
  let doe := yoe * 365 + yoe / 4 - yoe / 100 + doy
  era * 146097 + doe - 719468

def byteOf (c : Char) : UInt8 := c.toNat.toUInt8

/-- The zone's offset in seconds at `idx`: `Z`, or `±HH:MM`. -/
def offsetSeconds (b : Bytes) (idx : ℕ) : Option ℤ := do
  let sign ← b[idx]?
  if sign = byteOf 'Z' then some 0
  else if sign = byteOf '+' ∨ sign = byteOf '-' then
    guard (idx + 6 ≤ b.length)
    let oh ← parseDigits b (idx + 1) 2
    guard (b[idx + 3]? = some (byteOf ':'))
    let om ← parseDigits b (idx + 4) 2
    guard (oh ≤ 23 ∧ om ≤ 59)
    some ((if sign = byteOf '+' then 1 else -1) * (oh * 3600 + om * 60))
  else none

/-- Whole seconds of an RFC 3339 timestamp; what follows the zone is not looked at. -/
def parseRfc3339 (s : Text) : Option ℤ := do
  let b := utf8 s
  guard (20 ≤ b.length)
  let year ← parseDigits b 0 4
  guard (b[4]? = some (byteOf '-') ∧ b[7]? = some (byteOf '-'))
  let month ← parseDigits b 5 2
  let day ← parseDigits b 8 2
  guard (b[10]? = some (byteOf 'T'))
  let hour ← parseDigits b 11 2
  guard (b[13]? = some (byteOf ':'))
  let minute ← parseDigits b 14 2
  guard (b[16]? = some (byteOf ':'))
  let second ← parseDigits b 17 2
  guard (1 ≤ month ∧ month ≤ 12 ∧ 1 ≤ day ∧ day ≤ 31 ∧ hour ≤ 23 ∧ minute ≤ 59 ∧ second ≤ 60)
  let idx := if b[19]? = some (byteOf '.') then
      20 + ((b.drop 20).takeWhile isAsciiDigit).length
    else 19
  let offset ← offsetSeconds b idx
  some (daysFromCivil year month day * 86400 + hour * 3600 + minute * 60 + second - offset)

end Rfc3339

def LineTime.span : LineTime → Option (ℤ × ℤ)
  | .time first last .. => some (first, last)
  | _ => none

def LineClass.looksForTime : LineClass → Bool
  | .conversation | .unclassified => true
  | .metadata | .undetermined => false

/-- How a line's bytes become a value, which integer a number with a fraction or an exponent stands
for, and the times of the harnesses that archive a whole session or bundle in a line. -/
structure LineFormat where
  decode : Bytes → Option Text
  parse : Text → Option Value
  parse_nil : parse [] = none
  wholeFloat : Text → Option ℤ
  otherTime : String → Value → LineTime
  otherTime_ordered : ∀ {harness value first last rfc3339 basis zone},
    otherTime harness value = .time first last rfc3339 basis zone → first ≤ last

namespace LineFormat

variable (format : LineFormat)

def numericValueSeconds (digits : Text) : Option ℤ :=
  match (Value.number digits).asI64 with
  | some v => plausibleSeconds v
  | none => (format.wholeFloat digits).bind plausibleSeconds

/-- Unix seconds, and whether they were written as RFC 3339. -/
def oneTsValue : Value → Option (ℤ × Bool)
  | .string s =>
    match parseRfc3339 s with
    | some t => some (t, true)
    | none => (parseNumericEpoch s).map fun t => (t, false)
  | .number digits => (format.numericValueSeconds digits).map fun t => (t, false)
  | _ => none

def topLevelTimestamp (value : Value) : LineTime :=
  match value.get "timestamp" with
  | none => .absent
  | some ts =>
    match format.oneTsValue ts with
    | some (t, rfc3339) => .time t t rfc3339 .localFields none
    | none => .invalid

def lineTime (harness : String) (value : Value) : LineTime :=
  if harness = "claude-code" ∨ harness = "codex" then format.topLevelTimestamp value
  else format.otherTime harness value

/-- A line's own conversation time, whatever the line is classified as. -/
def lineUnix (harness : String) (line : Text) : Option ℤ :=
  (format.parse (trim line)).bind fun value => (format.lineTime harness value).span.map Prod.fst

abbrev reader : LineReader where
  Text := Text
  Value := Value
  isBlank line := (trim line).isEmpty
  parse line := format.parse (trim line)
  recordType value := ((value.get "type").bind Value.asStr).map String.ofList
  lineTime := format.lineTime
  geminiDocument lines :=
    (format.parse (trim (['\n'].intercalate lines))).map (format.lineTime "gemini-cli")

/-- The span that the analysis of the line alone gives it. -/
def lineSpan (harness : String) (line : Text) : Option (ℤ × ℤ) :=
  (format.parse (trim line)).bind fun value =>
    if (classifyLine harness (format.reader.recordType value)).looksForTime then
      (format.lineTime harness value).span
    else none

variable {format} {harness : String} {line : Text}

lemma lineTime_ordered {value : Value} {first last : ℤ}
    (h : (format.lineTime harness value).span = some (first, last)) : first ≤ last := by
  unfold lineTime at h
  split at h
  · unfold topLevelTimestamp at h
    split at h
    · exact nomatch h
    · split at h
      · cases h
        exact le_refl _
      · exact nomatch h
  · cases htime : format.otherTime harness value with
    | time first' last' rfc3339 basis zone =>
      rw [htime] at h
      cases h
      exact format.otherTime_ordered htime
    | absent | noTimestampField | invalid =>
      rw [htime] at h
      exact nomatch h

lemma lineUnix_of_lineSpan {first last : ℤ} (h : format.lineSpan harness line = some (first, last)) :
    format.lineUnix harness line = some first ∧ first ≤ last := by
  obtain ⟨value, hparse, hspan⟩ := Option.bind_eq_some_iff.mp h
  unfold lineUnix
  rw [hparse, Option.bind_some]
  split at hspan
  · rw [hspan]
    exact ⟨rfl, lineTime_ordered hspan⟩
  · exact nomatch hspan

end LineFormat

section Analysis

def Fold.Ends (fold : Fold) (span : Option (ℤ × ℤ)) : Prop :=
  fold.first = span.map Prod.fst ∧ fold.last = span.map Prod.snd

lemma addTime_fold (tally : LineTally) (isConversation : Bool) (time : LineTime) :
    (tally.addTime isConversation time).fold = tally.fold.add time := by
  cases time <;> rfl

lemma Fold.Ends.add {fold : Fold} (h : fold.Ends none) (time : LineTime) :
    (fold.add time).Ends time.span := by
  cases time with
  | time first last rfc3339 basis zone =>
    unfold Fold.add Ends
    rw [h.1, h.2]
    exact ⟨rfl, rfl⟩
  | absent | noTimestampField | invalid => exact h

lemma addLine_ends (format : LineFormat) (harness : String) (line : Text) :
    (LineTally.empty.addLine format.reader harness line).fold.Ends
      (format.lineSpan harness line) := by
  have hempty : LineTally.empty.fold.Ends none := ⟨rfl, rfl⟩
  unfold LineTally.addLine LineFormat.lineSpan
  by_cases hblank : trim line = []
  · simpa [hblank, format.parse_nil] using hempty
  · have hkept : (trim line).isEmpty = false := by simpa using hblank
    rw [if_neg (by simp [hkept])]
    cases hparse : format.reader.parse line with
    | none =>
      have hline : format.parse (trim line) = none := hparse
      rw [hline]
      exact hempty
    | some value =>
      have hline : format.parse (trim line) = some value := hparse
      rw [hline, Option.bind_some]
      cases hclass : classifyLine harness (format.reader.recordType value) with
      | conversation =>
        simp only [hclass, addTime_fold]
        exact hempty.add _
      | unclassified =>
        simp only [hclass, addTime_fold]
        exact hempty.add _
      | metadata =>
        simp only [hclass]
        exact hempty
      | undetermined =>
        simp only [hclass]
        exact hempty

lemma analyze_line (format : LineFormat) (harness : String) (line : Text) :
    (analyzeSession format.reader harness [line]).firstUnix =
        (format.lineSpan harness line).map Prod.fst ∧
      (analyzeSession format.reader harness [line]).lastUnix =
        (format.lineSpan harness line).map Prod.snd := by
  have hends := addLine_ends format harness line
  unfold analyzeSession
  dsimp only
  rw [List.foldl_cons, List.foldl_nil]
  split
  · rename_i hgemini
    -- The document is the line itself, which has just been read without a time.
    obtain ⟨hnone, rfl⟩ := hgemini
    have hspan : format.lineSpan "gemini-cli" line = none := by
      have hfirst := hends.1
      rw [Option.isNone_iff_eq_none.mp hnone] at hfirst
      exact Option.map_eq_none_iff.mp hfirst.symm
    rw [hspan] at hends ⊢
    have hline : ['\n'].intercalate [line] = line := by simp [List.intercalate]
    unfold LineFormat.lineSpan at hspan
    rw [hline]
    cases hparse : format.parse (trim line) with
    | none => exact hends
    | some value =>
      rw [hparse, Option.bind_some] at hspan
      have htime : (format.lineTime "gemini-cli" value).span = none := hspan
      have hadd := hends.add (format.lineTime "gemini-cli" value)
      rw [htime] at hadd
      exact hadd
  · exact hends

end Analysis

end ChatStasher.Activity
