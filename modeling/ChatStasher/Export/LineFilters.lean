import ChatStasher.Activity.LineTimes
import ChatStasher.Search.Selector

/-! The two filters of an export, the person's own messages and the window, over the lines of one
archived session. -/
namespace ChatStasher.Export
open Activity (LineFormat analyzeSession analyze_line LineClass)
open GrokBot (Value)
open Inbox (Text isWhitespace trim)
open Selection (TimeWindow)
open StepRun

section Lines

/-- The harnesses in which a line alone tells whether it is the person's own message. -/
def userTurnsHarnesses : List String := ["claude-code"]

inductive Turns
  | all
  | user
  deriving DecidableEq

inductive TurnsOutcome
  | applied
  | notSupported
  | notRequested
  deriving DecidableEq

/-- The two record shapes of a human message: a turn of its own, or one typed in mid-turn. -/
inductive HumanKind
  | turn
  | midTurn
  deriving DecidableEq

structure HumanLine where
  kind : HumanKind
  text : Text
  unix : Option ℤ

/-- What marks a record without an `origin` as injected. -/
def injectedPrefixes : List String :=
  ["<system-reminder", "<task-notification", "<local-command", "<command-name",
    "<command-message", "[SYSTEM NOTIFICATION", "Caveat:",
    "This session is being continued from a previous conversation"]

/-- Each archived line with its own terminator. -/
def lineSpans : Bytes → List Bytes
  | [] => []
  | b :: bytes =>
    if b = newline then [b] :: lineSpans bytes
    else
      match lineSpans bytes with
      | [] => [[b]]
      | line :: lines => (b :: line) :: lines

lemma flatten_lineSpans (bytes : Bytes) : (lineSpans bytes).flatten = bytes := by
  induction bytes with
  | nil => rfl
  | cons b bytes ih =>
    unfold lineSpans
    split
    · rw [List.flatten_cons, ih]
      rfl
    · cases hspans : lineSpans bytes with
      | nil =>
        rw [hspans] at ih
        rw [← ih]
        rfl
      | cons line lines =>
        rw [hspans] at ih
        dsimp only
        rw [← ih]
        rfl

/-- A message's content as text; an array that holds a tool's result is no message. -/
def contentText : Value → Option Text
  | .string s => some s
  | .array blocks =>
    if blocks.any fun b => (b.get "type").bind Value.asStr = some "tool_result".toList then none
    else some (blocks.filterMap fun b => (b.get "text").bind Value.asStr).flatten
  | _ => none

def humanMessage (value : Value) : Option (HumanKind × Text × Option Value) :=
  match (value.get "type").bind Value.asStr with
  | none => none
  | some type =>
    if type = "user".toList then
      ((value.pointer ["message", "content"]).bind contentText).map fun text =>
        (.turn, text, value.get "origin")
    else if type = "attachment".toList then
      match value.get "attachment" with
      | none => none
      | some attachment =>
        if (attachment.get "type").bind Value.asStr ≠ some "queued_command".toList then none
        else ((attachment.get "prompt").bind Value.asStr).map fun text =>
          (.midTurn, text, attachment.get "origin")
    else none

variable (format : LineFormat) (harness : String)

def lineTime (line : Bytes) : Option ℤ := (format.decode line).bind (format.lineUnix harness)

/-- A line that is the person's own message. -/
def humanLine (line : Bytes) : Option HumanLine :=
  match format.decode line with
  | none => none
  | some text =>
    match format.parse (trim text) with
    | none => none
    | some value =>
      if ["isMeta", "isSidechain", "isCompactSummary"].any fun f =>
          (value.get f).bind Value.asBool = some true then none
      else
        match humanMessage value with
        | none => none
        | some (kind, message, origin) =>
          let line : HumanLine := ⟨kind, message, format.lineUnix harness text⟩
          match origin with
          | some origin =>
            if (origin.get "kind").bind Value.asStr ≠ some "human".toList then none
            else some line
          | none =>
            if injectedPrefixes.any fun p => p.toList <+: message.dropWhile isWhitespace then none
            else some line

def duplicateWindowSecs : ℤ := 15 * 60

/-- Two times, both known, of which the second is at most fifteen minutes after the first. -/
def isDuplicateCopy : Option ℤ → Option ℤ → Bool
  | some prev, some now => 0 ≤ now - prev && now - prev ≤ duplicateWindowSecs
  | _, _ => false

/-- Where a line stands to the window. -/
inductive LineTiming
  | timed (inside : Bool)
  | untimed
  deriving DecidableEq

def lineTiming (window : TimeWindow) (line : Bytes) : LineTiming :=
  match format.decode line with
  | none => .untimed
  | some text =>
    let analysis := analyzeSession format.reader harness [text]
    match analysis.firstUnix, analysis.lastUnix with
    | some first, some last => .timed (window.meets first last)
    | _, _ => .untimed

end Lines

section Filters

/-- What becomes of a line: no message of the person, a copy of the line with this number, outside
the window, or written. -/
inductive Fate
  | notHuman
  | duplicate (of : ℕ)
  | outside
  | written
  deriving DecidableEq

/-- What the duplicate rule remembers of a text. The number of the remembered line is a ghost. -/
structure Kept where
  kind : HumanKind
  unix : Option ℤ
  line : ℕ

/-- The filters between two lines. `fates` is a ghost. -/
structure Filtering where
  bytes : Bytes
  written : ℕ
  untimed : ℕ
  keptHuman : Text → Option Kept
  fates : List Fate

def Filtering.start : Filtering := ⟨[], 0, 0, fun _ => none, []⟩

/-- The filters that run over a session: whether the messages are picked, and the window of the
trim. -/
structure Filters where
  harness : String
  turns : TurnsOutcome
  trim : Option TimeWindow

/-- What the turns filter says of a line. -/
inductive Verdict
  | notHuman
  | duplicate (text : Text) (prev : Kept)
  | passes (msg : Option HumanLine)

variable (format : LineFormat) (filters : Filters)

def turnsVerdict (kept : Text → Option Kept) (line : Bytes) : Verdict :=
  if filters.turns = .applied then
    match humanLine format filters.harness line with
    | none => .notHuman
    | some msg =>
      match kept msg.text with
      | some prev =>
        if prev.kind ≠ msg.kind ∧ isDuplicateCopy prev.unix msg.unix then .duplicate msg.text prev
        else .passes (some msg)
      | none => .passes (some msg)
  else .passes none

/-- The message becomes the last kept one of its text. -/
def Filtering.keep (s : Filtering) (msg : Option HumanLine) : Text → Option Kept :=
  match msg with
  | none => s.keptHuman
  | some msg =>
    Function.update s.keptHuman msg.text (some ⟨msg.kind, msg.unix, s.fates.length⟩)

def trimFate (line : Bytes) : Fate :=
  match filters.trim with
  | none => .written
  | some window =>
    if lineTiming format filters.harness window line = .timed false then .outside else .written

def untimed (line : Bytes) : Bool :=
  filters.trim.any fun window => lineTiming format filters.harness window line = .untimed

def filterLine (s : Filtering) (line : Bytes) : Filtering :=
  match turnsVerdict format filters s.keptHuman line with
  | .notHuman => { s with fates := s.fates ++ [.notHuman] }
  | .duplicate text prev =>
    { s with
      keptHuman := Function.update s.keptHuman text none
      fates := s.fates ++ [.duplicate prev.line] }
  | .passes msg =>
    match trimFate format filters line with
    | .written => {
        bytes := s.bytes ++ line
        written := s.written + 1
        untimed := s.untimed + (untimed format filters line).toNat
        keptHuman := s.keep msg
        fates := s.fates ++ [.written] }
    | fate => { s with keptHuman := s.keep msg, fates := s.fates ++ [fate] }

end Filters

structure FilteredSession where
  bytes : Bytes
  linesTotal : ℕ
  linesWritten : ℕ
  untimedLines : ℕ
  turns : TurnsOutcome
  trimmed : Bool
  fates : List Fate

structure ExportOptions where
  turns : Turns
  trimToWindow : Bool

def ExportOptions.filters (harness : Option String) (opts : ExportOptions)
    (window : Option TimeWindow) : Filters where
  harness := harness.getD ""
  turns :=
    match opts.turns with
    | .all => .notRequested
    | .user =>
      if harness.getD "" ∈ userTurnsHarnesses then .applied else .notSupported
  trim := if opts.trimToWindow then window else none

def filterSession (format : LineFormat) (harness : Option String) (raw : Bytes)
    (opts : ExportOptions) (window : Option TimeWindow) : FilteredSession :=
  let filters := opts.filters harness window
  let spans := lineSpans raw
  if filters.turns = .notRequested ∧ filters.trim = none then
    ⟨raw, spans.length, spans.length, 0, filters.turns, false,
      List.replicate spans.length .written⟩
  else
    let s := exec (filterLine format filters) .start spans
    ⟨s.bytes, spans.length, s.written, s.untimed, filters.turns, filters.trim.isSome, s.fates⟩

end ChatStasher.Export
