import ChatStasher.Activity.Incremental

/-! The times of a session, folded from its lines, and the index rules whose rows carry them. -/
namespace ChatStasher.Activity

inductive TimeSource
  | exact
  | inferred (how : String)
  | messages (exact : Bool)
  | listUpdated
  | noConversationContent
  | partialRange (how why : String)
  | unknown (why : String)
  deriving DecidableEq

/-- The row says that its bounds are unknown, or only part of the span. -/
def TimeSource.declaresGap : TimeSource → Bool
  | .partialRange .. | .unknown _ => true
  | _ => false

structure TimeAnalysis where
  firstUnix : Option ℤ
  lastUnix : Option ℤ
  lineCount : ℕ
  timeSource : TimeSource
  sourceZone : Option (List Char)
  deriving DecidableEq

def TimeAnalysis.Agrees (a b : TimeAnalysis) : Prop :=
  a.firstUnix = b.firstUnix ∧ a.lastUnix = b.lastUnix ∧ a.lineCount = b.lineCount

inductive LineClass
  | conversation
  | metadata
  | undetermined
  | unclassified

inductive Basis
  | localFields
  | messages
  | list

inductive LineTime
  | time (first last : ℤ) (rfc3339 : Bool) (basis : Basis) (zone : Option (List Char))
  | absent
  | noTimestampField
  | invalid

def supportedHarnesses : List String :=
  ["claude-code", "codex", "opencode", "cursor", "gemini-cli", "google-antigravity", "grok",
    "kimi-code", "chatgpt", "deepseek", "claude", "gemini", "perplexity", "kimi"]

def classifiedHarnesses : List String := ["claude-code", "kimi-code"]

def kimiCodeConversationOps : List String :=
  ["context.append_message", "context.append_loop_event", "turn.prompt", "turn.steer"]

def kimiCodeBookkeepingOps : List String :=
  ["metadata", "config.update", "profile.bind", "tools.set_active_tools", "tools.update_store",
    "mcp.tools_discovered", "usage.record", "llm.request", "context.update_token_count",
    "turn.started", "turn.ended", "turn.step.started", "turn.step.completed",
    "turn.step.retrying", "goal.create", "goal.update", "goal.clear", "plan_mode.enter",
    "plan_mode.cancel", "plan_mode.exit", "plan.revision", "permission.set_mode",
    "permission.record_approval_result", "context.undo", "context.clear",
    "context.apply_compaction", "full_compaction.begin", "full_compaction.cancel",
    "full_compaction.complete", "task.started", "task.terminated", "skill.activate"]

def epochHow : String := "in-line timestamps are numeric epochs: unit inferred from magnitude " ++
  "(values in the 2020–2100 seconds range treated as seconds; millis-range values divided by " ++
  "1000, micros-range values divided by 1_000_000, to get seconds)"

def rfc3339How : String := "the records that carry a time do so as explicit RFC 3339 strings, " ++
  "which are unambiguous"

/-- Classify one parsed line by its `type`. -/
def classifyLine (harness : String) (recordType : Option String) : LineClass :=
  if harness = "claude-code" then
    match recordType with
    | some type => if type = "user" ∨ type = "assistant" then .conversation else .metadata
    | none => .undetermined
  else if harness = "kimi-code" then
    match recordType with
    | some op =>
      if op ∈ kimiCodeConversationOps then .conversation
      else if op ∈ kimiCodeBookkeepingOps then .metadata
      else .undetermined
    | none => .undetermined
  else .unclassified

/-- The accumulators that line times fold into. -/
structure Fold where
  first : Option ℤ
  last : Option ℤ
  anyRfc3339 : Bool
  anyMessages : Bool
  anyList : Bool
  sourceZone : Option (List Char)

def Fold.add (fold : Fold) : LineTime → Fold
  | .time first last rfc3339 basis zone => {
      first := some (fold.first.elim first fun old => min old first)
      last := some (fold.last.elim last fun old => max old last)
      anyRfc3339 := fold.anyRfc3339 || rfc3339
      anyMessages := fold.anyMessages || (basis matches .messages)
      anyList := fold.anyList || (basis matches .list)
      sourceZone := fold.sourceZone <|> zone }
  | _ => fold

structure LineReader where
  Text : Type
  Value : Type
  isBlank : Text → Bool
  parse : Text → Option Value
  recordType : Value → Option String
  lineTime : String → Value → LineTime
  geminiDocument : List Text → Option LineTime

structure LineTally where
  lineCount : ℕ
  fold : Fold
  unparseableJson : ℕ
  invalidTimestamp : ℕ
  sawTimestampField : Bool
  conversationLines : ℕ
  undeterminedLines : ℕ
  conversationWithoutTime : ℕ
  conversationInvalidTime : ℕ

def LineTally.empty : LineTally := ⟨0, ⟨none, none, false, false, false, none⟩, 0, 0, false, 0, 0, 0, 0⟩

def LineTally.addTime (tally : LineTally) (isConversation : Bool) (time : LineTime) : LineTally :=
  match time with
  | .time .. => { tally with fold := tally.fold.add time }
  | .absent => { tally with
      conversationWithoutTime := tally.conversationWithoutTime + isConversation.toNat }
  | .noTimestampField => { tally with sawTimestampField := false }
  | .invalid => { tally with
      sawTimestampField := true
      invalidTimestamp := tally.invalidTimestamp + 1
      conversationInvalidTime := tally.conversationInvalidTime + isConversation.toNat }

def LineTally.addLine (reader : LineReader) (harness : String) (tally : LineTally)
    (line : reader.Text) : LineTally :=
  if reader.isBlank line then tally
  else
    let tally := { tally with lineCount := tally.lineCount + 1 }
    match reader.parse line with
    | none => { tally with
        unparseableJson := tally.unparseableJson + 1
        undeterminedLines := tally.undeterminedLines +
          (decide (harness ∈ classifiedHarnesses)).toNat }
    | some value =>
      match classifyLine harness (reader.recordType value) with
      | .conversation => { tally with
          conversationLines := tally.conversationLines + 1 }.addTime true
            (reader.lineTime harness value)
      | .metadata => tally
      | .undetermined => { tally with undeterminedLines := tally.undeterminedLines + 1 }
      | .unclassified => tally.addTime false (reader.lineTime harness value)

/-- Why the recorded span is only part of the conversation, for the harnesses that are classified. -/
def partialRangeWhy (harness : String) (tally : LineTally) : Option String :=
  if harness ∉ classifiedHarnesses then none
  else
    let reasons :=
      (if 0 < tally.undeterminedLines then
        [toString tally.undeterminedLines ++ " record(s) of a type this module does not recognise"]
      else []) ++
      (if 0 < tally.conversationWithoutTime then
        [toString tally.conversationWithoutTime ++
          " conversation record(s) that carry no timestamp field"]
      else []) ++
      (if 0 < tally.conversationInvalidTime then
        [toString tally.conversationInvalidTime ++
          " conversation record(s) whose timestamp could not be read"]
      else [])
    if reasons.isEmpty then none
    else some ("the recorded span is only part of this session's conversation — " ++
      "; ".intercalate reasons ++ " may carry activity outside it")

def noConversationContent (harness : String) (tally : LineTally) : Bool :=
  decide (harness ∈ supportedHarnesses) && (tally.lineCount == 0 ||
    (decide (harness ∈ classifiedHarnesses) && tally.conversationLines == 0 &&
      tally.undeterminedLines == 0))

def unknownWhy (harness : String) (tally : LineTally) : String :=
  if harness ∉ supportedHarnesses then
    "conversation-time parsing is not implemented for this harness (" ++ harness ++
      ") (supported: " ++ ", ".intercalate supportedHarnesses ++ ")"
  else
    let reasons :=
      (if 0 < tally.unparseableJson then
        [toString tally.unparseableJson ++ " line(s) could not be parsed as JSON"]
      else []) ++
      (if 0 < tally.invalidTimestamp then ["a timestamp field exists but the value is " ++
        "unparseable or outside the plausible 2020–2100 range"]
      else []) ++
      (if tally.sawTimestampField then [] else ["no timestamp field found within the line"])
    "cannot determine conversation time: " ++
      "; ".intercalate (if reasons.isEmpty then ["no usable timestamp at all"] else reasons)

/-- Analyse a session's lines and pull out the earliest and latest conversation time. -/
def analyzeSession (reader : LineReader) (harness : String) (lines : List reader.Text) :
    TimeAnalysis :=
  let read := lines.foldl (LineTally.addLine reader harness) .empty
  -- gemini-cli stores a session as one pretty-printed document.
  let fold :=
    if read.fold.first.isNone ∧ harness = "gemini-cli" then
      (reader.geminiDocument lines).elim read.fold read.fold.add
    else read.fold
  let timeSource :=
    if fold.first.isSome then
      match partialRangeWhy harness read with
      | some why => .partialRange (if fold.anyRfc3339 then rfc3339How else epochHow) why
      | none =>
        if fold.anyMessages then .messages fold.anyRfc3339
        else if fold.anyList then .listUpdated
        else if fold.anyRfc3339 then .exact
        else .inferred epochHow
    else if noConversationContent harness read then .noConversationContent
    else .unknown (unknownWhy harness read)
  ⟨fold.first, fold.last, read.lineCount, timeSource, fold.sourceZone⟩

section Rules
variable {H : Sha256}

/-- How a session's rows are built and written, the times by `analyzeSession`; a written row reads back
with its times. -/
structure SessionReader (H : Sha256) where
  lines : LineReader
  Rest : Type
  Provenance : Type
  Observation : Type
  Line : Type
  inferHarness : Ident → Option Ident
  harnessIsOpencode : Ident → Bool
  projectSessionBody : Ident → List Bytes → Option Bytes
  textLines : Bytes → List lines.Text
  restOf : Ident → Ident → Ident → List lines.Text → Rest
  mergeDimensions : Rest → List lines.Text → Rest
  mergeVerifiedObservations : Rest → Ident → List Observation → List (ℕ × Bytes) → Rest
  observationJson : Observation → Bytes
  toJsonl : ActivityRow H Provenance (TimeAnalysis × Rest) → Line
  parseRow : Line → Option (ActivityRow H Provenance (TimeAnalysis × Rest))
  parse_toJsonl : ∀ row, ∃ back, parseRow (toJsonl row) = some back ∧
    back.sessionId = row.sessionId ∧ back.measuredBody = row.measuredBody ∧
      back.content.1 = row.content.1 ∧
        ∀ provenance, toJsonl { back with sessionProvenance := provenance } =
          toJsonl { row with sessionProvenance := provenance }

abbrev SessionReader.rules (reader : SessionReader H) : RowRules H where
  Content := TimeAnalysis × reader.Rest
  Provenance := reader.Provenance
  Observation := reader.Observation
  Text := reader.lines.Text
  Line := reader.Line
  inferHarness := reader.inferHarness
  harnessIsOpencode := reader.harnessIsOpencode
  projectSessionBody := reader.projectSessionBody
  textLines := reader.textLines
  buildRow sessionId machine harness lines :=
    (analyzeSession reader.lines (String.ofList harness) lines,
      reader.restOf sessionId machine harness lines)
  mergeDimensions content lines := (content.1, reader.mergeDimensions content.2 lines)
  mergeVerifiedObservations content sessionId observations shards :=
    (content.1, reader.mergeVerifiedObservations content.2 sessionId observations shards)
  unknownTime content why := ({ content.1 with timeSource := .unknown why }, content.2)
  observationJson := reader.observationJson
  toJsonl := reader.toJsonl
  parseRow := reader.parseRow
  parse_toJsonl row := by
    obtain ⟨back, hback, hid, hmeasured, -, hwritten⟩ := reader.parse_toJsonl row
    exact ⟨back, hback, hid, hmeasured, hwritten⟩

variable (reader : SessionReader H)

def SessionReader.bodyTimes (sessionId : Ident) (shards : List (ℕ × Bytes)) : TimeAnalysis :=
  analyzeSession reader.lines (String.ofList (harnessForSession reader.rules sessionId))
    (shards.flatMap fun shard => reader.textLines shard.2)

variable {reader} {machine sessionId : Ident}

lemma derivedContent_times {shards : List (ℕ × Bytes)} {observations : List reader.Observation}
    {content : reader.rules.Content} (h : shards.Pairwise fun a b => a.1 < b.1)
    (hharness : reader.harnessIsOpencode sessionId = false)
    (hcontent : derivedContent reader.rules machine .collapse sessionId shards observations =
      some content) : content.1 = reader.bodyTimes sessionId shards := by
  have hselected : ((shards.map Prod.snd).zipIdx.filter fun e => e.2 ∉ ([] : List ℕ)).map Prod.fst =
      shards.map Prod.snd := by
    rw [List.filter_eq_self.mpr (by simp), List.zipIdx_map_fst]
  rw [derivedContent_policy h .collapse .keepAll] at hcontent
  simp only [derivedContent, DuplicateShardPolicy.collapses, Bool.false_eq_true, if_false, hselected,
    hharness, Option.map_some, Option.some.injEq] at hcontent
  rw [← hcontent, SessionReader.bodyTimes]
  split <;> simp only [List.flatMap_map]

lemma times_eq_of_written {row back : reader.rules.Row}
    (h : ∀ provenance, reader.toJsonl { back with sessionProvenance := provenance } =
      reader.toJsonl { row with sessionProvenance := provenance }) :
    back.content.1 = row.content.1 := by
  obtain ⟨read, hread, -, -, htimes, -⟩ :=
    reader.parse_toJsonl { back with sessionProvenance := none }
  obtain ⟨read', hread', -, -, htimes', -⟩ :=
    reader.parse_toJsonl { row with sessionProvenance := none }
  rw [h none, hread', Option.some.injEq] at hread
  rw [← htimes, ← hread, htimes']

end Rules

end ChatStasher.Activity
