import ChatStasher.GrokBot.Deliveries
import ChatStasher.GrokBot.SecretRule

/-! The archived body of a Grok Bot session: replica records as JSON lines, and what the reader's walk
gathers from them. -/
namespace ChatStasher.GrokBot
open Inbox (Text trim utf8)
open Deletion (textLines)
open KeyedList

def decodeUtf8 (bytes : Bytes) : Option Text :=
  (bytes.toByteArray.utf8Decode?).map Array.toList

lemma decodeUtf8_utf8 (text : Text) : decodeUtf8 (utf8 text) = some text := by
  have hencode : (utf8 text).toByteArray = text.utf8Encode := rfl
  rw [decodeUtf8, hencode, List.utf8Decode?_utf8Encode]
  rfl

lemma utf8_injective : Function.Injective utf8 := fun a b h =>
  Option.some.inj ((decodeUtf8_utf8 a).symm.trans ((congrArg decodeUtf8 h).trans (decodeUtf8_utf8 b)))

@[simp] lemma utf8_append (a b : Text) : utf8 (a ++ b) = utf8 a ++ utf8 b := List.flatMap_append

lemma utf8_frame (lines : List Text) :
    utf8 (Framing.frame '\n' lines) = sealFramedLines (lines.map utf8) := by
  induction lines with
  | nil => rfl
  | cons line lines ih =>
    have hnewline : utf8 ['\n'] = [newline] := by decide
    rw [Framing.frame_cons, List.map_cons, sealFramedLines, Framing.frame_cons, utf8_append,
      ← List.singleton_append, utf8_append, ih, hnewline]
    rfl

lemma textLines_frame {lines : List Text} (hnewline : ∀ line ∈ lines, '\n' ∉ line)
    (hreturn : ∀ line ∈ lines, line.getLast? ≠ some '\r') :
    textLines (Framing.frame '\n' lines) = lines := by
  have hkept : lines.map (fun line => if line.getLast? = some '\r' then line.dropLast else line) =
      lines := by
    refine (List.map_congr_left fun line hline => ?_).trans (List.map_id lines)
    exact if_neg (hreturn line hline)
  rw [textLines, Framing.splitOn_frame '\n' hnewline]
  simp [hkept]

section Format
variable (R : ReplicaReader)

/-- A value that the JSON parser reads back from the line it is written to. -/
structure Rereads (value : Value) : Prop where
  parsed : R.parse value.compact = some value
  oneLine : '\n' ∉ value.compact
  noReturn : value.compact.getLast? ≠ some '\r'
  notBlank : trim value.compact ≠ []

/-- `ReplicaRecord::from_value`: the unsigned seq of a record with a string kind. -/
def recordSequence (value : Value) : Option ℕ :=
  match (value.get "seq").bind Value.asU64 with
  | none => none
  | some sequence =>
    if ((value.get "kind").bind Value.asStr).isNone then none else some sequence

def optionalU64 : Option ℕ → Value
  | none => .null
  | some n => .ofU64 n

/-- The `_chat_stasher` measurement line, its keys in the order of a map. -/
def metadataValue (agentName : Option Text) (gaps : List ℕ) (first last : Option ℕ) : Value :=
  .object [("_chat_stasher".toList, .object [
    ("agent_name".toList, (agentName.map Value.string).getD .null),
    ("agent_name_state".toList,
      .string (if agentName.isSome then "known".toList else "unknown".toList)),
    ("observed_sequence_max".toList, optionalU64 last),
    ("observed_sequence_min".toList, optionalU64 first),
    ("partial_replica".toList, .bool true),
    ("sequence_gaps".toList, .array (gaps.map Value.ofU64)),
    ("source".toList, .string "grok-bot".toList)])]

def jsonFormat : ReplicaFormat where
  Raw := { value : Value // Rereads R value }
  decEq a b := decidable_of_iff (a.1.compact = b.1.compact) ⟨fun h => Subtype.ext
    (Option.some.inj (a.2.parsed.symm.trans ((congrArg R.parse h).trans b.2.parsed))),
    fun h => by rw [h]⟩
  sequence raw := recordSequence raw.1
  encode raw := utf8 raw.1.compact
  encode_injective a b h := Subtype.ext (Option.some.inj (a.2.parsed.symm.trans
    ((congrArg R.parse (utf8_injective h)).trans b.2.parsed)))
  encodeUnion rows := utf8 (Value.compact (.array (rows.map fun row =>
    .object [("sequence".toList, .ofU64 row.1), ("raw".toList, row.2.1)])))
  encodeMetadata agentName gaps first last := utf8 (metadataValue agentName gaps first last).compact

variable {R}

def ReplicaRecord.value (record : ReplicaRecord (jsonFormat R)) : Value := record.raw.1

lemma ReplicaRecord.rereads (record : ReplicaRecord (jsonFormat R)) : Rereads R record.value :=
  record.raw.2

lemma ReplicaRecord.value_injective :
    Function.Injective (ReplicaRecord.value : ReplicaRecord (jsonFormat R) → Value) := fun _ _ h =>
  ReplicaRecord.eq_of_raw (Subtype.ext h)

lemma ReplicaRecord.seq_of_value (record : ReplicaRecord (jsonFormat R)) :
    (record.value.get "seq").bind Value.asU64 = some record.sequence ∧
      ((record.value.get "kind").bind Value.asStr).isNone = false := by
  have hsequence : recordSequence record.value = some record.sequence := record.sequence_eq
  rw [recordSequence] at hsequence
  split at hsequence
  next => cases hsequence
  next sequence hseq =>
    split at hsequence
    next => cases hsequence
    next hkind =>
      rw [Bool.not_eq_true] at hkind
      rw [hseq, hsequence]
      exact ⟨rfl, hkind⟩

lemma ReplicaRecord.sequence_lt (record : ReplicaRecord (jsonFormat R)) :
    record.sequence < 2 ^ 64 := by
  have hseq := record.seq_of_value.1
  cases hget : record.value.get "seq" with
  | none => rw [hget] at hseq; cases hseq
  | some member =>
    rw [hget, Option.bind_some] at hseq
    exact Value.asU64_lt hseq

def namesMeasurement (value : Value) : Bool := (value.get "_chat_stasher").isSome

/-- The records of a body, gathered by position in the order of its lines. -/
def gathered (log : List (ReplicaRecord (jsonFormat R))) : List (ℕ × List Value) :=
  (log.filter fun r => !namesMeasurement r.value).foldl (fun records r =>
    upsert records r.sequence fun variants => variants.getD [] ++ [r.value]) []

lemma walkLine_compact (walk : Walk) {value : Value} (h : Rereads R value) :
    walkLine R walk value.compact = walk.take value := by
  rw [walkLine, if_neg (by simpa using h.notBlank), h.parsed]

lemma take_record (walk : Walk) (r : ReplicaRecord (jsonFormat R)) : walk.take r.value =
    if namesMeasurement r.value then { walk with measurement := some r.value }
    else
      { walk with
        records := upsert walk.records r.sequence fun variants =>
          variants.getD [] ++ [r.value] } := by
  obtain ⟨hseq, hkind⟩ := r.seq_of_value
  rw [Walk.take, hseq, hkind]
  rfl

lemma walk_log (log : List (ReplicaRecord (jsonFormat R))) (walk : Walk) :
    ∃ measurement, (log.map fun r => r.value.compact).foldl (walkLine R) walk =
      { records := (log.filter fun r => !namesMeasurement r.value).foldl (fun records r =>
          upsert records r.sequence fun variants => variants.getD [] ++ [r.value]) walk.records
        measurement := measurement
        unrecognized := walk.unrecognized } := by
  induction log generalizing walk with
  | nil => exact ⟨walk.measurement, rfl⟩
  | cons r log ih =>
    rw [List.map_cons, List.foldl_cons, walkLine_compact walk r.rereads]
    obtain ⟨measurement, hwalk⟩ := ih (walk.take r.value)
    refine ⟨measurement, hwalk.trans ?_⟩
    rw [take_record]
    by_cases hname : namesMeasurement r.value = true
    · rw [List.filter_cons_of_neg (by simpa using hname), if_pos hname]
    · rw [List.filter_cons_of_pos (by simpa using hname), if_neg hname, List.foldl_cons]

lemma take_metadata (walk : Walk) (agentName : Option Text) (gaps : List ℕ)
    (first last : Option ℕ) : walk.take (metadataValue agentName gaps first last) =
      { walk with measurement := some (metadataValue agentName gaps first last) } := rfl

lemma walk_shard (log : List (ReplicaRecord (jsonFormat R))) {walk : Walk}
    (hwalk : walk.records = gathered log) (rows : List (ReplicaRecord (jsonFormat R)))
    {agentName : Option Text} {gaps : List ℕ} {first last : Option ℕ}
    (hmeta : Rereads R (metadataValue agentName gaps first last)) :
    ((rows.map fun r => r.value.compact) ++ [(metadataValue agentName gaps first last).compact]).foldl
        (walkLine R) walk =
      { records := gathered (log ++ rows)
        measurement := some (metadataValue agentName gaps first last)
        unrecognized := walk.unrecognized } := by
  obtain ⟨measurement, hrows⟩ := walk_log rows walk
  rw [List.foldl_append, hrows, List.foldl_cons, List.foldl_nil, walkLine_compact _ hmeta,
    take_metadata, hwalk, gathered, gathered, List.filter_append, List.foldl_append]

end Format

section Body
variable {R : ReplicaReader} {H : Sha256} {Dest : Type}

/-- The shards of a session, concatenated in the order of their numbers. -/
def sessionBody (s : Site (jsonFormat R) H Dest) : Bytes := sealFramedLines s.shards.flatten

/-- What the reader shows of a session: its records and its conversation. -/
def shownOf (s : Site (jsonFormat R) H Dest) : Option (List Value) :=
  (decodeUtf8 (sessionBody s)).map fun body => shownRecords (walkBody R body)

def readSession (s : Site (jsonFormat R) H Dest) : Option Conversation :=
  (decodeUtf8 (sessionBody s)).map (normalizeBody R)

def ShardLine (line : Text) : Prop := '\n' ∉ line ∧ line.getLast? ≠ some '\r'

lemma Rereads.shardLine {value : Value} (h : Rereads R value) : ShardLine value.compact :=
  ⟨h.oneLine, h.noReturn⟩

lemma sessionBody_lines {s : Site (jsonFormat R) H Dest} {lines : List Text}
    (hshards : s.shards.flatten = lines.map utf8) (hlines : ∀ line ∈ lines, ShardLine line) :
    ∃ body, decodeUtf8 (sessionBody s) = some body ∧
      walkBody R body = lines.foldl (walkLine R) Walk.start := by
  refine ⟨Framing.frame '\n' lines, ?_, ?_⟩
  · rw [sessionBody, hshards, ← utf8_frame, decodeUtf8_utf8]
  · rw [walkBody, textLines_frame (fun line h => (hlines line h).1) fun line h => (hlines line h).2]

end Body

end ChatStasher.GrokBot
