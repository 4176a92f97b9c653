import ChatStasher.Library.JsonText

/-! The `batchexecute` envelope: the frames of a response body, each with or without a length line,
and the entries that they hold. -/
namespace ChatStasher.BatchExecute
open JsonText

def lineFeed : UInt16 := unit '\n'

def isSeparator (c : UInt16) : Bool :=
  c = unit '\n' || c = unit '\r' || c = unit '\t' || c = unit ' '

/-- What `\s` matches and `trim` removes, the byte-order mark included. -/
def isSpace (c : UInt16) : Bool :=
  (9 ≤ c && c ≤ 13) || c = 32 || c = 0xA0 || c = 0x1680 || (0x2000 ≤ c && c ≤ 0x200A) ||
    c = 0x2028 || c = 0x2029 || c = 0x202F || c = 0x205F || c = 0x3000 || c = 0xFEFF

def trim (t : Units) : Units := ((t.dropWhile isSpace).reverse.dropWhile isSpace).reverse

def digitsValue (t : Units) : ℕ := t.foldl (fun n c => 10 * n + (c - unit '0').toNat) 0

def declaredLength (header : Units) : Option ℕ :=
  let trimmed := trim header
  if trimmed ≠ [] ∧ trimmed.all isDigit then some (digitsValue trimmed) else none

section Walk

/-- A decoded chunk, with the length that was declared for it and the length that it has. -/
structure Frame where
  value : Value
  declaredLength : Option ℕ
  actualLength : ℕ

inductive PieceKind
  | lengthLine
  | frame
  | undecoded
  deriving DecidableEq

/-- A part of the body that the walk has consumed. -/
structure Piece where
  kind : PieceKind
  start : ℕ
  stop : ℕ
  deriving DecidableEq

/-- The state of the walk, with the parts of the body that it has consumed so far. -/
structure Walk where
  pos : ℕ
  frames : List Frame
  undecodedFrameCount : ℕ
  sawEnvelopeShape : Bool
  pieces : List Piece

def Walk.start : Walk := ⟨0, [], 0, false, []⟩

variable (body : Units)

def lineAt (pos : ℕ) : Units := (body.drop pos).takeWhile (· ≠ lineFeed)

def newlineFrom (pos : ℕ) : Option ℕ :=
  if lineFeed ∈ body.drop pos then some (pos + (lineAt body pos).length) else none

/-- Where the line after a position begins. -/
def nextPos (start : ℕ) : ℕ :=
  match newlineFrom body start with
  | some lineEnd => lineEnd + 1
  | none => body.length

def skipSeparators (pos : ℕ) : ℕ := pos + ((body.drop pos).takeWhile isSeparator).length

def isArray : Value → Bool
  | .array _ => true
  | _ => false

/-- A chunk is decoded or counted. -/
def Walk.chunk (w : Walk) (value : Option Value) (declared : Option ℕ) (start stop : ℕ) : Walk :=
  match value with
  | some value =>
    { w with
      frames := w.frames ++ [⟨value, declared, stop - start⟩]
      pieces := w.pieces ++ [⟨.frame, start, stop⟩] }
  | none =>
    { w with
      undecodedFrameCount := w.undecodedFrameCount + 1
      pieces := w.pieces ++ [⟨.undecoded, start, stop⟩] }

def Walk.lengthLine (w : Walk) (start stop : ℕ) : Walk :=
  { w with
    sawEnvelopeShape := true
    pieces := w.pieces ++ [⟨.lengthLine, start, stop⟩] }

/-- The chunk after a length line that begins at `start`. -/
def Walk.declaredChunk (w : Walk) (declared start : ℕ) : Walk :=
  let lineChunk := lineAt body start
  let lineStop := start + lineChunk.length
  if declared = 0 then { w.chunk none none start lineStop with pos := nextPos body start }
  else
    let declaredEnd := start + declared
    let chunk := (body.drop start).take declared
    let declaredValue :=
      if (body.drop declaredEnd).head?.all isSeparator then JsonText.parse chunk else none
    match declaredValue with
    | some value =>
      { w.chunk (some value) (some declared) start (start + chunk.length) with pos := declaredEnd }
    | none =>
      { w.chunk (JsonText.parse lineChunk) (some declared) start lineStop with
        pos := nextPos body start }

/-- One turn of the loop of `walkFrames`. -/
def Walk.turn (w : Walk) : Walk :=
  let pos := skipSeparators body w.pos
  if body.length ≤ pos then { w with pos }
  else
    let header := lineAt body pos
    let headerStop := pos + header.length
    match declaredLength header with
    | none =>
      let value := JsonText.parse header
      { w.chunk value none pos headerStop with
        pos := headerStop + 1
        sawEnvelopeShape := w.sawEnvelopeShape || value.any isArray }
    | some declared =>
      let w := w.lengthLine pos headerStop
      -- Without a newline after the length line `indexOf` is -1 and this is the start of the body.
      let start := match newlineFrom body pos with
        | some headerEnd => headerEnd + 1
        | none => 0
      if body.length ≤ start then { w.chunk none none start start with pos := body.length }
      else w.declaredChunk body declared start

/-- The loop, for as many turns as there is fuel for; `none` where it has not come to the end. -/
def walkFrames : ℕ → Walk → Option Walk
  | 0, w => if body.length ≤ w.pos then some w else none
  | fuel + 1, w => if body.length ≤ w.pos then some w else walkFrames fuel (w.turn body)

end Walk

section Entries

inductive EntryError
  | rpcidAbsent
  | innerPayloadAbsent
  | innerPayloadNotJson

structure Entry where
  label : Option Units
  rpcid : Option Units
  payload : Option Value
  statusCode : Option Units
  error : Option EntryError
  recognized : Bool
  raw : Value

def string? : Option Value → Option Units
  | some (.string s) => some s
  | _ => none

/-- `entry[5][0]`, if it is a number and a finite one. -/
def entryStatusCode (finite : Units → Bool) (raw : List Value) : Option Units :=
  match (raw[5]? : Option Value) with
  | some (.array slot) =>
    match (slot[0]? : Option Value) with
    | some (.number digits) => if finite digits then some digits else none
    | _ => none
  | _ => none

def toEntry (finite : Units → Bool) (raw : Value) : Entry :=
  match raw with
  | .array elements =>
    let label := string? elements[0]?
    let statusCode := entryStatusCode finite elements
    if label ≠ some (units "wrb.fr") then ⟨label, none, none, statusCode, none, false, raw⟩
    else
      match string? elements[1]? with
      | none => ⟨label, none, none, statusCode, some .rpcidAbsent, true, raw⟩
      | some rpcid =>
        match string? elements[2]? with
        | none => ⟨label, some rpcid, none, statusCode, some .innerPayloadAbsent, true, raw⟩
        | some inner =>
          match JsonText.parse inner with
          | none => ⟨label, some rpcid, none, statusCode, some .innerPayloadNotJson, true, raw⟩
          | some payload => ⟨label, some rpcid, some payload, statusCode, none, true, raw⟩
  | raw => ⟨none, none, none, none, none, false, raw⟩

end Entries

section Envelope

inductive FailureReason
  | emptyResponse
  | notABatchexecuteBody
  | framesUndecodable
  deriving DecidableEq

structure Parsed where
  guardPresent : Bool
  entries : List Entry
  undecodedFrameCount : ℕ
  nonEntryArrayFrameCount : ℕ
  lengthPrefixMismatchCount : ℕ
  unknownEntryCount : ℕ

def guard : Units := units ")]\x7d'"

def stripGuard (text : Units) : Units × Bool :=
  let text := text.dropWhile isSpace
  if guard <+: text then (text.drop guard.length, true) else (text, false)

def Frame.mismatch (frame : Frame) : Bool := frame.declaredLength.any (· ≠ frame.actualLength)

def Frame.entries (finite : Units → Bool) (frame : Frame) : List Entry :=
  match frame.value with
  | .array elements => elements.map (toEntry finite)
  | _ => []

def Walk.parsed (finite : Units → Bool) (guardPresent : Bool) (w : Walk) : Parsed :=
  let entries := w.frames.flatMap (Frame.entries finite)
  { guardPresent
    entries
    undecodedFrameCount := w.undecodedFrameCount
    nonEntryArrayFrameCount := w.frames.countP fun frame => !isArray frame.value
    lengthPrefixMismatchCount := w.frames.countP Frame.mismatch
    unknownEntryCount := entries.countP fun e => !e.recognized }

def parsedOf (finite : Units → Bool) (guardPresent : Bool) (w : Walk) :
    Except FailureReason Parsed :=
  if !w.sawEnvelopeShape then .error .notABatchexecuteBody
  else if w.frames = [] then .error .framesUndecodable
  else .ok (w.parsed finite guardPresent)

/-- `parseBatchExecute`, whose walk may take as many turns as there is fuel for. -/
def parseBatchExecute (finite : Units → Bool) (fuel : ℕ) (text : Units) :
    Option (Except FailureReason Parsed) :=
  if trim text = [] then some (.error .emptyResponse)
  else
    (walkFrames (stripGuard text).1 fuel .start).map
      (parsedOf finite (stripGuard text).2)

end Envelope

end ChatStasher.BatchExecute
