import ChatStasher.Store.Names
import Mathlib.Data.List.DropRight

/-! Inbox bundles: how bytes are parsed, which session directory they go to and the record that is
sealed for them. -/
namespace ChatStasher.Inbox

abbrev Text := List Char

/-- The `White_Space` property, which `str::trim` goes by. -/
def isWhitespace (c : Char) : Bool :=
  let n := c.toNat
  (9 ≤ n && n ≤ 13) || n == 0x20 || n == 0x85 || n == 0xA0 || n == 0x1680 ||
    (0x2000 ≤ n && n ≤ 0x200A) || n == 0x2028 || n == 0x2029 || n == 0x202F || n == 0x205F ||
    n == 0x3000

def trimMatches (p : Char → Bool) (text : Text) : Text := (text.dropWhile p).rdropWhile p

def trim (text : Text) : Text := trimMatches isWhitespace text

def utf8 (text : Text) : Bytes := text.flatMap String.utf8EncodeChar

/-- Keep an id component filesystem-safe and free of colons. -/
def sanitizeComponent (raw : Text) : Text :=
  let out := raw.map fun c => if c.isAlphanum || c == '-' || c == '.' || c == '_' then c else '-'
  let trimmed := trimMatches (· == '-') out
  if trimmed.isEmpty then "unknown".toList else trimmed

def maxPathComponentBytes : ℕ := 255

def pathComponentTagHex : ℕ := 32

/-- The longest prefix of at most `limit` bytes that ends on a character boundary. -/
def truncateToByteBoundary : ℕ → Text → Text
  | _, [] => []
  | limit, c :: text =>
    let size := (String.utf8EncodeChar c).length
    if size ≤ limit then c :: truncateToByteBoundary (limit - size) text else []

/-- A text within the budget stays as it is; a longer one becomes a prefix and a tag, the tag being
so many hex digits of the whole text's digest. -/
def boundedPathComponent (hexPrefix : Text → ℕ → Text) (value : Text) (budget : ℕ) : Text :=
  if (utf8 value).length ≤ budget then value
  else
    let tag := hexPrefix value (min budget pathComponentTagHex)
    let head := truncateToByteBoundary (budget - (1 + tag.length)) value
    if head.isEmpty then tag else head ++ '~' :: tag

def sessionDirId (hexPrefix : Text → ℕ → Text) (platform sessionId : Text) : Text :=
  boundedPathComponent hexPrefix (sanitizeComponent platform ++ '.' :: sanitizeComponent sessionId)
    maxPathComponentBytes

structure RawEnvelope where
  text : Text
  bytes : ℕ
  deriving DecidableEq

/-- A slice of a harness file, kept encoded. -/
structure EncodedSlice where
  encoding : Text
  data : Text
  deriving DecidableEq

inductive BundleRaw
  | web (envelope : RawEnvelope)
  | slice (encoded : EncodedSlice)
  deriving DecidableEq

def BundleRaw.isSlice : BundleRaw → Bool
  | slice _ => true
  | web _ => false

/-- Where a slice comes from: what tells the contents of two sends apart. -/
structure SliceFile (H : Sha256) where
  role : Text
  parentNativeSessionId : Option Text
  byteStart : ℕ
  byteEnd : ℕ
  sha256 : H.Digest
  deriving DecidableEq

structure Producer where
  kind : Text
  sendKeyId : Option Text
  platform : Option Text
  deriving DecidableEq

/-- The members of an `inbox@3` bundle that are stored as captured. -/
structure CaptureMetadata (H : Sha256) where
  producer : Option Producer
  file : Option (SliceFile H)
  deriving DecidableEq

/-- A bundle as it is read from JSON. `raw` tells an absent member from a malformed one. -/
structure Bundle where
  platform : Option Text
  sessionId : Option Text
  raw : Option (Option RawEnvelope)
  hasMessages : Bool
  installId : Option Text
  browser : Option Text
  profileLabel : Option Text
  fingerprint : Option Text
  deriving DecidableEq

/-- An `inbox@3` bundle that passed the contract. -/
structure HarnessFile (H : Sha256) where
  harness : Text
  nativeSessionId : Text
  identity : Option (Text × Text)
  raw : EncodedSlice
  file : SliceFile H
  producer : Option Producer
  installId : Option Text
  browser : Option Text
  profileLabel : Option Text
  fingerprint : Option Text
  deriving DecidableEq

inductive CaptureV3 (H : Sha256)
  | webCapture (bundle : Bundle) (metadata : CaptureMetadata H)
  | harnessFile (file : HarnessFile H)
  deriving DecidableEq

/-- What the JSON reader and the contract validator make of some bytes: no bundle object at all, a
bundle of the first two schemas, or one of the third, refused or read. -/
inductive Incoming (H : Sha256)
  | unreadable
  | legacy (bundle : Bundle)
  | v3 (capture : Option (CaptureV3 H))
  deriving DecidableEq

/-- What the code takes from the JSON, base64 and hashing crates. -/
structure Reader (H : Sha256) where
  read : Bytes → Incoming H
  lossyText : Bytes → Text
  fromBase64 : Text → Option Bytes
  toBase64 : Bytes → Text
  hexPrefix : Text → ℕ → Text

structure ParseOutcome (H : Sha256) where
  v3 : Option (CaptureMetadata H)
  id : Text
  platform : Text
  sessionId : Text
  isBundle : Bool
  raw : BundleRaw
  installId : Option Text
  browser : Option Text
  profileLabel : Option Text
  fingerprint : Option Text
  deriving DecidableEq

variable {H : Sha256} (R : Reader H)

/-- The file name without the known prefix and suffixes. -/
def nativeIdFromName (name : Text) : Text :=
  let s := if "deepseek-".toList.isPrefixOf name then name.drop "deepseek-".length else name
  let s := (stripSuffix ".part".toList s).getD s
  let s := (stripSuffix ".json".toList s).getD s
  if s.isEmpty then "unknown".toList else s

def presentText (text : Option Text) : Option Text := text.filter fun s => !(trim s).isEmpty

def rawEnvelopeOf (bytes : Bytes) : BundleRaw := .web ⟨R.lossyText bytes, bytes.length⟩

/-- Bytes that are no bundle are kept whole, under an id made from the file name. -/
def rawOnly (name : Text) (bytes : Bytes) : ParseOutcome H :=
  let fallbackId := sanitizeComponent (nativeIdFromName name)
  { v3 := none
    id := sessionDirId R.hexPrefix "deepseek".toList fallbackId
    platform := "deepseek".toList
    sessionId := fallbackId
    isBundle := false
    raw := rawEnvelopeOf R bytes
    installId := none
    browser := none
    profileLabel := none
    fingerprint := none }

/-- The raw body of a bundle; an export in the old messages shape is kept whole. -/
def bundleRaw (bytes : Bytes) (bundle : Bundle) : Option BundleRaw :=
  match bundle.raw with
  | some envelope => envelope.map BundleRaw.web
  | none => if bundle.hasMessages then some (rawEnvelopeOf R bytes) else none

/-- A bundle of the first two schemas; a missing platform, session id or raw body is an error. -/
def parseLegacy (bytes : Bytes) (bundle : Bundle) : Option (ParseOutcome H) := do
  let platform ← (bundle.platform.map trim).filter fun s => !s.isEmpty
  let session ← (bundle.sessionId.map trim).filter fun s => !s.isEmpty
  let raw ← bundleRaw R bytes bundle
  return {
    v3 := none
    id := sessionDirId R.hexPrefix platform session
    platform := sanitizeComponent platform
    sessionId := sanitizeComponent session
    isBundle := true
    raw
    installId := presentText bundle.installId
    browser := presentText bundle.browser
    profileLabel := presentText bundle.profileLabel
    fingerprint := presentText bundle.fingerprint }

/-- The bytes a slice stands for; its base64 has to be the canonical one. -/
def decodeSlice (slice : EncodedSlice) : Option Bytes :=
  if slice.encoding = "utf-8".toList then some (utf8 slice.data)
  else if slice.encoding = "base64".toList then
    (R.fromBase64 slice.data).filter fun bytes => R.toBase64 bytes = slice.data
  else none

def sliceMatches (file : SliceFile H) (decoded : Bytes) : Bool :=
  file.byteStart ≤ file.byteEnd && file.byteEnd - file.byteStart == decoded.length &&
    H.digest decoded == file.sha256

def harnessId (file : HarnessFile H) : Text :=
  match file.identity with
  | some (level, account) =>
    if level = "default".toList then file.harness ++ '.' :: file.nativeSessionId
    else file.harness ++ '.' :: (account ++ '.' :: file.nativeSessionId)
  | none => file.harness ++ '.' :: file.nativeSessionId

def parseHarness (file : HarnessFile H) : Option (ParseOutcome H) := do
  let decoded ← decodeSlice R file.raw
  if sliceMatches file.file decoded then
    return {
      v3 := some ⟨file.producer, some file.file⟩
      id := harnessId file
      platform := file.harness
      sessionId := file.nativeSessionId
      isBundle := true
      raw := .slice file.raw
      installId := file.installId
      browser := file.browser
      profileLabel := file.profileLabel
      fingerprint := file.fingerprint }
  else none

/-- The outcome for a file of some name, `none` for a bundle that is refused. -/
def parseBundle (name : Text) (bytes : Bytes) : Option (ParseOutcome H) :=
  match R.read bytes with
  | .unreadable => some (rawOnly R name bytes)
  | .legacy bundle => parseLegacy R bytes bundle
  | .v3 none => none
  | .v3 (some (.webCapture bundle metadata)) =>
    (parseLegacy R bytes bundle).map fun out => { out with v3 := some metadata }
  | .v3 (some (.harnessFile file)) => parseHarness R file

/-- The validated bundle, if the bytes are one rather than a record kept raw. -/
def checkBundleParsed (bytes : Bytes) : Option (ParseOutcome H) :=
  (parseBundle R "(validation)".toList bytes).filter ParseOutcome.isBundle

lemma parseBundle_of_isBundle {name : Text} {bytes : Bytes} {out : ParseOutcome H}
    (h : parseBundle R name bytes = some out) (hbundle : out.isBundle = true) (name' : Text) :
    parseBundle R name' bytes = some out := by
  rw [parseBundle] at h ⊢
  split at h
  next hread =>
    obtain rfl := Option.some.inj h
    simp [rawOnly] at hbundle
  all_goals next hread => simpa only [hread] using h

lemma parseBundle_of_checkBundleParsed {bytes : Bytes} {out : ParseOutcome H}
    (h : checkBundleParsed R bytes = some out) (name : Text) :
    parseBundle R name bytes = some out := by
  obtain ⟨hparse, hbundle⟩ := Option.filter_eq_some_iff.mp h
  exact parseBundle_of_isBundle R hparse hbundle name

end ChatStasher.Inbox
