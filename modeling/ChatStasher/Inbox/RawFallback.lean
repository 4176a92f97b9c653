import ChatStasher.Inbox.Seal
import ChatStasher.Library.Unicode

/-! Inbox files that are kept whole as a raw record: the three ways that lead there, and when the file
can be had back from what is sealed. -/
namespace ChatStasher.Inbox

variable {H : Sha256}

/-- What the JSON reader makes of some bytes: an `inbox@3` value, nothing that a bundle can be read
from, or a bundle, with the keys of its object and whether it claims dimensions that are not valid. -/
inductive Read (H : Sha256)
  | v3 (capture : Option (CaptureV3 H))
  | notABundle
  | bundle (bundle : Bundle) (parsed : Option (Option Bool × Option (List Text)))
      (keys : Option (List Text)) (invalidDimensions : Bool)

structure ParsedEnvelope where
  hasJson : Option Bool
  keys : Option (List Text)
  deriving DecidableEq

inductive WholeFile
  | notABundle
  | invalidDimensions
  | messagesExport
  deriving DecidableEq

/-- The outcome with its `parsed` envelope, and why its raw body is the whole file, if it is. -/
structure FullOutcome (H : Sha256) where
  outcome : ParseOutcome H
  parsed : Option ParsedEnvelope
  whole : Option WholeFile

def Reader.std (R : Reader H) : Reader H := { R with lossyText := LossyUtf8.decode }

/-- What of a reading the outcome without its `parsed` envelope depends on. -/
def Read.incoming : Read H → Incoming H
  | .v3 capture => .v3 capture
  | .notABundle => .unreadable
  | .bundle b _ _ invalidDimensions => if invalidDimensions then .unreadable else .legacy b

def Reader.reading (R : Reader H) (read : Bytes → Read H) : Reader H :=
  { R with read := fun bytes => (read bytes).incoming }

/-- The outcome for a file of some name, with all the fallbacks. -/
def parseBundleFully (R : Reader H) (read : Bytes → Read H) (name : Text) (bytes : Bytes) :
    Option (FullOutcome H) :=
  match read bytes with
  | .v3 _ => (parseBundle (R.reading read) name bytes).map fun out => ⟨out, none, none⟩
  | .notABundle =>
    -- Degrade: raw = whole file.
    some ⟨rawOnly R name bytes, some ⟨some false, some []⟩, some .notABundle⟩
  | .bundle bundle parsed keys invalidDimensions =>
    if invalidDimensions then
      some ⟨rawOnly R name bytes, some ⟨some true, keys⟩, some .invalidDimensions⟩
    else
      (parseLegacy R bytes bundle).map fun out =>
        ⟨out, parsed.map fun (hasJson, keys) => ⟨hasJson, keys⟩,
          if bundle.raw.isNone then some .messagesExport else none⟩

lemma raw_of_whole {R : Reader H} {read : Bytes → Read H} {name : Text} {bytes : Bytes}
    {out : FullOutcome H} (h : parseBundleFully R read name bytes = some out)
    (hwhole : out.whole.isSome = true) :
    out.outcome.raw = rawEnvelopeOf R bytes ∧ out.outcome.v3 = none := by
  unfold parseBundleFully at h
  split at h
  · obtain ⟨outcome, -, rfl⟩ := Option.map_eq_some_iff.mp h
    exact nomatch hwhole
  · cases h
    exact ⟨rfl, rfl⟩
  · rename_i bundle parsed keys invalidDimensions hread
    split at h
    · cases h
      exact ⟨rfl, rfl⟩
    · obtain ⟨outcome, hlegacy, rfl⟩ := Option.map_eq_some_iff.mp h
      dsimp only at hwhole ⊢
      cases hraw : bundle.raw with
      | some raw =>
        rw [hraw] at hwhole
        exact nomatch hwhole
      | none =>
        unfold parseLegacy at hlegacy
        simp only [Option.bind_eq_bind, Option.bind_eq_some_iff, Option.pure_def] at hlegacy
        obtain ⟨platform, -, session, -, body, hbody, heq⟩ := hlegacy
        unfold bundleRaw at hbody
        rw [hraw] at hbody
        dsimp only at hbody
        split at hbody
        · cases hbody
          cases heq
          exact ⟨rfl, rfl⟩
        · exact nomatch hbody

def sealedBody (R : Reader H) (machine : Text) (call : SealCall H) : Option Bytes :=
  recordBody R (shardRecord machine call none)

/-- A file that is kept whole can be had back from the sealed record exactly if it is UTF-8. -/
theorem whole_file_recovered_iff (R : Reader H) (read : Bytes → Read H) {name : Text}
    {bytes : Bytes} {out : FullOutcome H} (machine : Text) {call : SealCall H}
    (hparse : parseBundleFully R.std read name bytes = some out)
    (hwhole : out.whole.isSome = true) (hpayload : call.payload = out.outcome) :
    sealedBody R.std machine call = some bytes ↔ bytes.toByteArray.IsValidUTF8 := by
  obtain ⟨hraw, -⟩ := raw_of_whole hparse hwhole
  have hbody : sealedBody R.std machine call = some (LossyUtf8.encode (LossyUtf8.decode bytes)) := by
    unfold sealedBody recordBody shardRecord
    dsimp only
    rw [hpayload, hraw]
    rfl
  rw [hbody, Option.some.injEq, LossyUtf8.encode_decode_iff]

section Files

/-- A reader for files that are no JSON. -/
def plainReader : Reader .verbatim where
  read _ := .unreadable
  lossyText _ := []
  fromBase64 _ := none
  toBase64 _ := []
  hexPrefix _ n := List.replicate n '0'

def notesName : Text := "notes.json".toList

def wholeCall (bytes : Bytes) : SealCall .verbatim :=
  ⟨(notesName, none), bytes, none, none, rawOnly plainReader.std notesName bytes, .parsed⟩

/-- A file of one letter is had back, since it is UTF-8. -/
theorem letter_recovered :
    sealedBody plainReader.std "m".toList (wholeCall [0x78]) = some [0x78] ↔
      [(0x78 : UInt8)].toByteArray.IsValidUTF8 := by
  have hparse : parseBundleFully plainReader.std (fun _ => .notABundle) notesName [0x78] =
      some ⟨(wholeCall [0x78]).payload, some ⟨some false, some []⟩, some .notABundle⟩ := rfl
  exact whole_file_recovered_iff plainReader (fun _ => .notABundle) "m".toList hparse rfl rfl

/-- A file of one byte that begins no character is kept whole and not had back; another file is
sealed with the same body. -/
theorem broken_byte_not_recovered :
    (parseBundleFully plainReader.std (fun _ => .notABundle) notesName [0xFF]).map
        FullOutcome.outcome = some (wholeCall [0xFF]).payload ∧
      sealedBody plainReader.std "m".toList (wholeCall [0xFF]) ≠ some [0xFF] ∧
        (wholeCall [0xFF]).payload.raw = (wholeCall [0xFE]).payload.raw := by
  refine ⟨rfl, by decide +kernel, ?_⟩
  have hsame : LossyUtf8.decode [0xFF] = LossyUtf8.decode [0xFE] := by decide +kernel
  change BundleRaw.web ⟨LossyUtf8.decode [0xFF], 1⟩ = BundleRaw.web ⟨LossyUtf8.decode [0xFE], 1⟩
  rw [hsame]

end Files

end ChatStasher.Inbox
