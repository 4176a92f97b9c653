import ChatStasher.Bytes
import Mathlib.Data.List.Forall2

/-! The bytes of a pack: the blobs' ciphertexts, the encrypted header that lists them, and the
header's length. -/
namespace ChatStasher.Pack

section Words

def toLeBytes (n : UInt32) : Bytes :=
  [UInt8.ofNat n.toNat, UInt8.ofNat (n.toNat / 2 ^ 8), UInt8.ofNat (n.toNat / 2 ^ 16),
    UInt8.ofNat (n.toNat / 2 ^ 24)]

/-- `u32::from_le_bytes` on the first four bytes, with the bytes behind them. -/
def readU32 : Bytes → Option (UInt32 × Bytes)
  | b₀ :: b₁ :: b₂ :: b₃ :: rest =>
    some (UInt32.ofNat (b₀.toNat + 2 ^ 8 * b₁.toNat + 2 ^ 16 * b₂.toNat + 2 ^ 24 * b₃.toNat), rest)
  | _ => none

def tryU32 (n : ℕ) : Option UInt32 := if n < 2 ^ 32 then some (UInt32.ofNat n) else none

@[simp] lemma length_toLeBytes (n : UInt32) : (toLeBytes n).length = 4 := rfl

lemma toNat_readU32 {b₀ b₁ b₂ b₃ : UInt8} :
    (UInt32.ofNat (b₀.toNat + 2 ^ 8 * b₁.toNat + 2 ^ 16 * b₂.toNat + 2 ^ 24 * b₃.toNat)).toNat =
      b₀.toNat + 2 ^ 8 * b₁.toNat + 2 ^ 16 * b₂.toNat + 2 ^ 24 * b₃.toNat := by
  have h₀ := b₀.toNat_lt
  have h₁ := b₁.toNat_lt
  have h₂ := b₂.toNat_lt
  have h₃ := b₃.toNat_lt
  rw [UInt32.toNat_ofNat']
  omega

lemma readU32_toLeBytes (n : UInt32) (rest : Bytes) :
    readU32 (toLeBytes n ++ rest) = some (n, rest) := by
  have hlt := n.toNat_lt
  simp only [toLeBytes, List.cons_append, List.nil_append, readU32, Option.some.injEq,
    Prod.mk.injEq, and_true]
  apply UInt32.toNat_inj.mp
  rw [toNat_readU32]
  simp only [UInt8.toNat_ofNat']
  omega

lemma readU32_eq_some_iff {bytes rest : Bytes} {n : UInt32} :
    readU32 bytes = some (n, rest) ↔ bytes = toLeBytes n ++ rest := by
  constructor
  · intro h
    match bytes, h with
    | b₀ :: b₁ :: b₂ :: b₃ :: tail, h =>
      simp only [readU32, Option.some.injEq, Prod.mk.injEq] at h
      obtain ⟨rfl, rfl⟩ := h
      have h₀ := b₀.toNat_lt
      have h₁ := b₁.toNat_lt
      have h₂ := b₂.toNat_lt
      have h₃ := b₃.toNat_lt
      simp only [toLeBytes, toNat_readU32, List.cons_append, List.nil_append, List.cons.injEq,
        and_true]
      refine ⟨?_, ?_, ?_, ?_⟩ <;> apply UInt8.toNat_inj.mp <;> rw [UInt8.toNat_ofNat'] <;> omega
  · rintro rfl
    exact readU32_toLeBytes n rest

lemma toLeBytes_injective : Function.Injective toLeBytes := by
  intro n m h
  have hread := readU32_toLeBytes n []
  rw [h, readU32_toLeBytes] at hread
  exact (Prod.mk.inj (Option.some.inj hread)).1.symm

lemma exists_toLeBytes {bytes : Bytes} (h : bytes.length = 4) : ∃ n, bytes = toLeBytes n := by
  match bytes, h with
  | [b₀, b₁, b₂, b₃], _ =>
    have hread : ∃ n, readU32 [b₀, b₁, b₂, b₃] = some (n, []) := ⟨_, rfl⟩
    obtain ⟨n, hn⟩ := hread
    exact ⟨n, by simpa using readU32_eq_some_iff.mp hn⟩

lemma tryU32_eq_some_iff {n : ℕ} {m : UInt32} : tryU32 n = some m ↔ n = m.toNat := by
  rw [tryU32]
  constructor
  · intro h
    split at h
    next hlt =>
      rw [← Option.some.inj h, UInt32.toNat_ofNat']
      omega
    next => cases h
  · rintro rfl
    rw [if_pos m.toNat_lt, UInt32.ofNat_toNat]

end Words

section Names

/-- The hash id of an object. -/
structure Id where
  bytes : Bytes
  length_eq : bytes.length = 32
  deriving DecidableEq

def hexDigit (n : ℕ) : Char := "0123456789abcdef".toList.getD n '0'

def hexDigest (bytes : Bytes) : List Char :=
  bytes.flatMap fun byte => [hexDigit (byte.toNat / 16), hexDigit (byte.toNat % 16)]

/-- The digit a character stands for, in either case. -/
def hexValue (c : Char) : Option ℕ :=
  if '0' ≤ c ∧ c ≤ '9' then some (c.toNat - '0'.toNat)
  else if 'a' ≤ c ∧ c ≤ 'f' then some (c.toNat - 'a'.toNat + 10)
  else if 'A' ≤ c ∧ c ≤ 'F' then some (c.toNat - 'A'.toNat + 10)
  else none

def decodeHex : List Char → Option Bytes
  | [] => some []
  | [_] => none
  | hi :: lo :: rest => do
    let hi ← hexValue hi
    let lo ← hexValue lo
    let bytes ← decodeHex rest
    some (UInt8.ofNat (16 * hi + lo) :: bytes)

/-- `Id::from_str`. -/
def parseId (hex : List Char) : Option Id :=
  match decodeHex hex with
  | none => none
  | some bytes => if h : bytes.length = 32 then some ⟨bytes, h⟩ else none

lemma hexValue_hexDigit : ∀ n < 16, hexValue (hexDigit n) = some n := by decide

lemma decodeHex_hexDigest (bytes : Bytes) : decodeHex (hexDigest bytes) = some bytes := by
  induction bytes with
  | nil => rfl
  | cons byte bytes ih =>
    have hlt := byte.toNat_lt
    have hhi := hexValue_hexDigit (byte.toNat / 16) (by omega)
    have hlo := hexValue_hexDigit (byte.toNat % 16) (by omega)
    have hbyte : UInt8.ofNat (16 * (byte.toNat / 16) + byte.toNat % 16) = byte := by
      rw [Nat.div_add_mod, UInt8.ofNat_toNat]
    have hcons : hexDigest (byte :: bytes) =
      hexDigit (byte.toNat / 16) :: hexDigit (byte.toNat % 16) :: hexDigest bytes := rfl
    rw [hcons, decodeHex, hhi, hlo, ih]
    exact congrArg (fun b => some (b :: bytes)) hbyte

lemma parseId_hexDigest (id : Id) : parseId (hexDigest id.bytes) = some id := by
  rw [parseId, decodeHex_hexDigest]
  exact dif_pos id.length_eq

end Names

section Entries

inductive BlobType
  | data
  | tree
  deriving DecidableEq

abbrev NonZeroU32 := { n : UInt32 // n ≠ 0 }

def newNonZero (n : UInt32) : Option NonZeroU32 := if h : n = 0 then none else some ⟨n, h⟩

inductive HeaderEntry
  | data (len : UInt32) (id : Id)
  | tree (len : UInt32) (id : Id)
  | compData (len lenData : UInt32) (id : Id)
  | compTree (len lenData : UInt32) (id : Id)
  deriving DecidableEq

structure BlobLocation where
  offset : UInt32
  length : UInt32
  uncompressedLength : Option NonZeroU32
  deriving DecidableEq

structure IndexBlob where
  id : Id
  tpe : BlobType
  location : BlobLocation
  deriving DecidableEq

structure IndexPack where
  id : Id
  blobs : List IndexBlob
  size : Option UInt32
  deriving DecidableEq

namespace HeaderEntry

def fromBlob (blob : IndexBlob) : HeaderEntry :=
  match blob.location.uncompressedLength, blob.tpe with
  | none, .data => .data blob.location.length blob.id
  | none, .tree => .tree blob.location.length blob.id
  | some lenData, .data => .compData blob.location.length lenData.1 blob.id
  | some lenData, .tree => .compTree blob.location.length lenData.1 blob.id

def len : HeaderEntry → UInt32
  | .data len _ | .tree len _ | .compData len _ _ | .compTree len _ _ => len

def id : HeaderEntry → Id
  | .data _ id | .tree _ id | .compData _ _ id | .compTree _ _ id => id

def tpe : HeaderEntry → BlobType
  | .data .. | .compData .. => .data
  | .tree .. | .compTree .. => .tree

/-- A compressed entry that gives no length is one that was stored uncompressed. -/
def uncompressed : HeaderEntry → Option NonZeroU32
  | .data .. | .tree .. => none
  | .compData _ lenData _ | .compTree _ lenData _ => newNonZero lenData

/-- `HeaderEntry::ENTRY_LEN` and `HeaderEntry::ENTRY_LEN_COMPRESSED`. -/
def length : HeaderEntry → ℕ
  | .data .. | .tree .. => 37
  | .compData .. | .compTree .. => 41

/-- The binary representation: a mark, the lengths and the id. -/
def write : HeaderEntry → Bytes
  | .data len id => 0 :: toLeBytes len ++ id.bytes
  | .tree len id => 1 :: toLeBytes len ++ id.bytes
  | .compData len lenData id => 2 :: toLeBytes len ++ toLeBytes lenData ++ id.bytes
  | .compTree len lenData id => 3 :: toLeBytes len ++ toLeBytes lenData ++ id.bytes

def readId (bytes : Bytes) : Option (Id × Bytes) :=
  if h : 32 ≤ bytes.length then
    some (⟨bytes.take 32, by rw [List.length_take, min_eq_left h]⟩, bytes.drop 32)
  else none

def readPlain (make : UInt32 → Id → HeaderEntry) (bytes : Bytes) : Option (HeaderEntry × Bytes) := do
  let (len, rest) ← readU32 bytes
  let (id, rest) ← readId rest
  some (make len id, rest)

def readCompressed (make : UInt32 → UInt32 → Id → HeaderEntry) (bytes : Bytes) :
    Option (HeaderEntry × Bytes) := do
  let (len, rest) ← readU32 bytes
  let (lenData, rest) ← readU32 rest
  let (id, rest) ← readId rest
  some (make len lenData id, rest)

/-- `HeaderEntry::read`, with the bytes behind the entry. -/
def read : Bytes → Option (HeaderEntry × Bytes)
  | [] => none
  | mark :: rest =>
    if mark = 0 then readPlain .data rest
    else if mark = 1 then readPlain .tree rest
    else if mark = 2 then readCompressed .compData rest
    else if mark = 3 then readCompressed .compTree rest
    else none

lemma readId_eq_some_iff {bytes rest : Bytes} {id : Id} :
    readId bytes = some (id, rest) ↔ bytes = id.bytes ++ rest := by
  rw [readId]
  constructor
  · intro h
    split at h
    next hle =>
      obtain ⟨rfl, rfl⟩ := Prod.mk.inj (Option.some.inj h)
      exact (List.take_append_drop 32 bytes).symm
    next => cases h
  · rintro rfl
    obtain ⟨bytes, hlength⟩ := id
    rw [dif_pos (by simp [hlength])]
    simp only [Option.some.injEq, Prod.mk.injEq, Id.mk.injEq]
    exact ⟨by rw [← hlength, List.take_left], by rw [← hlength, List.drop_left]⟩

@[simp] lemma length_write (entry : HeaderEntry) : entry.write.length = entry.length := by
  cases entry <;> simp [write, length, Id.length_eq]

lemma write_ne_nil (entry : HeaderEntry) : entry.write ≠ [] := by
  cases entry <;> simp [write]

lemma readPlain_eq_some_iff {make : UInt32 → Id → HeaderEntry} {bytes rest : Bytes}
    {entry : HeaderEntry} : readPlain make bytes = some (entry, rest) ↔
      ∃ len id, make len id = entry ∧ bytes = toLeBytes len ++ id.bytes ++ rest := by
  simp only [readPlain, Option.bind_eq_bind, Option.bind_eq_some_iff, Prod.exists,
    readU32_eq_some_iff, readId_eq_some_iff, Option.some.injEq, Prod.mk.injEq]
  constructor
  · rintro ⟨len, _, rfl, id, _, rfl, rfl, rfl⟩
    exact ⟨len, id, rfl, by rw [List.append_assoc]⟩
  · rintro ⟨len, id, rfl, rfl⟩
    exact ⟨len, _, by rw [List.append_assoc], id, rest, rfl, rfl, rfl⟩

lemma readCompressed_eq_some_iff {make : UInt32 → UInt32 → Id → HeaderEntry} {bytes rest : Bytes}
    {entry : HeaderEntry} : readCompressed make bytes = some (entry, rest) ↔
      ∃ len lenData id, make len lenData id = entry ∧
        bytes = toLeBytes len ++ toLeBytes lenData ++ id.bytes ++ rest := by
  simp only [readCompressed, Option.bind_eq_bind, Option.bind_eq_some_iff, Prod.exists,
    readU32_eq_some_iff, readId_eq_some_iff, Option.some.injEq, Prod.mk.injEq]
  constructor
  · rintro ⟨len, _, rfl, lenData, _, rfl, id, _, rfl, rfl, rfl⟩
    exact ⟨len, lenData, id, rfl, by simp only [List.append_assoc]⟩
  · rintro ⟨len, lenData, id, rfl, rfl⟩
    exact ⟨len, _, by simp only [List.append_assoc], lenData, _, rfl, id, rest, rfl, rfl, rfl⟩

theorem read_eq_some_iff {bytes rest : Bytes} {entry : HeaderEntry} :
    read bytes = some (entry, rest) ↔ bytes = entry.write ++ rest := by
  constructor
  · intro h
    match bytes, h with
    | mark :: tail, h =>
      rw [read] at h
      split_ifs at h with hdata htree hcompData hcompTree
      · obtain ⟨len, id, rfl, rfl⟩ := readPlain_eq_some_iff.mp h
        simp [hdata, write]
      · obtain ⟨len, id, rfl, rfl⟩ := readPlain_eq_some_iff.mp h
        simp [htree, write]
      · obtain ⟨len, lenData, id, rfl, rfl⟩ := readCompressed_eq_some_iff.mp h
        simp [hcompData, write]
      · obtain ⟨len, lenData, id, rfl, rfl⟩ := readCompressed_eq_some_iff.mp h
        simp [hcompTree, write]
  · rintro rfl
    cases entry with
    | data len id => exact readPlain_eq_some_iff.mpr ⟨len, id, rfl, rfl⟩
    | tree len id => exact readPlain_eq_some_iff.mpr ⟨len, id, rfl, rfl⟩
    | compData len lenData id => exact readCompressed_eq_some_iff.mpr ⟨len, lenData, id, rfl, rfl⟩
    | compTree len lenData id => exact readCompressed_eq_some_iff.mpr ⟨len, lenData, id, rfl, rfl⟩

end HeaderEntry

/-- One blob as the pack's header describes it. -/
structure Blob where
  id : Id
  tpe : BlobType
  offset : ℕ
  length : ℕ
  uncompressed : Option NonZeroU32
  deriving DecidableEq

/-- The entries behind an offset, each with the entry's own size; `none` is bytes that are no entry
or offsets that overflow. Every entry takes bytes away, so as many rounds as bytes are enough. -/
def parseEntries : ℕ → Bytes → ℕ → Option (List Blob × ℕ)
  | _, [], _ => some ([], 0)
  | 0, _ :: _, _ => none
  | rounds + 1, byte :: bytes, offset => do
    let (entry, rest) ← HeaderEntry.read (byte :: bytes)
    let next := offset + entry.len.toNat
    if 2 ^ 64 ≤ next then none
    else
      let (blobs, entries) ← parseEntries rounds rest next
      some (⟨entry.id, entry.tpe, offset, entry.len.toNat, entry.uncompressed⟩ :: blobs,
        entry.length + entries)

/-- Turn the decrypted header into the blobs it declares, in the order they lie in the pack, and the
bytes the entries take. -/
def parseHeader (plaintext : Bytes) : Option (List Blob × ℕ) :=
  parseEntries plaintext.length plaintext 0

def writeEntries (entries : List HeaderEntry) : Bytes := entries.flatMap HeaderEntry.write

/-- The blobs that entries describe, counted from an offset. -/
def blobsAt : ℕ → List HeaderEntry → List Blob
  | _, [] => []
  | offset, entry :: entries =>
    ⟨entry.id, entry.tpe, offset, entry.len.toNat, entry.uncompressed⟩ ::
      blobsAt (offset + entry.len.toNat) entries

def blobBytes (entries : List HeaderEntry) : ℕ := (entries.map fun entry => entry.len.toNat).sum

@[simp] lemma blobBytes_cons (entry : HeaderEntry) (entries : List HeaderEntry) :
    blobBytes (entry :: entries) = entry.len.toNat + blobBytes entries := rfl

lemma writeEntries_cons (entry : HeaderEntry) (entries : List HeaderEntry) :
    writeEntries (entry :: entries) = entry.write ++ writeEntries entries := List.flatMap_cons

lemma writeEntries_eq_nil_iff {entries : List HeaderEntry} : writeEntries entries = [] ↔ entries = [] := by
  cases entries with
  | nil => simp [writeEntries]
  | cons entry entries => simp [writeEntries_cons, HeaderEntry.write_ne_nil]

lemma writeEntries_injective : Function.Injective writeEntries := by
  intro entries entries' h
  induction entries generalizing entries' with
  | nil => exact (writeEntries_eq_nil_iff.mp h.symm).symm
  | cons entry entries ih =>
    cases entries' with
    | nil => cases writeEntries_eq_nil_iff.mp h
    | cons entry' entries' =>
      rw [writeEntries_cons, writeEntries_cons] at h
      have hread := HeaderEntry.read_eq_some_iff.mpr h
      rw [HeaderEntry.read_eq_some_iff.mpr rfl] at hread
      obtain ⟨rfl, hrest⟩ := Prod.mk.inj (Option.some.inj hread)
      rw [ih hrest]

lemma parseEntries_nil (rounds offset : ℕ) : parseEntries rounds [] offset = some ([], 0) := by
  cases rounds <;> rfl

theorem parseEntries_eq_some_iff {rounds offset : ℕ} {bytes : Bytes} {blobs : List Blob} {n : ℕ}
    (hrounds : bytes.length ≤ rounds) (hoffset : offset < 2 ^ 64) :
    parseEntries rounds bytes offset = some (blobs, n) ↔
      ∃ entries, bytes = writeEntries entries ∧ blobs = blobsAt offset entries ∧
        n = bytes.length ∧ offset + blobBytes entries < 2 ^ 64 := by
  induction rounds generalizing bytes offset blobs n with
  | zero =>
    obtain rfl := List.length_eq_zero_iff.mp (Nat.le_zero.mp hrounds)
    rw [parseEntries_nil]
    simp only [Option.some.injEq, Prod.mk.injEq, @eq_comm _ [] (writeEntries _),
      writeEntries_eq_nil_iff, exists_eq_left, blobsAt, List.length_nil]
    exact ⟨fun h => ⟨h.1.symm, h.2.symm, hoffset⟩, fun h => ⟨h.1.symm, h.2.1.symm⟩⟩
  | succ rounds ih =>
    cases bytes with
    | nil =>
      rw [parseEntries_nil]
      simp only [Option.some.injEq, Prod.mk.injEq, @eq_comm _ [] (writeEntries _),
        writeEntries_eq_nil_iff, exists_eq_left, blobsAt, List.length_nil]
      exact ⟨fun h => ⟨h.1.symm, h.2.symm, hoffset⟩, fun h => ⟨h.1.symm, h.2.1.symm⟩⟩
    | cons byte bytes =>
      rw [parseEntries, Option.bind_eq_bind, Option.bind_eq_some_iff]
      constructor
      · rintro ⟨⟨entry, rest⟩, hentry, h⟩
        rw [HeaderEntry.read_eq_some_iff] at hentry
        dsimp only at h
        split at h
        next => cases h
        next hnext =>
          obtain ⟨⟨blobs', n'⟩, hrest, h⟩ := Option.bind_eq_some_iff.mp h
          cases h
          have hshorter : rest.length ≤ rounds := by
            have hlength := congrArg List.length hentry
            have hpos := List.length_pos_iff.mpr entry.write_ne_nil
            rw [List.length_append] at hlength
            omega
          obtain ⟨entries, rfl, rfl, rfl, hbytes⟩ := (ih hshorter (by omega)).mp hrest
          refine ⟨entry :: entries, hentry.trans (writeEntries_cons _ _).symm, rfl, ?_, ?_⟩
          · rw [hentry, List.length_append, HeaderEntry.length_write]
          · rw [blobBytes_cons]
            omega
      · rintro ⟨entries, hbytes, rfl, rfl, hsum⟩
        cases entries with
        | nil => cases hbytes
        | cons entry entries =>
          rw [writeEntries_cons] at hbytes
          rw [blobBytes_cons] at hsum
          refine ⟨(entry, writeEntries entries), HeaderEntry.read_eq_some_iff.mpr hbytes, ?_⟩
          have hshorter : (writeEntries entries).length ≤ rounds := by
            have hlength := congrArg List.length hbytes
            have hpos := List.length_pos_iff.mpr entry.write_ne_nil
            rw [List.length_append] at hlength
            omega
          have hrest := (ih hshorter (by omega)).mpr ⟨entries, rfl, rfl, rfl,
            (by omega : offset + entry.len.toNat + blobBytes entries < 2 ^ 64)⟩
          dsimp only
          rw [if_neg (by omega), hrest, hbytes, List.length_append, HeaderEntry.length_write]
          rfl

lemma parseHeader_eq_some_iff {plaintext : Bytes} {blobs : List Blob} {n : ℕ} :
    parseHeader plaintext = some (blobs, n) ↔
      ∃ entries, plaintext = writeEntries entries ∧ blobs = blobsAt 0 entries ∧
        n = plaintext.length ∧ blobBytes entries < 2 ^ 64 := by
  rw [parseHeader, parseEntries_eq_some_iff le_rfl (by decide)]
  simp only [Nat.zero_add]

end Entries

end ChatStasher.Pack
