import Mathlib.Data.UInt
import Mathlib.Order.Nat

/-! Text as UTF-16 code units. -/
namespace Utf16

/-- A character's code units: one, or a surrogate pair. -/
def encodeChar (c : Char) : List UInt16 :=
  if c.toNat < 0x10000 then [c.toNat.toUInt16]
  else
    [(0xD800 + (c.toNat - 0x10000) / 0x400).toUInt16,
      (0xDC00 + (c.toNat - 0x10000) % 0x400).toUInt16]

def encode (text : List Char) : List UInt16 := text.flatMap encodeChar

section Units

variable {a b : ℕ} {c d : Char} {s t : List UInt16}

lemma toUInt16_inj (ha : a < 0x10000) (hb : b < 0x10000) (h : a.toUInt16 = b.toUInt16) : a = b := by
  have hnat := congrArg UInt16.toNat h
  simp only [Nat.toUInt16, UInt16.toNat_ofNat', Nat.reducePow] at hnat
  omega

lemma toNat_valid (c : Char) : c.toNat < 0xD800 ∨ 0xDFFF < c.toNat ∧ c.toNat < 0x110000 := c.valid

lemma encodeChar_append_inj (h : encodeChar c ++ s = encodeChar d ++ t) : c = d ∧ s = t := by
  have hc := toNat_valid c
  have hd := toNat_valid d
  unfold encodeChar at h
  split at h
  · next hcs =>
    split at h
    · next hds =>
      obtain ⟨hunit, hrest⟩ := List.cons.inj h
      exact ⟨Char.toNat_inj.mp (toUInt16_inj hcs hds hunit), hrest⟩
    · -- A unit alone is no high surrogate.
      have hunit := toUInt16_inj hcs (by omega) (List.cons.inj h).1
      omega
  · split at h
    · next hds =>
      have hunit := toUInt16_inj (by omega) hds (List.cons.inj h).1
      omega
    · obtain ⟨hhigh, hrest⟩ := List.cons.inj h
      obtain ⟨hlow, hrest⟩ := List.cons.inj hrest
      have hhigh := toUInt16_inj (by omega) (by omega) hhigh
      have hlow := toUInt16_inj (by omega) (by omega) hlow
      exact ⟨Char.toNat_inj.mp (by omega), hrest⟩

lemma encodeChar_ne_nil (c : Char) : encodeChar c ≠ [] := by
  unfold encodeChar
  split
  · exact nofun
  · exact nofun

lemma encode_injective : Function.Injective encode := by
  intro a b h
  induction a generalizing b with
  | nil =>
    cases b with
    | nil => rfl
    | cons c b => exact absurd (List.append_eq_nil_iff.mp h.symm).1 (encodeChar_ne_nil c)
  | cons c a ih =>
    cases b with
    | nil => exact absurd (List.append_eq_nil_iff.mp h).1 (encodeChar_ne_nil c)
    | cons d b =>
      obtain ⟨rfl, hrest⟩ := encodeChar_append_inj h
      rw [ih hrest]

@[simp] lemma encode_eq_nil {text : List Char} : encode text = [] ↔ text = [] :=
  encode_injective.eq_iff' rfl

end Units

end Utf16

/-! Bytes decoded as UTF-8 with each ill-formed part replaced, and when nothing is replaced. -/
namespace LossyUtf8

def encode (text : List Char) : List UInt8 := text.flatMap String.utf8EncodeChar

def firstChar (bytes : List UInt8) : Option Char := bytes.toByteArray.utf8DecodeChar? 0

def isContinuation (b : UInt8) : Bool := 0x80 ≤ b && b ≤ 0xBF

/-- The second bytes that a longer character can have after its first. -/
def secondOfThree (b₀ b₁ : UInt8) : Bool :=
  if b₀ = 0xE0 then 0xA0 ≤ b₁ && b₁ ≤ 0xBF
  else if b₀ = 0xED then 0x80 ≤ b₁ && b₁ ≤ 0x9F
  else 0xE1 ≤ b₀ && b₀ ≤ 0xEF && isContinuation b₁

def secondOfFour (b₀ b₁ : UInt8) : Bool :=
  if b₀ = 0xF0 then 0x90 ≤ b₁ && b₁ ≤ 0xBF
  else if b₀ = 0xF4 then 0x80 ≤ b₁ && b₁ ≤ 0x8F
  else 0xF1 ≤ b₀ && b₀ ≤ 0xF3 && isContinuation b₁

/-- The length of the ill-formed part that the bytes begin with: as much of a character as stands
there, and at least one byte. -/
def invalidLength : List UInt8 → ℕ
  | b₀ :: b₁ :: rest =>
    if secondOfThree b₀ b₁ then 2
    else if secondOfFour b₀ b₁ then
      if rest.head?.any isContinuation then 3 else 2
    else 1
  | _ => 1

def replacement : Char := '\uFFFD'

def decodeFrom : ℕ → List UInt8 → List Char
  | 0, _ => []
  | _ + 1, [] => []
  | fuel + 1, b :: bytes =>
    match firstChar (b :: bytes) with
    | some c => c :: decodeFrom fuel ((b :: bytes).drop c.utf8Size)
    | none => replacement :: decodeFrom fuel ((b :: bytes).drop (invalidLength (b :: bytes)))

def decode (bytes : List UInt8) : List Char := decodeFrom bytes.length bytes

lemma firstChar_encodeChar_append (c : Char) (bytes : List UInt8) :
    firstChar (String.utf8EncodeChar c ++ bytes) = some c := by
  unfold firstChar
  rw [List.toByteArray_append]
  exact ByteArray.utf8DecodeChar?_utf8EncodeChar_append

lemma decodeFrom_encode (text : List Char) {fuel : ℕ} (h : (encode text).length ≤ fuel) :
    decodeFrom fuel (encode text) = text := by
  induction text generalizing fuel with
  | nil => cases fuel <;> rfl
  | cons c text ih =>
    have hcons : encode (c :: text) = String.utf8EncodeChar c ++ encode text := rfl
    have hsize : (String.utf8EncodeChar c).length = c.utf8Size := String.length_utf8EncodeChar c
    have hpos := c.utf8Size_pos
    rw [hcons, List.length_append, hsize] at h
    obtain ⟨fuel, rfl⟩ : ∃ n, fuel = n + 1 := ⟨fuel - 1, by omega⟩
    rw [hcons]
    cases hbytes : String.utf8EncodeChar c ++ encode text with
    | nil =>
      have hlength := congrArg List.length hbytes
      rw [List.length_append, hsize, List.length_nil] at hlength
      omega
    | cons b bytes =>
      unfold decodeFrom
      rw [← hbytes, firstChar_encodeChar_append]
      dsimp only
      rw [List.drop_append_of_le_length hsize.ge, List.drop_of_length_le hsize.le, List.nil_append,
        ih (by omega)]

@[simp] lemma decode_encode (text : List Char) : decode (encode text) = text :=
  decodeFrom_encode text le_rfl

theorem encode_decode_iff {bytes : List UInt8} :
    encode (decode bytes) = bytes ↔ bytes.toByteArray.IsValidUTF8 := by
  constructor
  · intro h
    rw [← h]
    exact ⟨decode bytes, rfl⟩
  · rintro ⟨text, htext⟩
    have hbytes : bytes = encode text := List.toByteArray_inj.mp htext
    rw [hbytes, decode_encode]

example : decode [0x61, 0xE2, 0x82, 0x62, 0xFF] =
    ['a', replacement, 'b', replacement] := by decide +kernel

end LossyUtf8
