import ChatStasher.Library.Framing

/-! Bytes, their digests and the newline framing every sealed shard uses. -/
namespace ChatStasher

abbrev Bytes := List UInt8

def newline : UInt8 := 10

/-- SHA-256 as the code uses it: equal digests are taken to mean equal bytes. -/
structure Sha256 where
  Digest : Type
  decEq : DecidableEq Digest
  digest : Bytes → Digest
  digest_injective : Function.Injective digest

instance Sha256.decidableEq (H : Sha256) : DecidableEq H.Digest := H.decEq

instance Sha256.lawfulBEq (H : Sha256) : LawfulBEq H.Digest := inferInstance

instance instLawfulBEqChars : LawfulBEq (List Char) := inferInstance

@[simp] lemma Sha256.digest_inj (H : Sha256) {a b : Bytes} : H.digest a = H.digest b ↔ a = b :=
  H.digest_injective.eq_iff

/-- The digest that keeps the bytes themselves, for evaluating concrete runs. -/
def Sha256.verbatim : Sha256 := ⟨Bytes, inferInstance, id, Function.injective_id⟩

/-- Frame lines the way every sealed shard frames them: each followed by exactly one newline. -/
def sealFramedLines (lines : List Bytes) : Bytes := Framing.frame newline lines

def completeLines (bytes : Bytes) : List Bytes × ℕ := Framing.completeRecords newline bytes

end ChatStasher
