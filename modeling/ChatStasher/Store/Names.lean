import Mathlib.Data.List.Sort
import Mathlib.Data.Nat.Digits.Defs
import ChatStasher.Bytes

/-! The names of sealed shard files and of the buckets that hold them. -/
namespace ChatStasher

abbrev FileName := List Char

def shardSuffix : FileName := ['.', 'j', 's', 'o', 'n', 'l']

/-- Rust's `{n:0w}`: decimal digits, filled with zeros on the left up to width `w`. -/
def zeroPadded (w n : ℕ) : FileName :=
  List.replicate (w - (Nat.toDigits 10 n).length) '0' ++ Nat.toDigits 10 n

def shardFilename (seq : ℕ) : FileName := zeroPadded 6 seq ++ shardSuffix

def shardBucketName (seq bucketCap : ℕ) : FileName := zeroPadded 3 ((seq - 1) / max bucketCap 1)

def stripSuffix (suffix name : FileName) : Option FileName :=
  if suffix <:+ name then some (name.take (name.length - suffix.length)) else none

def parseShardSeq (name : FileName) : Option ℕ :=
  match stripSuffix shardSuffix name with
  | none => none
  | some base =>
    if base.length ≠ 6 ∨ ¬ base.all Char.isDigit then none else some (Nat.ofDigitChars 10 base 0)

@[simp] lemma stripSuffix_append (suffix base : FileName) :
    stripSuffix suffix (base ++ suffix) = some base := by
  simp [stripSuffix]

lemma zeroPadded_isDigit (w n : ℕ) : (zeroPadded w n).all Char.isDigit := by
  simp only [zeroPadded, List.all_append, List.all_replicate, Bool.and_eq_true]
  refine ⟨by split <;> rfl, List.all_eq_true.mpr fun c hc => ?_⟩
  exact Nat.isDigit_of_mem_toDigits (by decide) (by decide) hc

lemma zeroPadded_value (w n : ℕ) : Nat.ofDigitChars 10 (zeroPadded w n) 0 = n := by
  rw [zeroPadded, Nat.ofDigitChars_append, Nat.ofDigitChars_replicate_zero, Nat.mul_zero,
    Nat.ofDigitChars_ten_toDigits]

lemma zeroPadded_injective (w : ℕ) : Function.Injective (zeroPadded w) := by
  intro m n h
  rw [← zeroPadded_value w m, h, zeroPadded_value]

lemma zeroPadded_length (w n : ℕ) (hw : 0 < w) : (zeroPadded w n).length = w ↔ n < 10 ^ w := by
  rw [← Nat.length_toDigits_le_iff (by decide) hw]
  simp only [zeroPadded, List.length_append, List.length_replicate]
  omega

lemma shardFilename_injective : Function.Injective shardFilename := by
  intro m n h
  exact zeroPadded_injective 6 (List.append_cancel_right h)

lemma ofDigitChars_lt {base : FileName} (h : base.all Char.isDigit) :
    Nat.ofDigitChars 10 base 0 < 10 ^ base.length := by
  induction base with
  | nil => simp
  | cons c base ih =>
    simp only [List.all_cons, Bool.and_eq_true, Char.isDigit, decide_eq_true_eq] at h
    have hc : c.toNat - '0'.toNat ≤ 9 := Nat.sub_le_iff_le_add.mpr h.1.2
    have hb := ih h.2
    rw [Nat.ofDigitChars_cons, Nat.ofDigitChars_eq_ofDigitChars_zero, List.length_cons, pow_succ]
    nlinarith

lemma ofDigitChars_inj {l m : FileName} (hl : l.all Char.isDigit) (hm : m.all Char.isDigit)
    (hlen : l.length = m.length)
    (h : Nat.ofDigitChars 10 l 0 = Nat.ofDigitChars 10 m 0) : l = m := by
  induction l generalizing m with
  | nil => exact (List.length_eq_zero_iff.mp hlen.symm).symm
  | cons c l ih =>
    cases m with
    | nil => simp at hlen
    | cons d m =>
      simp only [List.all_cons, Bool.and_eq_true] at hl hm
      have hlen' : l.length = m.length := by simpa using hlen
      have hlt := ofDigitChars_lt hl.2
      have hmt := ofDigitChars_lt hm.2
      rw [Nat.ofDigitChars_cons, Nat.ofDigitChars_cons, Nat.ofDigitChars_eq_ofDigitChars_zero,
        Nat.ofDigitChars_eq_ofDigitChars_zero (l := m), hlen'] at h
      rw [hlen'] at hlt
      have hhead : c.toNat - '0'.toNat = d.toNat - '0'.toNat := by
        have hq := congrArg (· / 10 ^ m.length) h
        simpa [Nat.mul_add_div, Nat.div_eq_of_lt, hlt, hmt] using hq
      have htail : Nat.ofDigitChars 10 l 0 = Nat.ofDigitChars 10 m 0 := by
        rw [hhead] at h; exact Nat.add_left_cancel h
      have hcd : c = d := by
        have hc := hl.1
        have hd := hm.1
        simp only [Char.isDigit, Bool.and_eq_true, decide_eq_true_eq] at hc hd
        have h1 : '0'.toNat ≤ c.toNat := hc.1
        have h2 : '0'.toNat ≤ d.toNat := hd.1
        exact Char.toNat_inj.mp (by omega)
      rw [hcd, ih hl.2 hm.2 hlen' htail]

theorem parseShardSeq_shardFilename (seq : ℕ) :
    parseShardSeq (shardFilename seq) = if seq < 10 ^ 6 then some seq else none := by
  have hlen := zeroPadded_length 6 seq (by decide)
  simp only [parseShardSeq, shardFilename, stripSuffix_append, zeroPadded_isDigit, zeroPadded_value]
  by_cases h : seq < 10 ^ 6
  · rw [if_neg (by simp [hlen.mpr h]), if_pos h]
  · rw [if_pos (Or.inl (mt hlen.mp h)), if_neg h]

lemma parseShardSeq_of_lt {seq : ℕ} (h : seq < 10 ^ 6) :
    parseShardSeq (shardFilename seq) = some seq := by
  rw [parseShardSeq_shardFilename, if_pos h]

lemma parseShardSeq_of_le {seq : ℕ} (h : 10 ^ 6 ≤ seq) :
    parseShardSeq (shardFilename seq) = none := by
  rw [parseShardSeq_shardFilename, if_neg (by omega)]

theorem parseShardSeq_eq_some {name : FileName} {seq : ℕ} :
    parseShardSeq name = some seq ↔ name = shardFilename seq ∧ seq < 10 ^ 6 := by
  constructor
  · intro h
    simp only [parseShardSeq, stripSuffix] at h
    split at h
    · cases h
    next base hbase =>
      split at hbase
      next hsuffix =>
        obtain ⟨stem, rfl⟩ := hsuffix
        obtain rfl : stem = base := by simpa using hbase
        split at h
        · cases h
        next hdigits =>
          simp only [not_or, not_not] at hdigits
          obtain rfl := Option.some.inj h
          have hlt := ofDigitChars_lt hdigits.2
          rw [hdigits.1] at hlt
          refine ⟨?_, hlt⟩
          have hlen := (zeroPadded_length 6 _ (by decide)).mpr hlt
          rw [shardFilename, ofDigitChars_inj hdigits.2 (zeroPadded_isDigit 6 _)
            (hdigits.1.trans hlen.symm) (zeroPadded_value 6 _).symm]
          simp [zeroPadded_value]
      · cases hbase
  · rintro ⟨rfl, h⟩
    exact parseShardSeq_of_lt h

def shardNumber (name : FileName) : Option ℕ :=
  match stripSuffix shardSuffix name with
  | none => none
  | some base =>
    if name = shardFilename (Nat.ofDigitChars 10 base 0) then some (Nat.ofDigitChars 10 base 0)
    else none

theorem shardNumber_eq_some {name : FileName} {seq : ℕ} :
    shardNumber name = some seq ↔ name = shardFilename seq := by
  constructor
  · intro h
    simp only [shardNumber] at h
    split at h
    · cases h
    · split at h
      next hname => rw [← Option.some.inj h]; exact hname
      next => cases h
  · rintro rfl
    have hstrip : stripSuffix shardSuffix (shardFilename seq) = some (zeroPadded 6 seq) :=
      stripSuffix_append _ _
    simp only [shardNumber, hstrip, zeroPadded_value, if_true]

@[simp] lemma shardNumber_shardFilename (seq : ℕ) : shardNumber (shardFilename seq) = some seq :=
  shardNumber_eq_some.mpr rfl

lemma shardNumber_of_parse {name : FileName} {seq : ℕ} (h : parseShardSeq name = some seq) :
    shardNumber name = some seq :=
  shardNumber_eq_some.mpr (parseShardSeq_eq_some.mp h).1

lemma parse_of_shardNumber {name : FileName} (h : shardNumber name = none) :
    parseShardSeq name = none := by
  cases hp : parseShardSeq name with
  | none => rfl
  | some seq => rw [shardNumber_of_parse hp] at h; cases h

lemma parseShardSeq_eq_number (name : FileName) :
    parseShardSeq name = (shardNumber name).filter fun n => n < 10 ^ 6 := by
  apply Option.ext
  intro seq
  rw [parseShardSeq_eq_some, Option.filter_eq_some_iff, shardNumber_eq_some, decide_eq_true_eq]

lemma shardNumber_of_getLast {name : FileName} (h : name.getLast? ≠ some 'l') :
    shardNumber name = none := by
  cases hn : shardNumber name with
  | none => rfl
  | some seq =>
    rw [shardNumber_eq_some.mp hn] at h
    exact absurd (by simp [shardFilename, shardSuffix]) h

example : parseShardSeq (shardFilename 42) = some 42 := by decide
example : parseShardSeq (shardFilename 1000000) = none := by decide

end ChatStasher

/-! A session's shard directory: its files, its sequence counter and the shard writer. -/
namespace ChatStasher

/-- Where a file lies in a session directory: directly inside it, or inside one bucket. -/
structure ShardPath where
  bucket : Option FileName
  name : FileName
  deriving DecidableEq

structure StoredFile where
  path : ShardPath
  bytes : Bytes
  deriving DecidableEq

/-- The three outcomes of reading the shard sequence counter. -/
inductive ShardSeqState
  | missing
  | loaded (seq : ℕ)
  | unusable
  deriving DecidableEq

structure SessionDir where
  counter : ShardSeqState
  files : List StoredFile
  deriving DecidableEq

namespace SessionDir

def empty : SessionDir := ⟨.missing, []⟩

def paths (d : SessionDir) : List ShardPath := d.files.map StoredFile.path

/-- Put a file at a path, replacing what was there: what `fs::rename` onto the path does. -/
def install (d : SessionDir) (path : ShardPath) (bytes : Bytes) : SessionDir :=
  { d with files := d.files.filter (fun f => f.path ≠ path) ++ [⟨path, bytes⟩] }

end SessionDir

def shardPathInDir (seq bucketCap : ℕ) : ShardPath :=
  ⟨some (shardBucketName seq bucketCap), shardFilename seq⟩

/-- Files of both layouts whose name parses as a sealed shard, in directory order. -/
def sealedShardEntries (d : SessionDir) : List (ℕ × StoredFile) :=
  d.files.filterMap fun f => (parseShardSeq f.path.name).map (·, f)

def sortBySeq {α : Type*} (entries : List (ℕ × α)) : List (ℕ × α) :=
  entries.insertionSort fun a b => a.1 ≤ b.1

def sortedEntries (d : SessionDir) : List (ℕ × StoredFile) := sortBySeq (sealedShardEntries d)

/-- Highest shard sequence already present in one shard directory (0 when none). -/
def deriveShardHighWaterInDir (d : SessionDir) : ℕ :=
  ((sealedShardEntries d).map Prod.fst).max?.getD 0

/-- Reserve the next sequence number and persist the advanced counter. -/
def nextShardSeqInDir (d : SessionDir) : Option (ℕ × SessionDir) :=
  match d.counter with
  | .unusable => none
  | .missing =>
    let next := deriveShardHighWaterInDir d + 1
    some (next, { d with counter := .loaded next })
  | .loaded seq => some (seq + 1, { d with counter := .loaded (seq + 1) })

/-- The production code paths allowed to create stage content. -/
inductive StageWriter
  | collect
  | ingest
  | seal
  | restore
  | export
  deriving DecidableEq

/-- The source determines framing, replay, temporary-file and durability policy. -/
inductive ShardSource
  | inbox (lines : List Bytes)
  | store (raw : Bytes) (writer : StageWriter) (allowExactRepeat : Bool)
  | active (raw : Bytes)
  deriving DecidableEq

namespace ShardSource

def raw : ShardSource → Bytes
  | inbox lines => sealFramedLines lines
  | store raw _ _ => raw
  | active raw => raw

/-- A restore reproduces every archived shard and a verified delta may repeat earlier bytes. -/
def dedup : ShardSource → Bool
  | store _ writer allowExactRepeat => !(writer == .restore || allowExactRepeat)
  | _ => true

def isInbox : ShardSource → Bool
  | inbox _ => true
  | _ => false

end ShardSource

/-- An allocated sequence is returned directly; existing names use the parser's names. -/
inductive ShardWrite
  | existing (name : FileName)
  | allocated (seq : ℕ)
  deriving DecidableEq

def ShardWrite.filename : ShardWrite → FileName
  | existing name => name
  | allocated seq => shardFilename seq

variable (H : Sha256)

/-- Find an already sealed shard with the same SHA-256 in one directory. -/
def findDuplicateShardInDir (d : SessionDir) (raw : Bytes) : Option FileName :=
  ((sortedEntries d).find? fun e => H.digest e.2.bytes = H.digest raw).map
    fun e => shardFilename e.1

/-- Allocate and install one shard, every file operation succeeding. `none` is the error return;
the directory is what the call leaves behind. -/
def writeShardInDir (d : SessionDir) (bucketCap : ℕ) (source : ShardSource) :
    Option ShardWrite × SessionDir :=
  match (if source.dedup then findDuplicateShardInDir H d source.raw else none) with
  | some existing => (some (.existing existing), d)
  | none =>
    match nextShardSeqInDir d with
    | none => (none, d)
    | some (seq, d) =>
      let path := shardPathInDir seq bucketCap
      if source.isInbox = false ∧ path ∈ d.paths then (none, d)
      else (some (.allocated seq), d.install path source.raw)

end ChatStasher
