import Mathlib.Data.Finset.Sort
import Mathlib.Tactic.IntervalCases
import ChatStasher.GrokBot.SessionBody
import ChatStasher.Library.Lists
import ChatStasher.Library.Sorting
import ChatStasher.Library.TextCodec

/-! Sidecar files of one JSON row a line. -/
namespace ChatStasher
open Deletion (textLines)
open GrokBot (decodeUtf8)
open Inbox (Text utf8)

section Encoding

lemma utf8_of_decodeUtf8 {bytes : Bytes} {text : Text} (h : decodeUtf8 bytes = some text) :
    utf8 text = bytes := by
  obtain ⟨chars, hchars, rfl⟩ := Option.map_eq_some_iff.mp h
  have hsome : (bytes.toByteArray.utf8Decode?).isSome := by rw [hchars]; rfl
  have hencode := @ByteArray.utf8Encode_get_utf8Decode? bytes.toByteArray hsome
  simp only [hchars, Option.get_some] at hencode
  have : (utf8 chars.toList).toByteArray = bytes.toByteArray := hencode
  simpa using congrArg (fun b : ByteArray => b.data.toList) this

lemma utf8_cons (c : Char) (text : Text) :
    utf8 (c :: text) = String.utf8EncodeChar c ++ utf8 text := rfl

lemma isPrefix_of_utf8 {s t : Text} (h : utf8 s <+: utf8 t) : s <+: t := by
  induction s generalizing t with
  | nil => exact List.nil_prefix
  | cons c s ih =>
    cases t with
    | nil =>
      have hlen := h.length_le
      simp [utf8, String.length_utf8EncodeChar] at hlen
      have := c.utf8Size_pos
      omega
    | cons d t =>
      rw [utf8_cons, utf8_cons] at h
      obtain ⟨rest, hrest⟩ := h
      have hc : ∀ (e : Char) (l : Bytes),
          ByteArray.utf8DecodeChar? (String.utf8EncodeChar e ++ l).toByteArray 0 = some e := by
        intro e l
        rw [List.toByteArray_append]
        exact ByteArray.utf8DecodeChar?_utf8EncodeChar_append
      have heq : c = d := by
        have h1 := hc c (utf8 s ++ rest)
        rw [← List.append_assoc, hrest, hc d] at h1
        exact (Option.some.inj h1).symm
      subst heq
      rw [List.append_assoc] at hrest
      exact List.cons_prefix_cons.mpr ⟨rfl, ih ⟨rest, List.append_cancel_left hrest⟩⟩

lemma newline_notMem_utf8 {text : Text} (h : '\n' ∉ text) : newline ∉ utf8 text := by
  intro hmem
  obtain ⟨c, hc, hbyte⟩ := List.mem_flatMap.mp hmem
  have hbyte' : ∀ n, newline = UInt8.ofNat n → n % 256 = 10 := fun n hn =>
    (congrArg UInt8.toNat hn).symm
  have hten : c.toNat = 10 := by
    unfold String.utf8EncodeChar at hbyte
    have hval : c.val.toNat = c.toNat := rfl
    dsimp only at hbyte
    rw [hval] at hbyte
    split at hbyte
    next hsmall =>
      have := hbyte' _ (List.mem_singleton.mp hbyte)
      omega
    next =>
      exfalso
      split at hbyte
      next =>
        simp only [List.mem_cons, List.not_mem_nil, or_false] at hbyte
        rcases hbyte with hb | hb <;> have := hbyte' _ hb <;> omega
      next =>
        split at hbyte
        next =>
          simp only [List.mem_cons, List.not_mem_nil, or_false] at hbyte
          rcases hbyte with hb | hb | hb <;> have := hbyte' _ hb <;> omega
        next =>
          simp only [List.mem_cons, List.not_mem_nil, or_false] at hbyte
          rcases hbyte with hb | hb | hb | hb <;> have := hbyte' _ hb <;> omega
  exact h ((by rw [← Char.ofNat_toNat c, hten] : c = '\n') ▸ hc)

end Encoding

/-- How rows are written to single lines and read back. A row that is cut short is no row, and a
row ends with its closing brace. -/
structure RowFormat (R : Type) where
  write : R → Text
  read : Text → Option R
  read_write : ∀ row, read (write row) = some row
  read_torn : ∀ row n, n < (write row).length → read ((write row).take n) = none
  oneLine : ∀ row, '\n' ∉ write row
  ends : ∀ row, (write row).getLast? = some '\x7d'

namespace RowFormat
variable {R : Type} (F : RowFormat R)

def render (rows : List R) : Text := Framing.frame '\n' (rows.map F.write)

def parse (content : Text) : Option (List R) := (textLines content).mapM F.read

lemma textLines_render (rows : List R) : textLines (F.render rows) = rows.map F.write := by
  refine GrokBot.textLines_frame (fun line hline => ?_) fun line hline => ?_
  · obtain ⟨row, -, rfl⟩ := List.mem_map.mp hline
    exact F.oneLine row
  · obtain ⟨row, -, rfl⟩ := List.mem_map.mp hline
    rw [F.ends row]
    decide

theorem parse_render (rows : List R) : F.parse (F.render rows) = some rows := by
  rw [parse, F.textLines_render, Traverse.mapM_eq_some_iff, List.forall₂_map_left_iff, List.forall₂_same]
  exact fun row _ => F.read_write row

end RowFormat

section Strings
open GrokBot.Value (escapeChar quoted)
open TextCodec

def hexValue (c : Char) : ℕ := if c.isDigit then c.toNat - '0'.toNat else c.toNat - 'a'.toNat + 10

/-- The characters of a string literal up to its closing quote. -/
def readString : Text → Option (Text × Text)
  | '"' :: rest => some ([], rest)
  | '\\' :: 'u' :: '0' :: '0' :: high :: low :: rest =>
    (readString rest).map fun x =>
      (Char.ofNat (16 * hexValue high + hexValue low) :: x.1, x.2)
  | '\\' :: 'b' :: rest => (readString rest).map fun x => ('\x08' :: x.1, x.2)
  | '\\' :: 't' :: rest => (readString rest).map fun x => ('\t' :: x.1, x.2)
  | '\\' :: 'n' :: rest => (readString rest).map fun x => ('\n' :: x.1, x.2)
  | '\\' :: 'f' :: rest => (readString rest).map fun x => ('\x0c' :: x.1, x.2)
  | '\\' :: 'r' :: rest => (readString rest).map fun x => ('\r' :: x.1, x.2)
  | '\\' :: c :: rest => (readString rest).map fun x => (c :: x.1, x.2)
  | c :: rest => (readString rest).map fun x => (c :: x.1, x.2)
  | [] => none

lemma readString_escapeChar (c : Char) (rest : Text) :
    readString (escapeChar c ++ rest) = (readString rest).map fun x => (c :: x.1, x.2) := by
  have hcontrol : ∀ n < 0x20, readString (escapeChar (Char.ofNat n) ++ rest) =
      (readString rest).map fun x => (Char.ofNat n :: x.1, x.2) := by
    intro n hn
    interval_cases n <;> rfl
  by_cases hlow : c.toNat < 0x20
  · rw [← Char.ofNat_toNat c]
    exact hcontrol c.toNat hlow
  by_cases hquote : c = '"'
  · subst hquote
    rfl
  by_cases hslash : c = '\\'
  · subst hslash
    rfl
  have hself : escapeChar c = [c] := by
    have hne : ∀ d : Char, c ≠ d → c.toNat ≠ d.toNat := fun d hd h =>
      hd (by rw [← Char.ofNat_toNat c, h, Char.ofNat_toNat])
    have h22 : c.toNat ≠ 0x22 := hne '"' hquote
    have h5C : c.toNat ≠ 0x5C := hne '\\' hslash
    unfold escapeChar
    dsimp only
    split
    next h => exact absurd h h22
    next h => exact absurd h h5C
    next h => omega
    next h => omega
    next h => omega
    next h => omega
    next h => omega
    next => exact if_neg hlow
  rw [hself, List.singleton_append, readString]
  · exact hquote
  all_goals
    intros
    contradiction

lemma readString_quoted (text rest : Text) :
    (dropLiteral "\"".toList (quoted text ++ rest)).bind readString = some (text, rest) := by
  have hstring : readString (text.flatMap escapeChar ++ ('"' :: rest)) = some (text, rest) := by
    induction text with
    | nil => rfl
    | cons c text ih =>
      rw [List.flatMap_cons, List.append_assoc, readString_escapeChar, ih, Option.map_some]
  rw [quoted, List.append_assoc, List.append_assoc, dropLiteral_append, Option.bind_some]
  exact hstring

lemma isDigit_closeBrace : '\x7d'.isDigit = false := by decide

lemma isDigit_comma : ','.isDigit = false := by decide

def stringCodec : Codec Text where
  write := quoted
  read text := (dropLiteral "\"".toList text).bind readString
  read_write text rest _ := readString_quoted text rest

lemma selfDelimiting_stringCodec : stringCodec.SelfDelimiting := readString_quoted

lemma startsOtherThan_stringCodec {close : Char} (h : '"' ≠ close) :
    stringCodec.StartsOtherThan close :=
  fun text => ⟨'"', text.flatMap escapeChar ++ "\"".toList, rfl, h⟩

lemma avoids_stringCodec : stringCodec.Avoids '\n' := by
  intro text
  have hchar : ∀ c : Char, '\n' ∉ escapeChar c := by
    intro c
    have hcontrol : ∀ n < 0x20, '\n' ∉ escapeChar (Char.ofNat n) := by decide
    by_cases hlow : c.toNat < 0x20
    · rw [← Char.ofNat_toNat c]
      exact hcontrol c.toNat hlow
    · unfold escapeChar
      dsimp only
      split <;> try decide
      next n _ _ _ _ _ _ _ =>
        rw [if_neg hlow, List.mem_singleton]
        rintro rfl
        exact hlow (by decide)
  simp [stringCodec, quoted, hchar]

/-- The rows a codec writes, read back whole and as they were written. -/
def RowFormat.ofCodec {R : Type} (c : Codec R) (hc : c.SelfDelimiting)
    (oneLine : c.Avoids '\n') (ends : c.EndsWith '\x7d') : RowFormat R where
  write := c.write
  read text := (c.read text).bind fun x => if c.write x.1 = text then some x.1 else none
  read_write row := by
    have hread := hc row []
    rw [List.append_nil] at hread
    rw [hread, Option.bind_some, if_pos rfl]
  read_torn row n hn := by
    rw [Option.bind_eq_none_iff]
    intro x _
    refine if_neg fun hwritten => ?_
    have hrest : (c.write row).drop n = [] :=
      hc.eq_nil ((List.take_append_drop n (c.write row)).symm.trans (by rw [hwritten]))
    exact absurd (List.drop_eq_nil_iff.mp hrest) (Nat.not_le_of_lt hn)
  oneLine := oneLine
  ends := ends

end Strings

end ChatStasher

/-! Session dimensions, the observations that name what they were read from, and the two readers
that check an observation against the shards. -/
namespace ChatStasher
open Inbox SortedInsert

/-- The dimensions of a session's observed origin and lifecycle. -/
structure SessionProvenance where
  surface : List Text
  tenant : List Text
  container : List Text
  cwd : List Text
  status : List Text
  deriving DecidableEq

namespace SessionProvenance

def empty : SessionProvenance := ⟨[], [], [], [], []⟩

def dimensions (p : SessionProvenance) : List (List Text) :=
  [p.surface, p.tenant, p.container, p.cwd, p.status]

def isEmpty (p : SessionProvenance) : Bool := p.dimensions.all List.isEmpty

def isValid (p : SessionProvenance) : Bool :=
  p.dimensions.all fun values => values.all (fun value => !value.isEmpty) && decide values.Nodup

/-- Add one value to one dimension, keeping it a sorted set; an empty value is not recorded. -/
def insert (values : List Text) (value : Text) : List Text :=
  if value.isEmpty then values else insertSorted values value

/-- Merge another observation while preserving every distinct value. -/
def merge (into other : SessionProvenance) : SessionProvenance where
  surface := other.surface.foldl insert into.surface
  tenant := other.tenant.foldl insert into.tenant
  container := other.container.foldl insert into.container
  cwd := other.cwd.foldl insert into.cwd
  status := other.status.foldl insert into.status

lemma insert_right_comm (values : List Text) (a b : Text) :
    insert (insert values a) b = insert (insert values b) a := by
  unfold insert
  split <;> split
  next => rfl
  next => rfl
  next => rfl
  next => exact insertSorted_right_comm values a b

instance : RightCommutative insert := ⟨insert_right_comm⟩

lemma foldl_insert_comm (values a b : List Text) :
    b.foldl insert (a.foldl insert values) = a.foldl insert (b.foldl insert values) := by
  rw [← List.foldl_append, ← List.foldl_append]
  exact List.perm_append_comm.foldl_eq values

theorem merge_right_comm (p a b : SessionProvenance) :
    (p.merge a).merge b = (p.merge b).merge a := by
  simp only [merge, foldl_insert_comm _ a.surface, foldl_insert_comm _ a.tenant,
    foldl_insert_comm _ a.container, foldl_insert_comm _ a.cwd, foldl_insert_comm _ a.status]

instance : RightCommutative merge := ⟨merge_right_comm⟩

end SessionProvenance

/-- One append-only observation about a session's source dimensions. -/
structure ProvenanceObservation (D : Type) where
  sessionId : Text
  dimensions : SessionProvenance
  bodyShardCount : ℕ
  bodySha256 : D
  bodyShardSequences : List ℕ
  deriving DecidableEq

/-- An archived shard, with the sequence its name gives it if there is one. -/
abbrev SequencedShard := Option ℕ × Bytes

section Readers
variable (H : Sha256) (sessionId : Text)

/-- `merge_verified_observations`: rows without sequences are bound to a prefix of the shards. -/
def mergeVerifiedObservations (into : SessionProvenance)
    (observations : List (ProvenanceObservation H.Digest)) (shardBodies : List Bytes) :
    SessionProvenance :=
  observations.foldl (fun into observation =>
    if observation.sessionId ≠ sessionId ∨ observation.bodyShardCount = 0 ∨
        shardBodies.length < observation.bodyShardCount ∨
        observation.bodyShardSequences ≠ [] ∨ !observation.dimensions.isValid then into
    else if H.digest (shardBodies.take observation.bodyShardCount).flatten =
        observation.bodySha256 then into.merge observation.dimensions
    else into) into

/-- The guard both sequence-aware readers open with. -/
def namesSequences (observation : ProvenanceObservation H.Digest) : Bool :=
  observation.sessionId == sessionId && !observation.bodyShardSequences.isEmpty &&
    observation.bodyShardSequences.length == observation.bodyShardCount &&
    !observation.bodyShardSequences.any (· == 0) &&
    decide (observation.bodyShardSequences.IsChain (· < ·)) && observation.dimensions.isValid

/-- The digest of the named bodies one after the other, unless one of them is missing. -/
def namedDigest (body : ℕ → Option Bytes) (sequences : List ℕ) : Option H.Digest :=
  (sequences.mapM body).map fun bodies => H.digest bodies.flatten

/-- The shards under their sequences, and the sequences met more than once. -/
def sequencedBodies (shardBodies : List SequencedShard) : SortedMap ℕ Bytes × Finset ℕ :=
  shardBodies.foldl (fun (bySequence, ambiguous) shard =>
    match shard.1 with
    | none => (bySequence, ambiguous)
    | some sequence =>
      if (bySequence.get sequence).isSome then
        (bySequence.remove sequence, insert sequence ambiguous)
      else (bySequence.insert sequence shard.2, ambiguous)) (SortedMap.empty, ∅)

/-- `merge_verified_shard_sequence_observations`. -/
def mergeVerifiedShardSequenceObservations (into : SessionProvenance)
    (observations : List (ProvenanceObservation H.Digest)) (shardBodies : List SequencedShard) :
    SessionProvenance :=
  let legacy := observations.filter fun row => row.bodyShardSequences.isEmpty
  let into := mergeVerifiedObservations H sessionId into legacy (shardBodies.map Prod.snd)
  let (bySequence, ambiguous) := sequencedBodies shardBodies
  observations.foldl (fun into observation =>
    if namesSequences H sessionId observation then
      if namedDigest H (fun sequence =>
          if sequence ∈ ambiguous then none else bySequence.get sequence)
          observation.bodyShardSequences = some observation.bodySha256 then
        into.merge observation.dimensions
      else into
    else into) into

/-- `verified_observation_sequences`; here the last body of a sequence is the one that counts. -/
def verifiedObservationSequences (observations : List (ProvenanceObservation H.Digest))
    (shardBodies : List SequencedShard) : Finset ℕ :=
  let bySequence := SortedMap.ofList
    (shardBodies.filterMap fun shard => shard.1.map fun sequence => (sequence, shard.2))
  observations.foldl (fun verified observation =>
    if namesSequences H sessionId observation then
      if namedDigest H bySequence.get observation.bodyShardSequences =
          some observation.bodySha256 then
        verified ∪ observation.bodyShardSequences.toFinset
      else verified
    else verified) ∅

end Readers

end ChatStasher
