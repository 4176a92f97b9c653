import Mathlib.Data.Char
import Mathlib.Data.List.Lex
import Mathlib.Data.Prod.Lex
import ChatStasher.Library.KeyedList
import ChatStasher.Store.WriterSteps

/-! A session directory written by the shard writer alone, seen as its list of numbered shards. -/
namespace ChatStasher

/-- All shards of a directory with their numbers, in sequence order, readable or not. -/
def installedShards (d : SessionDir) : List (ℕ × Bytes) :=
  sortBySeq (d.files.filterMap fun f => (shardNumber f.path.name).map (·, f.bytes))

/-- The last number the counter handed out. -/
def SessionDir.lastSeq (d : SessionDir) : ℕ :=
  match d.counter with
  | .loaded seq => seq
  | _ => 0

/-- The directory holds exactly these shards, numbered upwards by its own counter. -/
structure Holds (d : SessionDir) (shards : List (ℕ × Bytes)) : Prop where
  files : d.files.map (fun f => (shardNumber f.path.name, f.bytes)) =
    shards.map fun p => (some p.1, p.2)
  sorted : shards.Pairwise fun a b => a.1 < b.1
  pos : ∀ p ∈ shards, 0 < p.1
  counter : d.counter = .missing ∧ shards = [] ∨
    ∃ seq, d.counter = .loaded seq ∧ ∀ p ∈ shards, p.1 ≤ seq

def readable (shards : List (ℕ × Bytes)) : List (ℕ × Bytes) := shards.filter fun p => p.1 < 10 ^ 6

lemma sortBySeq_of_sorted {α : Type*} {l : List (ℕ × α)} (h : l.Pairwise fun a b => a.1 < b.1) :
    sortBySeq l = l :=
  (h.imp fun hab => le_of_lt hab).insertionSort_eq

namespace Holds
variable {d : SessionDir} {shards : List (ℕ × Bytes)}

lemma empty : Holds .empty [] := ⟨rfl, by simp, by simp, Or.inl ⟨rfl, rfl⟩⟩

lemma numbered (h : Holds d shards) :
    d.files.filterMap (fun f => (shardNumber f.path.name).map (·, f.bytes)) = shards := by
  have hmap : d.files.filterMap (fun f => (shardNumber f.path.name).map (·, f.bytes)) =
      (d.files.map fun f => (shardNumber f.path.name, f.bytes)).filterMap
        fun p => p.1.map (·, p.2) := by
    rw [List.filterMap_map]
    rfl
  rw [hmap, h.files, List.filterMap_map]
  simp

lemma installed (h : Holds d shards) : installedShards d = shards := by
  rw [installedShards, h.numbered, sortBySeq_of_sorted h.sorted]

lemma shardNumbers (h : Holds d shards) : d.shardNumbers = shards.map Prod.fst := by
  have hmap : d.shardNumbers = (d.files.filterMap fun f =>
      (shardNumber f.path.name).map (·, f.bytes)).map Prod.fst := by
    rw [SessionDir.shardNumbers, List.map_filterMap]
    refine List.filterMap_congr fun f _ => ?_
    cases shardNumber f.path.name <;> rfl
  rw [hmap, h.numbered]

lemma files_length (h : Holds d shards) : d.files.length = shards.length := by
  simpa using congrArg List.length h.files

lemma map_bytes (h : Holds d shards) : d.files.map StoredFile.bytes = shards.map Prod.snd := by
  have hsnd := congrArg (List.map Prod.snd) h.files
  rw [List.map_map, List.map_map] at hsnd
  exact hsnd

lemma entries (h : Holds d shards) :
    (sealedShardEntries d).map (fun e => (e.1, e.2.bytes)) = readable shards := by
  rw [readable, ← h.numbered, List.filter_filterMap, sealedShardEntries, List.map_filterMap]
  refine List.filterMap_congr fun f _ => ?_
  rw [parseShardSeq_eq_number, Option.filter_map]
  rw [Option.map_map]
  rfl

lemma readable_sorted (h : Holds d shards) :
    (readable shards).Pairwise fun a b => a.1 < b.1 := h.sorted.sublist List.filter_sublist

lemma sortedEntries_map (h : Holds d shards) :
    (sortedEntries d).map (fun e => (e.1, e.2.bytes)) = readable shards := by
  have hpair : (sealedShardEntries d).Pairwise fun a b => a.1 < b.1 := by
    have hs := h.readable_sorted
    rw [← h.entries, List.pairwise_map] at hs
    exact hs
  rw [sortedEntries, sortBySeq_of_sorted hpair, h.entries]

lemma sortedEntries_length (h : Holds d shards) :
    (sortedEntries d).length = (readable shards).length := by
  rw [← h.sortedEntries_map, List.length_map]

lemma entries_length (h : Holds d shards) :
    (sealedShardEntries d).length = (readable shards).length := by
  rw [← h.entries, List.length_map]

lemma entries_eq_nil (h : Holds d shards) : sealedShardEntries d = [] ↔ readable shards = [] := by
  rw [← List.length_eq_zero_iff, h.entries_length, List.length_eq_zero_iff]

end Holds

section Write
variable {d : SessionDir} {shards : List (ℕ × Bytes)}

lemma Holds.next (h : Holds d shards) :
    nextShardSeqInDir d = some (d.lastSeq + 1, { d with counter := .loaded (d.lastSeq + 1) }) := by
  rcases h.counter with ⟨hc, rfl⟩ | ⟨seq, hc, -⟩
  · have hnil : sealedShardEntries d = [] := h.entries_eq_nil.mpr rfl
    simp [nextShardSeqInDir, SessionDir.lastSeq, hc, deriveShardHighWaterInDir, hnil]
  · simp [nextShardSeqInDir, SessionDir.lastSeq, hc]

lemma Holds.le_lastSeq (h : Holds d shards) {p : ℕ × Bytes} (hp : p ∈ shards) :
    p.1 ≤ d.lastSeq := by
  rcases h.counter with ⟨-, rfl⟩ | ⟨seq, hc, hle⟩
  · simp at hp
  · simpa [SessionDir.lastSeq, hc] using hle p hp

lemma Holds.skip (h : Holds d shards) :
    Holds { d with counter := .loaded (d.lastSeq + 1) } shards :=
  ⟨h.files, h.sorted, h.pos, Or.inr ⟨_, rfl, fun _ hp => Nat.le_succ_of_le (h.le_lastSeq hp)⟩⟩

variable (H : Sha256)

def SessionDir.sealNext (d : SessionDir) (cap : ℕ) (raw : Bytes) : SessionDir :=
  { d with counter := .loaded (d.lastSeq + 1) }.install (shardPathInDir (d.lastSeq + 1) cap) raw

lemma Holds.free (h : Holds d shards) : d.lastSeq + 1 ∉ d.shardNumbers := by
  rw [h.shardNumbers, List.mem_map]
  rintro ⟨p, hp, heq⟩
  have := h.le_lastSeq hp
  omega

lemma Holds.files_sealNext (h : Holds d shards) (cap : ℕ) (raw : Bytes) :
    (d.sealNext cap raw).files = d.files ++ [⟨shardPathInDir (d.lastSeq + 1) cap, raw⟩] := by
  have hkeep : (d.files.filter fun f => f.path ≠ shardPathInDir (d.lastSeq + 1) cap) = d.files := by
    refine List.filter_eq_self.mpr fun f hf => ?_
    have hne : f.path ≠ shardPathInDir (d.lastSeq + 1) cap := fun heq =>
      h.free (SessionDir.mem_shardNumbers.mpr ⟨f, hf, by rw [heq]; rfl⟩)
    simp [hne]
  rw [SessionDir.sealNext, SessionDir.install]
  dsimp only
  rw [hkeep]

lemma Holds.sealNext (h : Holds d shards) (cap : ℕ) (raw : Bytes) :
    Holds (d.sealNext cap raw) (shards ++ [(d.lastSeq + 1, raw)]) := by
  refine ⟨?_, ?_, ?_, Or.inr ⟨d.lastSeq + 1, rfl, ?_⟩⟩
  · rw [h.files_sealNext, List.map_append, h.files, List.map_append]
    simp [shardPathInDir]
  · refine List.pairwise_append.mpr ⟨h.sorted, by simp, fun a ha b hb => ?_⟩
    rw [List.mem_singleton.mp hb]
    exact Nat.lt_succ_of_le (h.le_lastSeq ha)
  · intro p hp
    rcases List.mem_append.mp hp with hp | hp
    · exact h.pos p hp
    · rw [List.mem_singleton.mp hp]
      exact Nat.succ_pos _
  · intro p hp
    rcases List.mem_append.mp hp with hp | hp
    · exact Nat.le_succ_of_le (h.le_lastSeq hp)
    · rw [List.mem_singleton.mp hp]

lemma Holds.findDuplicate (h : Holds d shards) {raw : Bytes} :
    (findDuplicateShardInDir H d raw).isSome ↔ ∃ p ∈ readable shards, p.2 = raw := by
  rw [findDuplicateShardInDir, Option.isSome_map, List.find?_isSome, ← h.sortedEntries_map]
  simp

/-- What the shard writer does to a directory it alone numbers: it finds a readable shard with the
very bytes, or installs the next one. -/
theorem Holds.writeShard (h : Holds d shards) (cap : ℕ) (source : ShardSource) :
    (source.dedup = true ∧ (∃ p ∈ readable shards, p.2 = source.raw) ∧
        (writeShardInDir H d cap source).2 = d ∧
        ∃ name, (writeShardInDir H d cap source).1 = some (.existing name)) ∨
      ((source.dedup = true → ∀ p ∈ readable shards, p.2 ≠ source.raw) ∧
        writeShardInDir H d cap source =
          (some (.allocated (d.lastSeq + 1)), d.sealNext cap source.raw)) := by
  have hfree : shardPathInDir (d.lastSeq + 1) cap ∉ d.paths := by
    rw [SessionDir.paths, List.mem_map]
    rintro ⟨f, hf, heq⟩
    exact h.free (SessionDir.mem_shardNumbers.mpr ⟨f, hf, by rw [heq]; rfl⟩)
  have hnone : (if source.dedup then findDuplicateShardInDir H d source.raw else none) = none →
      writeShardInDir H d cap source =
        (some (.allocated (d.lastSeq + 1)), d.sealNext cap source.raw) := by
    intro hdup
    simp only [writeShardInDir, hdup, h.next]
    rw [if_neg fun hbad => hfree hbad.2]
    rfl
  by_cases hd : source.dedup = true
  · cases hf : findDuplicateShardInDir H d source.raw with
    | some name =>
      refine Or.inl ⟨hd, (h.findDuplicate H).mp (by rw [hf]; rfl), ?_, name, ?_⟩ <;>
        simp [writeShardInDir, hd, hf]
    | none =>
      refine Or.inr ⟨fun _ p hp heq => ?_, hnone (by rw [if_pos hd, hf])⟩
      have := (h.findDuplicate H).mpr ⟨p, hp, heq⟩
      rw [hf] at this
      cases this
  · exact Or.inr ⟨fun hd' => absurd hd' hd, hnone (by rw [if_neg hd])⟩

end Write

end ChatStasher

/-! The cumulative collapse read: tail-replay candidates filtered by the shards' own sequences. -/
namespace ChatStasher

section Candidates
variable {T : Type} [DecidableEq T]

/-- Do the `len` shards from `index` on equal the last `len` kept shards, one by one? -/
def replaysTail (shards : List T) (preceding : List ℕ) (index len : ℕ) : Bool :=
  (List.range len).all fun offset =>
    shards[index + offset]? ==
      (preceding[preceding.length - len + offset]?).bind fun kept => shards[kept]?

/-- `for len in (1..=bounded).rev()`: the longest run that reproduces a tail, or 0. -/
def longestReplay (shards : List T) (preceding : List ℕ) (index : ℕ) : ℕ → ℕ
  | 0 => 0
  | len + 1 =>
    if replaysTail shards preceding index (len + 1) then len + 1
    else longestReplay shards preceding index len

/-- The scan over the shards; each turn moves `index` on, so the shard count is fuel enough. -/
def tailReplayLoop (shards : List T) : ℕ → ℕ → List ℕ → List (ℕ × ℕ)
  | 0, _, _ => []
  | fuel + 1, index, preceding =>
    if index < shards.length then
      let bounded := min preceding.length (shards.length - index)
      let replay := longestReplay shards preceding index bounded
      if 0 < replay then
        (List.range replay).map (fun offset =>
          (index + offset, preceding.getD (preceding.length - replay + offset) 0)) ++
        tailReplayLoop shards fuel (index + replay) preceding
      else tailReplayLoop shards fuel (index + 1) (preceding ++ [index])
    else []

/-- Each shard that replays part of the kept sequence, paired with the kept shard it replays. -/
def tailReplayPartners (shards : List T) : List (ℕ × ℕ) :=
  tailReplayLoop shards shards.length 0 []

/-- The candidates a collapse read folds: those whose sequence equals that of the kept shard. -/
def duplicateShardIndicesSequenced (shards : List (Option ℕ × T)) : List ℕ :=
  ((tailReplayPartners (shards.map Prod.snd)).filter fun (index, partner) =>
    match (shards[index]?).bind Prod.fst, (shards[partner]?).bind Prod.fst with
    | some dup, some kept => dup == kept
    | _, _ => false).map Prod.fst

/-- Drop the copies a re-seal leaves behind, and only those. -/
def selectShardBodiesSequenced (shards : List T) (sequences : List (Option ℕ))
    (collapses : Bool) : List T :=
  if !collapses then shards
  else
    let paired := sequences.zip shards
    let duplicates := duplicateShardIndicesSequenced paired
    (paired.zipIdx.filter fun (_, index) => index ∉ duplicates).map fun (p, _) => p.2

end Candidates

/-- One session shard in one snapshot: its archive-relative path, file name and content. -/
structure ArchiveEntry where
  path : FileName
  shard : FileName
  body : Bytes
  deriving DecidableEq

def u64Max : ℕ := 2 ^ 64 - 1

/-- `archive_shard_identity`: where an entry sorts in the cumulative union. -/
def archiveShardIdentity (e : ArchiveEntry) : ℕ ×ₗ FileName :=
  toLex ((parseShardSeq e.shard).getD u64Max, e.path)

/-- The union over the snapshots, newest copy of each path first, in sequence then path order. -/
def heldEntries (snapshots : List (List ArchiveEntry)) : List ArchiveEntry :=
  (KeyedList.inKeyOrder (KeyedList.firstWins
    (snapshots.flatten.map fun e => (archiveShardIdentity e, e)))).map Prod.snd

/-- Record under which path a sequence was last seen, noting sequences seen under two. -/
def noteSequencePath (seen : List (ℕ × FileName) × List ℕ) (e : ArchiveEntry) :
    List (ℕ × FileName) × List ℕ :=
  match parseShardSeq e.shard with
  | none => seen
  | some sequence =>
    let previous := seen.1.lookup sequence
    ((sequence, e.path) :: seen.1,
      if previous.any (· ≠ e.path) then sequence :: seen.2 else seen.2)

def ambiguousSequences (snapshots : List (List ArchiveEntry)) : List ℕ :=
  (snapshots.flatten.foldl noteSequencePath ([], [])).2

/-- The entries the cumulative read of one session returns, in order. `observed` is the set of
sequences `verified_observation_sequences` vouches for, given the bodies under nulled sequences. -/
def dumpCumulativeSession (observed : List (Option ℕ × Bytes) → List ℕ) (collapses : Bool)
    (snapshots : List (List ArchiveEntry)) : List ArchiveEntry :=
  let held := heldEntries snapshots
  let ambiguous := ambiguousSequences snapshots
  let nulled := fun e : ArchiveEntry => (parseShardSeq e.shard).filter (· ∉ ambiguous)
  let observedSequences := observed (held.map fun e => (nulled e, e.body))
  let duplicates :=
    if collapses then
      duplicateShardIndicesSequenced (held.map fun e => (parseShardSeq e.shard, e.body))
    else []
  (held.zipIdx.filter fun (e, index) =>
    !(duplicates.contains index && !(nulled e).any (observedSequences.contains ·))).map Prod.fst

end ChatStasher
