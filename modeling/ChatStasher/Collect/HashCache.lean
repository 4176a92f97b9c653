import ChatStasher.Collect.ReadSpec
import Mathlib.Data.Finset.Insert

/-! The hash cache of a pass: three kinds of remembered digests over files that come and go. -/
namespace ChatStasher

/-- One sealed shard as a directory entry records it. -/
structure ShardIdentity (K : Type) where
  sequence : ℕ
  path : K
  file : FileIdentity
  deriving DecidableEq

/-- The keys `p:`, `f:` and `d:`, each before a path digest. -/
inductive HashKey (K : Type)
  | prefixOf (path : K)
  | wholeFile (path : K)
  | shardsOf (dir : K)
  deriving DecidableEq

/-- What one key remembers; the kind fixes the question the digest answers. -/
inductive CacheValue (K D : Type)
  | file (file : FileIdentity) (sha256 : D)
  | prefixOf (file : FileIdentity) (offset : ℕ) (sha256 : D)
  | dir (files : List (ShardIdentity K)) (covered : ℕ) (sha256 : D)
  deriving DecidableEq

structure StatAnswer (D : Type) extends HashAnswer D where
  size : ℕ

structure HashCache (K D : Type) where
  /-- Whether the cache has a file in a state directory. -/
  persisted : Bool
  entries : List (HashKey K × CacheValue K D)
  touched : Finset (HashKey K)

def cacheMaxEntries : ℕ := 250000

namespace HashCache

section Operations
variable {P K D : Type} [DecidableEq K]

/-- A state file that is missing, unreadable or of another version is a cold cache. -/
def load (saved : Option (List (HashKey K × CacheValue K D))) : HashCache K D :=
  ⟨true, saved.getD [], ∅⟩

def disabled : HashCache K D := ⟨false, [], ∅⟩

def touch (cache : HashCache K D) (key : HashKey K) : HashCache K D :=
  { cache with touched := insert key cache.touched }

def store (cache : HashCache K D) (key : HashKey K) (value : CacheValue K D) : HashCache K D :=
  { cache with
    touched := insert key cache.touched
    entries := KeyedList.put cache.entries (key, value) }

/-- The entries a save writes: all of them, or what the pass touched once there are too many. -/
def retained (cache : HashCache K D) : List (HashKey K × CacheValue K D) :=
  if cacheMaxEntries < cache.entries.length then
    cache.entries.filter fun e => decide (e.1 ∈ cache.touched)
  else cache.entries

/-- `save`, leaving the cache and the state file. A write that fails has already given the entries
away and leaves the file as it was. -/
def save (cache : HashCache K D) (saved : Option (List (HashKey K × CacheValue K D)))
    (written : Bool) : HashCache K D × Option (List (HashKey K × CacheValue K D)) :=
  if !cache.persisted || decide (cache.touched = ∅) then (cache, saved)
  else if written then ({ cache with entries := cache.retained }, some cache.retained)
  else ({ cache with entries := [] }, saved)

end Operations

section Calls
variable (H : Sha256) {P K : Type} [DecidableEq K] (pathDigest : P → K)
  (cache : HashCache K H.Digest) (disk : P → Option SourceFile)

/-- sha256 of the file's first `offset` bytes; no answer where the file cannot be opened. -/
def prefixSha256 (path : P) (offset : ℕ) :
    Option (StatAnswer H.Digest × HashCache K H.Digest) :=
  (disk path).map fun file =>
    let key := HashKey.prefixOf (pathDigest path)
    let read := file.bytes.take offset
    let miss : StatAnswer H.Digest × HashCache K H.Digest :=
      (⟨⟨H.digest read, read.length, false⟩, file.bytes.length⟩,
        if file.mtimeNs.isSome ∧ read.length = offset then
          cache.store key (.prefixOf file.identity offset (H.digest read))
        else cache)
    match cache.entries.lookup key with
    | some (.prefixOf stored cachedOffset sha256) =>
      if cachedOffset = offset ∧ isSameFile stored file.identity then
        (⟨⟨sha256, 0, true⟩, file.bytes.length⟩, cache.touch key)
      else miss
    | _ => miss

/-- sha256 of one file's whole bytes. -/
def fileSha256 (path : P) : Option (StatAnswer H.Digest × HashCache K H.Digest) :=
  (disk path).map fun file =>
    let key := HashKey.wholeFile (pathDigest path)
    let miss : StatAnswer H.Digest × HashCache K H.Digest :=
      (⟨⟨H.digest file.bytes, file.bytes.length, false⟩, file.bytes.length⟩,
        if file.mtimeNs.isSome then
          cache.store key (.file file.identity (H.digest file.bytes))
        else cache)
    match cache.entries.lookup key with
    | some (.file stored sha256) =>
      if isSameFile stored file.identity then
        (⟨⟨sha256, 0, true⟩, file.bytes.length⟩, cache.touch key)
      else miss
    | _ => miss

def openShards : List (ℕ × P) → Option (List ((ℕ × P) × SourceFile))
  | [] => some []
  | shard :: shards =>
    match disk shard.2, openShards shards with
    | some file, some opened => some ((shard, file) :: opened)
    | _, _ => none

def identities (opened : List ((ℕ × P) × SourceFile)) : List (ShardIdentity K) :=
  opened.map fun shard => ⟨shard.1.1, pathDigest shard.1.2, shard.2.identity⟩

/-- The bytes read for a coverage digest: shard after shard until `covered` bytes are in. -/
def readCovered (covered : ℕ) (files : List SourceFile) : Bytes :=
  files.foldl (fun read file =>
    if covered ≤ read.length then read
    else read ++ file.bytes.take (covered - read.length)) []

/-- sha256 of the first `covered` bytes of the shards' concatenation in the order given. -/
def shardConcatSha256 (dir : P) (shards : List (ℕ × P)) (covered : ℕ) :
    Option (StatAnswer H.Digest × HashCache K H.Digest) :=
  (openShards disk shards).map fun opened =>
    let key := HashKey.shardsOf (pathDigest dir)
    let files := identities pathDigest opened
    let read := readCovered covered (opened.map Prod.snd)
    let size := (files.map fun shard => shard.file.size).sum
    let miss : StatAnswer H.Digest × HashCache K H.Digest :=
      (⟨⟨H.digest read, read.length, false⟩, size⟩,
        if read.length = covered then cache.store key (.dir files covered (H.digest read))
        else cache)
    match cache.entries.lookup key with
    | some (.dir stored cachedCovered sha256) =>
      -- Whole identities are compared here: two mtimes that are both unknown count as equal.
      if cachedCovered = covered ∧ stored = files then
        (⟨⟨sha256, 0, true⟩, size⟩, cache.touch key)
      else miss
    | _ => miss

variable {cache disk}

end Calls

end HashCache

end ChatStasher
