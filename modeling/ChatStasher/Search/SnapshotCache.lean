import ChatStasher.Readback.Listing

/-! The per-destination snapshot session cache: one verified file for each snapshot, telling what a
walk of that snapshot found. -/
namespace ChatStasher.Search
open Readback

/-- One session as one snapshot holds it. -/
structure CachedSession where
  machine : Ident
  session : Ident
  shardCount : ℕ
  bytes : ℕ
  dataBlobs : ℕ
  deriving DecidableEq

/-- One activity index found in a snapshot's tree. -/
structure CachedIndexFile where
  machine : Ident
  path : Path
  deriving DecidableEq

/-- What one snapshot's tree held, with every tree that a walk of it reads. -/
structure SnapshotEntry (Id : Type) where
  v : ℕ
  snapshot : Id
  sessions : List CachedSession
  indexFiles : List CachedIndexFile
  trees : List TreeId
  deriving DecidableEq

def bodyVersion : ℕ := 2

def SnapshotEntry.new {Id : Type} (snapshot : Id) (sessions : List CachedSession)
    (indexFiles : List CachedIndexFile) (trees : List TreeId) : SnapshotEntry Id :=
  ⟨bodyVersion, snapshot, sessions, indexFiles, trees⟩

/-- How snapshots are named by the hash of their contents, and entries written as bodies with their
digest. -/
structure CacheFormat where
  Id : Type
  decEqId : DecidableEq Id
  idOf : Readback.Snapshot → Id
  idOf_injective : Function.Injective idOf
  short : Id → String
  Body : Type
  Digest : Type
  decEqDigest : DecidableEq Digest
  bodyLength : Body → ℕ
  digest : Body → Digest
  digest_injective : Function.Injective digest
  toVec : SnapshotEntry Id → Body
  fromSlice : Body → Option (SnapshotEntry Id)
  fromSlice_toVec : ∀ entry, fromSlice (toVec entry) = some entry

instance CacheFormat.instDecidableEqId (format : CacheFormat) : DecidableEq format.Id :=
  format.decEqId

instance CacheFormat.instDecidableEqDigest (format : CacheFormat) : DecidableEq format.Digest :=
  format.decEqDigest

/-- An entry file: the header's fields and the body, or bytes too short or of another magic. -/
inductive EntryFile (format : CacheFormat)
  | framed (declared : ℕ) (digest : format.Digest) (body : format.Body)
  | foreign

variable {format : CacheFormat}

def encode (body : format.Body) : EntryFile format :=
  .framed (format.bodyLength body) (format.digest body) body

/-- The body of an entry file whose length and digest hold. -/
def decode : EntryFile format → Option format.Body
  | .foreign => none
  | .framed declared digest body =>
    if declared ≠ format.bodyLength body then none
    else if format.digest body ≠ digest then none
    else some body

/-- The files of the cache directory, and which of them can be written or removed at the moment. -/
structure CacheDir (format : CacheFormat) where
  files : List (format.Id × EntryFile format)
  writable : format.Id → Bool

namespace CacheDir

def remove (dir : CacheDir format) (id : format.Id) : CacheDir format :=
  if dir.writable id then { dir with files := dir.files.filter fun e => e.1 ≠ id } else dir

/-- The entry of a snapshot; a file that does not verify, or is of another version or snapshot, is a
miss and is removed. -/
def load (dir : CacheDir format) (id : format.Id) :
    Option (SnapshotEntry format.Id) × CacheDir format :=
  match dir.files.lookup id with
  | none => (none, dir)
  | some raw =>
    match (decode raw).bind format.fromSlice with
    | none => (none, dir.remove id)
    | some entry =>
      if entry.v ≠ bodyVersion ∨ entry.snapshot ≠ id then (none, dir.remove id)
      else (some entry, dir)

/-- Write an entry, replacing any file of that name. -/
def store (dir : CacheDir format) (entry : SnapshotEntry format.Id) : CacheDir format :=
  if dir.writable entry.snapshot then
    { dir with files :=
        KeyedList.put dir.files (entry.snapshot, encode (format.toVec entry)) }
  else dir

def retain (dir : CacheDir format) (listed : List format.Id) : CacheDir format :=
  { dir with files := dir.files.filter fun e => e.1 ∈ listed || !dir.writable e.1 }

end CacheDir

/-- The sessions that the walk of a snapshot buckets its shards into, in key order; the activity
indexes are no sessions. -/
def bucketSessions (snap : Readback.Snapshot) : List CachedSession :=
  let files := snap.entries.filterMap fun e =>
    match e.2 with
    | .file bytes content =>
      if (activityIndexMachine e.1).isSome then none
      else (bucketShardPath e.1).map fun found =>
        (toLex (found.1, found.2.1), bytes.length, (content.map List.length).getD 0)
    | _ => none
  let counted := files.foldl (fun counted e => KeyedList.upsert counted e.1 fun held =>
      let held := held.getD (0, 0, 0)
      (held.1 + 1, held.2.1 + e.2.1, held.2.2 + e.2.2)) []
  (KeyedList.inKeyOrder counted).map fun e => ⟨(ofLex e.1).1, (ofLex e.1).2, e.2.1, e.2.2.1, e.2.2.2⟩

def indexEntries (snap : Readback.Snapshot) : List (CachedIndexFile × Node) :=
  snap.entries.filterMap fun e =>
    match e.2 with
    | .file .. => (activityIndexMachine e.1).map fun machine => (⟨machine, e.1⟩, e.2)
    | _ => none

def walkEntry (format : CacheFormat) (snap : Readback.Snapshot) : SnapshotEntry format.Id :=
  .new (format.idOf snap) (bucketSessions snap) ((indexEntries snap).map Prod.fst)
    (snap.trees.dedup.insertionSort (· ≤ ·))

/-- Every body that a file verifies with was written for some snapshot. -/
def Trusted (files : List (format.Id × EntryFile format)) : Prop :=
  ∀ e ∈ files, ∀ body, decode e.2 = some body → ∃ snap, body = format.toVec (walkEntry format snap)

section Trusted
variable {dir : CacheDir format}

lemma Trusted.subset {files files' : List (format.Id × EntryFile format)} (h : Trusted files)
    (hsub : files' ⊆ files) : Trusted files' := fun e he => h e (hsub he)

lemma remove_subset (dir : CacheDir format) (id : format.Id) :
    (dir.remove id).files ⊆ dir.files := by
  rw [CacheDir.remove]
  split
  · exact List.filter_subset_self _
  · exact List.Subset.refl _

lemma load_subset (dir : CacheDir format) (id : format.Id) :
    (dir.load id).2.files ⊆ dir.files := by
  rw [CacheDir.load]
  split
  · exact List.Subset.refl _
  · split
    · exact remove_subset dir id
    · split
      · exact remove_subset dir id
      · exact List.Subset.refl _

lemma load_eq_some (h : Trusted dir.files) {snap : Readback.Snapshot}
    {entry : SnapshotEntry format.Id}
    (hload : (dir.load (format.idOf snap)).1 = some entry) : entry = walkEntry format snap := by
  rw [CacheDir.load] at hload
  split at hload
  · cases hload
  next raw hraw =>
    split at hload
    · cases hload
    next read hread =>
      split at hload
      · cases hload
      next hfits =>
        obtain rfl := Option.some.inj hload
        obtain ⟨body, hbody, hslice⟩ := Option.bind_eq_some_iff.mp hread
        obtain ⟨l₁, l₂, hsplit, -⟩ := List.lookup_eq_some_iff.mp hraw
        have hmem : (format.idOf snap, raw) ∈ dir.files := by
          rw [hsplit]
          exact List.mem_append_right l₁ List.mem_cons_self
        obtain ⟨found, rfl⟩ := h _ hmem body hbody
        rw [format.fromSlice_toVec, Option.some.injEq] at hslice
        subst hslice
        rw [not_or, not_not, not_not] at hfits
        rw [format.idOf_injective hfits.2]

lemma decode_encode (body : format.Body) : decode (encode body) = some body := by
  simp [decode, encode]

lemma Trusted.store (h : Trusted dir.files) (snap : Readback.Snapshot) :
    Trusted (dir.store (walkEntry format snap)).files := by
  rw [CacheDir.store]
  split
  · intro e he body hbody
    rcases KeyedList.mem_put.mp he with rfl | ⟨he, -⟩
    · rw [decode_encode, Option.some.injEq] at hbody
      exact ⟨snap, hbody.symm⟩
    · exact h e he body hbody
  · exact h

lemma retain_subset (dir : CacheDir format) (listed : List format.Id) :
    (dir.retain listed).files ⊆ dir.files := List.filter_subset_self _

end Trusted

end ChatStasher.Search
