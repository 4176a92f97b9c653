import ChatStasher.Bytes
import ChatStasher.Library.KeyedList

/-! The body cache: framed entries under a quota, verified on every hit. -/
namespace ChatStasher.Mirror

/-- One byte range of one pack. -/
structure CacheKey (D : Type) where
  pack : D
  offset : ℕ
  length : ℕ
  deriving DecidableEq

/-- An entry file by the fields of its header; `short` ends before the header does. -/
inductive EntryFile (H : Sha256)
  | short (bytes : Bytes)
  | framed (magic : Bytes) (length : ℕ) (digest : H.Digest) (payload : Bytes)

def entryMagic : Bytes := [67, 83, 66, 79, 68, 89, 48, 49]

def entryHeaderLen : ℕ := 8 + 8 + 32

def sessionQuotaDenominator : ℕ := 10

section Entries
variable {H : Sha256}

def encodeEntry (payload : Bytes) : EntryFile H :=
  .framed entryMagic payload.length (H.digest payload) payload

def verifyEntry : EntryFile H → Option Bytes
  | .short _ => none
  | .framed magic length digest payload =>
    if magic ≠ entryMagic then none
    else if payload.length ≠ length then none
    else if H.digest payload ≠ digest then none
    else some payload

def EntryFile.size : EntryFile H → ℕ
  | .short bytes => bytes.length
  | .framed _ _ _ payload => entryHeaderLen + payload.length

@[simp] lemma verifyEntry_encodeEntry (payload : Bytes) :
    verifyEntry (encodeEntry payload : EntryFile H) = some payload := by
  simp [encodeEntry, verifyEntry]

lemma verifyEntry_eq_some {raw : EntryFile H} {payload : Bytes} :
    verifyEntry raw = some payload ↔ raw = encodeEntry payload := by
  constructor
  · intro h
    cases raw with
    | short bytes => cases h
    | framed magic length digest body =>
      simp only [verifyEntry, Option.ite_none_left_eq_some, not_not, Option.some.injEq] at h
      obtain ⟨rfl, rfl, rfl, rfl⟩ := h
      rfl
  · rintro rfl
    exact verifyEntry_encodeEntry payload

end Entries

/-- The cache directory, its entries least recently used first. -/
structure BodyCache (H : Sha256) where
  entries : List (CacheKey H.Digest × EntryFile H)
  maxBytes : ℕ
  session : Option ℕ

/-- What the file system answers a cache operation. `stuck` are entries it will not delete. -/
structure CacheFaults (D : Type) where
  unreadable : Bool
  undeletable : Bool
  untouchable : Bool
  unwritable : Bool
  stuck : CacheKey D → Bool

namespace BodyCache
variable {H : Sha256}

def enabled (cache : BodyCache H) : Bool := decide (0 < cache.maxBytes)

/-- Look an entry up; one that does not verify is deleted. -/
def get (cache : BodyCache H) (key : CacheKey H.Digest) (faults : CacheFaults H.Digest) :
    Option Bytes × BodyCache H :=
  if !cache.enabled || faults.unreadable then (none, cache)
  else match cache.entries.lookup key with
  | none => (none, cache)
  | some raw =>
    match verifyEntry raw with
    | none =>
      (none, if faults.undeletable then cache
        else { cache with entries := cache.entries.filter fun e => e.1 ≠ key })
    | some payload =>
      (some payload, if faults.untouchable then cache
        else { cache with entries := KeyedList.put cache.entries (key, raw) })

/-- One eviction pass, the least recently used entry first. -/
def evictOldest (maxBytes : ℕ) (stuck : CacheKey H.Digest → Bool) :
    ℕ → List (CacheKey H.Digest × EntryFile H) → List (CacheKey H.Digest × EntryFile H)
  | _, [] => []
  | total, e :: entries =>
    if total ≤ maxBytes then e :: entries
    else if stuck e.1 then e :: evictOldest maxBytes stuck total entries
    else evictOldest maxBytes stuck (total - e.2.size) entries

def usage (cache : BodyCache H) : ℕ := (cache.entries.map fun e => e.2.size).sum

def enforceQuota (cache : BodyCache H) (stuck : CacheKey H.Digest → Bool) : BodyCache H :=
  { cache with entries := evictOldest cache.maxBytes stuck cache.usage cache.entries }

/-- Store one entry, then bring the cache back under its quota. -/
def put (cache : BodyCache H) (key : CacheKey H.Digest) (payload : Bytes)
    (faults : CacheFaults H.Digest) : BodyCache H :=
  if !cache.enabled then cache
  else if cache.maxBytes < payload.length then cache
  else if cache.session.any fun bytes => decide (cache.maxBytes / sessionQuotaDenominator < bytes)
  then cache
  else if faults.unwritable then cache
  else enforceQuota
    { cache with entries := KeyedList.put cache.entries (key, encodeEntry payload) } faults.stuck

def clear (cache : BodyCache H) (stuck : CacheKey H.Digest → Bool) : BodyCache H :=
  { cache with entries := cache.entries.filter fun e => stuck e.1 }

def evict (cache : BodyCache H) (key : CacheKey H.Digest) : BodyCache H :=
  { cache with entries := cache.entries.filter fun e => e.1 ≠ key }

def damage (cache : BodyCache H) (key : CacheKey H.Digest) (raw : EntryFile H) : BodyCache H :=
  { cache with entries := cache.entries.map fun e => if e.1 = key then (key, raw) else e }

lemma evictOldest_subset (maxBytes : ℕ) (stuck : CacheKey H.Digest → Bool) (total : ℕ)
    (entries : List (CacheKey H.Digest × EntryFile H)) :
    evictOldest maxBytes stuck total entries ⊆ entries := by
  induction entries generalizing total with
  | nil => simp [evictOldest]
  | cons e entries ih =>
    rw [evictOldest]
    split
    · exact List.Subset.refl _
    · split
      · exact List.cons_subset_cons e (ih _)
      · exact List.subset_cons_of_subset e (ih _)

lemma get_hit {cache : BodyCache H} {key : CacheKey H.Digest} {faults : CacheFaults H.Digest}
    {payload : Bytes} (h : (cache.get key faults).1 = some payload) :
    (key, encodeEntry payload) ∈ cache.entries := by
  unfold get at h
  split at h
  · cases h
  · split at h
    · cases h
    next raw hraw =>
      split at h
      · cases h
      next body hbody =>
        obtain rfl := Option.some.inj h
        obtain rfl := verifyEntry_eq_some.mp hbody
        obtain ⟨l₁, l₂, hentries, -⟩ := List.lookup_eq_some_iff.mp hraw
        rw [hentries]
        exact List.mem_append_right _ List.mem_cons_self

lemma get_subset (cache : BodyCache H) (key : CacheKey H.Digest) (faults : CacheFaults H.Digest) :
    (cache.get key faults).2.entries ⊆ cache.entries := by
  unfold get
  split
  · exact List.Subset.refl _
  · split
    · exact List.Subset.refl _
    next raw hraw =>
      have hmem : (key, raw) ∈ cache.entries := by
        obtain ⟨l₁, l₂, hentries, -⟩ := List.lookup_eq_some_iff.mp hraw
        rw [hentries]
        exact List.mem_append_right _ List.mem_cons_self
      split
      · dsimp only
        split
        · exact List.Subset.refl _
        · exact List.filter_subset_self _
      · dsimp only
        split
        · exact List.Subset.refl _
        · intro e he
          rcases KeyedList.mem_put.mp he with rfl | ⟨he, -⟩
          · exact hmem
          · exact he

lemma mem_put_entries {cache : BodyCache H} {key : CacheKey H.Digest} {payload : Bytes}
    {faults : CacheFaults H.Digest} {e : CacheKey H.Digest × EntryFile H}
    (h : e ∈ (cache.put key payload faults).entries) :
    e ∈ cache.entries ∨ e = (key, encodeEntry payload) := by
  unfold put at h
  split at h
  · exact Or.inl h
  · split at h
    · exact Or.inl h
    · split at h
      · exact Or.inl h
      · split at h
        · exact Or.inl h
        · rcases KeyedList.mem_put.mp (evictOldest_subset _ _ _ _ h) with rfl | ⟨he, -⟩
          · exact Or.inr rfl
          · exact Or.inl he

end BodyCache

end ChatStasher.Mirror
