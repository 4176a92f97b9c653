import ChatStasher.Mirror.BodyCache
import ChatStasher.Mirror.Sync

/-! The read backends: the destination behind the body cache, the mirror before the destination, and
the mirror alone. -/
namespace ChatStasher.Mirror

inductive ReadRequest (D : Type)
  | full (kind : FileKind) (id : D)
  | ranged (kind : FileKind) (id : D) (cacheable : Bool) (offset length : ℕ)

def ReadRequest.kind {D : Type} : ReadRequest D → FileKind
  | .full kind _ => kind
  | .ranged kind .. => kind

def ReadRequest.id {D : Type} : ReadRequest D → D
  | .full _ id => id
  | .ranged _ id .. => id

/-- How the copy and the destination answer a read of a range: inside the file with its bytes, past
its end as each of them does. -/
structure RangeReads where
  copy : Bytes → ℕ → ℕ → Option Bytes
  destination : Bytes → ℕ → ℕ → Option Bytes
  copy_within : ∀ bytes offset length, offset + length ≤ bytes.length →
    copy bytes offset length = some ((bytes.drop offset).take length)
  destination_within : ∀ bytes offset length, offset + length ≤ bytes.length →
    destination bytes offset length = some ((bytes.drop offset).take length)

/-- What fails during one read. -/
structure ReadFaults (D : Type) where
  destination : Bool
  copy : Bool
  cache : CacheFaults D

inductive ReadError
  | destination
  | copy
  | corruptCopy
  | offlineAbsent
  deriving DecidableEq

/-- What a read returned, whether it asked the destination, and the cache it left. -/
structure ReadOutcome (H : Sha256) where
  result : Except ReadError Bytes
  askedDestination : Bool
  cache : Option (BodyCache H)

def isBodyRead (kind : FileKind) (cacheable : Bool) : Bool := decide (kind = .pack) && !cacheable

section Backends
variable {H : Sha256}

def heldFile (files : MirrorFiles H.Digest) (kind : FileKind) (id : H.Digest) : Option Bytes :=
  if kind = .config then (files.find? fun f => f.1.1 = .config).map Prod.snd
  else fileAt files kind id

def answer (ranged : Bytes → ℕ → ℕ → Option Bytes) (files : MirrorFiles H.Digest) :
    ReadRequest H.Digest → Option Bytes
  | .full kind id => heldFile files kind id
  | .ranged kind id _ offset length =>
    (heldFile files kind id).bind fun bytes => ranged bytes offset length

variable (reads : RangeReads) (destination mirror : MirrorFiles H.Digest)

def bareRead (request : ReadRequest H.Digest) : Option Bytes :=
  answer reads.destination destination request

def readDestination (request : ReadRequest H.Digest) (faults : ReadFaults H.Digest) :
    Option Bytes :=
  if faults.destination then none else bareRead reads destination request

def readCopy (request : ReadRequest H.Digest) (faults : ReadFaults H.Digest) : Option Bytes :=
  if faults.copy then none else answer reads.copy mirror request

/-- One file read, mirror first; with the bytes, whether they came from the mirror. -/
def readLocalFirst (request : ReadRequest H.Digest) (faults : ReadFaults H.Digest) :
    Except ReadError (Bytes × Bool) × Bool :=
  match readCopy reads mirror request faults with
  | some bytes => (.ok (bytes, true), false)
  | none =>
    if (heldFile mirror request.kind request.id).isSome then (.error .corruptCopy, false)
    else match readDestination reads destination request faults with
    | some bytes => (.ok (bytes, false), true)
    | none => (.error .destination, true)

def readFromCopy (request : ReadRequest H.Digest) (faults : ReadFaults H.Digest) :
    Except ReadError Bytes :=
  match readCopy reads mirror request faults with
  | some bytes => .ok bytes
  | none =>
    if (heldFile mirror request.kind request.id).isSome then .error .corruptCopy
    else .error .offlineAbsent

/-- A read through `BodyCacheBackend`. -/
def bodyCacheRead (cache : BodyCache H) (request : ReadRequest H.Digest)
    (faults : ReadFaults H.Digest) : ReadOutcome H :=
  let fetched := readDestination reads destination request faults
  match request with
  | .full _ _ => ⟨fetched.elim (.error .destination) .ok, true, some cache⟩
  | .ranged kind id cacheable offset length =>
    if !isBodyRead kind cacheable then ⟨fetched.elim (.error .destination) .ok, true, some cache⟩
    else
      let key : CacheKey H.Digest := ⟨id, offset, length⟩
      match cache.get key faults.cache with
      | (some bytes, cache) => ⟨.ok bytes, false, some cache⟩
      | (none, cache) =>
        match fetched with
        | some bytes => ⟨.ok bytes, true, some (cache.put key bytes faults.cache)⟩
        | none => ⟨.error .destination, true, some cache⟩

/-- A read through `MirrorFirstBackend`. -/
def mirrorFirstRead (cache : Option (BodyCache H)) (request : ReadRequest H.Digest)
    (faults : ReadFaults H.Digest) : ReadOutcome H :=
  let fetched := readLocalFirst reads destination mirror request faults
  match request with
  | .full kind id =>
    if kind = .config then
      match readDestination reads destination request faults with
      | some bytes => ⟨.ok bytes, true, cache⟩
      | none =>
        match readCopy reads mirror request faults with
        | some bytes => ⟨.ok bytes, true, cache⟩
        | none =>
          if (heldFile mirror kind id).isSome then ⟨.error .corruptCopy, true, cache⟩
          else ⟨.error .copy, true, cache⟩
    else ⟨fetched.1.map Prod.fst, fetched.2, cache⟩
  | .ranged kind id cacheable offset length =>
    if isBodyRead kind cacheable then
      match cache with
      | none => ⟨fetched.1.map Prod.fst, fetched.2, none⟩
      | some cache =>
        let key : CacheKey H.Digest := ⟨id, offset, length⟩
        match cache.get key faults.cache with
        | (some bytes, cache) => ⟨.ok bytes, false, some cache⟩
        | (none, cache) =>
          match fetched with
          | (.ok (bytes, fromMirror), asked) =>
            ⟨.ok bytes, asked, some (if fromMirror then cache else cache.put key bytes faults.cache)⟩
          | (.error error, asked) => ⟨.error error, asked, some cache⟩
    else ⟨fetched.1.map Prod.fst, fetched.2, cache⟩

/-- A read through `OfflineMirrorBackend`, which holds no destination. -/
def offlineRead (cache : Option (BodyCache H)) (request : ReadRequest H.Digest)
    (faults : ReadFaults H.Digest) : ReadOutcome H :=
  let fetched := readFromCopy reads mirror request faults
  match request with
  | .full _ _ => ⟨fetched, false, cache⟩
  | .ranged kind id cacheable offset length =>
    if isBodyRead kind cacheable then
      match cache with
      | none => ⟨fetched, false, none⟩
      | some cache =>
        match cache.get ⟨id, offset, length⟩ faults.cache with
        | (some bytes, cache) => ⟨.ok bytes, false, some cache⟩
        | (none, cache) => ⟨fetched, false, some cache⟩
    else ⟨fetched, false, cache⟩

end Backends

section Runs
variable {H : Sha256}

/-- What happens to a cache directory: reads through the backends over one destination and its
mirror, and what else touches the entries. -/
inductive SeamAction (H : Sha256)
  | bodyCacheRead (request : ReadRequest H.Digest) (faults : ReadFaults H.Digest)
  | mirrorFirstRead (request : ReadRequest H.Digest) (faults : ReadFaults H.Digest)
  | offlineRead (request : ReadRequest H.Digest) (faults : ReadFaults H.Digest)
  | declareSession (bytes : Option ℕ)
  | evict (key : CacheKey H.Digest)
  | clear (stuck : CacheKey H.Digest → Bool)
  | damage (key : CacheKey H.Digest) (raw : EntryFile H)

def seamStep (reads : RangeReads) (destination mirror : MirrorFiles H.Digest)
    (cache : BodyCache H) : SeamAction H → BodyCache H
  | .bodyCacheRead request faults =>
    ((bodyCacheRead reads destination cache request faults).cache).getD cache
  | .mirrorFirstRead request faults =>
    ((mirrorFirstRead reads destination mirror (some cache) request faults).cache).getD cache
  | .offlineRead request faults =>
    ((offlineRead reads mirror (some cache) request faults).cache).getD cache
  | .declareSession bytes => { cache with session := bytes }
  | .evict key => cache.evict key
  | .clear stuck => cache.clear stuck
  | .damage key raw => cache.damage key raw

def BodyCache.fresh (maxBytes : ℕ) : BodyCache H := ⟨[], maxBytes, none⟩

def LeavesNoOther (cache : BodyCache H) : SeamAction H → Prop
  | .damage key raw => ∀ payload, raw = encodeEntry payload → (key, raw) ∈ cache.entries
  | _ => True

end Runs

end ChatStasher.Mirror
