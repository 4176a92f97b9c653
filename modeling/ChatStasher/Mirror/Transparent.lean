import ChatStasher.Mirror.ReadSeams

/-! Reads through the backends return the destination's bytes. -/
namespace ChatStasher.Mirror

section Reads
variable {H : Sha256} (reads : RangeReads) (destination mirror : MirrorFiles H.Digest)

def entriesOf (cache : Option (BodyCache H)) : List (CacheKey H.Digest × EntryFile H) :=
  (cache.map fun cache => cache.entries).getD []

@[simp] lemma entriesOf_some (cache : BodyCache H) : entriesOf (some cache) = cache.entries := rfl

def ReadRequest.body (key : CacheKey H.Digest) : ReadRequest H.Digest :=
  .ranged .pack key.pack false key.offset key.length

/-- The one entry a read of the destination may add. -/
def Gained (request : ReadRequest H.Digest) (bytes : Bytes)
    (before after : Option (BodyCache H)) : Prop :=
  ∀ e ∈ entriesOf after, e ∈ entriesOf before ∨ ∃ key, request = .body key ∧
    e = (key, encodeEntry bytes)

/-- What a read through `BodyCacheBackend` comes to. -/
inductive CachedRead (cache : BodyCache H) (request : ReadRequest H.Digest)
    (faults : ReadFaults H.Digest) : ReadOutcome H → Prop
  | hit {bytes : Bytes} {after : BodyCache H} (key : CacheKey H.Digest)
      (hrequest : request = .body key) (hentry : (key, encodeEntry bytes) ∈ cache.entries)
      (hafter : after.entries ⊆ cache.entries) :
      CachedRead cache request faults ⟨.ok bytes, false, some after⟩
  | fetched {bytes : Bytes} {after : BodyCache H}
      (hread : readDestination reads destination request faults = some bytes)
      (hafter : Gained request bytes (some cache) (some after)) :
      CachedRead cache request faults ⟨.ok bytes, true, some after⟩
  | failed {after : BodyCache H}
      (hread : readDestination reads destination request faults = none)
      (hafter : after.entries ⊆ cache.entries) :
      CachedRead cache request faults ⟨.error .destination, true, some after⟩

/-- What a read through `MirrorFirstBackend` comes to. -/
inductive FirstRead (cache : Option (BodyCache H)) (request : ReadRequest H.Digest)
    (faults : ReadFaults H.Digest) : ReadOutcome H → Prop
  | config {bytes : Bytes} (hrequest : ∃ id, request = .full .config id)
      (hread : readDestination reads destination request faults = some bytes) :
      FirstRead cache request faults ⟨.ok bytes, true, cache⟩
  | configCopy {bytes : Bytes} (hrequest : ∃ id, request = .full .config id)
      (hnone : readDestination reads destination request faults = none)
      (hread : readCopy reads mirror request faults = some bytes) :
      FirstRead cache request faults ⟨.ok bytes, true, cache⟩
  | configFailed (error : ReadError) (hrequest : ∃ id, request = .full .config id)
      (hnone : readDestination reads destination request faults = none) :
      FirstRead cache request faults ⟨.error error, true, cache⟩
  | hit {before after : BodyCache H} {bytes : Bytes} (hcache : cache = some before)
      (key : CacheKey H.Digest) (hrequest : request = .body key)
      (hentry : (key, encodeEntry bytes) ∈ before.entries)
      (hafter : after.entries ⊆ before.entries) :
      FirstRead cache request faults ⟨.ok bytes, false, some after⟩
  | copied {bytes : Bytes} {after : Option (BodyCache H)}
      (hrequest : ∀ id, request ≠ .full .config id)
      (hread : readCopy reads mirror request faults = some bytes)
      (hafter : entriesOf after ⊆ entriesOf cache) :
      FirstRead cache request faults ⟨.ok bytes, false, after⟩
  | corrupt {after : Option (BodyCache H)} (hrequest : ∀ id, request ≠ .full .config id)
      (hread : readCopy reads mirror request faults = none)
      (hheld : heldFile mirror request.kind request.id ≠ none)
      (hafter : entriesOf after ⊆ entriesOf cache) :
      FirstRead cache request faults ⟨.error .corruptCopy, false, after⟩
  | fetched {bytes : Bytes} {after : Option (BodyCache H)}
      (hrequest : ∀ id, request ≠ .full .config id)
      (hheld : heldFile mirror request.kind request.id = none)
      (hread : readDestination reads destination request faults = some bytes)
      (hafter : Gained request bytes cache after) :
      FirstRead cache request faults ⟨.ok bytes, true, after⟩
  | failed {after : Option (BodyCache H)} (hrequest : ∀ id, request ≠ .full .config id)
      (hheld : heldFile mirror request.kind request.id = none)
      (hread : readDestination reads destination request faults = none)
      (hafter : entriesOf after ⊆ entriesOf cache) :
      FirstRead cache request faults ⟨.error .destination, true, after⟩

/-- What a read through `OfflineMirrorBackend` comes to. -/
inductive OfflineRead (cache : Option (BodyCache H)) (request : ReadRequest H.Digest)
    (faults : ReadFaults H.Digest) : ReadOutcome H → Prop
  | hit {before after : BodyCache H} {bytes : Bytes} (hcache : cache = some before)
      (key : CacheKey H.Digest) (hrequest : request = .body key)
      (hentry : (key, encodeEntry bytes) ∈ before.entries)
      (hafter : after.entries ⊆ before.entries) :
      OfflineRead cache request faults ⟨.ok bytes, false, some after⟩
  | copied {bytes : Bytes} {after : Option (BodyCache H)}
      (hread : readCopy reads mirror request faults = some bytes)
      (hafter : entriesOf after ⊆ entriesOf cache) :
      OfflineRead cache request faults ⟨.ok bytes, false, after⟩
  | failed {error : ReadError} {after : Option (BodyCache H)}
      (hread : readCopy reads mirror request faults = none)
      (hafter : entriesOf after ⊆ entriesOf cache) :
      OfflineRead cache request faults ⟨.error error, false, after⟩

variable {reads destination mirror}

lemma isBodyRead_iff {kind : FileKind} {cacheable : Bool} :
    isBodyRead kind cacheable = true ↔ kind = .pack ∧ cacheable = false := by
  simp [isBodyRead]

lemma Gained.refl (request : ReadRequest H.Digest) (bytes : Bytes) (cache : Option (BodyCache H)) :
    Gained request bytes cache cache := fun _ he => Or.inl he

lemma gained_put (key : CacheKey H.Digest) {before after : BodyCache H} (bytes : Bytes)
    (faults : CacheFaults H.Digest) (h : after.entries ⊆ before.entries) :
    Gained (.body key) bytes (some before) (some (after.put key bytes faults)) := by
  intro e he
  rcases BodyCache.mem_put_entries he with hold | rfl
  · exact Or.inl (h hold)
  · exact Or.inr ⟨key, rfl, rfl⟩

variable (reads destination) in
lemma bodyCacheRead_cases (cache : BodyCache H) (request : ReadRequest H.Digest)
    (faults : ReadFaults H.Digest) : CachedRead reads destination cache request faults
      (bodyCacheRead reads destination cache request faults) := by
  cases request with
  | full kind id =>
    rw [bodyCacheRead]
    cases hread : readDestination reads destination (.full kind id) faults with
    | none => exact .failed hread (List.Subset.refl _)
    | some bytes => exact .fetched hread (Gained.refl _ _ _)
  | ranged kind id cacheable offset length =>
    rw [bodyCacheRead]
    cases hbody : isBodyRead kind cacheable with
    | false =>
      cases hread : readDestination reads destination (.ranged kind id cacheable offset length)
        faults with
      | none => exact .failed hread (List.Subset.refl _)
      | some bytes => exact .fetched hread (Gained.refl _ _ _)
    | true =>
      obtain ⟨rfl, rfl⟩ := isBodyRead_iff.mp hbody
      have hafter := cache.get_subset ⟨id, offset, length⟩ faults.cache
      rcases hget : cache.get ⟨id, offset, length⟩ faults.cache with ⟨hit, after⟩
      rw [hget] at hafter
      simp only [Bool.not_true, Bool.false_eq_true, if_false, hget]
      cases hit with
      | some bytes =>
        exact .hit ⟨id, offset, length⟩ rfl (BodyCache.get_hit (congrArg Prod.fst hget)) hafter
      | none =>
        cases hread : readDestination reads destination (.ranged .pack id false offset length)
          faults with
        | none => exact .failed hread hafter
        | some bytes =>
          exact .fetched hread (gained_put ⟨id, offset, length⟩ bytes faults.cache hafter)

variable (reads destination mirror) in
lemma readLocalFirst_cases (cache : Option (BodyCache H)) {request : ReadRequest H.Digest}
    (faults : ReadFaults H.Digest) (hrequest : ∀ id, request ≠ .full .config id)
    (after : Option (BodyCache H)) (hafter : entriesOf after ⊆ entriesOf cache)
    (stored : Bytes → Option (BodyCache H)) (hstored : ∀ bytes, Gained request bytes cache (stored bytes)) :
    FirstRead reads destination mirror cache request faults
      (match readLocalFirst reads destination mirror request faults with
        | (.ok (bytes, fromMirror), asked) =>
          ⟨.ok bytes, asked, if fromMirror then after else stored bytes⟩
        | (.error error, asked) => ⟨.error error, asked, after⟩) := by
  rw [readLocalFirst]
  cases hcopy : readCopy reads mirror request faults with
  | some bytes => exact .copied hrequest hcopy hafter
  | none =>
    cases hheld : heldFile mirror request.kind request.id with
    | some held => exact .corrupt hrequest hcopy (by simp [hheld]) hafter
    | none =>
      cases hread : readDestination reads destination request faults with
      | some bytes => exact .fetched hrequest hheld hread (hstored bytes)
      | none => exact .failed hrequest hheld hread hafter

variable (reads destination mirror) in
lemma mirrorFirstRead_cases (cache : Option (BodyCache H)) (request : ReadRequest H.Digest)
    (faults : ReadFaults H.Digest) : FirstRead reads destination mirror cache request faults
      (mirrorFirstRead reads destination mirror cache request faults) := by
  -- Where nothing is stored, the mirror-first leg leaves the cache as it was.
  have hplain : ∀ request : ReadRequest H.Digest, (∀ id, request ≠ .full .config id) →
      FirstRead reads destination mirror cache request faults
        ⟨(readLocalFirst reads destination mirror request faults).1.map Prod.fst,
          (readLocalFirst reads destination mirror request faults).2, cache⟩ := by
    intro request hrequest
    have hcases := readLocalFirst_cases reads destination mirror cache faults hrequest cache
      (List.Subset.refl _) (fun _ => cache) fun bytes => Gained.refl request bytes cache
    generalize readLocalFirst reads destination mirror request faults = fetched at hcases ⊢
    obtain ⟨_ | ⟨bytes, fromMirror⟩, asked⟩ := fetched
    · exact hcases
    · cases fromMirror <;> exact hcases
  cases request with
  | full kind id =>
    rw [mirrorFirstRead]
    by_cases hkind : kind = .config
    · subst hkind
      have hrequest : ∃ id', ReadRequest.full FileKind.config id = .full .config id' := ⟨id, rfl⟩
      rw [if_pos rfl]
      cases hread : readDestination reads destination (.full .config id) faults with
      | some bytes => exact .config hrequest hread
      | none =>
        cases hcopy : readCopy reads mirror (.full .config id) faults with
        | some bytes => exact .configCopy hrequest hread hcopy
        | none =>
          dsimp only
          split
          · exact .configFailed _ hrequest hread
          · exact .configFailed _ hrequest hread
    · rw [if_neg hkind]
      exact hplain _ fun id' heq => hkind (ReadRequest.full.inj heq).1
  | ranged kind id cacheable offset length =>
    unfold mirrorFirstRead
    dsimp only
    have hrequest : ∀ id', ReadRequest.ranged kind id cacheable offset length ≠
        .full .config id' := fun _ heq => by cases heq
    split
    next hbody =>
      obtain ⟨rfl, rfl⟩ := isBodyRead_iff.mp hbody
      cases cache with
      | none => exact hplain _ hrequest
      | some cache =>
        have hafter := cache.get_subset ⟨id, offset, length⟩ faults.cache
        rcases hget : cache.get ⟨id, offset, length⟩ faults.cache with ⟨hit, after⟩
        rw [hget] at hafter
        simp only [hget]
        cases hit with
        | some bytes =>
          exact .hit rfl ⟨id, offset, length⟩ rfl (BodyCache.get_hit (congrArg Prod.fst hget))
            hafter
        | none =>
          have hcases := readLocalFirst_cases reads destination mirror (some cache) faults hrequest (some after) hafter
            (fun bytes => some (after.put ⟨id, offset, length⟩ bytes faults.cache))
            fun bytes => gained_put ⟨id, offset, length⟩ bytes _ hafter
          generalize readLocalFirst reads destination mirror (.ranged .pack id false offset length)
            faults = fetched at hcases ⊢
          obtain ⟨_ | ⟨bytes, fromMirror⟩, asked⟩ := fetched
          · exact hcases
          · cases fromMirror <;> exact hcases
    · exact hplain _ hrequest

variable (reads mirror) in
lemma offlineRead_cases (cache : Option (BodyCache H)) (request : ReadRequest H.Digest)
    (faults : ReadFaults H.Digest) : OfflineRead reads mirror cache request faults
      (offlineRead reads mirror cache request faults) := by
  have hcopied : ∀ {after : Option (BodyCache H)}, entriesOf after ⊆ entriesOf cache →
      OfflineRead reads mirror cache request faults
        ⟨readFromCopy reads mirror request faults, false, after⟩ := by
    intro after hafter
    rw [readFromCopy]
    cases hcopy : readCopy reads mirror request faults with
    | some bytes => exact .copied hcopy hafter
    | none =>
      dsimp only
      split <;> exact .failed hcopy hafter
  cases request with
  | full kind id => exact hcopied (List.Subset.refl _)
  | ranged kind id cacheable offset length =>
    unfold offlineRead
    dsimp only
    split
    next hbody =>
      obtain ⟨rfl, rfl⟩ := isBodyRead_iff.mp hbody
      cases cache with
      | none => exact hcopied (List.Subset.refl _)
      | some cache =>
        have hafter := cache.get_subset ⟨id, offset, length⟩ faults.cache
        rcases hget : cache.get ⟨id, offset, length⟩ faults.cache with ⟨hit, after⟩
        rw [hget] at hafter
        simp only [hget]
        cases hit with
        | some bytes =>
          exact .hit rfl ⟨id, offset, length⟩ rfl (BodyCache.get_hit (congrArg Prod.fst hget))
            hafter
        | none => exact hcopied hafter
    · exact hcopied (List.Subset.refl _)

end Reads

section Stored
variable {H : Sha256} (reads : RangeReads) (destination mirror : MirrorFiles H.Digest)

/-- Entries that verify hold what the destination answers for their range. -/
def StoredFrom (cache : BodyCache H) : Prop :=
  ∀ key payload, (key, encodeEntry payload) ∈ cache.entries →
    bareRead reads destination (.body key) = some payload

variable {reads destination mirror} {cache : BodyCache H}

lemma StoredFrom.mono (h : StoredFrom reads destination cache) {after : BodyCache H}
    (hafter : after.entries ⊆ cache.entries) : StoredFrom reads destination after :=
  fun key payload hentry => h key payload (hafter hentry)

lemma readDestination_eq_some {request : ReadRequest H.Digest} {faults : ReadFaults H.Digest}
    {bytes : Bytes} : readDestination reads destination request faults = some bytes ↔
      faults.destination = false ∧ bareRead reads destination request = some bytes := by
  rw [readDestination]
  cases faults.destination <;> simp

lemma readCopy_eq_some {request : ReadRequest H.Digest} {faults : ReadFaults H.Digest}
    {bytes : Bytes} : readCopy reads mirror request faults = some bytes ↔
      faults.copy = false ∧ answer reads.copy mirror request = some bytes := by
  rw [readCopy]
  cases faults.copy <;> simp

lemma StoredFrom.gained (h : StoredFrom reads destination cache)
    {request : ReadRequest H.Digest} {faults : ReadFaults H.Digest} {bytes : Bytes}
    (hread : readDestination reads destination request faults = some bytes) {after : BodyCache H}
    (hafter : Gained request bytes (some cache) (some after)) :
    StoredFrom reads destination after := by
  intro key payload hentry
  rcases hafter _ hentry with hold | ⟨key', rfl, heq⟩
  · exact h key payload hold
  · obtain ⟨rfl, hsame⟩ := Prod.mk.inj heq
    have hpayload := congrArg verifyEntry hsame
    simp only [verifyEntry_encodeEntry, Option.some.injEq] at hpayload
    rw [hpayload]
    exact (readDestination_eq_some.mp hread).2

/-- Whatever happens to a cache but for damage that leaves another complete entry, what it holds is
the destination's. -/
lemma StoredFrom.step (h : StoredFrom reads destination cache) {a : SeamAction H}
    (ha : LeavesNoOther cache a) :
    StoredFrom reads destination (seamStep reads destination mirror cache a) := by
  cases a with
  | bodyCacheRead request faults =>
    have hcases := bodyCacheRead_cases reads destination cache request
      faults
    rw [seamStep]
    generalize bodyCacheRead reads destination cache request faults = outcome at hcases ⊢
    cases hcases with
    | hit _ _ _ hafter => exact h.mono hafter
    | fetched hread hafter => exact h.gained hread hafter
    | failed _ hafter => exact h.mono hafter
  | mirrorFirstRead request faults =>
    have hcases := mirrorFirstRead_cases reads destination mirror (some cache) request faults
    rw [seamStep]
    have hkept : ∀ after : Option (BodyCache H), entriesOf after ⊆ cache.entries →
        StoredFrom reads destination (after.getD cache) := by
      rintro (_ | after) hafter
      · exact h
      · exact h.mono hafter
    generalize mirrorFirstRead reads destination mirror (some cache) request faults = outcome
      at hcases ⊢
    cases hcases with
    | config _ _ => exact h
    | configCopy _ _ _ => exact h
    | configFailed _ _ _ => exact h
    | hit hcache _ _ _ hafter =>
      obtain rfl := Option.some.inj hcache
      exact h.mono hafter
    | copied _ _ hafter => exact hkept _ hafter
    | corrupt _ _ _ hafter => exact hkept _ hafter
    | @fetched bytes after _ _ hread hafter =>
      cases after with
      | none => exact h
      | some after => exact h.gained hread hafter
    | failed _ _ _ hafter => exact hkept _ hafter
  | offlineRead request faults =>
    have hcases := offlineRead_cases reads mirror (some cache) request faults
    rw [seamStep]
    have hkept : ∀ after : Option (BodyCache H), entriesOf after ⊆ cache.entries →
        StoredFrom reads destination (after.getD cache) := by
      rintro (_ | after) hafter
      · exact h
      · exact h.mono hafter
    generalize offlineRead reads mirror (some cache) request faults = outcome at hcases ⊢
    cases hcases with
    | hit hcache _ _ _ hafter =>
      obtain rfl := Option.some.inj hcache
      exact h.mono hafter
    | copied _ hafter => exact hkept _ hafter
    | failed _ hafter => exact hkept _ hafter
  | declareSession bytes => exact h
  | evict key => exact h.mono (List.filter_subset_self _)
  | clear stuck => exact h.mono (List.filter_subset_self _)
  | damage key raw =>
    intro key' payload hentry
    obtain ⟨e, he, heq⟩ := List.mem_map.mp hentry
    split at heq
    · obtain ⟨rfl, rfl⟩ := Prod.mk.inj heq
      exact h key payload (ha payload rfl)
    · exact h key' payload (heq ▸ he)

end Stored

section Transparency
variable {H : Sha256}

def MirrorIntact (mirror : MirrorFiles H.Digest) : Prop :=
  ∀ kind id bytes, kind ≠ .config → fileAt mirror kind id = some bytes → H.digest bytes = id

/-- Each content-addressed file that the mirror holds is intact or absent on the destination. -/
def IntactBeside (destination mirror : MirrorFiles H.Digest) : Prop :=
  ∀ kind id bytes, kind ≠ .config → fileAt mirror kind id ≠ none →
    fileAt destination kind id = some bytes → H.digest bytes = id

/-- A whole file, or a range inside a content-addressed file of the destination. -/
def ReadRequest.Within (destination : MirrorFiles H.Digest) : ReadRequest H.Digest → Prop
  | .full _ _ => True
  | .ranged kind id _ offset length => kind ≠ .config ∧
    ∀ bytes, fileAt destination kind id = some bytes → offset + length ≤ bytes.length

variable (reads : RangeReads) (destination mirror : MirrorFiles H.Digest)

/-- A read through `BodyCacheBackend` is one of the destination. -/
structure CacheTransparent (cache : BodyCache H) (request : ReadRequest H.Digest)
    (faults : ReadFaults H.Digest) : Prop where
  same : ∀ bytes, (bodyCacheRead reads destination cache request faults).result = .ok bytes →
    bareRead reads destination request = some bytes
  answers : faults.destination = false → ∀ bytes,
    bareRead reads destination request = some bytes →
      (bodyCacheRead reads destination cache request faults).result = .ok bytes

/-- A read through `MirrorFirstBackend` is one of the destination. -/
structure MirrorFirstTransparent (cache : Option (BodyCache H)) (request : ReadRequest H.Digest)
    (faults : ReadFaults H.Digest) : Prop where
  same : request.Within destination → (request.kind = .config → faults.destination = false) →
    ∀ bytes served, bareRead reads destination request = some bytes →
      (mirrorFirstRead reads destination mirror cache request faults).result = .ok served →
        served = bytes
  answers : request.Within destination → faults.destination = false → faults.copy = false →
    ∀ bytes, bareRead reads destination request = some bytes →
      (mirrorFirstRead reads destination mirror cache request faults).result = .ok bytes
  otherwise : ∀ bytes,
    (mirrorFirstRead reads destination mirror cache request faults).result = .ok bytes →
      bareRead reads destination request = some bytes ∨
        answer reads.copy mirror request = some bytes
  stored : ∀ e ∈ entriesOf (mirrorFirstRead reads destination mirror cache request faults).cache,
    e ∈ entriesOf cache ∨ heldFile mirror request.kind request.id = none ∧
      (mirrorFirstRead reads destination mirror cache request faults).askedDestination = true ∧
        ∃ key bytes, request = .body key ∧ e = (key, encodeEntry bytes) ∧
          bareRead reads destination request = some bytes
  refused : request.kind ≠ .config → heldFile mirror request.kind request.id ≠ none →
    readCopy reads mirror request faults = none →
      (mirrorFirstRead reads destination mirror cache request faults).askedDestination = false ∧
        ((mirrorFirstRead reads destination mirror cache request faults).result =
            .error .corruptCopy ∨
          ∃ key bytes, request = .body key ∧ (key, encodeEntry bytes) ∈ entriesOf cache ∧
            (mirrorFirstRead reads destination mirror cache request faults).result = .ok bytes)

/-- A read through `OfflineMirrorBackend` asks no destination and returns no other bytes. -/
structure OfflineTransparent (cache : Option (BodyCache H)) (request : ReadRequest H.Digest)
    (faults : ReadFaults H.Digest) : Prop where
  alone : (offlineRead reads mirror cache request faults).askedDestination = false
  same : request.Within destination → ∀ bytes,
    (offlineRead reads mirror cache request faults).result = .ok bytes →
      answer reads.copy mirror request = some bytes ∨
        heldFile mirror request.kind request.id = none ∧
          bareRead reads destination request = some bytes

variable {reads destination mirror} {cache : BodyCache H} {request : ReadRequest H.Digest}
  {faults : ReadFaults H.Digest}

lemma heldFile_eq (hmirror : MirrorIntact mirror) (hdestination : IntactBeside destination mirror)
    {kind : FileKind} (hkind : kind ≠ .config) {id : H.Digest} {copy bytes : Bytes}
    (hcopy : heldFile mirror kind id = some copy)
    (hbytes : heldFile destination kind id = some bytes) : copy = bytes := by
  rw [heldFile, if_neg hkind] at hcopy hbytes
  have hheld : fileAt mirror kind id ≠ none := by simp [hcopy]
  have hdigest := hdestination kind id bytes hkind hheld hbytes
  exact H.digest_injective ((hmirror kind id copy hkind hcopy).trans hdigest.symm)

lemma answer_copy (hmirror : MirrorIntact mirror) (hdestination : IntactBeside destination mirror)
    (hkind : request.kind ≠ .config) (hwithin : request.Within destination)
    (hheld : heldFile mirror request.kind request.id ≠ none) {bytes : Bytes}
    (hbare : bareRead reads destination request = some bytes) :
    answer reads.copy mirror request = some bytes := by
  obtain ⟨copy, hcopy⟩ := Option.ne_none_iff_exists'.mp hheld
  cases request with
  | full kind id =>
    simp only [ReadRequest.kind, ReadRequest.id] at hkind hcopy
    rw [answer, hcopy, heldFile_eq hmirror hdestination hkind hcopy hbare]
  | ranged kind id cacheable offset length =>
    simp only [ReadRequest.kind, ReadRequest.id] at hkind hcopy
    obtain ⟨file, hfile, hrange⟩ := Option.bind_eq_some_iff.mp hbare
    obtain rfl := heldFile_eq hmirror hdestination hkind hcopy hfile
    rw [heldFile, if_neg hkind] at hfile
    have hin := hwithin.2 copy hfile
    rw [reads.destination_within _ _ _ hin] at hrange
    rw [answer, hcopy, Option.bind_some, reads.copy_within _ _ _ hin, hrange]

lemma digest_of_fileAt {files : MirrorFiles H.Digest} (h : ∀ f ∈ files, H.digest f.2 = f.1.2)
    {kind : FileKind} {id : H.Digest} {bytes : Bytes} (hfile : fileAt files kind id = some bytes) :
    H.digest bytes = id := by
  obtain ⟨l₁, l₂, rfl, -⟩ := List.lookup_eq_some_iff.mp hfile
  exact h ((kind, id), bytes) (List.mem_append_right _ List.mem_cons_self)

lemma StoredFrom.cacheTransparent (h : StoredFrom reads destination cache)
    (request : ReadRequest H.Digest) (faults : ReadFaults H.Digest) :
    CacheTransparent reads destination cache request faults := by
  have hcases := bodyCacheRead_cases reads destination cache request
    faults
  refine ⟨fun bytes hresult => ?_, fun hfaults bytes hbare => ?_⟩
  · generalize bodyCacheRead reads destination cache request faults = outcome at hcases hresult
    cases hcases with
    | hit key hrequest hentry _ =>
      obtain rfl := Except.ok.inj hresult
      rw [hrequest]
      exact h key _ hentry
    | fetched hread _ =>
      obtain rfl := Except.ok.inj hresult
      exact (readDestination_eq_some.mp hread).2
    | failed _ _ => cases hresult
  · have hread := readDestination_eq_some.mpr ⟨hfaults, hbare⟩
    generalize bodyCacheRead reads destination cache request faults = outcome at hcases ⊢
    cases hcases with
    | hit key hrequest hentry _ =>
      have hstored := h key _ hentry
      rw [← hrequest, hbare] at hstored
      rw [Option.some.inj hstored]
    | fetched hsame _ => rw [Option.some.inj (hread.symm.trans hsame)]
    | failed hnone _ => exact absurd (hread.symm.trans hnone) (by simp)

lemma ReadRequest.Within.kind_ne_config (h : request.Within destination)
    (hrequest : ∀ id, request ≠ .full .config id) : request.kind ≠ .config := by
  cases request with
  | full kind id => exact fun hkind => hrequest id (congrArg (ReadRequest.full · id) hkind)
  | ranged kind id cacheable offset length => exact h.1

lemma heldFile_ne_none {ranged : Bytes → ℕ → ℕ → Option Bytes} {bytes : Bytes}
    (h : answer ranged mirror request = some bytes) :
    heldFile mirror request.kind request.id ≠ none := by
  cases request with
  | full kind id =>
    simp only [answer] at h
    simp [ReadRequest.kind, ReadRequest.id, h]
  | ranged kind id cacheable offset length =>
    obtain ⟨file, hfile, -⟩ := Option.bind_eq_some_iff.mp h
    simp [ReadRequest.kind, ReadRequest.id, hfile]

/-- Where the bytes of a read through `MirrorFirstBackend` come from. -/
lemma FirstRead.source {store : Option (BodyCache H)} {outcome : ReadOutcome H}
    (h : FirstRead reads destination mirror store request faults outcome) {bytes : Bytes}
    (hresult : outcome.result = .ok bytes) :
    readDestination reads destination request faults = some bytes ∨
      (∃ key, request = .body key ∧ (key, encodeEntry bytes) ∈ entriesOf store) ∨
      readCopy reads mirror request faults = some bytes ∧
        ((∀ id, request ≠ .full .config id) ∨
          readDestination reads destination request faults = none) := by
  cases h with
  | config _ hread =>
    obtain rfl := Except.ok.inj hresult
    exact Or.inl hread
  | configCopy _ hnone hread =>
    obtain rfl := Except.ok.inj hresult
    exact Or.inr (Or.inr ⟨hread, Or.inr hnone⟩)
  | hit hcache key hrequest hentry _ =>
    obtain rfl := Except.ok.inj hresult
    subst hcache
    exact Or.inr (Or.inl ⟨key, hrequest, hentry⟩)
  | copied hrequest hread _ =>
    obtain rfl := Except.ok.inj hresult
    exact Or.inr (Or.inr ⟨hread, Or.inl hrequest⟩)
  | fetched _ _ hread _ =>
    obtain rfl := Except.ok.inj hresult
    exact Or.inl hread
  | configFailed => cases hresult
  | corrupt => cases hresult
  | failed => cases hresult

lemma FirstRead.error {store : Option (BodyCache H)} {outcome : ReadOutcome H}
    (h : FirstRead reads destination mirror store request faults outcome) {error : ReadError}
    (hresult : outcome.result = .error error) :
    readDestination reads destination request faults = none ∨
      (∀ id, request ≠ .full .config id) ∧ readCopy reads mirror request faults = none ∧
        heldFile mirror request.kind request.id ≠ none := by
  cases h with
  | configFailed _ _ hnone => exact Or.inl hnone
  | corrupt hrequest hread hheld _ => exact Or.inr ⟨hrequest, hread, hheld⟩
  | failed _ _ hread _ => exact Or.inl hread
  | config => cases hresult
  | configCopy => cases hresult
  | hit => cases hresult
  | copied => cases hresult
  | fetched => cases hresult

lemma StoredFrom.mirrorFirstTransparent (h : StoredFrom reads destination cache)
    (hmirror : MirrorIntact mirror) (hdestination : IntactBeside destination mirror)
    {store : Option (BodyCache H)} (hstore : store = none ∨ store = some cache)
    (request : ReadRequest H.Digest) (faults : ReadFaults H.Digest) :
    MirrorFirstTransparent reads destination mirror store request faults := by
  have hcases := mirrorFirstRead_cases reads destination mirror store request faults
  generalize houtcome : mirrorFirstRead reads destination mirror store request faults = outcome
    at hcases
  have hhit : ∀ {key : CacheKey H.Digest} {bytes : Bytes},
      (key, encodeEntry bytes) ∈ entriesOf store →
        bareRead reads destination (.body key) = some bytes := by
    intro key bytes hentry
    rcases hstore with rfl | rfl
    · cases hentry
    · exact h key bytes hentry
  have hsame : request.Within destination → (request.kind = .config → faults.destination = false) →
      ∀ bytes served, bareRead reads destination request = some bytes →
        outcome.result = .ok served → served = bytes := by
    intro hwithin hconfig bytes served hbare hresult
    rcases hcases.source hresult with hread | ⟨key, rfl, hentry⟩ | ⟨hread, hrequest⟩
    · exact Option.some.inj ((readDestination_eq_some.mp hread).2.symm.trans hbare)
    · exact Option.some.inj ((hhit hentry).symm.trans hbare)
    · have hcopy := (readCopy_eq_some.mp hread).2
      by_cases hkind : request.kind = .config
      · -- Only a whole `config` is read, and from the copy only where the destination failed.
        have hnone := hrequest.resolve_left fun hnot => hwithin.kind_ne_config hnot hkind
        have hread := readDestination_eq_some.mpr ⟨hconfig hkind, hbare⟩
        exact absurd (hread.symm.trans hnone) (by simp)
      · have hbytes := answer_copy hmirror hdestination hkind hwithin (heldFile_ne_none hcopy) hbare
        exact Option.some.inj (hcopy.symm.trans hbytes)
  refine ⟨?_, ?_, ?_, ?_, ?_⟩ <;> rw [houtcome]
  · exact hsame
  · intro hwithin hremote hlocal bytes hbare
    have hread := readDestination_eq_some.mpr ⟨hremote, hbare⟩
    cases hresult : outcome.result with
    | ok served => rw [hsame hwithin (fun _ => hremote) bytes served hbare hresult]
    | error error =>
      rcases hcases.error hresult with hnone | ⟨hrequest, hnone, hheld⟩
      · exact absurd (hread.symm.trans hnone) (by simp)
      · have hkind := hwithin.kind_ne_config hrequest
        have hcopy := readCopy_eq_some.mpr
          ⟨hlocal, answer_copy hmirror hdestination hkind hwithin hheld hbare⟩
        exact absurd (hcopy.symm.trans hnone) (by simp)
  · intro bytes hresult
    rcases hcases.source hresult with hread | ⟨key, rfl, hentry⟩ | ⟨hread, -⟩
    · exact Or.inl (readDestination_eq_some.mp hread).2
    · exact Or.inl (hhit hentry)
    · exact Or.inr (readCopy_eq_some.mp hread).2
  · intro e he
    cases hcases with
    | config => exact Or.inl he
    | configCopy => exact Or.inl he
    | configFailed => exact Or.inl he
    | hit hcache _ _ _ hafter =>
      subst hcache
      exact Or.inl (hafter he)
    | copied _ _ hafter => exact Or.inl (hafter he)
    | corrupt _ _ _ hafter => exact Or.inl (hafter he)
    | failed _ _ _ hafter => exact Or.inl (hafter he)
    | @fetched bytes after _ hheld hread hafter =>
      refine (hafter e he).imp_right ?_
      rintro ⟨key, hrequest, rfl⟩
      exact ⟨hheld, rfl, key, bytes, hrequest, rfl, (readDestination_eq_some.mp hread).2⟩
  · intro hkind hheld hnone
    cases hcases with
    | config hrequest =>
      obtain ⟨id, rfl⟩ := hrequest
      exact absurd rfl hkind
    | configCopy hrequest =>
      obtain ⟨id, rfl⟩ := hrequest
      exact absurd rfl hkind
    | configFailed _ hrequest =>
      obtain ⟨id, rfl⟩ := hrequest
      exact absurd rfl hkind
    | hit hcache key hrequest hentry _ =>
      subst hcache
      exact ⟨rfl, Or.inr ⟨key, _, hrequest, hentry, rfl⟩⟩
    | copied _ hread _ => exact absurd (hread.symm.trans hnone) (by simp)
    | corrupt => exact ⟨rfl, Or.inl rfl⟩
    | fetched _ hnot _ _ => exact absurd hnot hheld
    | failed _ hnot _ _ => exact absurd hnot hheld

lemma StoredFrom.offlineTransparent (h : StoredFrom reads destination cache)
    (hmirror : MirrorIntact mirror) (hdestination : IntactBeside destination mirror)
    {store : Option (BodyCache H)} (hstore : store = none ∨ store = some cache)
    (request : ReadRequest H.Digest) (faults : ReadFaults H.Digest) :
    OfflineTransparent reads destination mirror store request faults := by
  have hcases := offlineRead_cases reads mirror store request faults
  generalize houtcome : offlineRead reads mirror store request faults = outcome at hcases
  refine ⟨?_, ?_⟩ <;> rw [houtcome]
  · cases hcases <;> rfl
  · intro hwithin bytes hresult
    cases hcases with
    | hit hcache key hrequest hentry _ =>
      obtain rfl := Except.ok.inj hresult
      subst hrequest
      obtain rfl := Option.some.inj ((hstore.resolve_left (by simp [hcache])).symm.trans hcache)
      have hbare := h key _ hentry
      by_cases hheld : heldFile mirror (ReadRequest.body key).kind (ReadRequest.body key).id = none
      · exact Or.inr ⟨hheld, hbare⟩
      · have hkind : (ReadRequest.body key).kind ≠ .config := hwithin.1
        exact Or.inl (answer_copy hmirror hdestination hkind hwithin hheld hbare)
    | copied hread _ =>
      obtain rfl := Except.ok.inj hresult
      exact Or.inl (readCopy_eq_some.mp hread).2
    | failed => cases hresult

/-- After any run, each backend returns the destination's bytes, the mirror's bytes enter no cache, a
mirror file that fails its read fails the read, and the offline backend stays alone. -/
theorem read_seams_transparent (reads : RangeReads) (destination mirror : MirrorFiles H.Digest)
    (hmirror : MirrorIntact mirror) (hdestination : IntactBeside destination mirror)
    (maxBytes : ℕ) (actions : List (SeamAction H))
    (hdamage : StepRun.Along (seamStep reads destination mirror) LeavesNoOther
      (BodyCache.fresh maxBytes) actions) :
    let cache := StepRun.exec (seamStep reads destination mirror) (BodyCache.fresh maxBytes) actions
    ∀ (request : ReadRequest H.Digest) (faults : ReadFaults H.Digest),
      CacheTransparent reads destination cache request faults ∧
        ∀ store, store = none ∨ store = some cache →
          MirrorFirstTransparent reads destination mirror store request faults ∧
            OfflineTransparent reads destination mirror store request faults := by
  intro cache request faults
  have hstep : ∀ (cache : BodyCache H) (a : SeamAction H), StoredFrom reads destination cache →
      LeavesNoOther cache a →
        StoredFrom reads destination (seamStep reads destination mirror cache a) :=
    fun _ _ h ha => h.step ha
  have hfresh : StoredFrom reads destination (BodyCache.fresh (H := H) maxBytes) := by
    simp [StoredFrom, BodyCache.fresh]
  have h : StoredFrom reads destination cache := StepRun.invariant hstep hfresh hdamage
  exact ⟨h.cacheTransparent request faults, fun store hstore =>
    ⟨h.mirrorFirstTransparent hmirror hdestination hstore request faults,
      h.offlineTransparent hmirror hdestination hstore request faults⟩⟩

end Transparency

/-- A copy that refuses a range past the end of a file, and a destination that cuts it short. -/
def RangeReads.cutting : RangeReads where
  copy bytes offset length :=
    if offset + length ≤ bytes.length then some ((bytes.drop offset).take length) else none
  destination bytes offset length := some ((bytes.drop offset).take length)
  copy_within _ _ _ h := if_pos h
  destination_within _ _ _ _ := rfl

def ReadFaults.none {D : Type} : ReadFaults D :=
  ⟨false, false, ⟨false, false, false, false, fun _ => false⟩⟩

/-- A body fetched and stored, its entry cut short, and read again. -/
theorem read_seams_transparent_after_damage :
    let destination : MirrorFiles Sha256.verbatim.Digest :=
      [((.pack, [7, 8]), [7, 8]), ((.pack, [9]), [9])]
    let mirror : MirrorFiles Sha256.verbatim.Digest := [((.pack, [9]), [9])]
    let request : ReadRequest Sha256.verbatim.Digest := .ranged .pack [7, 8] false 1 1
    let cache : BodyCache .verbatim :=
      StepRun.exec (seamStep .cutting destination mirror) (BodyCache.fresh 100)
        [.mirrorFirstRead request .none, .damage ⟨[7, 8], 1, 1⟩ (.short [67])]
    (mirrorFirstRead .cutting destination mirror (some cache) request .none).result = .ok [8] := by
  intro destination mirror request cache
  have hmirror : MirrorIntact mirror :=
    fun _ _ _ _ hfile => digest_of_fileAt (List.forall_mem_singleton.mpr rfl) hfile
  have hdestination : IntactBeside destination mirror :=
    fun _ _ _ _ _ hfile => digest_of_fileAt
      (List.forall_mem_cons.mpr ⟨rfl, List.forall_mem_singleton.mpr rfl⟩) hfile
  have hwithin : request.Within destination := by
    refine ⟨by decide, fun bytes hfile => ?_⟩
    obtain rfl : [7, 8] = bytes := Option.some.inj hfile
    decide
  have htransparent := read_seams_transparent .cutting destination mirror hmirror hdestination 100
    [.mirrorFirstRead request .none, .damage ⟨[7, 8], 1, 1⟩ (.short [67])]
    ⟨trivial, fun payload h => (by cases h), trivial⟩ request .none
  exact (htransparent.2 (some cache) (Or.inr rfl)).1.answers hwithin rfl rfl [8] rfl

/-- A destination whose own file is damaged, a damaged `config` of the mirror, an entry replaced by
another entry, and a range past the end of a file. -/
theorem read_seams_depart_from_destination :
    let pack : MirrorFiles Sha256.verbatim.Digest := [((.pack, [9]), [9])]
    let damaged : MirrorFiles Sha256.verbatim.Digest := [((.pack, [9]), [7])]
    let config : MirrorFiles Sha256.verbatim.Digest := [((.config, []), [5])]
    let broken : ReadFaults Sha256.verbatim.Digest := { ReadFaults.none with copy := true }
    let body : ReadRequest Sha256.verbatim.Digest := .ranged .pack [9] false 0 1
    let past : ReadRequest Sha256.verbatim.Digest := .ranged .pack [9] false 0 2
    let swapped : BodyCache .verbatim := StepRun.exec (seamStep .cutting pack [])
      (BodyCache.fresh 100) [.bodyCacheRead body .none, .damage ⟨[9], 0, 1⟩ (encodeEntry [8])]
    ((mirrorFirstRead .cutting damaged pack none (.full .pack [9]) .none).result = .ok [9] ∧
      bareRead .cutting damaged (.full .pack [9]) = some [7]) ∧
    (readCopy .cutting config (.full .config []) broken = none ∧
      (mirrorFirstRead .cutting config config none (.full .config []) broken).askedDestination = true ∧
      (mirrorFirstRead .cutting config config none (.full .config []) broken).result = .ok [5]) ∧
    ((bodyCacheRead .cutting pack swapped body .none).result = .ok [8] ∧
      bareRead .cutting pack body = some [9]) ∧
    ((mirrorFirstRead .cutting pack pack none past .none).result = .error .corruptCopy ∧
      bareRead .cutting pack past = some [9]) := by
  refine ⟨⟨rfl, rfl⟩, ⟨rfl, rfl, rfl⟩, ⟨rfl, rfl⟩, ⟨rfl, rfl⟩⟩

end ChatStasher.Mirror
