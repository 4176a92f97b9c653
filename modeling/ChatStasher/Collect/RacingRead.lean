import ChatStasher.Collect.ReadSpec

/-! One pass over a plain JSONL source that somebody may write between any two file operations. -/
namespace ChatStasher
namespace Racing

/-- What each file operation on the source finds, in their order; `none` is no file. A read that a
write tears finds a version nobody else sees. -/
abbrev Sightings := ℕ → Option SourceFile

/-- The next file operation, and what the hash cache remembers for the source. -/
structure Reads (D : Type) where
  next : ℕ
  cache : Option (PrefixCacheEntry D)

def Reads.tick {D : Type} (r : Reads D) : Reads D := { r with next := r.next + 1 }

@[simp] lemma Reads.tick_next {D : Type} (r : Reads D) : r.tick.next = r.next + 1 := rfl

@[simp] lemma Reads.tick_cache {D : Type} (r : Reads D) : r.tick.cache = r.cache := rfl

/-- How one of the consistent-read attempts ends. -/
inductive Attempt
  | failed
  | again
  | read (data : ReadData)

def readRetries : ℕ := 3

variable (H : Sha256) (seen : Sightings)

/-- sha256 of the first `offset` bytes under the stat taken before: remembered for that stat, or
read now and remembered under that stat. -/
def prefixSha256 (r : Reads H.Digest) (stat : SourceFile) (offset : ℕ) :
    Option (HashAnswer H.Digest) × Reads H.Digest :=
  let miss :=
    match seen r.next with
    | none => (none, r.tick)
    | some now =>
      let read := now.bytes.take offset
      (some ⟨H.digest read, read.length, false⟩, ⟨r.next + 1,
        if stat.mtimeNs.isSome ∧ read.length = offset then
          some ⟨stat.identity, offset, H.digest read⟩
        else r.cache⟩)
  match r.cache with
  | some entry =>
    if entry.offset = offset ∧ isSameFile entry.file stat.identity then
      (some ⟨entry.sha256, 0, true⟩, r)
    else miss
  | none => miss

/-- Exactly `len` bytes from `start`; a file that ends before them is an error. -/
def readRange (r : Reads H.Digest) (start len : ℕ) : Option Bytes × Reads H.Digest :=
  let read := (seen r.next).bind fun now =>
    let bytes := (now.bytes.drop start).take len
    if bytes.length = len then some bytes else none
  (read, r.tick)

/-- The file is shorter or the committed prefix changed: everything the stat promised. -/
def readFull (r : Reads H.Digest) (before : SourceFile) (reset : Bool) : Attempt × Reads H.Digest :=
  let size := before.bytes.length
  match readRange H seen r 0 size with
  | (none, r) => (.failed, r)
  | (some full, r) =>
    match seen r.next with
    | none => (.failed, r.tick)
    | some after =>
      if after.bytes.length ≠ size then (.again, r.tick)
      else (.read ⟨size, 0, full, size, 0, reset⟩, r.tick)

/-- What lies behind a cursor whose prefix just hashed to what it recorded, if it still does. -/
def readDelta (r : Reads H.Digest) (before : SourceFile) (entry : OffsetEntry H.Digest)
    (check : HashAnswer H.Digest) : Attempt × Reads H.Digest :=
  let size := before.bytes.length
  match readRange H seen r entry.offset (size - entry.offset) with
  | (none, r) => (.failed, r)
  | (some delta, r) =>
    let data : ReadData := ⟨size, entry.offset, delta, size - entry.offset,
      if check.fromCache then 0 else check.bytesRead, false⟩
    match seen r.next with
    | none => (.failed, r.tick)
    | some after =>
      let r := r.tick
      if after.bytes.length ≠ size then (.again, r)
      else if check.fromCache then
        if isSameFile before.identity after.identity then (.read data, r) else (.again, r)
      else if check.bytesRead = entry.offset then
        match readRange H seen r 0 entry.offset with
        | (none, r) => (.failed, r)
        | (some prefixAfter, r) =>
          if H.digest prefixAfter ≠ entry.prefixSha256 then (.again, r) else (.read data, r)
      else (.again, r)

/-- One attempt to read the delta of a single version of the file. -/
def attempt (r : Reads H.Digest) (old : Option (OffsetEntry H.Digest)) (forceReset : Bool) :
    Attempt × Reads H.Digest :=
  match seen r.next with
  | none => (.failed, r.tick)
  | some before =>
    let r := r.tick
    let reusable := old.filter fun entry =>
      !forceReset && !entry.compressed && entry.prefixLen == entry.offset &&
        decide (entry.offset ≤ before.bytes.length)
    match reusable with
    | none => readFull H seen r before old.isSome
    | some entry =>
      match prefixSha256 H seen r before entry.offset with
      | (none, r) => (.failed, r)
      | (some check, r) =>
        if check.sha256 = entry.prefixSha256 then readDelta H seen r before entry check
        else readFull H seen r before old.isSome

def readAttempts (old : Option (OffsetEntry H.Digest)) (forceReset : Bool) :
    ℕ → Reads H.Digest → Option ReadData × Reads H.Digest
  | 0, r => (none, r)
  | retries + 1, r =>
    match attempt H seen r old forceReset with
    | (.failed, r) => (none, r)
    | (.again, r) => readAttempts old forceReset retries r
    | (.read data, r) => (some data, r)

def readJsonlDelta (r : Reads H.Digest) (old : Option (OffsetEntry H.Digest))
    (forceReset : Bool) : Option ReadData × Reads H.Digest :=
  readAttempts H seen old forceReset readRetries r

/-- The cursor at `offset`, by a stat and a digest of its own. -/
def plainState (r : Reads H.Digest) (offset : ℕ) :
    Option (OffsetEntry H.Digest) × Reads H.Digest :=
  match seen r.next with
  | none => (none, r.tick)
  | some stat =>
    match prefixSha256 H seen r.tick stat offset with
    | (none, r) => (none, r)
    | (some read, r) =>
      if !read.fromCache && read.bytesRead != offset then (none, r)
      else (some ⟨offset, offset, read.sha256, false⟩, r)

/-- Does the retained manifest summary already account for the lines of a full read? -/
def matchesManifest (input : PassInput H.Digest) (manifestFact : Option (ShardFact H.Digest))
    (old : Option (OffsetEntry H.Digest)) (forceReset : Bool) (baseOffset : ℕ)
    (lines : List Bytes) : Bool :=
  !forceReset && old.isSome && baseOffset == 0 && !lines.isEmpty &&
    byteEqualityEstablishesEventIdentity input.record &&
    manifestHoldsThisFramed H manifestFact (sealFramedLines lines)

/-- The new cursor is taken before the lines read are sealed. -/
def processJsonl (input : PassInput H.Digest) (manifestFact : Option (ShardFact H.Digest))
    (r : Reads H.Digest) (d : SessionDir) (old : Option (OffsetEntry H.Digest))
    (forceReset : Bool) :
    Option (Processed H.Digest) × SessionDir × Reads H.Digest :=
  match readJsonlDelta H seen r old forceReset with
  | (none, r) => (none, d, r)
  | (some data, r) =>
    let (lines, committedDelta) := completeLines data.bytes
    let newOffset := data.baseOffset + committedDelta
    if matchesManifest H input manifestFact old forceReset data.baseOffset lines then
      match plainState H seen r newOffset with
      | (none, r) => (none, d, r)
      | (some state, r) => (some ⟨state, 0, none, false⟩, d, r)
    else
      let newState :=
        if lines.isEmpty && !data.reset then (some (old.getD (zeroCursor H)), r)
        else plainState H seen r newOffset
      match newState with
      | (none, r) => (none, d, r)
      | (some state, r) =>
        if lines.isEmpty then (some ⟨state, 0, none, data.reset⟩, d, r)
        else
          match writeShardInDir H d input.bucketCap
              (.store (sealFramedLines lines) .collect
                (allowsExactRepeat H input.record old data)) with
          | (none, d) => (none, d, r)
          | (some write, d) =>
            (some ⟨state, lines.length, some write.filename, data.reset⟩, d, r)

section Quiet
variable {H} {source : SourceFile} {r : Reads H.Digest}

lemma prefixSha256_quiet (offset : ℕ) : ∃ n,
    prefixSha256 H (fun _ => some source) r source offset =
      (some (ChatStasher.prefixSha256 H r.cache source offset).1,
        ⟨n, (ChatStasher.prefixSha256 H r.cache source offset).2⟩) := by
  unfold prefixSha256 ChatStasher.prefixSha256
  cases hcache : r.cache with
  | none => exact ⟨_, rfl⟩
  | some e =>
    dsimp only
    split
    next => exact ⟨r.next, by rw [← hcache]⟩
    next => exact ⟨_, rfl⟩

lemma prefixSha256_validates {cache : Cache H} {offset : ℕ} (hle : offset ≤ source.bytes.length) :
    let answer := (ChatStasher.prefixSha256 H cache source offset).1
    (answer.fromCache = true ∧ isSameFile source.identity source.identity = true) ∨
      (answer.fromCache = false ∧ answer.bytesRead = offset ∧
        answer.sha256 = H.digest (source.bytes.take offset)) := by
  have hlen : (source.bytes.take offset).length = offset := List.length_take_of_le hle
  unfold ChatStasher.prefixSha256
  cases cache with
  | none => exact Or.inr ⟨rfl, hlen, rfl⟩
  | some e =>
    dsimp only
    split
    next hhit =>
      exact Or.inl ⟨rfl, isSameFile_iff.mpr ⟨(isSameFile_iff.mp hhit.2).1, rfl⟩⟩
    next => exact Or.inr ⟨rfl, hlen, rfl⟩

lemma readRange_quiet {start len : ℕ} (h : start + len ≤ source.bytes.length) :
    readRange H (fun _ => some source) r start len =
      (some ((source.bytes.drop start).take len), r.tick) := by
  have hlen : ((source.bytes.drop start).take len).length = len := by
    rw [List.length_take, List.length_drop]
    omega
  rw [readRange, Option.bind_some]
  dsimp only
  rw [if_pos hlen]

lemma readFull_quiet (reset : Bool) : ∃ n,
    readFull H (fun _ => some source) r source reset =
      (.read ⟨source.bytes.length, 0, source.bytes, source.bytes.length, 0, reset⟩,
        ⟨n, r.cache⟩) := by
  refine ⟨r.next + 2, ?_⟩
  unfold readFull
  dsimp only
  rw [readRange_quiet (by omega), List.drop_zero, List.take_length]
  simp [Reads.tick]

lemma readDelta_quiet {cache : Cache H} {entry : OffsetEntry H.Digest}
    (hle : entry.offset ≤ source.bytes.length)
    (hsha : (ChatStasher.prefixSha256 H cache source entry.offset).1.sha256 = entry.prefixSha256) :
    let check := (ChatStasher.prefixSha256 H cache source entry.offset).1
    ∃ n, readDelta H (fun _ => some source) r source entry check =
      (.read ⟨source.bytes.length, entry.offset, source.bytes.drop entry.offset,
        source.bytes.length - entry.offset, if check.fromCache then 0 else check.bytesRead, false⟩,
        ⟨n, r.cache⟩) := by
  intro check
  have hdelta : (source.bytes.drop entry.offset).take (source.bytes.length - entry.offset) =
      source.bytes.drop entry.offset := List.take_of_length_le (by rw [List.length_drop])
  unfold readDelta
  dsimp only
  rw [readRange_quiet (by omega), hdelta]
  rcases @prefixSha256_validates H source cache entry.offset hle with ⟨hcached, hsame⟩ | ⟨hread, hwhole, hdigest⟩
  · refine ⟨r.next + 2, ?_⟩
    simp [Reads.tick, check, hcached, hsame]
  · refine ⟨r.next + 3, ?_⟩
    have hstart : H.digest (source.bytes.take entry.offset) = entry.prefixSha256 :=
      hdigest.symm.trans hsha
    dsimp only
    rw [readRange_quiet (by omega)]
    simp [Reads.tick, check, hread, hwhole, hstart]

lemma readJsonlDelta_quiet (old : Option (OffsetEntry H.Digest)) (forceReset : Bool) : ∃ n,
    readJsonlDelta H (fun _ => some source) r old forceReset =
      (some (ChatStasher.readJsonlDelta H r.cache source old forceReset).1,
        ⟨n, (ChatStasher.readJsonlDelta H r.cache source old forceReset).2⟩) := by
  have hattempt : ∃ n, attempt H (fun _ => some source) r old forceReset =
      (.read (ChatStasher.readJsonlDelta H r.cache source old forceReset).1,
        ⟨n, (ChatStasher.readJsonlDelta H r.cache source old forceReset).2⟩) := by
    unfold attempt ChatStasher.readJsonlDelta
    dsimp only
    generalize hreuse : old.filter _ = reusable
    cases reusable with
    | none => exact readFull_quiet old.isSome
    | some entry =>
      have hle : entry.offset ≤ source.bytes.length := by
        have := (Option.filter_eq_some_iff.mp hreuse).2
        simp only [Bool.and_eq_true, decide_eq_true_eq] at this
        exact this.2
      obtain ⟨n, hread⟩ := @prefixSha256_quiet H source r.tick entry.offset
      dsimp only
      rw [hread]
      dsimp only [Reads.tick_cache]
      by_cases hsha :
          (ChatStasher.prefixSha256 H r.cache source entry.offset).1.sha256 = entry.prefixSha256
      · simp only [if_pos hsha]
        exact readDelta_quiet hle hsha
      · simp only [if_neg hsha]
        exact readFull_quiet old.isSome
  obtain ⟨n, hattempt⟩ := hattempt
  refine ⟨n, ?_⟩
  unfold readJsonlDelta readRetries readAttempts
  rw [hattempt]

lemma readJsonlDelta_bounds (cache : Cache H) (old : Option (OffsetEntry H.Digest))
    (forceReset : Bool) :
    let data := (ChatStasher.readJsonlDelta H cache source old forceReset).1
    data.baseOffset + (completePart data.bytes).length ≤ source.bytes.length := by
  have hpart : ∀ bytes, (completePart bytes).length ≤ bytes.length := fun bytes =>
    (completePart_isPrefix bytes).length_le
  unfold ChatStasher.readJsonlDelta
  dsimp only
  split
  next => simpa using hpart source.bytes
  next entry hentry =>
    have hle : entry.offset ≤ source.bytes.length := by
      have := (Option.filter_eq_some_iff.mp hentry).2
      simp only [Bool.and_eq_true, decide_eq_true_eq] at this
      exact this.2
    split
    next =>
      have := hpart (source.bytes.drop entry.offset)
      rw [List.length_drop] at this
      dsimp only
      omega
    next => simpa using hpart source.bytes

lemma plainState_quiet {offset : ℕ} (hle : offset ≤ source.bytes.length) : ∃ n state cache,
    plainState H (fun _ => some source) r offset = (some state, ⟨n, cache⟩) ∧
      ChatStasher.plainState H r.cache source offset = some (state, cache) := by
  obtain ⟨n, hread⟩ := @prefixSha256_quiet H source r.tick offset
  have hwhole : ¬ (!(ChatStasher.prefixSha256 H r.cache source offset).1.fromCache &&
      (ChatStasher.prefixSha256 H r.cache source offset).1.bytesRead != offset) = true := by
    rcases @prefixSha256_validates H source r.cache offset hle with ⟨hcached, -⟩ | ⟨-, hwhole, -⟩
    · simp [hcached]
    · simp [hwhole]
  unfold plainState ChatStasher.plainState
  dsimp only
  rw [hread]
  dsimp only [Reads.tick_cache]
  rw [if_neg hwhole, if_neg hwhole]
  exact ⟨n, _, _, rfl, rfl⟩

/-- Over a file that nobody writes the pass is the one of an unchanging source. -/
theorem processJsonl_quiet (input : PassInput H.Digest)
    (manifestFact : Option (ShardFact H.Digest)) (d : SessionDir)
    (old : Option (OffsetEntry H.Digest)) (forceReset : Bool) : ∃ n,
    processJsonl H (fun _ => some source) input manifestFact r d old forceReset =
      ((ChatStasher.processJsonl H input manifestFact r.cache source d old forceReset).1,
        (ChatStasher.processJsonl H input manifestFact r.cache source d old forceReset).2.1,
        ⟨n, (ChatStasher.processJsonl H input manifestFact r.cache source d old forceReset).2.2⟩) := by
  obtain ⟨n, hread⟩ := @readJsonlDelta_quiet H source r old forceReset
  have hbound := @readJsonlDelta_bounds H source r.cache old forceReset
  unfold processJsonl ChatStasher.processJsonl
  rw [hread]
  generalize ChatStasher.readJsonlDelta H r.cache source old forceReset = read at hbound
  obtain ⟨data, cache⟩ := read
  dsimp only at hbound ⊢
  rw [completeLines_eq]
  dsimp only
  obtain ⟨m, state, cache', hplain, hplain'⟩ := @plainState_quiet H source ⟨n, cache⟩ _ hbound
  rw [hplain, hplain', matchesManifest]
  split
  next => exact ⟨m, rfl⟩
  next =>
    by_cases hkeep : ((linesOf data.bytes).isEmpty && !data.reset) = true
    · rw [if_pos hkeep, if_pos hkeep]
      dsimp only
      have hnil : (linesOf data.bytes).isEmpty = true := (Bool.and_eq_true _ _ ▸ hkeep).1
      rw [if_pos hnil, if_pos hnil]
      exact ⟨n, rfl⟩
    · rw [if_neg hkeep, if_neg hkeep]
      dsimp only
      split
      next => exact ⟨m, rfl⟩
      next =>
        generalize writeShardInDir H d input.bucketCap _ = written
        obtain ⟨write, d'⟩ := written
        cases write with
        | none => exact ⟨m, rfl⟩
        | some write => exact ⟨m, rfl⟩

end Quiet

end Racing
end ChatStasher
