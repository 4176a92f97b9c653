import ChatStasher.Store.Names

/-! One shard write, cut at its file operations. -/
namespace ChatStasher

/-- The sequence numbers of the shard files present, readable or not. -/
def SessionDir.shardNumbers (d : SessionDir) : List ℕ :=
  d.files.filterMap fun f => shardNumber f.path.name

def StoredFile.isShard (f : StoredFile) : Bool := (shardNumber f.path.name).isSome

def SessionDir.shardFiles (d : SessionDir) : List StoredFile := d.files.filter StoredFile.isShard

/-- `fs::rename` inside the directory; `none` when there is nothing to move. -/
def SessionDir.rename (d : SessionDir) (source target : ShardPath) : Option SessionDir :=
  match d.files.find? fun f => f.path = source with
  | none => none
  | some f =>
    some ({ d with files := d.files.filter fun g => g.path ≠ source }.install target f.bytes)

def inboxTmpSuffix : FileName := ['.', 'j', 's', 'o', 'n', 'l', '.', 't', 'm', 'p']

/-- The temporary file a write of shard `seq` is prepared in. -/
def tmpPath (source : ShardSource) (seq bucketCap : ℕ) : ShardPath :=
  ⟨some (shardBucketName seq bucketCap),
    if source.isInbox then zeroPadded 6 seq ++ inboxTmpSuffix
    else '.' :: shardFilename seq ++ ['t', 'm', 'p']⟩

def cleanStaleTmp (d : SessionDir) : SessionDir :=
  { d with files := d.files.filter fun f => ¬ inboxTmpSuffix <:+ f.path.name }

/-- What the counter stands at before an allocation; `none` when it cannot be used. -/
def highWaterMark (d : SessionDir) : Option ℕ :=
  match d.counter with
  | .missing => some (deriveShardHighWaterInDir d)
  | .loaded seq => some seq
  | .unusable => none

/-- How far a write has come: counter read, counter persisted, temporary file synced, target
checked to be absent. -/
inductive WritePhase
  | counted (highWater : ℕ)
  | numbered (seq : ℕ)
  | staged (seq : ℕ)
  | checked (seq : ℕ)
  deriving DecidableEq

structure Writing where
  source : ShardSource
  bucketCap : ℕ
  phase : WritePhase
  deriving DecidableEq

/-- The directory after one file operation, the write still in flight, and the sequence number
that operation installed, if it was the install. -/
structure WriteStep where
  dir : SessionDir
  writing : Option Writing
  installed : Option ℕ

variable (H : Sha256)

/-- Deduplicate, clean up and read the counter. -/
def beginWrite (d : SessionDir) (source : ShardSource) (bucketCap : ℕ) : WriteStep :=
  if source.dedup ∧ (findDuplicateShardInDir H d source.raw).isSome then ⟨d, none, none⟩
  else
    let d := if source.isInbox then cleanStaleTmp d else d
    match highWaterMark d with
    | none => ⟨d, none, none⟩
    | some highWater => ⟨d, some ⟨source, bucketCap, .counted highWater⟩, none⟩

/-- Rename the prepared bytes onto the shard's path. -/
def installShard (d : SessionDir) (w : Writing) (seq : ℕ) : WriteStep :=
  let target := shardPathInDir seq w.bucketCap
  match w.source with
  | .active raw => ⟨d.install target raw, none, some seq⟩
  | _ =>
    match d.rename (tmpPath w.source seq w.bucketCap) target with
    | none => ⟨d, none, none⟩
    | some d => ⟨d, none, some seq⟩

def checkTarget (d : SessionDir) (w : Writing) (seq : ℕ) : WriteStep :=
  if shardPathInDir seq w.bucketCap ∈ d.paths then ⟨d, none, none⟩
  else ⟨d, some { w with phase := .checked seq }, none⟩

/-- The next file operation of a write. The counter is a `u64`, so its increment wraps. -/
def advanceWrite (d : SessionDir) (w : Writing) : WriteStep :=
  match w.phase with
  | .counted highWater =>
    let next := (highWater + 1) % 2 ^ 64
    ⟨{ d with counter := .loaded next }, some { w with phase := .numbered next }, none⟩
  | .numbered seq =>
    match w.source with
    | .active _ => checkTarget d w seq
    | _ =>
      ⟨d.install (tmpPath w.source seq w.bucketCap) w.source.raw,
        some { w with phase := .staged seq }, none⟩
  | .staged seq => if w.source.isInbox then installShard d w seq else checkTarget d w seq
  | .checked seq => installShard d w seq

section Tmp

lemma tmpPath_number (source : ShardSource) (seq bucketCap : ℕ) :
    shardNumber (tmpPath source seq bucketCap).name = none := by
  apply shardNumber_of_getLast
  rw [tmpPath]
  dsimp only
  split
  · simp [inboxTmpSuffix]
  · have hlast : '.' :: shardFilename seq ++ ['t', 'm', 'p'] =
        ('.' :: shardFilename seq ++ ['t', 'm']) ++ ['p'] := by simp
    rw [hlast, List.getLast?_concat]
    decide

lemma shardNumber_of_inboxTmp {name : FileName} (h : inboxTmpSuffix <:+ name) :
    shardNumber name = none := by
  obtain ⟨base, rfl⟩ := h
  apply shardNumber_of_getLast
  simp [inboxTmpSuffix]

end Tmp

section ShardFiles

lemma SessionDir.mem_shardNumbers {d : SessionDir} {seq : ℕ} :
    seq ∈ d.shardNumbers ↔ ∃ f ∈ d.files, f.path.name = shardFilename seq := by
  simp only [shardNumbers, List.mem_filterMap, shardNumber_eq_some]

lemma mem_sealedShardEntries {d : SessionDir} {seq : ℕ} {f : StoredFile} :
    (seq, f) ∈ sealedShardEntries d ↔
      f ∈ d.files ∧ f.path.name = shardFilename seq ∧ seq < 10 ^ 6 := by
  simp only [sealedShardEntries, List.mem_filterMap, Option.map_eq_some_iff, Prod.mk.injEq,
    parseShardSeq_eq_some]
  constructor
  · rintro ⟨g, hg, s, ⟨hs, hlt⟩, rfl, rfl⟩
    exact ⟨hg, hs, hlt⟩
  · rintro ⟨hf, hs, hlt⟩
    exact ⟨f, hf, seq, ⟨hs, hlt⟩, rfl, rfl⟩

lemma SessionDir.shardNumbers_eq (d : SessionDir) :
    d.shardNumbers = d.shardFiles.filterMap fun f => shardNumber f.path.name := by
  rw [shardNumbers, shardFiles, List.filterMap_filter]
  refine List.filterMap_congr fun f _ => ?_
  cases hf : shardNumber f.path.name <;> simp [StoredFile.isShard, hf]

lemma sealedShardEntries_eq (d : SessionDir) :
    sealedShardEntries d = d.shardFiles.filterMap fun f =>
      (parseShardSeq f.path.name).map (·, f) := by
  rw [sealedShardEntries, SessionDir.shardFiles, List.filterMap_filter]
  refine List.filterMap_congr fun f _ => ?_
  cases hf : shardNumber f.path.name with
  | none => simp [StoredFile.isShard, hf, parse_of_shardNumber hf]
  | some _ => simp [StoredFile.isShard, hf]

lemma shardNumbers_congr {d e : SessionDir} (h : d.shardFiles = e.shardFiles) :
    d.shardNumbers = e.shardNumbers ∧ sealedShardEntries d = sealedShardEntries e := by
  rw [d.shardNumbers_eq, e.shardNumbers_eq, sealedShardEntries_eq d, sealedShardEntries_eq e, h]
  exact ⟨rfl, rfl⟩

lemma shardFiles_cleanStaleTmp (d : SessionDir) :
    (cleanStaleTmp d).shardFiles = d.shardFiles := by
  rw [SessionDir.shardFiles, cleanStaleTmp, List.filter_filter]
  refine List.filter_congr fun f _ => ?_
  by_cases hf : inboxTmpSuffix <:+ f.path.name
  · simp [StoredFile.isShard, shardNumber_of_inboxTmp hf]
  · simp [hf]

lemma shardFiles_installTmp (d : SessionDir) (source : ShardSource) (seq cap : ℕ) (b : Bytes) :
    (d.install (tmpPath source seq cap) b).shardFiles = d.shardFiles := by
  have htmp : (StoredFile.mk (tmpPath source seq cap) b).isShard = false := by
    simp [StoredFile.isShard, tmpPath_number]
  rw [SessionDir.shardFiles, SessionDir.install, List.filter_append, List.filter_filter,
    List.filter_singleton, htmp, cond_false, List.append_nil]
  refine List.filter_congr fun f _ => ?_
  by_cases hf : f.path = tmpPath source seq cap
  · simp [StoredFile.isShard, hf, tmpPath_number]
  · simp [hf]

lemma shardFiles_install {d : SessionDir} {seq cap : ℕ} {b : Bytes}
    (hfree : seq ∉ d.shardNumbers) :
    (d.install (shardPathInDir seq cap) b).shardFiles =
      d.shardFiles ++ [⟨shardPathInDir seq cap, b⟩] := by
  have hnew : (StoredFile.mk (shardPathInDir seq cap) b).isShard = true := by
    simp [StoredFile.isShard, shardPathInDir]
  rw [SessionDir.shardFiles, SessionDir.install, List.filter_append, List.filter_filter,
    List.filter_singleton, hnew, cond_true]
  congr 1
  refine List.filter_congr fun f hf => ?_
  have hne : f.path ≠ shardPathInDir seq cap := fun heq =>
    hfree (SessionDir.mem_shardNumbers.mpr ⟨f, hf, by rw [heq]; rfl⟩)
  simp [hne]

lemma shardNumbers_install {d : SessionDir} {seq cap : ℕ} {b : Bytes}
    (hfree : seq ∉ d.shardNumbers) :
    (d.install (shardPathInDir seq cap) b).shardNumbers = d.shardNumbers ++ [seq] := by
  have hfilter : (d.files.filter fun f => f.path ≠ shardPathInDir seq cap) = d.files := by
    refine List.filter_eq_self.mpr fun f hf => ?_
    have hne : f.path ≠ shardPathInDir seq cap := fun heq =>
      hfree (SessionDir.mem_shardNumbers.mpr ⟨f, hf, by rw [heq]; rfl⟩)
    simp [hne]
  rw [SessionDir.shardNumbers, SessionDir.install, hfilter, List.filterMap_append]
  simp [SessionDir.shardNumbers, shardPathInDir]

lemma rename_tmp {d e : SessionDir} {source : ShardSource} {seq cap : ℕ}
    (h : d.rename (tmpPath source seq cap) (shardPathInDir seq cap) = some e)
    (hfree : seq ∉ d.shardNumbers) :
    e.counter = d.counter ∧ e.shardNumbers = d.shardNumbers ++ [seq] ∧
      ∃ b, e.shardFiles = d.shardFiles ++ [⟨shardPathInDir seq cap, b⟩] := by
  rw [SessionDir.rename] at h
  split at h
  · cases h
  next f hf =>
    have hsame : ({ d with files := d.files.filter fun g => g.path ≠ tmpPath source seq cap } :
        SessionDir).shardFiles = d.shardFiles := by
      rw [SessionDir.shardFiles, List.filter_filter]
      refine List.filter_congr fun g _ => ?_
      by_cases hg : g.path = tmpPath source seq cap
      · simp [StoredFile.isShard, hg, tmpPath_number]
      · simp [hg]
    have hnum := (shardNumbers_congr hsame).1
    have hfree' := hnum ▸ hfree
    cases h
    exact ⟨rfl, by rw [shardNumbers_install hfree', hnum], f.bytes, by
      rw [shardFiles_install hfree', hsame]⟩

end ShardFiles

end ChatStasher
