import ChatStasher.Collect.Runs

/-! What the reads of a pass establish: digests, deltas, fresh cursors and covered positions. -/
namespace ChatStasher

abbrev linesOf (bytes : Bytes) : List Bytes := Framing.records newline bytes

abbrev Terminated (bytes : Bytes) : Prop := Framing.Terminated newline bytes

def completePart (bytes : Bytes) : Bytes := sealFramedLines (linesOf bytes)

lemma completePart_isPrefix (bytes : Bytes) : completePart bytes <+: bytes :=
  Framing.complete_isPrefix newline bytes

lemma completePart_terminated (bytes : Bytes) : Terminated (completePart bytes) :=
  Framing.terminated_frame newline (Framing.sep_notMem_records newline bytes)

@[simp] lemma linesOf_completePart (bytes : Bytes) : linesOf (completePart bytes) = linesOf bytes :=
  Framing.records_frame newline (Framing.sep_notMem_records newline bytes)

lemma completeLines_eq (bytes : Bytes) :
    completeLines bytes = (linesOf bytes, (completePart bytes).length) :=
  Prod.ext rfl (Framing.frame_completeRecords newline bytes).choose_spec.2.1

lemma linesOf_append {a : Bytes} (h : Terminated a) (b : Bytes) :
    linesOf (a ++ b) = linesOf a ++ linesOf b := h.records_append newline b

lemma completePart_append {a : Bytes} (h : Terminated a) (b : Bytes) :
    completePart (a ++ b) = a ++ completePart b := by
  rw [completePart, linesOf_append h, sealFramedLines, Framing.frame_append]
  exact congrArg (· ++ _) h

@[simp] lemma linesOf_eq_nil {bytes : Bytes} : linesOf bytes = [] ↔ completePart bytes = [] := by
  rw [completePart, sealFramedLines, Framing.frame_eq_nil]

section Digest
variable {H : Sha256} {versions : List SourceFile} {cache : Cache H} {source : SourceFile}

/-- The remembered digest was computed from a version the source has had. -/
def CacheSound (H : Sha256) (versions : List SourceFile) (cache : Cache H) : Prop :=
  ∀ e ∈ cache, e.file.mtimeNs.isSome ∧ ∃ v ∈ versions, v.identity = e.file ∧
    e.offset ≤ v.bytes.length ∧ e.sha256 = H.digest (v.bytes.take e.offset)

lemma prefixSha256_sound (ha : Unaliased versions) (hs : source ∈ versions)
    (hc : CacheSound H versions cache) {offset : ℕ} (ho : offset ≤ source.bytes.length) :
    (prefixSha256 H cache source offset).1.sha256 = H.digest (source.bytes.take offset) ∧
      CacheSound H versions (prefixSha256 H cache source offset).2 ∧
      ((prefixSha256 H cache source offset).1.fromCache = true ∨
        (prefixSha256 H cache source offset).1.bytesRead = offset) := by
  have hlen : (source.bytes.take offset).length = offset := List.length_take_of_le ho
  have hmiss : CacheSound H versions (if source.mtimeNs.isSome ∧
      (source.bytes.take offset).length = offset then
        some ⟨source.identity, offset, H.digest (source.bytes.take offset)⟩ else cache) := by
    split
    next h =>
      intro e he
      obtain rfl := Option.some.inj he
      exact ⟨h.1, source, hs, rfl, ho, rfl⟩
    next => exact hc
  cases cache with
  | none => exact ⟨rfl, hmiss, Or.inr hlen⟩
  | some e =>
    simp only [prefixSha256]
    split
    next hhit =>
      obtain ⟨hoff, hsame⟩ := hhit
      simp only [isSameFile, Bool.and_eq_true, beq_iff_eq] at hsame
      obtain ⟨-, v, hv, hid, -, hsha⟩ := hc e rfl
      have hmtime : v.mtimeNs.isSome := by
        have : v.mtimeNs = e.file.mtimeNs := congrArg FileIdentity.mtimeNs hid
        rw [this]
        exact hsame.1
      have hbytes := ha v hv source hs (hid.trans hsame.2) hmtime
      rw [hoff, hbytes] at hsha
      exact ⟨hsha, hc, Or.inl rfl⟩
    next => exact ⟨rfl, hmiss, Or.inr hlen⟩

lemma plainState_sound (ha : Unaliased versions) (hs : source ∈ versions)
    (hc : CacheSound H versions cache) {offset : ℕ} (ho : offset ≤ source.bytes.length) :
    ∃ cache', plainState H cache source offset =
      some (⟨offset, offset, H.digest (source.bytes.take offset), false⟩, cache') ∧
        CacheSound H versions cache' := by
  obtain ⟨hsha, hcache, hread⟩ := prefixSha256_sound ha hs hc ho
  refine ⟨(prefixSha256 H cache source offset).2, ?_, hcache⟩
  simp only [plainState, hsha]
  rw [if_neg]
  rcases hread with h | h <;> simp [h]

/-- A cursor a delta read accepts: still in order, and describing the source's own beginning. -/
structure Reusable (H : Sha256) (bytes : Bytes) (e : OffsetEntry H.Digest) : Prop where
  plain : e.compressed = false
  whole : e.prefixLen = e.offset
  le : e.offset ≤ bytes.length
  digest : H.digest (bytes.take e.offset) = e.prefixSha256

/-- Where a delta read starts, and whether it is a reset: behind a cursor that was just proved,
or at the beginning. -/
inductive ReadStart (H : Sha256) (bytes : Bytes) (old : Option (OffsetEntry H.Digest))
    (forceReset : Bool) : ℕ → Bool → Prop
  | cursor (e : OffsetEntry H.Digest) (hold : old = some e) (hforce : forceReset = false)
      (hreuse : Reusable H bytes e) : ReadStart H bytes old forceReset e.offset false
  | beginning (hnot : ∀ e, old = some e → forceReset = false → ¬ Reusable H bytes e) :
      ReadStart H bytes old forceReset 0 old.isSome

lemma ReadStart.le_length {bytes : Bytes} {old : Option (OffsetEntry H.Digest)}
    {forceReset reset : Bool} {base : ℕ} (h : ReadStart H bytes old forceReset base reset) :
    base ≤ bytes.length := by
  cases h with
  | cursor e _ _ hreuse => exact hreuse.le
  | beginning => exact Nat.zero_le _

lemma ReadStart.reset_eq {bytes : Bytes} {old : Option (OffsetEntry H.Digest)}
    {forceReset reset : Bool} {base : ℕ} (h : ReadStart H bytes old forceReset base reset) :
    reset = true → base = 0 := by
  cases h with
  | cursor => exact fun h => absurd h Bool.false_ne_true
  | beginning => exact fun _ => rfl

theorem readJsonlDelta_spec (ha : Unaliased versions) (hs : source ∈ versions)
    (hc : CacheSound H versions cache) (old : Option (OffsetEntry H.Digest)) (forceReset : Bool) :
    ∃ data cache', readJsonlDelta H cache source old forceReset = (data, cache') ∧
      CacheSound H versions cache' ∧ data.bytes = source.bytes.drop data.baseOffset ∧
      ReadStart H source.bytes old forceReset data.baseOffset data.reset := by
  simp only [readJsonlDelta]
  split
  next hnone =>
    refine ⟨_, _, rfl, hc, rfl, .beginning fun e hold hforce hreuse => ?_⟩
    rw [hold, Option.filter_eq_none_iff] at hnone
    have := hnone e rfl
    simp [hforce, hreuse.plain, hreuse.whole, hreuse.le] at this
  next e he =>
    obtain ⟨hold, hflags⟩ := Option.filter_eq_some_iff.mp he
    simp only [Bool.and_eq_true, Bool.not_eq_true', beq_iff_eq, decide_eq_true_eq] at hflags
    obtain ⟨⟨⟨hforce, hplain⟩, hwhole⟩, hle⟩ := hflags
    obtain ⟨hsha, hcache, -⟩ := prefixSha256_sound ha hs hc hle
    split
    next heq =>
      exact ⟨_, _, rfl, hcache, rfl, .cursor e hold hforce ⟨hplain, hwhole, hle, hsha.symm.trans heq⟩⟩
    next hne =>
      refine ⟨_, _, rfl, hcache, rfl, .beginning fun e' hold' _ hreuse => hne ?_⟩
      obtain rfl : e = e' := Option.some.inj (hold.symm.trans hold')
      exact hsha.trans hreuse.digest

end Digest

section Covered

/-- The covered position is the end of the longest run of leading source lines that the stage
holds contiguously. -/
theorem coveredSourcePrefix_spec (stage source : Bytes) :
    coveredSourcePrefix stage source = (sealFramedLines ((linesOf source).take
      (PrefixScan.longestPrefixRun (linesOf source) (linesOf stage)))).length := by
  have hsum : ∀ lines : List Bytes, (lines.map fun line => line.length + 1).sum =
      (sealFramedLines lines).length := fun lines => (Framing.length_frame newline lines).symm
  simp only [coveredSourcePrefix, completeLines_eq, hsum]
  split
  next h => simp [h, sealFramedLines]
  next h =>
    split
    next hall => rw [hall, List.take_length]; rfl
    next =>
      exact min_eq_left (Framing.frame_length_mono newline (List.take_prefix _ _))

lemma take_coveredSourcePrefix (stage source : Bytes) :
    source.take (coveredSourcePrefix stage source) = sealFramedLines ((linesOf source).take
      (PrefixScan.longestPrefixRun (linesOf source) (linesOf stage))) := by
  have hpre : sealFramedLines ((linesOf source).take
      (PrefixScan.longestPrefixRun (linesOf source) (linesOf stage))) <+: source :=
    (Framing.frame_isPrefix newline (List.take_prefix _ _)).trans (completePart_isPrefix source)
  rw [coveredSourcePrefix_spec]
  exact (List.prefix_iff_eq_take.mp hpre).symm

/-- The covered position is the byte length of the longest run of leading complete source lines that
stands contiguously among the stage's complete lines: a line boundary of the source. -/
theorem coveredSourcePrefix_longest_run (stage source : Bytes) :
    ∃ run, IsGreatest {k | k ≤ (completeLines source).1.length ∧
        (completeLines source).1.take k <:+: (completeLines stage).1} run ∧
      coveredSourcePrefix stage source =
        (((completeLines source).1.take run).map fun line => line.length + 1).sum ∧
      coveredSourcePrefix stage source ≤ (completeLines source).2 ∧
      source.take (coveredSourcePrefix stage source) =
        sealFramedLines ((completeLines source).1.take run) := by
  refine ⟨PrefixScan.longestPrefixRun (linesOf source) (linesOf stage), ?_, ?_, ?_, ?_⟩
  · exact PrefixScan.longestPrefixRun_covers _ _
  · rw [coveredSourcePrefix_spec]
    exact Framing.length_frame newline _
  · rw [coveredSourcePrefix_spec, completeLines_eq]
    exact Framing.frame_length_mono newline (List.take_prefix _ _)
  · exact take_coveredSourcePrefix stage source

end Covered

end ChatStasher
