import ChatStasher.Collect.ReadSpec

/-! What one pass does, case by case, on a stage that only its own writer numbers. -/
namespace ChatStasher

variable {H : Sha256}

def cursorAt (H : Sha256) (bytes : Bytes) (offset : ℕ) : OffsetEntry H.Digest :=
  ⟨offset, offset, H.digest (bytes.take offset), false⟩

lemma cursorAt_of_isPrefix {a b : Bytes} (h : a <+: b) {n : ℕ} (hn : n ≤ a.length) :
    cursorAt H a n = cursorAt H b n := by
  obtain ⟨t, rfl⟩ := h
  rw [cursorAt, cursorAt, List.take_append_of_le_length hn]

/-- The three things a pass can do with the bytes behind its start: find that the archive holds
them all, find no complete line, or seal the complete lines and move the cursor behind them. -/
inductive PassEffect (input : PassInput H.Digest) (manifestFact : Option (ShardFact H.Digest))
    (bytes : Bytes) (d : SessionDir) (old : Option (OffsetEntry H.Digest)) (base : ℕ)
    (reset : Bool) : Processed H.Digest → SessionDir → Prop
  | archived (fact : ShardFact H.Digest) (hfact : manifestFact = some fact) (hbase : base = 0)
      (hsha : fact.concatSha256 = H.digest (completePart (bytes.drop base))) :
      PassEffect input manifestFact bytes d old base reset
        ⟨cursorAt H bytes (base + (completePart (bytes.drop base)).length), 0, none, false⟩ d
  | quiet (state : OffsetEntry H.Digest) (hlines : linesOf (bytes.drop base) = [])
      (hstate : reset = false ∧ state = old.getD (zeroCursor H) ∨
        reset = true ∧ state = cursorAt H bytes 0) :
      PassEffect input manifestFact bytes d old base reset ⟨state, 0, none, reset⟩ d
  | seals (hlines : linesOf (bytes.drop base) ≠ []) (data : ReadData)
      (hbase : data.baseOffset = base) (hreset : data.reset = reset) (write : ShardWrite)
      (d' : SessionDir) (hwrite : writeShardInDir H d input.bucketCap
        (.store (completePart (bytes.drop base)) .collect
          (allowsExactRepeat H input.record old data)) = (some write, d')) :
      PassEffect input manifestFact bytes d old base reset
        ⟨cursorAt H bytes (base + (completePart (bytes.drop base)).length),
          (linesOf (bytes.drop base)).length, some write.filename, reset⟩ d'

lemma sha_of_manifestHoldsThisFramed {manifestFact : Option (ShardFact H.Digest)} {framed : Bytes}
    (h : manifestHoldsThisFramed H manifestFact framed = true) :
    ∃ fact, manifestFact = some fact ∧ fact.concatSha256 = H.digest framed := by
  cases manifestFact with
  | none => simp [manifestHoldsThisFramed] at h
  | some fact =>
    simp only [manifestHoldsThisFramed, Option.any_some, Bool.and_eq_true, beq_iff_eq] at h
    exact ⟨fact, rfl, h.2⟩

lemma Holds.writeShard_isSome {d : SessionDir} {shards : List (ℕ × Bytes)} (h : Holds d shards)
    (cap : ℕ) (source : ShardSource) :
    ∃ write d', writeShardInDir H d cap source = (some write, d') := by
  rcases h.writeShard H cap source with ⟨-, -, -, name, hname⟩ | ⟨-, hw⟩
  · exact ⟨_, _, Prod.ext hname rfl⟩
  · exact ⟨_, _, hw⟩

section Pass
variable {versions : List SourceFile} {cache : Cache H} {source : SourceFile}
  {d : SessionDir} {shards : List (ℕ × Bytes)}

lemma drop_complete_le (base : ℕ) (bytes : Bytes) (h : base ≤ bytes.length) :
    base + (completePart (bytes.drop base)).length ≤ bytes.length := by
  have := (completePart_isPrefix (bytes.drop base)).length_le
  rw [List.length_drop] at this
  omega

theorem processJsonl_spec (ha : Unaliased versions) (hs : source ∈ versions)
    (hc : CacheSound H versions cache) (hd : Holds d shards) (input : PassInput H.Digest)
    (manifestFact : Option (ShardFact H.Digest)) (old : Option (OffsetEntry H.Digest))
    (forceReset : Bool) :
    ∃ processed d' cache' base reset,
      processJsonl H input manifestFact cache source d old forceReset =
        (some processed, d', cache') ∧ CacheSound H versions cache' ∧
      ReadStart H source.bytes old forceReset base reset ∧
      PassEffect input manifestFact source.bytes d old base reset processed d' := by
  obtain ⟨data, cache₁, hread, hc₁, hbytes, hstart⟩ :=
    readJsonlDelta_spec ha hs hc old forceReset
  have hle := hstart.le_length
  have hnew := drop_complete_le data.baseOffset source.bytes hle
  obtain ⟨cache₂, hplain, hc₂⟩ := plainState_sound ha hs hc₁ hnew
  simp only [processJsonl, hread, completeLines_eq, hbytes]
  split
  next hm =>
    simp only [Bool.and_eq_true, beq_iff_eq] at hm
    obtain ⟨⟨⟨⟨-, hbase⟩, -⟩, -⟩, hholds⟩ := hm
    obtain ⟨fact, hfact, hsha⟩ := sha_of_manifestHoldsThisFramed hholds
    rw [hplain]
    exact ⟨_, _, _, _, _, rfl, hc₂, hstart, .archived fact hfact hbase hsha⟩
  next =>
    by_cases hlines : linesOf (source.bytes.drop data.baseOffset) = []
    · have hnil : completePart (source.bytes.drop data.baseOffset) = [] := linesOf_eq_nil.mp hlines
      cases hreset : data.reset with
      | false =>
        simp only [hlines, List.isEmpty_nil, Bool.not_false, Bool.and_self, if_true]
        exact ⟨_, _, _, _, _, rfl, hc₁, hreset ▸ hstart, .quiet _ hlines (Or.inl ⟨rfl, rfl⟩)⟩
      | true =>
        have hbase : data.baseOffset = 0 := hstart.reset_eq hreset
        rw [hnil, List.length_nil, Nat.add_zero] at hplain
        simp only [hlines, hnil, List.isEmpty_nil, Bool.not_true, Bool.and_false, List.length_nil,
          Nat.add_zero, hplain, Bool.false_eq_true, if_false, if_true]
        refine ⟨_, _, _, _, _, rfl, hc₂, hreset ▸ hstart, .quiet _ hlines (Or.inr ⟨rfl, ?_⟩)⟩
        rw [hbase]
        rfl
    · obtain ⟨write, d', hwrite⟩ := hd.writeShard_isSome (H := H) input.bucketCap
        (.store (completePart (source.bytes.drop data.baseOffset)) .collect
          (allowsExactRepeat H input.record old data))
      have hne : (linesOf (source.bytes.drop data.baseOffset)).isEmpty = false := by
        simpa using hlines
      have hwrite' := hwrite
      rw [completePart] at hwrite'
      simp only [hne, Bool.false_and, Bool.false_eq_true, if_false, hplain, hwrite']
      exact ⟨_, _, _, _, _, rfl, hc₂, hstart, .seals hlines data rfl rfl write d' hwrite⟩

/-- The position the stage covers, computed without the cache. -/
def stagePosition (H : Sha256) (source : SourceFile) (d : SessionDir)
    (manifestFact : Option (ShardFact H.Digest)) : Option (OffsetEntry H.Digest) :=
  if stageSealedShards d = [] then
    manifestFact.bind fun fact =>
      if (0 < fact.concatBytes ∧ fact.concatBytes ≤ source.bytes.length) ∧
          H.digest (source.bytes.take fact.concatBytes) = fact.concatSha256 then
        some (cursorAt H source.bytes fact.concatBytes)
      else none
  else jsonlPrefixEntryFromShards H source (stageSealedShards d).flatten

lemma stagePrefixEntry_eq (ha : Unaliased versions) (hs : source ∈ versions)
    (hc : CacheSound H versions cache) (d : SessionDir)
    (manifestFact : Option (ShardFact H.Digest)) :
    ∃ cache', stagePrefixEntry H cache source d manifestFact =
      (stagePosition H source d manifestFact, cache') ∧ CacheSound H versions cache' := by
  by_cases hshards : stageSealedShards d = []
  · cases manifestFact with
    | none => exact ⟨cache, by simp [stagePrefixEntry, stagePosition, hshards], hc⟩
    | some fact =>
      by_cases hbounds : 0 < fact.concatBytes ∧ fact.concatBytes ≤ source.bytes.length
      · obtain ⟨hsha, hcache, -⟩ := prefixSha256_sound ha hs hc hbounds.2
        by_cases heq : H.digest (source.bytes.take fact.concatBytes) = fact.concatSha256
        · exact ⟨_, by simp [stagePrefixEntry, stagePosition, hshards, hbounds, hsha, heq, cursorAt],
            hcache⟩
        · exact ⟨_, by simp [stagePrefixEntry, stagePosition, hshards, hbounds, hsha, heq], hcache⟩
      · exact ⟨cache, by simp [stagePrefixEntry, stagePosition, hshards, hbounds], hc⟩
  · exact ⟨cache, by simp [stagePrefixEntry, stagePosition, hshards], hc⟩

/-- The cursor a pass hands to the read, computed without the cache. -/
def startCursor (H : Sha256) (record : SessionRecord) (source : SourceFile)
    (stored : Option (DebtEntry H.Digest)) (unverifiable : Bool) (d : SessionDir)
    (manifestFact : Option (ShardFact H.Digest)) : Option (OffsetEntry H.Digest) :=
  match stored with
  | none =>
    if record.hasProvenance && !record.movableRoot then none else stagePosition H source d none
  | some entry =>
    let consulted := !unverifiable &&
      (if sessionStageLen d ≤ entry.cursor.offset then
        manifestFact.any fun fact => decide (entry.cursor.offset < fact.concatBytes)
      else true)
    let covered := (stagePosition H source d manifestFact).filter fun covered =>
      consulted && decide (entry.cursor.offset < covered.offset)
    some (covered.getD entry.cursor)

lemma cursorOrStageCoveredPosition_eq (ha : Unaliased versions) (hs : source ∈ versions)
    (hc : CacheSound H versions cache) (record : SessionRecord) (entry : DebtEntry H.Digest)
    (unverifiable : Bool) (d : SessionDir) (manifestFact : Option (ShardFact H.Digest)) :
    ∃ position cache', cursorOrStageCoveredPosition H cache source entry (!unverifiable) d
        manifestFact = (position, cache') ∧ CacheSound H versions cache' ∧
      startCursor H record source (some entry) unverifiable d manifestFact = some position := by
  obtain ⟨cache', hpre, hcache⟩ := stagePrefixEntry_eq ha hs hc d manifestFact
  cases unverifiable with
  | true => exact ⟨entry.cursor, cache, rfl, hc, by simp [startCursor]⟩
  | false =>
    simp only [cursorOrStageCoveredPosition, Bool.not_false, Bool.not_true, Bool.false_eq_true,
      if_false, startCursor, Bool.true_and, hpre]
    generalize (if sessionStageLen d ≤ entry.cursor.offset then
      manifestFact.any fun fact => decide (entry.cursor.offset < fact.concatBytes)
      else true) = consult
    cases consult with
    | false => exact ⟨entry.cursor, cache, rfl, hc, by simp⟩
    | true =>
      cases stagePosition H source d manifestFact with
      | none => exact ⟨entry.cursor, cache', rfl, hcache, rfl⟩
      | some covered =>
        by_cases hlt : entry.cursor.offset < covered.offset
        · exact ⟨covered, cache', by simp [hlt], hcache, by simp [Option.filter, hlt]⟩
        · exact ⟨entry.cursor, cache', by simp [hlt], hcache, by simp [Option.filter, hlt]⟩

lemma refreshManifestFacts_eq {input : PassInput H.Digest}
    {manifestAtStart manifestFact : Option (ShardFact H.Digest)}
    {refreshed : Option (Option (ShardFact H.Digest))} {stored : Option (DebtEntry H.Digest)}
    (h : refreshManifestFacts H input manifestAtStart refreshed d stored = manifestFact) :
    manifestFact = manifestAtStart ∨ refreshed = some manifestFact := by
  subst h
  unfold refreshManifestFacts
  split
  next =>
    split
    next => exact Or.inr rfl
    next => exact Or.inl rfl
  next => exact Or.inl rfl

/-- A pass over a consistent version of its source always produces a debt: it starts where
`startCursor` says and has one of the three effects. -/
theorem processRecordInner_spec (ha : Unaliased versions) (hs : source ∈ versions)
    (hc : CacheSound H versions cache) (hd : Holds d shards) (input : PassInput H.Digest)
    (manifestAtStart : Option (ShardFact H.Digest))
    (refreshed : Option (Option (ShardFact H.Digest))) (stored : Option (DebtEntry H.Digest)) :
    ∃ manifestFact processed d' cache' base reset, ∃ facts : ShardFact H.Digest,
      (manifestFact = manifestAtStart ∨ refreshed = some manifestFact) ∧
      processRecordInner H input manifestAtStart refreshed cache source d stored =
        (some ⟨⟨input.machine, input.record.id, processed.state, facts⟩, processed⟩, d', cache') ∧
      CacheSound H versions cache' ∧
      (let unverifiable := stored.any fun e =>
          (verifyDebt H e input.machine d input.remoteFacts manifestFact).isUnverifiable
        let old := startCursor H input.record source stored unverifiable d manifestFact
        ReadStart H source.bytes old unverifiable base reset ∧
        PassEffect input manifestFact source.bytes d old base reset processed d' ∧
        (facts = shardFactInDir H d' ∨
          ∃ e, stored = some e ∧ facts = e.shards ∧ processed.shard = none ∧
            unverifiable = false)) := by
  cases stored with
  | none =>
    obtain ⟨old, cache₁, hold, hc₁, hstart⟩ : ∃ old cache₁,
        (if input.record.hasProvenance && !input.record.movableRoot then (none, cache)
          else stagePrefixEntry H cache source d none) = (old, cache₁) ∧
        CacheSound H versions cache₁ ∧
        startCursor H input.record source none false d manifestAtStart = old := by
      obtain ⟨cache', hpre, hcache⟩ := stagePrefixEntry_eq ha hs hc d none
      simp only [startCursor, hpre]
      split
      next => exact ⟨_, _, rfl, hc, rfl⟩
      next => exact ⟨_, _, rfl, hcache, rfl⟩
    obtain ⟨processed, d', cache₂, base, reset, hrun, hc₂, hread, heffect⟩ :=
      processJsonl_spec ha hs hc₁ hd input manifestAtStart old false
    refine ⟨manifestAtStart, processed, d', cache₂, base, reset, shardFactInDir H d', Or.inl rfl,
      ?_, hc₂, ?_⟩
    · unfold processRecordInner
      dsimp only [Option.any_none, refreshManifestFacts]
      rw [hold]
      dsimp only
      rw [hrun]
    · simp only [Option.any_none, hstart, true_or, and_true]
      exact ⟨hread, heffect⟩
  | some entry =>
    obtain ⟨manifestFact, hmanifest⟩ : ∃ manifestFact, refreshManifestFacts H input manifestAtStart
      refreshed d (some entry) = manifestFact := ⟨_, rfl⟩
    have hor := refreshManifestFacts_eq hmanifest
    generalize hunverifiable : (verifyDebt H entry input.machine d input.remoteFacts
      manifestFact).isUnverifiable = unverifiable
    obtain ⟨position, cache₁, hposition, hc₁, hstart⟩ := cursorOrStageCoveredPosition_eq ha hs hc
      input.record entry unverifiable d manifestFact
    obtain ⟨processed, d', cache₂, base, reset, hrun, hc₂, hread, heffect⟩ :=
      processJsonl_spec ha hs hc₁ hd input manifestFact (some position) unverifiable
    refine ⟨manifestFact, processed, d', cache₂, base, reset,
      if processed.shard.isNone && !unverifiable then entry.shards else shardFactInDir H d', hor,
      ?_, hc₂, ?_⟩
    · unfold processRecordInner
      dsimp only
      rw [hmanifest]
      simp only [Option.any_some, hunverifiable, hposition, hrun]
    · simp only [Option.any_some, hunverifiable, hstart]
      refine ⟨hread, heffect, ?_⟩
      split
      next hkeep =>
        simp only [Bool.and_eq_true, Option.isNone_iff_eq_none, Bool.not_eq_true'] at hkeep
        exact Or.inr ⟨entry, rfl, rfl, hkeep⟩
      next => exact Or.inl rfl

end Pass

end ChatStasher
