import ChatStasher.Collect.StageLines

/-! Sources that are sealed whole: plain files, transcripts that have to validate, and compressed
exports. A pass seals the current content as one shard, or nothing. -/
namespace ChatStasher

/-- One step back over the sealed shards: `taken` is the run of shards matched so far, `rest` the
part of the frame before it. -/
def tailWalk : List Bytes → List Bytes → Bytes → Bool
  | [], _, _ => false
  | shard :: before, taken, rest =>
    if rest.length < shard.length ∨ rest.drop (rest.length - shard.length) ≠ shard then false
    else
      let rest := rest.take (rest.length - shard.length)
      let taken := shard :: taken
      if rest.isEmpty then
        taken.length == 1 ||
          (decide (taken.length ≤ before.length) && (before.take taken.length).reverse == taken)
      else tailWalk before taken rest

/-- Is the frame one sealed shard, or an exact repeated-shard suffix, of the body sealed so far? -/
def stageTailIs (shards : List Bytes) (frame : Bytes) : Bool :=
  !frame.isEmpty && tailWalk shards.reverse [] frame

variable (H : Sha256)

def wholeCursor (compressed : Bool) (bytes : Bytes) : OffsetEntry H.Digest :=
  ⟨bytes.length, bytes.length, H.digest bytes, compressed⟩

def cursorNames (compressed : Bool) (bytes : Bytes) (old : Option (OffsetEntry H.Digest)) : Bool :=
  old.any fun entry =>
    entry.compressed == compressed && entry.offset == bytes.length &&
      entry.prefixLen == bytes.length && entry.prefixSha256 == H.digest bytes

def unchangedOutcome (state : OffsetEntry H.Digest) : Processed H.Digest := ⟨state, 0, none, false⟩

/-- The retained manifest summary speaks for the frame, to a destination with a cursor of its own. -/
def manifestSuppresses (record : SessionRecord) (manifestFact : Option (ShardFact H.Digest))
    (framed : Bytes) (old : Option (OffsetEntry H.Digest)) (forceReset : Bool) : Bool :=
  !forceReset && old.isSome && byteEqualityEstablishesEventIdentity record &&
    manifestHoldsThisFramed H manifestFact framed

/-- Seal a content that the cursor does not name, unless it is held already. -/
def sealWhole (bucketCap : ℕ) (compressed held : Bool) (bytes : Bytes)
    (lines : List Bytes) (d : SessionDir) (old : Option (OffsetEntry H.Digest)) :
    Option (Processed H.Digest) × SessionDir :=
  let state := wholeCursor H compressed bytes
  if held then (some (unchangedOutcome H state), d)
  else if lines.isEmpty then (some ⟨state, 0, none, old.isSome⟩, d)
  else
    match writeShardInDir H d bucketCap (.store (sealFramedLines lines) .collect false) with
    | (none, d) => (none, d)
    | (some write, d) => (some ⟨state, lines.length, some write.filename, old.isSome⟩, d)

def processWholeFile (record : SessionRecord) (manifestFact : Option (ShardFact H.Digest))
    (bucketCap : ℕ) (bytes : Bytes) (d : SessionDir) (old : Option (OffsetEntry H.Digest))
    (forceReset : Bool) : Option (Processed H.Digest) × SessionDir :=
  if !forceReset && cursorNames H false bytes old then
    (old.map (unchangedOutcome H), d)
  else
    let lines := if bytes.isEmpty then [] else [bytes]
    let held := !bytes.isEmpty &&
      manifestSuppresses H record manifestFact (sealFramedLines lines) old forceReset
    sealWhole H bucketCap false held bytes lines d old

/-- What one record's read path decided. -/
inductive ReadOutcome (D : Type)
  | processed (processed : Processed D)
  | skipped

def ReadOutcome.isProcessed {D : Type} : ReadOutcome D → Bool
  | processed _ => true
  | skipped => false

/-- A transcript that does not validate as an array is skipped and keeps its cursor. -/
def processCodebuffWholeFile (validates : Bytes → Bool) (record : SessionRecord)
    (manifestFact : Option (ShardFact H.Digest)) (bucketCap : ℕ) (bytes : Bytes) (d : SessionDir)
    (old : Option (OffsetEntry H.Digest)) (forceReset : Bool) :
    Option (ReadOutcome H.Digest) × SessionDir :=
  if !validates bytes then (some .skipped, d)
  else if !forceReset && cursorNames H false bytes old then
    (old.map fun state => .processed (unchangedOutcome H state), d)
  else
    let held := manifestSuppresses H record manifestFact (sealFramedLines [bytes]) old forceReset
    let (result, d) := sealWhole H bucketCap false held bytes [bytes] d old
    (result.map .processed, d)

def processCompressed (decodeAll : Bytes → Option Bytes) (record : SessionRecord)
    (manifestFact : Option (ShardFact H.Digest)) (bucketCap : ℕ) (compressed : Bytes)
    (d : SessionDir) (old : Option (OffsetEntry H.Digest)) (forceReset : Bool) :
    Option (Processed H.Digest) × SessionDir :=
  if !forceReset && cursorNames H true compressed old then
    (old.map (unchangedOutcome H), d)
  else
    match decodeAll compressed with
    | none => (none, d)
    | some decoded =>
      let lines := (completeLines decoded).1
      let framed := sealFramedLines lines
      let alreadyHeld := !lines.isEmpty && !forceReset &&
        (manifestSuppresses H record manifestFact framed old forceReset ||
          stageTailIs (stageSealedShards d) framed)
      sealWhole H bucketCap true alreadyHeld compressed lines d old

section Tail

lemma mem_of_tailWalk {before taken : List Bytes} {rest : Bytes} (h : tailWalk before taken rest = true)
    {shard : Bytes} (hshard : shard ∈ taken) : shard ∈ before := by
  induction before generalizing taken rest with
  | nil => cases h
  | cons first before ih =>
    rw [tailWalk] at h
    split at h
    · cases h
    dsimp only at h
    split at h
    · rw [Bool.or_eq_true, Bool.and_eq_true] at h
      rcases h with hone | ⟨-, hrepeat⟩
      · have hpos := List.length_pos_of_mem hshard
        rw [List.length_cons, beq_iff_eq] at hone
        omega
      · have hmem : shard ∈ (before.take (first :: taken).length).reverse := by
          rw [eq_of_beq hrepeat]
          exact List.mem_cons_of_mem first hshard
        exact List.mem_cons_of_mem first (List.mem_of_mem_take (List.mem_reverse.mp hmem))
    · exact List.mem_cons_of_mem first (ih h (List.mem_cons_of_mem first hshard))

theorem stageTailIs_iff {shards : List Bytes} (hnodup : shards.Nodup) {frame : Bytes}
    (hframe : frame ≠ []) :
    stageTailIs shards frame = true ↔ shards.getLast? = some frame := by
  rw [stageTailIs, List.isEmpty_eq_false_iff.mpr hframe, Bool.not_false, Bool.true_and,
    ← List.head?_reverse]
  rw [← List.nodup_reverse] at hnodup
  generalize shards.reverse = reversed at hnodup
  cases reversed with
  | nil => simp [tailWalk]
  | cons last before =>
    rw [tailWalk, List.head?_cons, Option.some.injEq]
    split
    next hmismatch =>
      refine iff_of_false Bool.false_ne_true fun hlast => ?_
      simp [hlast] at hmismatch
    next hmatch =>
      rw [not_or, not_lt, not_not] at hmatch
      dsimp only
      split
      next hwhole =>
        rw [List.isEmpty_iff, List.take_eq_nil_iff] at hwhole
        have hlength : frame.length - last.length = 0 := hwhole.resolve_right hframe
        rw [hlength, List.drop_zero] at hmatch
        simp [hmatch.2]
      next hmore =>
        refine iff_of_false (fun hwalk => ?_) fun hlast => ?_
        · exact (List.nodup_cons.mp hnodup).1 (mem_of_tailWalk hwalk List.mem_cons_self)
        · simp [hlast] at hmore

end Tail

end ChatStasher

/-! Whether the newest shard of a whole-file source is its current content, over runs that may come
back to earlier contents. -/
namespace ChatStasher

/-- What the code takes from the JSON and the zstd crates. -/
structure SnapshotCrates where
  validates : Bytes → Bool
  decodeAll : Bytes → Option Bytes

inductive SnapshotKind
  | wholeFile
  | codebuff
  | compressed
  deriving DecidableEq

def SnapshotKind.isCompressed : SnapshotKind → Bool
  | compressed => true
  | _ => false

variable {H : Sha256}

/-- One rewrite of the source and the pass after it, by whatever manifest summary is retained. -/
structure SnapshotRound (H : Sha256) where
  content : Bytes
  forceReset : Bool
  bucketCap : ℕ
  manifestFact : Option (ShardFact H.Digest)

/-- The session's stage and the destination's cursor. -/
structure SnapshotSite (H : Sha256) where
  dir : SessionDir
  cursor : Option (OffsetEntry H.Digest)

def SnapshotSite.fresh : SnapshotSite H := ⟨.empty, none⟩

variable (crates : SnapshotCrates) (kind : SnapshotKind) (record : SessionRecord)

/-- The lines a content is sealed as, if a pass gets through it. -/
def snapshotLines (content : Bytes) : Option (List Bytes) :=
  match kind with
  | .wholeFile => some (if content.isEmpty then [] else [content])
  | .codebuff => if crates.validates content then some [content] else none
  | .compressed => (crates.decodeAll content).map fun decoded => (completeLines decoded).1

def snapshotPass (s : SnapshotSite H) (round : SnapshotRound H) :
    Option (ReadOutcome H.Digest) × SessionDir :=
  match kind with
  | .wholeFile =>
    let (result, d) := processWholeFile H record round.manifestFact round.bucketCap round.content
      s.dir s.cursor round.forceReset
    (result.map .processed, d)
  | .codebuff =>
    processCodebuffWholeFile H crates.validates record round.manifestFact round.bucketCap
      round.content s.dir s.cursor round.forceReset
  | .compressed =>
    let (result, d) := processCompressed H crates.decodeAll record round.manifestFact
      round.bucketCap round.content s.dir s.cursor round.forceReset
    (result.map .processed, d)

/-- A pass that processed the source stores its cursor. -/
def snapshotStep (s : SnapshotSite H) (round : SnapshotRound H) : SnapshotSite H :=
  match snapshotPass crates kind record s round with
  | (some (.processed processed), d) => ⟨d, some processed.state⟩
  | (_, d) => ⟨d, s.cursor⟩

def newestShard (d : SessionDir) : Option Bytes := (stageSealedShards d).getLast?

/-- After a successful pass over a content that is not empty the newest shard is that content. -/
def NewestIsCurrent (s : SnapshotSite H) (round : SnapshotRound H) : Prop :=
  ∀ processed lines, (snapshotPass crates kind record s round).1 = some (.processed processed) →
    snapshotLines crates kind round.content = some lines → lines ≠ [] →
    newestShard (snapshotStep crates kind record s round).dir = some (sealFramedLines lines)

/-- The content is the newest shard already; or it is in no sealed shard, the retained manifest
summary does not speak for it, and the next sequence number has at most six digits. -/
def FreshOrNewest (s : SnapshotSite H) (round : SnapshotRound H) : Prop :=
  ∀ lines, snapshotLines crates kind round.content = some lines → lines ≠ [] →
    newestShard s.dir = some (sealFramedLines lines) ∨
      sealFramedLines lines ∉ stageSealedShards s.dir ∧
        manifestSuppresses H record round.manifestFact (sealFramedLines lines) s.cursor
          round.forceReset = false ∧
        s.dir.lastSeq + 1 < 10 ^ 6

/-- The stage holds no body twice, and the cursor stands for the newest shard. -/
structure SnapshotInv (s : SnapshotSite H) (shards : List (ℕ × Bytes)) : Prop where
  holds : Holds s.dir shards
  nodup : (stageSealedShards s.dir).Nodup
  cursor : ∀ entry, s.cursor = some entry → ∃ content lines,
    entry = wholeCursor H kind.isCompressed content ∧
      snapshotLines crates kind content = some lines ∧
      (lines ≠ [] → newestShard s.dir = some (sealFramedLines lines))

section Pass
variable {crates kind record} {d : SessionDir} {shards : List (ℕ × Bytes)} {s : SnapshotSite H}
  {round : SnapshotRound H}

/-- What sealing a content leaves: the stage as it was, for one of the reasons to seal nothing, or
one shard more. -/
inductive SealEffect (d : SessionDir) (lines : List Bytes) (bucketCap : ℕ) (held : Prop)
    (d' : SessionDir) : Prop
  | same (dir : d' = d)
      (reason : held ∨ lines = [] ∨ sealFramedLines lines ∈ stageSealedShards d)
  | grown (dir : d' = d.sealNext bucketCap (sealFramedLines lines))
      (new : sealFramedLines lines ∉ stageSealedShards d) (notHeld : ¬ held)

lemma sealWhole_spec (h : Holds d shards) (bucketCap : ℕ) (compressed held : Bool) (bytes : Bytes)
    (lines : List Bytes) (old : Option (OffsetEntry H.Digest)) :
    (∃ processed, (sealWhole H bucketCap compressed held bytes lines d old).1 = some processed ∧
      processed.state = wholeCursor H compressed bytes) ∧
    SealEffect d lines bucketCap (held = true)
      (sealWhole H bucketCap compressed held bytes lines d old).2 := by
  unfold sealWhole
  dsimp only
  split
  next hheld => exact ⟨⟨_, rfl, rfl⟩, .same rfl (Or.inl hheld)⟩
  next hheld =>
    split
    next hempty =>
      exact ⟨⟨_, rfl, rfl⟩, .same rfl (Or.inr (Or.inl (List.isEmpty_iff.mp hempty)))⟩
    · have hmem : sealFramedLines lines ∈ stageSealedShards d ↔
          ∃ p ∈ readable shards, p.2 = sealFramedLines lines := by
        rw [h.stageSealedShards_eq, List.mem_map]
      rcases h.writeShard H bucketCap (.store (sealFramedLines lines) .collect false) with
        ⟨-, hfound, hdir, name, hname⟩ | ⟨hnew, hwrite⟩
      · generalize writeShardInDir H d bucketCap (.store (sealFramedLines lines) .collect false) =
          after at hdir hname
        obtain ⟨result, d'⟩ := after
        obtain rfl : result = some (.existing name) := hname
        exact ⟨⟨_, rfl, rfl⟩, .same hdir (Or.inr (Or.inr (hmem.mpr hfound)))⟩
      · rw [hwrite]
        refine ⟨⟨_, rfl, rfl⟩, .grown rfl (fun hin => ?_) hheld⟩
        obtain ⟨p, hp, heq⟩ := hmem.mp hin
        exact hnew rfl p hp heq

lemma cursorNames_iff {compressed : Bool} {bytes : Bytes} {old : Option (OffsetEntry H.Digest)} :
    cursorNames H compressed bytes old = true ↔ old = some (wholeCursor H compressed bytes) := by
  unfold cursorNames wholeCursor
  cases old with
  | none => simp
  | some entry =>
    obtain ⟨offset, prefixLen, prefixSha256, isCompressed⟩ := entry
    simp only [Option.any_some, Bool.and_eq_true, beq_iff_eq, Option.some.injEq,
      OffsetEntry.mk.injEq]
    tauto

lemma SealEffect.congr {lines : List Bytes} {bucketCap : ℕ} {held held' : Prop} {d' : SessionDir}
    (h : SealEffect d lines bucketCap held d') (hiff : held ↔ held') : SealEffect d lines bucketCap held' d' := by
  cases h with
  | same dir reason => exact .same dir (reason.imp_left hiff.mp)
  | grown dir new notHeld => exact .grown dir new fun hheld => notHeld (hiff.mpr hheld)

/-- The pass takes the content for one the stage holds. -/
def HeldBefore (kind : SnapshotKind) (record : SessionRecord) (s : SnapshotSite H)
    (round : SnapshotRound H) (lines : List Bytes) : Prop :=
  lines ≠ [] ∧
    (manifestSuppresses H record round.manifestFact (sealFramedLines lines) s.cursor
        round.forceReset = true ∨
      kind = .compressed ∧ round.forceReset = false ∧
        stageTailIs (stageSealedShards s.dir) (sealFramedLines lines) = true)

/-- A pass over a content it gets through stores the content's cursor; it is one the cursor named
before, or the stage keeps or gains it. -/
theorem snapshotPass_spec (h : Holds s.dir shards) {lines : List Bytes}
    (hlines : snapshotLines crates kind round.content = some lines) :
    ∃ processed, (snapshotPass crates kind record s round).1 = some (.processed processed) ∧
      processed.state = wholeCursor H kind.isCompressed round.content ∧
      (s.cursor = some (wholeCursor H kind.isCompressed round.content) ∧
          (snapshotPass crates kind record s round).2 = s.dir ∨
        SealEffect s.dir lines round.bucketCap (HeldBefore kind record s round lines)
          (snapshotPass crates kind record s round).2) := by
  cases kind with
  | wholeFile =>
    obtain rfl : (if round.content.isEmpty then [] else [round.content]) = lines :=
      Option.some.inj hlines
    dsimp only [snapshotPass]
    unfold processWholeFile
    split
    next hnames =>
      have hcursor := cursorNames_iff.mp (Bool.and_eq_true_iff.mp hnames).2
      rw [hcursor]
      exact ⟨_, rfl, rfl, Or.inl ⟨rfl, rfl⟩⟩
    · dsimp only
      obtain ⟨⟨processed, hresult, hstate⟩, hkept⟩ := sealWhole_spec (H := H) h round.bucketCap false
        (!round.content.isEmpty && manifestSuppresses H record round.manifestFact
          (sealFramedLines (if round.content.isEmpty then [] else [round.content])) s.cursor
          round.forceReset) round.content
        (if round.content.isEmpty then [] else [round.content]) s.cursor
      refine ⟨processed, by rw [hresult]; rfl, hstate, Or.inr (hkept.congr ?_)⟩
      cases hempty : round.content.isEmpty <;> simp [HeldBefore]
  | codebuff =>
    obtain ⟨hvalid, rfl⟩ : crates.validates round.content = true ∧ [round.content] = lines := by
      simpa [snapshotLines] using hlines
    dsimp only [snapshotPass]
    unfold processCodebuffWholeFile
    rw [hvalid, Bool.not_true, if_neg Bool.false_ne_true]
    split
    next hnames =>
      have hcursor := cursorNames_iff.mp (Bool.and_eq_true_iff.mp hnames).2
      rw [hcursor]
      exact ⟨_, rfl, rfl, Or.inl ⟨rfl, rfl⟩⟩
    · dsimp only
      obtain ⟨⟨processed, hresult, hstate⟩, hkept⟩ := sealWhole_spec (H := H) h round.bucketCap false
        (manifestSuppresses H record round.manifestFact (sealFramedLines [round.content]) s.cursor
          round.forceReset) round.content [round.content] s.cursor
      refine ⟨processed, by rw [hresult]; rfl, hstate, Or.inr (hkept.congr ?_)⟩
      simp [HeldBefore]
  | compressed =>
    obtain ⟨decoded, hdecoded, rfl⟩ := Option.map_eq_some_iff.mp hlines
    dsimp only [snapshotPass]
    unfold processCompressed
    split
    next hnames =>
      have hcursor := cursorNames_iff.mp (Bool.and_eq_true_iff.mp hnames).2
      rw [hcursor]
      exact ⟨_, rfl, rfl, Or.inl ⟨rfl, rfl⟩⟩
    · rw [hdecoded]
      dsimp only
      obtain ⟨⟨processed, hresult, hstate⟩, hkept⟩ := sealWhole_spec (H := H) h round.bucketCap true
        (!(completeLines decoded).1.isEmpty && !round.forceReset &&
          (manifestSuppresses H record round.manifestFact
              (sealFramedLines (completeLines decoded).1) s.cursor round.forceReset ||
            stageTailIs (stageSealedShards s.dir) (sealFramedLines (completeLines decoded).1)))
        round.content (completeLines decoded).1 s.cursor
      refine ⟨processed, by rw [hresult]; rfl, hstate, Or.inr (hkept.congr ?_)⟩
      cases hforce : round.forceReset <;>
        simp [HeldBefore, hforce, manifestSuppresses]

lemma snapshotStep_of_processed {processed : Processed H.Digest}
    (h : (snapshotPass crates kind record s round).1 = some (.processed processed)) :
    snapshotStep crates kind record s round =
      ⟨(snapshotPass crates kind record s round).2, some processed.state⟩ := by
  unfold snapshotStep
  generalize snapshotPass crates kind record s round = pass at h
  obtain ⟨result, d⟩ := pass
  obtain rfl : result = some (.processed processed) := h
  rfl

lemma snapshotStep_of_no_lines (h : snapshotLines crates kind round.content = none) :
    snapshotStep crates kind record s round = s := by
  unfold snapshotStep
  cases kind with
  | wholeFile => simp [snapshotLines] at h
  | codebuff =>
    have hinvalid : crates.validates round.content = false := by simpa [snapshotLines] using h
    simp [snapshotPass, processCodebuffWholeFile, hinvalid]
  | compressed =>
    have hundecodable : crates.decodeAll round.content = none := by simpa [snapshotLines] using h
    simp only [snapshotPass, processCompressed]
    split_ifs with hnames
    · have hcursor := cursorNames_iff.mp (Bool.and_eq_true_iff.mp hnames).2
      obtain ⟨dir, cursor⟩ := s
      obtain rfl : cursor = _ := hcursor
      rfl
    · simp [hundecodable]

lemma stageSealedShards_sealNext (h : Holds d shards) (bucketCap : ℕ) (frame : Bytes) :
    stageSealedShards (d.sealNext bucketCap frame) =
      stageSealedShards d ++ if d.lastSeq + 1 < 10 ^ 6 then [frame] else [] := by
  rw [(h.sealNext bucketCap frame).stageSealedShards_eq, h.stageSealedShards_eq, readable,
    List.filter_append, List.map_append, readable, List.filter_singleton]
  by_cases hroom : d.lastSeq + 1 < 10 ^ 6
  · rw [decide_eq_true hroom, if_pos hroom]
    rfl
  · rw [decide_eq_false hroom, if_neg hroom]
    rfl

lemma framed_ne_nil {lines : List Bytes} (h : lines ≠ []) : sealFramedLines lines ≠ [] := by
  obtain ⟨line, rest, rfl⟩ := List.exists_cons_of_ne_nil h
  simp [sealFramedLines, Framing.frame]

lemma newestShard_mem {frame : Bytes} (h : newestShard d = some frame) :
    frame ∈ stageSealedShards d := List.mem_of_getLast? h

lemma SnapshotInv.newest_of_named (h : SnapshotInv crates kind s shards) {content : Bytes}
    (hcursor : s.cursor = some (wholeCursor H kind.isCompressed content)) {lines : List Bytes}
    (hlines : snapshotLines crates kind content = some lines) (hne : lines ≠ []) :
    newestShard s.dir = some (sealFramedLines lines) := by
  obtain ⟨content', lines', hentry, hlines', hnewest⟩ := h.cursor _ hcursor
  obtain rfl : content = content' := H.digest_injective (OffsetEntry.mk.inj hentry).2.2.1
  obtain rfl := Option.some.inj (hlines.symm.trans hlines')
  exact hnewest hne

/-- Under the invariant a pass leaves the content newest exactly if it was the newest already, or
nothing stood in the way of sealing it. -/
lemma SnapshotInv.newest_iff (h : SnapshotInv crates kind s shards) {lines : List Bytes}
    (hlines : snapshotLines crates kind round.content = some lines) (hne : lines ≠ []) :
    newestShard (snapshotStep crates kind record s round).dir = some (sealFramedLines lines) ↔
      newestShard s.dir = some (sealFramedLines lines) ∨
        sealFramedLines lines ∉ stageSealedShards s.dir ∧
          manifestSuppresses H record round.manifestFact (sealFramedLines lines) s.cursor
            round.forceReset = false ∧
          s.dir.lastSeq + 1 < 10 ^ 6 := by
  obtain ⟨processed, hresult, -, heffect⟩ :=
    @snapshotPass_spec _ _ _ record _ _ _ h.holds _ hlines
  rw [snapshotStep_of_processed hresult]
  dsimp only
  rcases heffect with ⟨hnamed, hdir⟩ | ⟨hdir, hreason⟩ | ⟨hdir, hnew, hnotHeld⟩
  · have hnewest := h.newest_of_named hnamed hlines hne
    rw [hdir]
    exact iff_of_true hnewest (Or.inl hnewest)
  · rw [hdir]
    refine ⟨Or.inl, fun hor => hor.elim id fun ⟨hnew, hfree, _⟩ => ?_⟩
    rcases hreason with ⟨-, hsuppresses | ⟨-, -, htail⟩⟩ | hempty | hmem
    · simp [hfree] at hsuppresses
    · exact (stageTailIs_iff h.nodup (framed_ne_nil hne)).mp htail
    · exact absurd hempty hne
    · exact absurd hmem hnew
  · have hfree : manifestSuppresses H record round.manifestFact (sealFramedLines lines) s.cursor
        round.forceReset = false := by
      rw [Bool.eq_false_iff]
      exact fun hsuppresses => hnotHeld ⟨hne, Or.inl hsuppresses⟩
    rw [hdir, newestShard, stageSealedShards_sealNext h.holds]
    by_cases hroom : s.dir.lastSeq + 1 < 10 ^ 6
    · rw [if_pos hroom, List.getLast?_concat]
      exact iff_of_true rfl (Or.inr ⟨hnew, hfree, hroom⟩)
    · rw [if_neg hroom, List.append_nil]
      refine iff_of_false (fun hlast => hnew (newestShard_mem hlast)) ?_
      rintro (hlast | ⟨-, -, hlt⟩)
      · exact hnew (newestShard_mem hlast)
      · exact hroom hlt

lemma SnapshotInv.newestIsCurrent_iff (h : SnapshotInv crates kind s shards) :
    NewestIsCurrent crates kind record s round ↔ FreshOrNewest crates kind record s round := by
  constructor
  · intro hnewest lines hlines hne
    obtain ⟨processed, hresult, -, -⟩ := @snapshotPass_spec _ _ _ record _ _ _ h.holds _ hlines
    exact (h.newest_iff hlines hne).mp (hnewest processed lines hresult hlines hne)
  · intro hfresh processed lines _ hlines hne
    exact (h.newest_iff hlines hne).mpr (hfresh lines hlines hne)

lemma SnapshotInv.step (h : SnapshotInv crates kind s shards)
    (hok : FreshOrNewest crates kind record s round) :
    ∃ shards', SnapshotInv crates kind (snapshotStep crates kind record s round) shards' := by
  cases hlines : snapshotLines crates kind round.content with
  | none =>
    rw [snapshotStep_of_no_lines hlines]
    exact ⟨shards, h⟩
  | some lines =>
    have hnewest : lines ≠ [] →
        newestShard (snapshotStep crates kind record s round).dir = some (sealFramedLines lines) :=
      fun hne => (h.newest_iff hlines hne).mpr (hok lines hlines hne)
    obtain ⟨processed, hresult, hstate, heffect⟩ :=
      @snapshotPass_spec _ _ _ record _ _ _ h.holds _ hlines
    have hcursor : ∀ entry, some processed.state = some entry → ∃ content lines,
        entry = wholeCursor H kind.isCompressed content ∧
          snapshotLines crates kind content = some lines ∧ (lines ≠ [] →
            newestShard (snapshotPass crates kind record s round).2 =
              some (sealFramedLines lines)) := by
      intro entry hentry
      obtain rfl := Option.some.inj hentry
      rw [snapshotStep_of_processed hresult] at hnewest
      exact ⟨round.content, lines, hstate, hlines, hnewest⟩
    rw [snapshotStep_of_processed hresult]
    have hsame : (snapshotPass crates kind record s round).2 = s.dir →
        ∃ shards', SnapshotInv crates kind
          ⟨(snapshotPass crates kind record s round).2, some processed.state⟩ shards' :=
      fun hdir => ⟨shards, hdir ▸ h.holds, hdir ▸ h.nodup, hcursor⟩
    rcases heffect with ⟨-, hdir⟩ | ⟨hdir, -⟩ | ⟨hdir, hnew, -⟩
    · exact hsame hdir
    · exact hsame hdir
    · refine ⟨_, hdir ▸ h.holds.sealNext round.bucketCap (sealFramedLines lines), ?_, hcursor⟩
      dsimp only
      rw [hdir, stageSealedShards_sealNext h.holds]
      split
      · exact List.nodup_append.mpr ⟨h.nodup, List.nodup_singleton _, fun a ha b hb => by
          rintro rfl
          exact hnew (List.mem_singleton.mp hb ▸ ha)⟩
      · rw [List.append_nil]
        exact h.nodup

lemma snapshotInv_fresh : SnapshotInv crates kind (SnapshotSite.fresh : SnapshotSite H) [] :=
  ⟨Holds.empty, by rw [SnapshotSite.fresh, Holds.empty.stageSealedShards_eq]; exact List.nodup_nil,
    by simp [SnapshotSite.fresh]⟩

end Pass

/-- Over a run of rewrites and passes from an empty stage, every pass leaves the source's content
as the newest shard exactly if every content is the newest shard already when its pass starts, or
is then in no shard at all, spoken for by no manifest summary and given a six-digit number. -/
theorem newest_shard_is_current (rounds : List (SnapshotRound H)) :
    StepRun.Along (snapshotStep crates kind record) (NewestIsCurrent crates kind record)
        SnapshotSite.fresh rounds ↔
      StepRun.Along (snapshotStep crates kind record) (FreshOrNewest crates kind record)
        SnapshotSite.fresh rounds := by
  have hrun : ∀ (s : SnapshotSite H) (rounds : List (SnapshotRound H)),
      (∃ shards, SnapshotInv crates kind s shards) →
        (StepRun.Along (snapshotStep crates kind record) (NewestIsCurrent crates kind record) s rounds ↔
          StepRun.Along (snapshotStep crates kind record) (FreshOrNewest crates kind record) s
            rounds) := by
    intro s rounds
    induction rounds generalizing s with
    | nil => exact fun _ => Iff.rfl
    | cons round rounds ih =>
      rintro ⟨shards, hinv⟩
      rw [StepRun.along_cons, StepRun.along_cons, hinv.newestIsCurrent_iff]
      exact and_congr_right fun hok => ih _ (hinv.step hok)
  exact hrun _ rounds ⟨[], snapshotInv_fresh⟩

def plainCrates : SnapshotCrates := ⟨fun _ => true, some⟩

def roundOf (content : Bytes) : SnapshotRound Sha256.verbatim := ⟨content, false, 1, none⟩

/-- A source goes from one content to another and back: the last pass succeeds and the newest shard
is still the other content. -/
theorem newest_shard_after_return :
    let step := snapshotStep plainCrates .wholeFile ⟨[], false, false⟩
    let s := StepRun.exec step SnapshotSite.fresh [roundOf [1, newline], roundOf [2, newline]]
    ((snapshotPass plainCrates .wholeFile ⟨[], false, false⟩ s (roundOf [1, newline])).1.any
        ReadOutcome.isProcessed) = true ∧
      newestShard (step s (roundOf [1, newline])).dir =
        (snapshotLines plainCrates .wholeFile [2, newline]).map sealFramedLines ∧
      (snapshotLines plainCrates .wholeFile [2, newline]).map sealFramedLines ≠
        (snapshotLines plainCrates .wholeFile [1, newline]).map sealFramedLines := by
  decide +kernel

end ChatStasher
