import ChatStasher.Collect.RacingRead

/-! Which bytes a cursor taken in the middle of other people's writes stands for. -/
namespace ChatStasher
namespace Racing
open StepRun

/-- Writes show in what `stat` says: where a readable identity comes back, nothing happened in
between. -/
def WritesVisible (seen : Sightings) : Prop :=
  ∀ i j l v w, i ≤ j → j ≤ l → seen i = some v → seen l = some w → v.identity = w.identity →
    v.mtimeNs.isSome → seen j = some v

/-- From the next operation on, a version with the remembered identity has the remembered digest. -/
def Fits {H : Sha256} (seen : Sightings) (r : Reads H.Digest) : Prop :=
  ∀ e ∈ r.cache, e.file.mtimeNs.isSome ∧ ∀ j v, r.next ≤ j → seen j = some v →
    v.identity = e.file → e.offset ≤ v.bytes.length ∧ e.sha256 = H.digest (v.bytes.take e.offset)

def StandsFor {H : Sha256} (e : OffsetEntry H.Digest) (bytes : Bytes) : Prop :=
  e.offset = bytes.length ∧ e.prefixSha256 = H.digest bytes

section Reading
variable {H : Sha256} {seen : Sightings} {r : Reads H.Digest}

lemma Fits.advance {n : ℕ} (h : Fits seen r) (hn : r.next ≤ n) :
    Fits seen (⟨n, r.cache⟩ : Reads H.Digest) := fun e he =>
  ⟨(h e he).1, fun j v hj => (h e he).2 j v (hn.trans hj)⟩

/-- How the question for a prefix digest can be answered under a stat, and which operation is next
then. -/
inductive Answer (seen : Sightings) (r : Reads H.Digest) (stat : SourceFile) (offset next : ℕ) :
    Option (HashAnswer H.Digest) → Prop
  | gone (hnext : next = r.next + 1) : Answer seen r stat offset next none
  | remembered (e : PrefixCacheEntry H.Digest) (he : r.cache = some e) (hoff : e.offset = offset)
      (hsame : isSameFile e.file stat.identity = true) (hnext : next = r.next)
      (hle : offset ≤ stat.bytes.length) :
      Answer seen r stat offset next (some ⟨H.digest (stat.bytes.take offset), 0, true⟩)
  | read (now : SourceFile) (hnow : seen r.next = some now)
      (hmiss : ∀ e, r.cache = some e → ¬ (e.offset = offset ∧
        isSameFile e.file stat.identity = true)) (hnext : next = r.next + 1) :
      Answer seen r stat offset next
        (some ⟨H.digest (now.bytes.take offset), (now.bytes.take offset).length, false⟩)

lemma Answer.next_le {stat : SourceFile} {offset next : ℕ} {answer : Option (HashAnswer H.Digest)}
    (h : Answer seen r stat offset next answer) : r.next ≤ next := by
  cases h with
  | gone hnext => exact hnext ▸ Nat.le_succ _
  | remembered _ _ _ _ hnext => exact hnext.ge
  | read _ _ _ hnext => exact hnext ▸ Nat.le_succ _

/-- What a read just after the stat remembers under that stat: should the identity be met again,
nothing was written between stat and read. -/
lemma fits_read (hv : WritesVisible seen) {stat now : SourceFile} (hstat : seen r.next = some stat)
    (hnow : seen (r.next + 1) = some now) {offset : ℕ} (hsome : stat.mtimeNs.isSome)
    (hlen : (now.bytes.take offset).length = offset) :
    Fits seen (⟨r.next + 2, some ⟨stat.identity, offset, H.digest (now.bytes.take offset)⟩⟩ :
      Reads H.Digest) := by
  intro e he
  obtain rfl := Option.some.inj he
  refine ⟨hsome, fun j v hj hvj hid => ?_⟩
  have hj : r.next + 2 ≤ j := hj
  have hback := hv r.next (r.next + 1) j stat v (by omega) (by omega) hstat hvj hid.symm hsome
  have hsame := hv r.next j j stat v (by omega) le_rfl hstat hvj hid.symm hsome
  obtain rfl := Option.some.inj (hback.symm.trans hnow)
  obtain rfl := Option.some.inj (hsame.symm.trans hvj)
  exact ⟨List.length_take.symm.trans hlen ▸ min_le_right _ _, rfl⟩

lemma prefixSha256_answer (hv : WritesVisible seen) (hf : Fits seen r) {stat : SourceFile}
    (hstat : seen r.next = some stat) (offset : ℕ) : ∃ answer r',
      prefixSha256 H seen r.tick stat offset = (answer, r') ∧ Fits seen r' ∧
        Answer seen r.tick stat offset r'.next answer := by
  have hmiss : (∀ e, r.cache = some e → ¬ (e.offset = offset ∧
      isSameFile e.file stat.identity = true)) → ∃ answer r',
      ((seen (r.next + 1)).elim
        ((none, r.tick.tick) : Option (HashAnswer H.Digest) × Reads H.Digest) fun now =>
          (some ⟨H.digest (now.bytes.take offset), (now.bytes.take offset).length, false⟩,
            ⟨r.next + 2,
              if stat.mtimeNs.isSome ∧ (now.bytes.take offset).length = offset then
                some ⟨stat.identity, offset, H.digest (now.bytes.take offset)⟩
              else r.cache⟩)) = (answer, r') ∧ Fits seen r' ∧
        Answer seen r.tick stat offset r'.next answer := by
    intro hno
    cases hnow : seen (r.next + 1) with
    | none => exact ⟨none, r.tick.tick, rfl, hf.advance (by simp; omega), .gone rfl⟩
    | some now =>
      refine ⟨_, _, rfl, ?_, .read now hnow hno rfl⟩
      split
      next h => exact fits_read hv hstat hnow h.1 h.2
      next => exact hf.advance (by omega)
  unfold prefixSha256
  dsimp only [Reads.tick_cache, Reads.tick_next]
  cases hcache : r.cache with
  | none =>
    rw [hcache] at hmiss
    have hread := hmiss fun e he => absurd he.symm (Option.some_ne_none e)
    revert hread
    cases seen (r.next + 1) <;> exact id
  | some e =>
    dsimp only
    split
    next hhit =>
      obtain ⟨-, hid⟩ := isSameFile_iff.mp hhit.2
      obtain ⟨-, hfit⟩ := hf e hcache
      obtain ⟨hle, hsha⟩ := hfit r.next stat le_rfl hstat hid.symm
      rw [hhit.1] at hle hsha
      refine ⟨_, r.tick, rfl, hf.advance (Nat.le_succ _), ?_⟩
      rw [hsha]
      exact .remembered e hcache hhit.1 hhit.2 rfl hle
    next hno =>
      rw [hcache] at hmiss
      have hread := hmiss fun e' he' => Option.some.inj he' ▸ hno
      revert hread
      cases seen (r.next + 1) <;> exact id

lemma readFull_spec (before : SourceFile) (reset : Bool) :
    (readFull H seen r before reset).2.cache = r.cache ∧
      r.next ≤ (readFull H seen r before reset).2.next ∧
      ∀ data, (readFull H seen r before reset).1 = .read data →
        data.baseOffset = 0 ∧ data.reset = reset := by
  unfold readFull
  dsimp only
  split
  next r' hread =>
    obtain rfl : r.tick = r' := congrArg Prod.snd hread
    exact ⟨rfl, Nat.le_succ _, nofun⟩
  next full r' hread =>
    obtain rfl : r.tick = r' := congrArg Prod.snd hread
    have hle : r.next ≤ r.tick.tick.next := by simp; omega
    split
    next => exact ⟨rfl, hle, nofun⟩
    next after _ =>
      split
      next => exact ⟨rfl, hle, nofun⟩
      next =>
        refine ⟨rfl, hle, ?_⟩
        rintro data ⟨⟩
        exact ⟨rfl, rfl⟩

lemma readDelta_spec (before : SourceFile) (entry : OffsetEntry H.Digest)
    (check : HashAnswer H.Digest) :
    (readDelta H seen r before entry check).2.cache = r.cache ∧
      r.next ≤ (readDelta H seen r before entry check).2.next ∧
      ∀ data, (readDelta H seen r before entry check).1 = .read data →
        data.baseOffset = entry.offset ∧ data.reset = false := by
  unfold readDelta
  dsimp only
  split
  next r' hread =>
    obtain rfl : r.tick = r' := congrArg Prod.snd hread
    exact ⟨rfl, Nat.le_succ _, nofun⟩
  next delta r' hread =>
    obtain rfl : r.tick = r' := congrArg Prod.snd hread
    have hle : r.next ≤ r.tick.tick.next := by simp; omega
    split
    next => exact ⟨rfl, hle, nofun⟩
    next after _ =>
      split
      next => exact ⟨rfl, hle, nofun⟩
      next =>
        split
        next =>
          split
          next =>
            refine ⟨rfl, hle, ?_⟩
            rintro data ⟨⟩
            exact ⟨rfl, rfl⟩
          next => exact ⟨rfl, hle, nofun⟩
        next =>
          split
          next =>
            have hle' : r.next ≤ r.tick.tick.tick.next := by simp; omega
            split
            next r' hread =>
              obtain rfl : r.tick.tick.tick = r' := congrArg Prod.snd hread
              exact ⟨rfl, hle', nofun⟩
            next prefixAfter r' hread =>
              obtain rfl : r.tick.tick.tick = r' := congrArg Prod.snd hread
              split
              next => exact ⟨rfl, hle', nofun⟩
              next =>
                refine ⟨rfl, hle', ?_⟩
                rintro data ⟨⟩
                exact ⟨rfl, rfl⟩
          next => exact ⟨rfl, hle, nofun⟩

/-- Where a read that succeeded started: behind a cursor whose prefix stood in the file at some
operation of the call, or at the beginning. -/
inductive ReadFrom (seen : Sightings) (old : Option (OffsetEntry H.Digest)) (first last : ℕ)
    (data : ReadData) : Prop
  | cursor (e : OffsetEntry H.Digest) (hold : old = some e) (hbase : data.baseOffset = e.offset)
      (hreset : data.reset = false) (hchecked : ∃ i v, first ≤ i ∧ i < last ∧ seen i = some v ∧
        e.prefixSha256 = H.digest (v.bytes.take e.offset))
  | beginning (hbase : data.baseOffset = 0) (hreset : data.reset = old.isSome)

lemma ReadFrom.earlier {old : Option (OffsetEntry H.Digest)} {first first' last : ℕ}
    {data : ReadData} (h : ReadFrom seen old first last data) (hle : first' ≤ first) :
    ReadFrom seen old first' last data := by
  cases h with
  | cursor e hold hbase hreset hchecked =>
    obtain ⟨i, v, hi, hrest⟩ := hchecked
    exact .cursor e hold hbase hreset ⟨i, v, hle.trans hi, hrest⟩
  | beginning hbase hreset => exact .beginning hbase hreset

lemma attempt_spec (hv : WritesVisible seen) (hf : Fits seen r)
    (old : Option (OffsetEntry H.Digest)) (forceReset : Bool) :
    Fits seen (attempt H seen r old forceReset).2 ∧
      r.next ≤ (attempt H seen r old forceReset).2.next ∧
      ∀ data, (attempt H seen r old forceReset).1 = .read data →
        ReadFrom seen old r.next (attempt H seen r old forceReset).2.next data := by
  have hfull : ∀ (r' : Reads H.Digest) (before : SourceFile), Fits seen r' → r.next ≤ r'.next →
      Fits seen (readFull H seen r' before old.isSome).2 ∧
        r.next ≤ (readFull H seen r' before old.isSome).2.next ∧
        ∀ data, (readFull H seen r' before old.isSome).1 = .read data →
          ReadFrom seen old r.next (readFull H seen r' before old.isSome).2.next data := by
    intro r' before hf' hle
    obtain ⟨hcache, hnext, hdata⟩ := @readFull_spec H seen r' before old.isSome
    refine ⟨?_, hle.trans hnext, fun data h => .beginning (hdata data h).1 (hdata data h).2⟩
    have := hf'.advance hnext
    rwa [← hcache] at this
  unfold attempt
  dsimp only
  split
  next => exact ⟨hf.advance (Nat.le_succ _), Nat.le_succ _, nofun⟩
  next before hbefore =>
    split
    next => exact hfull r.tick before (hf.advance (Nat.le_succ _)) (Nat.le_succ _)
    next entry hentry =>
      obtain ⟨hold, hflags⟩ := Option.filter_eq_some_iff.mp hentry
      obtain ⟨answer, r', hanswer, hf', hcase⟩ := prefixSha256_answer hv hf hbefore entry.offset
      have hnext : r.next < r'.next := hcase.next_le
      rw [hanswer]
      cases answer with
      | none => exact ⟨hf', hnext.le, nofun⟩
      | some check =>
        dsimp only
        split
        next heq =>
          obtain ⟨hcache, hnext', hdata⟩ := @readDelta_spec H seen r' before entry check
          refine ⟨?_, hnext.le.trans hnext', fun data h => ?_⟩
          · have := hf'.advance hnext'
            rwa [← hcache] at this
          · obtain ⟨hbase, hreset⟩ := hdata data h
            refine .cursor entry hold hbase hreset ?_
            cases hcase with
            | remembered =>
              exact ⟨r.next, before, le_rfl, hnext.trans_le hnext', hbefore, heq.symm⟩
            | read now hnow _ hlast =>
              refine ⟨r.next + 1, now, Nat.le_succ _, ?_, hnow, heq.symm⟩
              simp only [Reads.tick_next] at hlast
              omega
        next => exact hfull r' before hf' hnext.le

lemma readAttempts_spec (hv : WritesVisible seen) (old : Option (OffsetEntry H.Digest))
    (forceReset : Bool) (retries : ℕ) (hf : Fits seen r) :
    Fits seen (readAttempts H seen old forceReset retries r).2 ∧
      ∀ data, (readAttempts H seen old forceReset retries r).1 = some data →
        ReadFrom seen old r.next (readAttempts H seen old forceReset retries r).2.next data := by
  induction retries generalizing r with
  | zero => exact ⟨hf, nofun⟩
  | succ retries ih =>
    obtain ⟨hf', hle, hdata⟩ := attempt_spec hv hf old forceReset
    unfold readAttempts
    split
    next r' hattempt =>
      rw [hattempt] at hf'
      exact ⟨hf', nofun⟩
    next r' hattempt =>
      rw [hattempt] at hf' hle
      obtain ⟨hf'', hdata'⟩ := ih hf'
      exact ⟨hf'', fun data h => (hdata' data h).earlier hle⟩
    next data r' hattempt =>
      rw [hattempt] at hf' hdata
      refine ⟨hf', ?_⟩
      rintro data' ⟨⟩
      exact hdata data rfl

variable (H seen) in
/-- The version a prefix digest is taken from: the one stat'ed where the cache answers for it, else
the one read after the stat. -/
def goneBy (r : Reads H.Digest) (offset : ℕ) : Option SourceFile :=
  (seen r.next).bind fun stat =>
    if r.cache.any fun e => decide (e.offset = offset) && isSameFile e.file stat.identity then
      some stat
    else seen (r.next + 1)

lemma plainState_spec (hv : WritesVisible seen) (hf : Fits seen r) (offset : ℕ) :
    Fits seen (plainState H seen r offset).2 ∧
      ∀ state, (plainState H seen r offset).1 = some state → ∃ v, goneBy H seen r offset = some v ∧
        offset ≤ v.bytes.length ∧
        state = ⟨offset, offset, H.digest (v.bytes.take offset), false⟩ := by
  unfold plainState goneBy
  cases hstat : seen r.next with
  | none => exact ⟨hf.advance (Nat.le_succ _), nofun⟩
  | some stat =>
    obtain ⟨answer, r', hanswer, hf', hcase⟩ := prefixSha256_answer hv hf hstat offset
    dsimp only
    rw [hanswer]
    cases hcase with
    | gone => exact ⟨hf', nofun⟩
    | remembered e he hoff hsame _ hle =>
      refine ⟨hf', ?_⟩
      rintro state ⟨⟩
      have hhit : (r.cache.any fun e =>
          decide (e.offset = offset) && isSameFile e.file stat.identity) = true := by
        rw [Reads.tick_cache] at he
        simp [he, hoff, hsame]
      exact ⟨stat, by rw [Option.bind_some, if_pos hhit], hle, rfl⟩
    | read now hnow hmiss =>
      have hno : ¬ (r.cache.any fun e =>
          decide (e.offset = offset) && isSameFile e.file stat.identity) = true := by
        intro hany
        obtain ⟨e, he, hhit⟩ := (Option.any_eq_true _ _).mp hany
        rw [Bool.and_eq_true, decide_eq_true_eq] at hhit
        exact hmiss e he hhit
      dsimp only
      split
      next => exact ⟨hf', nofun⟩
      next hwhole =>
        refine ⟨hf', ?_⟩
        rintro state ⟨⟩
        have hlen : (now.bytes.take offset).length = offset := by simpa using hwhole
        exact ⟨now, by rw [Option.bind_some, if_neg hno]; exact hnow,
          List.length_take.symm.trans hlen ▸ min_le_right _ _, rfl⟩

/-- How a pass that has read its data comes to a cursor: it keeps the old one where there is nothing
new, and takes a new one everywhere else. -/
lemma processJsonl_spec (input : PassInput H.Digest) (manifestFact : Option (ShardFact H.Digest))
    (d : SessionDir) {old : Option (OffsetEntry H.Digest)} {forceReset : Bool} {data : ReadData}
    {r' : Reads H.Digest} (hread : readJsonlDelta H seen r old forceReset = (some data, r')) :
    ((processJsonl H seen input manifestFact r d old forceReset).2.2 = r' ∨
      (processJsonl H seen input manifestFact r d old forceReset).2.2 =
        (plainState H seen r' (data.baseOffset + (completePart data.bytes).length)).2) ∧
    ∀ processed, (processJsonl H seen input manifestFact r d old forceReset).1 = some processed →
      (linesOf data.bytes = [] ∧ data.reset = false ∧ processed.state = old.getD (zeroCursor H)) ∨
        (¬ (linesOf data.bytes = [] ∧ data.reset = false) ∧
          (plainState H seen r' (data.baseOffset + (completePart data.bytes).length)).1 =
            some processed.state) := by
  unfold processJsonl
  rw [hread]
  dsimp only
  rw [completeLines_eq]
  dsimp only
  split
  next hmanifest =>
    have hlines : linesOf data.bytes ≠ [] := by
      intro hnil
      simp [matchesManifest, hnil] at hmanifest
    split
    next r'' hplain =>
      rw [hplain]
      exact ⟨Or.inr rfl, by rintro _ ⟨⟩⟩
    next state r'' hplain =>
      rw [hplain]
      refine ⟨Or.inr rfl, ?_⟩
      rintro processed ⟨⟩
      exact Or.inr ⟨fun h => hlines h.1, rfl⟩
  next =>
    by_cases hkeep : ((linesOf data.bytes).isEmpty && !data.reset) = true
    · obtain ⟨hnil, hreset⟩ : linesOf data.bytes = [] ∧ data.reset = false := by simpa using hkeep
      rw [if_pos hkeep]
      dsimp only
      rw [if_pos (by rw [hnil]; rfl)]
      refine ⟨Or.inl rfl, ?_⟩
      rintro processed ⟨⟩
      exact Or.inl ⟨hnil, hreset, rfl⟩
    · have hnew : ¬ (linesOf data.bytes = [] ∧ data.reset = false) := by simpa using hkeep
      rw [if_neg hkeep]
      cases hplain : plainState H seen r'
          (data.baseOffset + (completePart data.bytes).length) with
      | mk state r'' =>
        cases state with
        | none => exact ⟨Or.inr rfl, by rintro _ ⟨⟩⟩
        | some state =>
          dsimp only
          split
          next =>
            refine ⟨Or.inr rfl, ?_⟩
            rintro processed ⟨⟩
            exact Or.inr ⟨hnew, rfl⟩
          next =>
            split
            next => exact ⟨Or.inr rfl, by rintro _ ⟨⟩⟩
            next =>
              refine ⟨Or.inr rfl, ?_⟩
              rintro processed ⟨⟩
              exact Or.inr ⟨hnew, rfl⟩

end Reading

/-- A source's passes over time: its reads so far, the stage, the cursor, and the bytes this cursor
stands for. -/
structure RaceState (H : Sha256) where
  reads : Reads H.Digest
  stage : SessionDir
  cursor : Option (OffsetEntry H.Digest)
  committed : Bytes

/-- A pass over the source, or what happens to its cursor and its cache entry between two of them. -/
inductive RaceAction (H : Sha256)
  /-- The beginning of the source is found sealed already, or no cursor is left. -/
  | resume (known : Option Bytes)
  /-- Another caller asks for a prefix digest. -/
  | ask (offset : ℕ)
  /-- The cache is lost. -/
  | dropCache
  | pass (input : PassInput H.Digest) (manifestFact : Option (ShardFact H.Digest))
      (forceReset : Bool)

section Runs
variable (H : Sha256) (seen : Sightings)

/-- The committed bytes up to where the read started, followed by the complete lines read. -/
def standing (committed : Bytes) (data : ReadData) : Bytes :=
  committed.take data.baseOffset ++ completePart data.bytes

def raceStep (s : RaceState H) : RaceAction H → RaceState H
  | .resume known =>
    { s with
      cursor := known.map fun bytes => ⟨bytes.length, bytes.length, H.digest bytes, false⟩
      committed := known.getD [] }
  | .ask offset =>
    match seen s.reads.next with
    | none => { s with reads := s.reads.tick }
    | some stat => { s with reads := (prefixSha256 H seen s.reads.tick stat offset).2 }
  | .dropCache => { s with reads := ⟨s.reads.next, none⟩ }
  | .pass input manifestFact forceReset =>
    match processJsonl H seen input manifestFact s.reads s.stage s.cursor forceReset with
    | (none, d, r) => { s with reads := r, stage := d }
    | (some processed, d, r) =>
      ⟨r, d, some processed.state,
        ((readJsonlDelta H seen s.reads s.cursor forceReset).1.map (standing s.committed)).getD
          s.committed⟩

def untouched (d : SessionDir) : RaceState H := ⟨⟨0, none⟩, d, none, []⟩

/-- A returned cursor stands for the committed bytes the pass went on from, followed by the
complete lines it accounts for. -/
def CursorExact (s : RaceState H) : RaceAction H → Prop
  | .pass input manifestFact forceReset => ∀ data r processed,
      readJsonlDelta H seen s.reads s.cursor forceReset = (some data, r) →
      (processJsonl H seen input manifestFact s.reads s.stage s.cursor forceReset).1 =
        some processed → StandsFor processed.state (standing s.committed data)
  | _ => True

/-- A pass goes on from the cursor only if the file began with the committed bytes at some
operation of its read. -/
def RewriteRejected (s : RaceState H) : RaceAction H → Prop
  | .pass _ _ forceReset => ∀ data r,
      readJsonlDelta H seen s.reads s.cursor forceReset = (some data, r) → data.baseOffset = 0 ∨
        ∃ i v, s.reads.next ≤ i ∧ i < r.next ∧ seen i = some v ∧ s.committed <+: v.bytes
  | _ => True

/-- When a pass returns a new cursor, the version whose prefix it hashed still begins with the
committed bytes and the lines read. -/
def StillThere (s : RaceState H) : RaceAction H → Prop
  | .pass input manifestFact forceReset => ∀ data r processed,
      readJsonlDelta H seen s.reads s.cursor forceReset = (some data, r) →
      (processJsonl H seen input manifestFact s.reads s.stage s.cursor forceReset).1 =
        some processed →
      (linesOf data.bytes = [] ∧ data.reset = false) ∨
        ∃ v, goneBy H seen r (data.baseOffset + (completePart data.bytes).length) = some v ∧
          standing s.committed data <+: v.bytes
  | _ => True

/-- The cursor stands for what was committed, and the cache fits the versions to come. -/
structure Sound (s : RaceState H) : Prop where
  fits : Fits seen s.reads
  cursor : ∀ e, s.cursor = some e → StandsFor e s.committed

variable {H seen} {s : RaceState H}

lemma sound_untouched (d : SessionDir) : Sound H seen (untouched H d) := ⟨nofun, nofun⟩

lemma standsFor_take {e : OffsetEntry H.Digest} {bytes content : Bytes} (h : StandsFor e bytes)
    (hsha : e.prefixSha256 = H.digest (content.take e.offset)) : bytes <+: content := by
  have htake : content.take e.offset = bytes := H.digest_injective (hsha.symm.trans h.2)
  exact htake ▸ List.take_prefix _ _

lemma Sound.length_standing (h : Sound H seen s) {last : ℕ} {data : ReadData}
    (hfrom : ReadFrom seen s.cursor s.reads.next last data) :
    (standing s.committed data).length = data.baseOffset + (completePart data.bytes).length := by
  rw [standing, List.length_append]
  congr 1
  cases hfrom with
  | cursor e hold hbase => rw [hbase, (h.cursor e hold).1, List.take_length]
  | beginning hbase => rw [hbase, List.take_zero, List.length_nil]

lemma Sound.rewriteRejected (h : Sound H seen s) (hv : WritesVisible seen) (a : RaceAction H) :
    RewriteRejected H seen s a := by
  cases a with
  | pass input manifestFact forceReset =>
    intro data r hread
    obtain ⟨-, hfrom⟩ := readAttempts_spec hv s.cursor forceReset readRetries h.fits
    have hfrom := hfrom data (congrArg Prod.fst hread)
    cases hfrom with
    | cursor e hold _ _ hchecked =>
      obtain ⟨i, v, hi, hlast, hvi, hsha⟩ := hchecked
      have hlast : i < r.next := by
        rw [← readJsonlDelta, hread] at hlast
        exact hlast
      exact Or.inr ⟨i, v, hi, hlast, hvi, standsFor_take (h.cursor e hold) hsha⟩
    | beginning hbase => exact Or.inl hbase
  | _ => trivial

lemma Sound.cursorExact_iff (h : Sound H seen s) (hv : WritesVisible seen) (a : RaceAction H) :
    CursorExact H seen s a ↔ StillThere H seen s a := by
  cases a with
  | pass input manifestFact forceReset =>
    refine forall_congr' fun data => forall_congr' fun r => forall_congr' fun processed =>
      forall_congr' fun hread => forall_congr' fun hdone => ?_
    obtain ⟨hf, hfrom⟩ := readAttempts_spec hv s.cursor forceReset readRetries h.fits
    have hfrom := hfrom data (congrArg Prod.fst hread)
    rw [← readJsonlDelta, hread] at hf
    have hlen := h.length_standing hfrom
    rcases (processJsonl_spec input manifestFact s.stage hread).2 processed hdone with ⟨hnil, hreset, hstate⟩ | ⟨hnew, hplain⟩
    · refine iff_of_true ?_ (Or.inl ⟨hnil, hreset⟩)
      have hpart : completePart data.bytes = [] := linesOf_eq_nil.mp hnil
      rw [hstate, standing, hpart, List.append_nil]
      cases hfrom with
      | cursor e hold hbase =>
        rw [hold, Option.getD_some, hbase, (h.cursor e hold).1, List.take_length]
        exact h.cursor e hold
      | beginning hbase hold =>
        have hnone : s.cursor = none := by simpa [hreset] using hold
        rw [hnone, Option.getD_none, hbase, List.take_zero]
        exact ⟨rfl, rfl⟩
    · rw [or_iff_right hnew]
      obtain ⟨v, hgone, hle, hstate⟩ := (plainState_spec hv hf _).2 _ hplain
      rw [hstate, StandsFor, hgone]
      constructor
      · rintro ⟨-, hsha⟩
        have htake := H.digest_injective hsha
        exact ⟨v, rfl, htake ▸ List.take_prefix _ _⟩
      · rintro ⟨w, hw, hpre⟩
        obtain rfl := Option.some.inj hw
        have htake := List.prefix_iff_eq_take.mp hpre
        rw [hlen] at htake
        exact ⟨hlen.symm, congrArg H.digest htake.symm⟩
  | _ => exact Iff.rfl

lemma Sound.pass (h : Sound H seen s) (hv : WritesVisible seen) {input : PassInput H.Digest}
    {manifestFact : Option (ShardFact H.Digest)} {forceReset : Bool}
    (ha : CursorExact H seen s (.pass input manifestFact forceReset)) :
    Sound H seen (raceStep H seen s (.pass input manifestFact forceReset)) := by
  obtain ⟨hf, -⟩ := readAttempts_spec hv s.cursor forceReset readRetries h.fits
  rw [← readJsonlDelta] at hf
  unfold raceStep
  dsimp only
  rcases hread : readJsonlDelta H seen s.reads s.cursor forceReset with ⟨data, r⟩
  rw [hread] at hf
  cases data with
  | none =>
    have hpass : processJsonl H seen input manifestFact s.reads s.stage s.cursor forceReset =
        (none, s.stage, r) := by
      unfold processJsonl
      rw [hread]
    rw [hpass]
    exact ⟨hf, h.cursor⟩
  | some data =>
    have hf' := (plainState_spec hv hf (data.baseOffset + (completePart data.bytes).length)).1
    have hleft := (processJsonl_spec input manifestFact s.stage hread).1
    have hexact := ha data r
    rcases hpass : processJsonl H seen input manifestFact s.reads s.stage s.cursor forceReset with
      ⟨processed, d, r'⟩
    rw [hpass] at hleft
    have hfits : Fits seen r' := by
      rcases hleft with rfl | rfl
      · exact hf
      · exact hf'
    cases processed with
    | none => exact ⟨hfits, h.cursor⟩
    | some processed =>
      refine ⟨hfits, ?_⟩
      rintro e ⟨⟩
      exact hexact processed hread (congrArg Prod.fst hpass)

lemma Sound.step (h : Sound H seen s) (hv : WritesVisible seen) {a : RaceAction H}
    (ha : CursorExact H seen s a) : Sound H seen (raceStep H seen s a) := by
  cases a with
  | resume known =>
    refine ⟨h.fits, ?_⟩
    cases known with
    | none => exact nofun
    | some bytes =>
      rintro e ⟨⟩
      exact ⟨rfl, rfl⟩
  | ask offset =>
    unfold raceStep
    dsimp only
    cases hstat : seen s.reads.next with
    | none => exact ⟨h.fits.advance (Nat.le_succ _), h.cursor⟩
    | some stat =>
      obtain ⟨answer, r', hanswer, hf, -⟩ := prefixSha256_answer hv h.fits hstat offset
      dsimp only
      rw [hanswer]
      exact ⟨hf, h.cursor⟩
  | dropCache => exact ⟨nofun, h.cursor⟩
  | pass input manifestFact forceReset => exact h.pass hv ha

/-- However writes fall between the operations of a source's passes: their cursors are exact and
no rewrite is adopted, as long as each new cursor is hashed from a version that still begins with
the bytes it shall stand for. -/
theorem cursorExact_along_iff (d : SessionDir) (hv : WritesVisible seen) {as : List (RaceAction H)} :
    Along (raceStep H seen) (fun s a => CursorExact H seen s a ∧ RewriteRejected H seen s a)
        (untouched H d) as ↔
      Along (raceStep H seen) (StillThere H seen) (untouched H d) as := by
  have hgen : ∀ s, Sound H seen s →
      (Along (raceStep H seen) (fun s a => CursorExact H seen s a ∧ RewriteRejected H seen s a) s as ↔
        Along (raceStep H seen) (StillThere H seen) s as) := by
    induction as with
    | nil => exact fun _ _ => Iff.rfl
    | cons a as ih =>
      intro s hs
      rw [along_cons, along_cons, hs.cursorExact_iff hv, and_iff_left (hs.rewriteRejected hv a)]
      exact and_congr_right fun ha => ih _ (hs.step hv ((hs.cursorExact_iff hv a).mpr ha))
  exact hgen _ (sound_untouched d)

/-- Three operations see the first version, all later ones the second. -/
def changing (before after : SourceFile) : Sightings := fun k => some (if k < 3 then before else after)

lemma changing_visible {before after : SourceFile} (h : before.identity ≠ after.identity) :
    WritesVisible (changing before after) := by
  intro i j l v w hij hjl hi hl hid _
  have hi := Option.some.inj hi
  have hl := Option.some.inj hl
  refine congrArg some ?_
  by_cases hl3 : l < 3
  · rw [← hi, if_pos (by omega), if_pos (by omega)]
  · by_cases hi3 : i < 3
    · rw [if_neg hl3] at hl
      rw [if_pos hi3] at hi
      rw [← hi, ← hl] at hid
      exact absurd hid h
    · rw [← hi, if_neg (by omega), if_neg hi3]

def plainPass : RaceAction Sha256.verbatim :=
  .pass ⟨⟨['s'], false, false⟩, ['m'], 0, none⟩ none false

/-- A line is appended between the read of a pass and its new cursor. -/
def appended : Sightings := changing ⟨[97, 10], some 1, 7⟩ ⟨[97, 10, 98, 10], some 2, 7⟩

theorem appended_cursor_exact :
    Along (raceStep Sha256.verbatim appended)
      (fun s a => CursorExact Sha256.verbatim appended s a ∧
        RewriteRejected Sha256.verbatim appended s a)
      (untouched Sha256.verbatim .empty) [plainPass, plainPass] := by
  refine (cursorExact_along_iff .empty (changing_visible (by decide))).mpr ⟨?_, ?_, trivial⟩
  · rintro data r processed hread -
    obtain ⟨hdata, rfl⟩ := Prod.mk.inj hread
    obtain rfl := Option.some.inj hdata
    exact Or.inr ⟨_, rfl, by decide⟩
  · rintro data r processed hread -
    obtain ⟨hdata, rfl⟩ := Prod.mk.inj hread
    obtain rfl := Option.some.inj hdata
    exact Or.inr ⟨_, rfl, by decide⟩

def rewritten : Sightings := changing ⟨[97, 10], some 1, 7⟩ ⟨[98, 10], some 2, 7⟩

/-- The first line is sealed under a cursor that stands for the second, and the next pass, whose
prefix check that cursor passes, never seals the second. -/
theorem rewritten_line_adopted :
    WritesVisible rewritten ∧
    ¬ Along (raceStep Sha256.verbatim rewritten)
      (fun s a => CursorExact Sha256.verbatim rewritten s a ∧
        RewriteRejected Sha256.verbatim rewritten s a)
      (untouched Sha256.verbatim .empty) [plainPass] ∧
    (exec (raceStep Sha256.verbatim rewritten) (untouched Sha256.verbatim .empty)
      [plainPass, plainPass]).stage.files.map StoredFile.bytes = [[97, 10]] ∧
    (exec (raceStep Sha256.verbatim rewritten) (untouched Sha256.verbatim .empty)
      [plainPass, plainPass]).cursor = some ⟨2, 2, [98, 10], false⟩ := by
  refine ⟨changing_visible (by decide), ?_, by decide, by decide⟩
  rintro ⟨⟨hexact, -⟩, -⟩
  exact absurd (hexact _ _ _ rfl rfl).2 (by decide)

end Runs

end Racing
end ChatStasher
