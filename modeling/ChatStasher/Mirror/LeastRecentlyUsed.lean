import ChatStasher.Mirror.CacheDirectory
import ChatStasher.Library.StepRun

/-! One process at work on its body cache: what the directory holds after any sequence of stores,
lookups and session scopes is what was used last. -/
namespace ChatStasher.Mirror

variable {H : Sha256} {P : Type} [LinearOrder P]

/-- A store or a lookup some time after the last one, a session scope entered, or one of the scopes
left. -/
inductive CacheOp (H : Sha256)
  | put (elapsed : ℕ) (key : CacheKey H.Digest) (payload : Bytes)
  | get (elapsed : ℕ) (key : CacheKey H.Digest)
  | declareSession (plaintextBytes : ℕ)
  | dropScope (scope : ℕ)

def noSession : ℕ := 2 ^ 64 - 1

/-- The cache, the clock and what each open scope restores; and, to tell what was used, every entry
that was stored or hit, the last one last. -/
structure CacheRun (H : Sha256) where
  dir : CacheDir H
  clock : ℕ
  scopes : List (Option ℕ)
  used : List (CacheKey H.Digest × EntryFile H)

def CacheRun.fresh (maxBytes : ℕ) : CacheRun H := ⟨⟨[], maxBytes, none⟩, 0, [], []⟩

/-- One operation; the time of each is after the time of the one before. -/
def cacheRunStep (path : CacheKey H.Digest → P) (s : CacheRun H) : CacheOp H → CacheRun H
  | .put elapsed key payload =>
    let now := s.clock + elapsed
    let (outcome, dir) := s.dir.put path key payload now
    { s with
      dir
      clock := now + 1
      used := if outcome = .stored then KeyedList.put s.used (key, encodeEntry payload) else s.used }
  | .get elapsed key =>
    let now := s.clock + elapsed
    let (answer, dir) := s.dir.get key now
    { s with
      dir
      clock := now + 1
      used := match answer with
        | some payload => KeyedList.put s.used (key, encodeEntry payload)
        | none => s.used }
  | .declareSession plaintextBytes =>
    { s with
      dir := { s.dir with
        session := if plaintextBytes = noSession then none else some plaintextBytes }
      scopes := s.scopes ++ [s.dir.session] }
  | .dropScope scope =>
    match s.scopes[scope]? with
    | none => s
    | some previous =>
      { s with dir := { s.dir with session := previous }, scopes := s.scopes.eraseIdx scope }

def entrySize (e : CacheKey H.Digest × EntryFile H) : ℕ := e.2.size

def held (path : CacheKey H.Digest → P) (dir : CacheDir H) :
    List (CacheKey H.Digest × EntryFile H) :=
  (CacheDir.youngestLast path dir.files).map CacheFile.entry

/-- The store is refused for the payload's length or the declared session's. -/
def CacheDir.skips (dir : CacheDir H) (payload : Bytes) : Bool :=
  dir.enabled && (decide (dir.maxBytes < payload.length) ||
    dir.session.any fun bytes => decide (dir.maxBytes / sessionQuotaDenominator < bytes))

def CacheDir.fits (dir : CacheDir H) (payload : Bytes) : Prop :=
  entryHeaderLen + payload.length ≤ dir.maxBytes

/-- A store that was not counted as skipped is answered by a lookup that follows. -/
def AnswersStore (path : CacheKey H.Digest → P) (s : CacheRun H) (elapsed : ℕ)
    (key : CacheKey H.Digest) (payload : Bytes) : Prop :=
  (s.dir.put path key payload (s.clock + elapsed)).1.isSkipped = false → ∀ later,
    ((s.dir.put path key payload (s.clock + elapsed)).2.get key later).1 = some payload

/-- After a store the quota is met, what is held is the longest run of the entries used last, and
the store is answered unless it was skipped. -/
def KeepsRecent (path : CacheKey H.Digest → P) (s : CacheRun H) : CacheOp H → Prop
  | .put elapsed key payload =>
    let next := cacheRunStep path s (.put elapsed key payload)
    next.dir.usage ≤ next.dir.maxBytes ∧
      RecentRun.IsLongest entrySize next.dir.maxBytes next.used (held path next.dir) ∧
      AnswersStore path s elapsed key payload
  | _ => True

/-- A store is skipped, or its entry file is within the quota and not smaller than what was last
stored under its key. -/
def Admitted (s : CacheRun H) : CacheOp H → Prop
  | .put _ key payload => s.dir.skips payload = true ∨
      s.dir.fits payload ∧
        ∀ old ∈ s.used, old.1 = key → old.2.size ≤ entryHeaderLen + payload.length
  | _ => True

/-- The directory stands for a cache within its quota. -/
structure Bounded (s : CacheRun H) (cache : BodyCache H) : Prop where
  ordered : Ordered s.dir cache s.clock
  fits : cache.usage ≤ cache.maxBytes

/-- The cache holds the longest run of what was used last. -/
structure Recent (s : CacheRun H) (cache : BodyCache H) : Prop extends Bounded s cache where
  used_nodup : (s.used.map Prod.fst).Nodup
  encoded : ∀ e ∈ s.used, ∃ payload, e.2 = encodeEntry payload
  longest : RecentRun.IsLongest entrySize cache.maxBytes s.used cache.entries

section Lookup
variable {path : CacheKey H.Digest → P} {dir : CacheDir H} {cache : BodyCache H} {s : CacheRun H}
  {now : ℕ}

lemma held_eq (h : Ordered dir cache now) : held path dir = cache.entries := by
  obtain ⟨files, hperm, horder, hentries⟩ := h.order
  rw [held, CacheDir.youngestLast_eq hperm horder, hentries]

lemma put_of_not_enabled (key : CacheKey H.Digest) (payload : Bytes) (h : dir.enabled = false) :
    dir.put path key payload now = (.disabled, dir) := by
  rw [CacheDir.put, h, Bool.not_false, if_pos rfl]

lemma put_of_skips {key : CacheKey H.Digest} {payload : Bytes} (h : dir.skips payload = true) :
    (dir.put path key payload now).1.isSkipped = true ∧
      (dir.put path key payload now).1 ≠ .stored ∧ (dir.put path key payload now).2 = dir := by
  obtain ⟨henabled, hrefused⟩ := (Bool.and_eq_true_iff).mp h
  rw [CacheDir.put, henabled, Bool.not_true, if_neg Bool.false_ne_true]
  split
  · exact ⟨rfl, by simp, rfl⟩
  next hlarge =>
    rw [decide_eq_false hlarge, Bool.false_or] at hrefused
    rw [if_pos hrefused]
    exact ⟨rfl, by simp, rfl⟩

lemma put_of_not_skips {key : CacheKey H.Digest} {payload : Bytes} (henabled : dir.enabled = true)
    (h : dir.skips payload = false) : (dir.put path key payload now).1 = .stored := by
  rw [CacheDir.skips, henabled, Bool.true_and, Bool.or_eq_false_iff] at h
  rw [CacheDir.put, henabled, Bool.not_true, if_neg Bool.false_ne_true,
    if_neg (of_decide_eq_false h.1), if_neg (by simp [h.2])]

lemma put_eq_keep {key : CacheKey H.Digest} {payload : Bytes} (hordered : Ordered dir cache now)
    (henabled : dir.enabled = true) (h : dir.skips payload = false) :
    (cache.put key payload CacheFaults.none).entries =
      RecentRun.keep entrySize cache.maxBytes
        (KeyedList.put cache.entries (key, encodeEntry payload)) := by
  rw [CacheDir.skips, henabled, Bool.true_and, Bool.or_eq_false_iff, hordered.maxBytes,
    hordered.session] at h
  have henabled' : cache.enabled = true := by
    rw [← henabled, BodyCache.enabled, CacheDir.enabled, hordered.maxBytes]
  rw [BodyCache.put, henabled', Bool.not_true, if_neg Bool.false_ne_true,
    if_neg (of_decide_eq_false h.1), if_neg (by simp [h.2]), if_neg (by simp [CacheFaults.none])]
  exact evictOldest_eq_keep _ _

lemma put_eq_self {key : CacheKey H.Digest} {payload : Bytes} (hordered : Ordered dir cache now)
    (h : dir.enabled = false ∨ dir.skips payload = true) :
    cache.put key payload CacheFaults.none = cache := by
  have henabled' : cache.enabled = dir.enabled := by
    rw [BodyCache.enabled, CacheDir.enabled, hordered.maxBytes]
  rcases h with hdisabled | hskips
  · rw [BodyCache.put, henabled', hdisabled, Bool.not_false, if_pos rfl]
  · obtain ⟨henabled, hrefused⟩ := (Bool.and_eq_true_iff).mp hskips
    rw [hordered.maxBytes, hordered.session] at hrefused
    rw [BodyCache.put, henabled', henabled, Bool.not_true, if_neg Bool.false_ne_true]
    split
    · rfl
    next hlarge =>
      rw [decide_eq_false hlarge, Bool.false_or] at hrefused
      rw [if_pos hrefused]

lemma get_eq_some_iff {key : CacheKey H.Digest} {payload : Bytes} (hordered : Ordered dir cache now)
    (later : ℕ) : (dir.get key later).1 = some payload ↔
      dir.enabled = true ∧ (key, encodeEntry payload) ∈ cache.entries := by
  rw [CacheDir.get]
  cases henabled : dir.enabled with
  | false => simp
  | true =>
    rw [Bool.not_true, if_neg Bool.false_ne_true, ← KeyedList.lookup_eq_some_iff_mem hordered.nodup,
      ← hordered.find key]
    cases dir.files.find? fun file => file.key = key with
    | none => simp
    | some file =>
      cases hverify : verifyEntry file.raw with
      | none =>
        simp only [hverify, Option.map_some, Option.some.injEq, true_and]
        refine iff_of_false (by simp) fun hraw => ?_
        simp [hraw] at hverify
      | some body =>
        simp only [hverify, Option.map_some, Option.some.injEq, true_and]
        rw [verifyEntry_eq_some.mp hverify]
        constructor
        · rintro rfl
          rfl
        · intro hraw
          have := congrArg verifyEntry hraw
          simpa using this

end Lookup

section Step
variable {path : CacheKey H.Digest → P} {cache : BodyCache H} {s : CacheRun H}

lemma put_maxBytes (path : CacheKey H.Digest → P) (dir : CacheDir H) (key : CacheKey H.Digest)
    (payload : Bytes) (now : ℕ) : (dir.put path key payload now).2.maxBytes = dir.maxBytes := by
  unfold CacheDir.put
  split
  · rfl
  split
  · rfl
  split
  · rfl
  · unfold CacheDir.enforceQuota
    split <;> rfl

lemma answersStore_iff (h : Bounded s cache) (path : CacheKey H.Digest → P) (elapsed : ℕ)
    (key : CacheKey H.Digest) (payload : Bytes) :
    AnswersStore path s elapsed key payload ↔
      s.dir.skips payload = true ∨ s.dir.fits payload := by
  have hordered := h.ordered.mono (Nat.le_add_right s.clock elapsed)
  unfold AnswersStore
  cases hskips : s.dir.skips payload with
  | true => simp [(@put_of_skips _ _ _ path _ (s.clock + elapsed) key _ hskips).1]
  | false =>
    cases henabled : s.dir.enabled with
    | false =>
      -- a disabled cache stores nothing and no entry file is within a quota of nothing
      have hquota : s.dir.maxBytes = 0 := by simpa [CacheDir.enabled] using henabled
      rw [put_of_not_enabled key payload henabled]
      refine iff_of_false (fun hanswers => ?_) ?_
      · have := hanswers rfl 0
        simp [CacheDir.get, henabled] at this
      · simp [CacheDir.fits, hquota, entryHeaderLen]
    | true =>
      have hstored : (s.dir.put path key payload (s.clock + elapsed)).1 = .stored :=
        put_of_not_skips henabled hskips
      have henabled' : (s.dir.put path key payload (s.clock + elapsed)).2.enabled = true := by
        rw [← henabled, CacheDir.enabled, CacheDir.enabled, put_maxBytes]
      have hmem : (key, encodeEntry payload) ∈ (cache.put key payload CacheFaults.none).entries ↔
          s.dir.fits payload := by
        rw [put_eq_keep hordered henabled hskips, KeyedList.put, RecentRun.mem_keep_concat,
          ← hordered.maxBytes]
        rfl
      rw [hstored, ← hmem]
      constructor
      · intro hanswers
        exact Or.inr ((get_eq_some_iff (hordered.put path key payload) 0).mp (hanswers rfl 0)).2
      · rintro (habsurd | hheld) - later
        · cases habsurd
        · exact (get_eq_some_iff (hordered.put path key payload) later).mpr ⟨henabled', hheld⟩

lemma Ordered.withSession {dir : CacheDir H} {now : ℕ} (h : Ordered dir cache now)
    (session : Option ℕ) : Ordered { dir with session } { cache with session } now :=
  ⟨h.order, h.nodup, h.maxBytes, rfl, h.past⟩

lemma get_cases (cache : BodyCache H) (key : CacheKey H.Digest) :
    cache.get key CacheFaults.none = (none, cache) ∨
    (∃ raw, cache.entries.lookup key = some raw ∧ verifyEntry raw = none ∧
      cache.get key CacheFaults.none =
        (none, { cache with entries := cache.entries.filter fun e => e.1 ≠ key })) ∨
    ∃ payload, cache.entries.lookup key = some (encodeEntry payload) ∧
      cache.get key CacheFaults.none = (some payload,
        { cache with entries := KeyedList.put cache.entries (key, encodeEntry payload) }) := by
  simp only [BodyCache.get, CacheFaults.none, Bool.or_false, Bool.false_eq_true, if_false]
  cases cache.enabled with
  | false => exact Or.inl rfl
  | true =>
    rw [Bool.not_true, if_neg Bool.false_ne_true]
    cases hlookup : cache.entries.lookup key with
    | none => exact Or.inl rfl
    | some raw =>
      cases hverify : verifyEntry raw with
      | none => exact Or.inr (Or.inl ⟨raw, rfl, hverify, by simp [hverify]⟩)
      | some payload =>
        obtain rfl := verifyEntry_eq_some.mp hverify
        exact Or.inr (Or.inr ⟨payload, rfl, by simp⟩)

lemma usage_eq_total (cache : BodyCache H) : cache.usage = RecentRun.total entrySize cache.entries :=
  rfl

lemma Bounded.step (h : Bounded s cache) (path : CacheKey H.Digest → P) (op : CacheOp H) :
    ∃ cache', Bounded (cacheRunStep path s op) cache' := by
  obtain ⟨hordered, hfits⟩ := h
  cases op with
  | put elapsed key payload =>
    have hlater := hordered.mono (Nat.le_add_right s.clock elapsed)
    refine ⟨cache.put key payload CacheFaults.none, hlater.put path key payload, ?_⟩
    by_cases hrefused : s.dir.enabled = false ∨ s.dir.skips payload = true
    · rw [put_eq_self hlater hrefused]
      exact hfits
    · rw [not_or, Bool.not_eq_false, Bool.not_eq_true] at hrefused
      rw [usage_eq_total, put_eq_keep hlater hrefused.1 hrefused.2]
      have hquota : (cache.put key payload CacheFaults.none).maxBytes = cache.maxBytes := by
        rw [← (hlater.put path key payload).maxBytes, put_maxBytes, hlater.maxBytes]
      rw [hquota]
      exact RecentRun.total_keep_le _ _
  | get elapsed key =>
    have hlater := hordered.mono (Nat.le_add_right s.clock elapsed)
    refine ⟨(cache.get key CacheFaults.none).2, (hlater.get key).2, ?_⟩
    rcases get_cases cache key with hsame | ⟨raw, -, -, hgone⟩ | ⟨payload, hlookup, hhit⟩
    · rw [hsame]
      exact hfits
    · rw [hgone]
      exact (RecentRun.total_le_of_sublist List.filter_sublist).trans hfits
    · rw [hhit]
      have hmem := (KeyedList.lookup_eq_some_iff_mem hlater.nodup).mp hlookup
      exact (RecentRun.total_perm (KeyedList.put_perm_of_mem hlater.nodup hmem)).trans_le hfits
  | declareSession plaintextBytes =>
    exact ⟨_, hordered.withSession _, hfits⟩
  | dropScope scope =>
    dsimp only [cacheRunStep]
    split
    · exact ⟨cache, hordered, hfits⟩
    · exact ⟨_, hordered.withSession _, hfits⟩

lemma Recent.step (h : Recent s cache) (path : CacheKey H.Digest → P) {op : CacheOp H}
    (hok : Admitted s op) : ∃ cache', Recent (cacheRunStep path s op) cache' := by
  obtain ⟨⟨hordered, hfits⟩, hused, hencoded, hlongest⟩ := h
  have hput_encoded : ∀ key payload, ∀ e ∈ KeyedList.put s.used (key, encodeEntry payload),
      ∃ payload, e.2 = encodeEntry payload := by
    intro key payload e he
    rcases KeyedList.mem_put.mp he with rfl | ⟨hold, -⟩
    · exact ⟨payload, rfl⟩
    · exact hencoded e hold
  cases op with
  | put elapsed key payload =>
    have hlater := hordered.mono (Nat.le_add_right s.clock elapsed)
    have hput := hlater.put path key payload
    by_cases hrefused : s.dir.enabled = false ∨ s.dir.skips payload = true
    · have hnot : (s.dir.put path key payload (s.clock + elapsed)).1 ≠ .stored := by
        rcases hrefused with hdisabled | hskips
        · simp [put_of_not_enabled key payload hdisabled]
        · exact (put_of_skips hskips).2.1
      have hsame : (cacheRunStep path s (.put elapsed key payload)).used = s.used := if_neg hnot
      rw [put_eq_self hlater hrefused] at hput
      exact ⟨cache, ⟨hput, hfits⟩, hsame ▸ hused, hsame ▸ hencoded, hsame ▸ hlongest⟩
    · rw [not_or, Bool.not_eq_false, Bool.not_eq_true] at hrefused
      obtain ⟨henabled, hskips⟩ := hrefused
      have hsize := (hok.resolve_left (by simp [hskips])).2
      have hkeep := @put_eq_keep _ _ _ _ key payload hlater henabled hskips
      have hquota : (cache.put key payload CacheFaults.none).maxBytes = cache.maxBytes := by
        rw [← hput.maxBytes, put_maxBytes, hlater.maxBytes]
      have hnew : (cacheRunStep path s (.put elapsed key payload)).used =
          KeyedList.put s.used (key, encodeEntry payload) :=
        if_pos (put_of_not_skips henabled hskips)
      refine ⟨_, ⟨hput, ?_⟩, ?_, ?_, ?_⟩
      · rw [usage_eq_total, hkeep, hquota]
        exact RecentRun.total_keep_le _ _
      · exact hnew ▸ KeyedList.put_nodup hused
      · exact hnew ▸ hput_encoded key payload
      · rw [hnew, hkeep, hquota]
        exact hlongest.put hused hsize
  | get elapsed key =>
    have hlater := hordered.mono (Nat.le_add_right s.clock elapsed)
    obtain ⟨hanswer, hget⟩ := hlater.get key
    rcases get_cases cache key with hmiss | ⟨raw, hlookup, hbad, -⟩ | ⟨payload, hlookup, hhit⟩
    · rw [hmiss] at hanswer hget
      have hsame : (cacheRunStep path s (.get elapsed key)).used = s.used := by
        dsimp only [cacheRunStep]
        rw [hanswer]
      exact ⟨cache, ⟨hget, hfits⟩, hsame ▸ hused, hsame ▸ hencoded, hsame ▸ hlongest⟩
    · -- only entries that verify were ever stored
      have hmem := (KeyedList.lookup_eq_some_iff_mem hlater.nodup).mp hlookup
      obtain ⟨payload, rfl⟩ := hencoded _ (hlongest.recent.subset hmem)
      simp at hbad
    · rw [hhit] at hanswer hget
      have hmem := (KeyedList.lookup_eq_some_iff_mem hlater.nodup).mp hlookup
      have hperm := KeyedList.put_perm_of_mem hlater.nodup hmem
      have hfits' : RecentRun.total entrySize
          (KeyedList.put cache.entries (key, encodeEntry payload)) ≤ cache.maxBytes :=
        (RecentRun.total_perm hperm).trans_le hfits
      have hnew : (cacheRunStep path s (.get elapsed key)).used =
          KeyedList.put s.used (key, encodeEntry payload) := by
        dsimp only [cacheRunStep]
        rw [hanswer]
      refine ⟨_, ⟨hget, hfits'⟩, hnew ▸ KeyedList.put_nodup hused,
        hnew ▸ hput_encoded key payload, ?_⟩
      rw [hnew]
      have hput := hlongest.put hused (e := (key, encodeEntry payload)) fun old hold hkey => by
        rw [List.inj_on_of_nodup_map hused hold (hlongest.recent.subset hmem) hkey]
      rwa [RecentRun.keep_of_fits hfits'] at hput
  | declareSession plaintextBytes =>
    exact ⟨_, ⟨hordered.withSession _, hfits⟩, hused, hencoded, hlongest⟩
  | dropScope scope =>
    dsimp only [cacheRunStep]
    split
    · exact ⟨cache, ⟨hordered, hfits⟩, hused, hencoded, hlongest⟩
    · exact ⟨_, ⟨hordered.withSession _, hfits⟩, hused, hencoded, hlongest⟩

lemma bounded_fresh (maxBytes : ℕ) :
    Bounded (CacheRun.fresh maxBytes : CacheRun H) ⟨[], maxBytes, none⟩ :=
  ⟨⟨⟨[], List.Perm.refl _, List.Pairwise.nil, rfl⟩, List.nodup_nil, rfl, rfl, by simp [CacheRun.fresh]⟩,
    Nat.zero_le _⟩

lemma recent_fresh (maxBytes : ℕ) :
    Recent (CacheRun.fresh maxBytes : CacheRun H) ⟨[], maxBytes, none⟩ :=
  ⟨bounded_fresh maxBytes, List.nodup_nil, by simp [CacheRun.fresh],
    ⟨List.suffix_refl _, Nat.zero_le _, fun _ h _ => h⟩⟩

end Step

section Runs

/-- In a run whose stores are each skipped or within the quota with their header, and never smaller
than what their key held, every store leaves the longest run of the entries used last and is answered
unless it was skipped. In any run every store leaves the quota met, and one that is not skipped is
answered exactly if its entry file is within the quota. -/
theorem body_cache_keeps_recent (path : CacheKey H.Digest → P) (maxBytes : ℕ)
    (ops : List (CacheOp H)) :
    (StepRun.Along (cacheRunStep path) Admitted (CacheRun.fresh maxBytes) ops →
      StepRun.Along (cacheRunStep path) (KeepsRecent path) (CacheRun.fresh maxBytes) ops) ∧
    ∀ elapsed key payload,
      let s := StepRun.exec (cacheRunStep path) (CacheRun.fresh maxBytes) ops
      (cacheRunStep path s (.put elapsed key payload)).dir.usage ≤ s.dir.maxBytes ∧
        (AnswersStore path s elapsed key payload ↔
          s.dir.skips payload = true ∨ s.dir.fits payload) := by
  constructor
  · refine @StepRun.Along.carries _ _ _ _ _ (fun s => ∃ cache, Recent s cache) ?_ _
      ⟨_, recent_fresh maxBytes⟩ _
    rintro s op ⟨cache, hrecent⟩ hok
    obtain ⟨cache', hnext⟩ := hrecent.step path hok
    refine ⟨?_, cache', hnext⟩
    cases op with
    | put elapsed key payload =>
      refine ⟨?_, ?_, ?_⟩
      · rw [hnext.ordered.usage_eq, hnext.ordered.maxBytes]
        exact hnext.fits
      · rw [held_eq hnext.ordered, hnext.ordered.maxBytes]
        exact hnext.longest
      · rw [answersStore_iff hrecent.toBounded path elapsed key payload]
        exact hok.imp_right And.left
    | _ => trivial
  · intro elapsed key payload s
    obtain ⟨cache, hbounded⟩ : ∃ cache, Bounded s cache :=
      @StepRun.invariant_all _ _ _ (fun s => ∃ cache, Bounded s cache)
        (fun s op ⟨cache, h⟩ => h.step path op) _ ⟨_, bounded_fresh maxBytes⟩ ops
    obtain ⟨cache', hnext⟩ := hbounded.step path (.put elapsed key payload)
    refine ⟨?_, answersStore_iff hbounded path elapsed key payload⟩
    rw [hnext.ordered.usage_eq, ← put_maxBytes path s.dir key payload (s.clock + elapsed)]
    exact hnext.fits.trans_eq hnext.ordered.maxBytes.symm

/-- A payload of 60 bytes passes the check against a quota of 100, is stored as a file of 108 bytes
and evicted by the same store: it is not counted as skipped and the lookup that follows misses. -/
theorem body_cache_evicts_what_it_stores :
    let s : CacheRun Sha256.verbatim := CacheRun.fresh 100
    let key : CacheKey Sha256.verbatim.Digest := ⟨[1], 0, 60⟩
    let (outcome, dir) := s.dir.put CacheKey.offset key (List.replicate 60 0) s.clock
    outcome = .stored ∧ outcome.isSkipped = false ∧ dir.files = [] ∧ (dir.get key 1).1 = none := by
  refine ⟨?_, ?_, ?_, ?_⟩ <;> rfl

end Runs

end ChatStasher.Mirror
