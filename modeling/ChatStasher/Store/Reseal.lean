import ChatStasher.Store.HeldUnion
import ChatStasher.Store.TailReplay

/-! What the collapse read returns after a total local loss re-sealed a session elsewhere. -/
namespace ChatStasher

/-- Where the archive keeps shard `seq` of a session sealed under `root`. -/
def archivePath (root : FileName) (seq bucketCap : ℕ) : FileName :=
  root ++ '/' :: shardBucketName seq bucketCap ++ '/' :: shardFilename seq

/-- The session sealed as shards `1..n` in the directory `root`, as a snapshot of it holds them. -/
def sealedUnder (root : FileName) (bucketCap : ℕ) (bodies : List Bytes) : List ArchiveEntry :=
  bodies.zipIdx.map fun (b, i) => ⟨archivePath root (i + 1) bucketCap, shardFilename (i + 1), b⟩

lemma slash_notMem_zeroPadded (w n : ℕ) : '/' ∉ zeroPadded w n := fun h => by
  have hdigit := List.all_eq_true.mp (zeroPadded_isDigit w n) _ h
  revert hdigit
  decide

lemma slash_notMem_shardFilename (seq : ℕ) : '/' ∉ shardFilename seq := by
  simp only [shardFilename, List.mem_append, not_or]
  exact ⟨slash_notMem_zeroPadded 6 seq, by decide⟩

lemma archivePath_inj {root root' : FileName} {seq seq' cap cap' : ℕ}
    (h : archivePath root seq cap = archivePath root' seq' cap') : root = root' ∧ seq = seq' := by
  obtain ⟨hdir, hname⟩ := Framing.append_sep_inj '/' (slash_notMem_shardFilename seq)
    (slash_notMem_shardFilename seq') h
  obtain ⟨hroot, -⟩ := Framing.append_sep_inj '/' (slash_notMem_zeroPadded 3 _)
    (slash_notMem_zeroPadded 3 _) hdir
  exact ⟨hroot, shardFilename_injective hname⟩

def entryAt (root : FileName) (bucketCap : ℕ) (bodies : List Bytes) (i : ℕ) : ArchiveEntry :=
  ⟨archivePath root (i + 1) bucketCap, shardFilename (i + 1), bodies.getD i []⟩

lemma sealedUnder_eq (root : FileName) (bucketCap : ℕ) (bodies : List Bytes) :
    sealedUnder root bucketCap bodies =
      (List.range bodies.length).map (entryAt root bucketCap bodies) := by
  apply List.ext_getElem
  · simp [sealedUnder]
  · intro i h1 h2
    have hi : i < bodies.length := by simpa using h2
    simp [sealedUnder, entryAt, List.getElem?_eq_getElem hi]

lemma mem_sealedUnder {root : FileName} {bucketCap : ℕ} {bodies : List Bytes} {e : ArchiveEntry} :
    e ∈ sealedUnder root bucketCap bodies ↔
      ∃ i < bodies.length, e = entryAt root bucketCap bodies i := by
  rw [sealedUnder_eq, List.mem_map]
  simp [eq_comm]

section Ambiguity

lemma noteSequencePath_spec (entries : List ArchiveEntry) {s : ℕ} {e : ArchiveEntry}
    (hs : s ∉ (entries.foldl noteSequencePath ([], [])).2) (he : e ∈ entries)
    (hparse : parseShardSeq e.shard = some s) :
    (entries.foldl noteSequencePath ([], [])).1.lookup s = some e.path := by
  induction entries using List.reverseRecOn with
  | nil => simp at he
  | append_singleton entries x ih =>
    rw [List.foldl_append, List.foldl_cons, List.foldl_nil] at hs ⊢
    generalize entries.foldl noteSequencePath ([], []) = seen at ih hs ⊢
    cases hx : parseShardSeq x.shard with
    | none =>
      simp only [noteSequencePath, hx] at hs ⊢
      rcases List.mem_append.mp he with he | he
      · exact ih hs he
      · rw [List.mem_singleton.mp he, hx] at hparse
        cases hparse
    | some t =>
      simp only [noteSequencePath, hx] at hs ⊢
      by_cases hst : t = s
      · subst hst
        simp only [List.lookup_cons_self, Option.some.injEq]
        rcases List.mem_append.mp he with he | he
        · split at hs
          next => exact absurd List.mem_cons_self hs
          next hany =>
            simp only [ih hs he, Option.any_some, decide_eq_true_eq, ne_eq, not_not] at hany
            exact hany.symm
        · rw [List.mem_singleton.mp he]
      · have hold : s ∉ seen.2 := fun hmem => hs (by split <;> simp [hmem])
        rw [List.lookup_cons, beq_eq_false_iff_ne.mpr (Ne.symm hst)]
        rcases List.mem_append.mp he with he | he
        · exact ih hold he
        · rw [List.mem_singleton.mp he, hx] at hparse
          exact absurd (Option.some.inj hparse) hst

theorem mem_ambiguousSequences {snapshots : List (List ArchiveEntry)} {s : ℕ}
    {e e' : ArchiveEntry} (he : e ∈ snapshots.flatten) (he' : e' ∈ snapshots.flatten)
    (hs : parseShardSeq e.shard = some s) (hs' : parseShardSeq e'.shard = some s)
    (hne : e.path ≠ e'.path) : s ∈ ambiguousSequences snapshots := by
  by_contra hmem
  have h := noteSequencePath_spec _ hmem he hs
  rw [noteSequencePath_spec _ hmem he' hs'] at h
  exact hne (Option.some.inj h).symm

end Ambiguity

section Read
variable (root₁ root₂ : FileName) (cap₁ cap₂ : ℕ) (bodies : List Bytes)

/-- Of the two entries of shard `i + 1`, the one whose path sorts first, and the other. -/
def firstAt (i : ℕ) : ArchiveEntry :=
  if archivePath root₁ (i + 1) cap₁ < archivePath root₂ (i + 1) cap₂ then
    entryAt root₁ cap₁ bodies i
  else entryAt root₂ cap₂ bodies i

def secondAt (i : ℕ) : ArchiveEntry :=
  if archivePath root₁ (i + 1) cap₁ < archivePath root₂ (i + 1) cap₂ then
    entryAt root₂ cap₂ bodies i
  else entryAt root₁ cap₁ bodies i

@[simp] lemma firstAt_shard (i : ℕ) :
    (firstAt root₁ root₂ cap₁ cap₂ bodies i).shard = shardFilename (i + 1) := by
  rw [firstAt]; split <;> rfl

@[simp] lemma secondAt_shard (i : ℕ) :
    (secondAt root₁ root₂ cap₁ cap₂ bodies i).shard = shardFilename (i + 1) := by
  rw [secondAt]; split <;> rfl

@[simp] lemma firstAt_body (i : ℕ) :
    (firstAt root₁ root₂ cap₁ cap₂ bodies i).body = bodies.getD i [] := by
  rw [firstAt]; split <;> rfl

@[simp] lemma secondAt_body (i : ℕ) :
    (secondAt root₁ root₂ cap₁ cap₂ bodies i).body = bodies.getD i [] := by
  rw [secondAt]; split <;> rfl

lemma mem_firstAt_secondAt (i : ℕ) (e : ArchiveEntry) :
    e ∈ [firstAt root₁ root₂ cap₁ cap₂ bodies i, secondAt root₁ root₂ cap₁ cap₂ bodies i] ↔
      e = entryAt root₁ cap₁ bodies i ∨ e = entryAt root₂ cap₂ bodies i := by
  rw [firstAt, secondAt]
  split <;> simp [or_comm]

lemma firstAt_lt_secondAt (hroot : root₁ ≠ root₂) (i : ℕ) :
    (firstAt root₁ root₂ cap₁ cap₂ bodies i).path <
      (secondAt root₁ root₂ cap₁ cap₂ bodies i).path := by
  rw [firstAt, secondAt]
  split
  next h => exact h
  next h =>
    refine lt_of_le_of_ne (not_lt.mp h) fun heq => hroot ?_
    exact (archivePath_inj heq).1.symm

variable {root₁ root₂ cap₁ cap₂}

lemma identity_of_shard {e : ArchiveEntry} {i : ℕ} (h : e.shard = shardFilename (i + 1)) :
    archiveShardIdentity e =
      toLex (if i + 1 < 10 ^ 6 then i + 1 else u64Max, e.path) := by
  rw [archiveShardIdentity, h, parseShardSeq_shardFilename]
  split <;> rfl

lemma filter_even_pairs {α : Type} (f g : ℕ → α) (n : ℕ) :
    (((List.range n).flatMap fun i => [f i, g i]).zipIdx.filter fun x => x.2 % 2 = 0).map
      Prod.fst = (List.range n).map f := by
  induction n with
  | zero => rfl
  | succ n ih =>
    have hlen : ((List.range n).flatMap fun i => [f i, g i]).length = 2 * n := by
      simp [Nat.mul_comm]
    rw [List.range_succ, List.flatMap_append, List.zipIdx_append, List.filter_append,
      List.map_append, ih, List.map_append, hlen]
    simp [Nat.add_mod]

/-- The pairs of the first `m` shards, each in path order. -/
def pairsUpTo (root₁ root₂ : FileName) (cap₁ cap₂ : ℕ) (bodies : List Bytes) (m : ℕ) :
    List ArchiveEntry :=
  (List.range m).flatMap fun i =>
    [firstAt root₁ root₂ cap₁ cap₂ bodies i, secondAt root₁ root₂ cap₁ cap₂ bodies i]

lemma mem_pairsUpTo {m : ℕ} {e : ArchiveEntry} :
    e ∈ pairsUpTo root₁ root₂ cap₁ cap₂ bodies m ↔
      ∃ i < m, e = entryAt root₁ cap₁ bodies i ∨ e = entryAt root₂ cap₂ bodies i := by
  simp only [pairsUpTo, List.mem_flatMap, List.mem_range, mem_firstAt_secondAt]

lemma pairsUpTo_sorted (hroot : root₁ ≠ root₂) {m : ℕ} (hm : m < 10 ^ 6) :
    (pairsUpTo root₁ root₂ cap₁ cap₂ bodies m).Pairwise fun a b =>
      archiveShardIdentity a < archiveShardIdentity b := by
  rw [pairsUpTo, List.pairwise_flatMap]
  constructor
  · intro i hi
    have hlt := firstAt_lt_secondAt root₁ root₂ cap₁ cap₂ bodies hroot i
    simp only [List.pairwise_cons, List.mem_singleton, forall_eq, List.not_mem_nil, false_imp_iff,
      implies_true, List.Pairwise.nil, and_true]
    rw [identity_of_shard (firstAt_shard ..), identity_of_shard (secondAt_shard ..)]
    exact Prod.Lex.right _ hlt
  · refine List.pairwise_lt_range.imp_of_mem fun {i j} hi hj hij x hx y hy => ?_
    rw [List.mem_range] at hi hj
    have hxs : x.shard = shardFilename (i + 1) := by
      rcases (mem_firstAt_secondAt ..).mp hx with rfl | rfl <;> rfl
    have hys : y.shard = shardFilename (j + 1) := by
      rcases (mem_firstAt_secondAt ..).mp hy with rfl | rfl <;> rfl
    rw [identity_of_shard hxs, identity_of_shard hys, if_pos (by omega), if_pos (by omega)]
    exact Prod.Lex.left _ _ (by omega)

section Snapshots
variable {snapshots : List (List ArchiveEntry)}

/-- The archive holds the session as two instances of the machine sealed it, and nothing else. -/
def HoldsBoth (root₁ root₂ : FileName) (cap₁ cap₂ : ℕ) (bodies : List Bytes)
    (snapshots : List (List ArchiveEntry)) : Prop :=
  ∀ e, e ∈ snapshots.flatten ↔
    e ∈ sealedUnder root₁ cap₁ bodies ∨ e ∈ sealedUnder root₂ cap₂ bodies

lemma HoldsBoth.mem_iff {bodies : List Bytes}
    (h : HoldsBoth root₁ root₂ cap₁ cap₂ bodies snapshots) {e : ArchiveEntry} :
    e ∈ snapshots.flatten ↔ ∃ i < bodies.length,
      e = entryAt root₁ cap₁ bodies i ∨ e = entryAt root₂ cap₂ bodies i := by
  rw [h, mem_sealedUnder, mem_sealedUnder]
  constructor
  · rintro (⟨i, hi, rfl⟩ | ⟨i, hi, rfl⟩)
    · exact ⟨i, hi, Or.inl rfl⟩
    · exact ⟨i, hi, Or.inr rfl⟩
  · rintro ⟨i, hi, h | h⟩
    · exact Or.inl ⟨i, hi, h⟩
    · exact Or.inr ⟨i, hi, h⟩

lemma HoldsBoth.apart {bodies : List Bytes}
    (h : HoldsBoth root₁ root₂ cap₁ cap₂ bodies snapshots) (hroot : root₁ ≠ root₂) :
    IdentitiesApart snapshots.flatten := by
  intro x hx y hy hkey
  have hpath : x.path = y.path := congrArg (fun k => (ofLex k).2) hkey
  obtain ⟨i, -, hi⟩ := h.mem_iff.mp hx
  obtain ⟨j, -, hj⟩ := h.mem_iff.mp hy
  rcases hi with rfl | rfl <;> rcases hj with rfl | rfl
  · have hij := (archivePath_inj hpath).2
    rw [Nat.succ_injective hij]
  · exact absurd (archivePath_inj hpath).1 hroot
  · exact absurd (archivePath_inj hpath).1.symm hroot
  · have hij := (archivePath_inj hpath).2
    rw [Nat.succ_injective hij]

theorem HoldsBoth.held_eq {bodies : List Bytes}
    (h : HoldsBoth root₁ root₂ cap₁ cap₂ bodies snapshots) (hroot : root₁ ≠ root₂) :
    heldEntries snapshots =
      pairsUpTo root₁ root₂ cap₁ cap₂ bodies (min bodies.length (10 ^ 6 - 1)) ++
        heldEntries [snapshots.flatten.filter fun e => parseShardSeq e.shard = none] := by
  have hrest : IdentitiesApart
      [snapshots.flatten.filter fun e => parseShardSeq e.shard = none].flatten := by
    simp only [List.flatten_singleton]
    exact fun x hx y hy => h.apart hroot x (List.mem_filter.mp hx).1 y (List.mem_filter.mp hy).1
  have hparse : ∀ i, parseShardSeq (shardFilename (i + 1)) = none ↔ ¬ i < 10 ^ 6 - 1 := by
    intro i
    rw [parseShardSeq_shardFilename]
    split <;> simp <;> omega
  refine heldEntries_eq (h.apart hroot) ?_ fun e => ?_
  · refine List.pairwise_append.mpr
      ⟨pairsUpTo_sorted bodies hroot (by omega), heldEntries_sorted _, fun x hx y hy => ?_⟩
    obtain ⟨i, hi, hx⟩ := (mem_pairsUpTo bodies).mp hx
    have hxs : x.shard = shardFilename (i + 1) := by rcases hx with rfl | rfl <;> rfl
    rw [mem_heldEntries hrest, List.flatten_singleton, List.mem_filter, decide_eq_true_eq] at hy
    rw [identity_of_shard hxs, if_pos (by omega), archiveShardIdentity, hy.2]
    exact Prod.Lex.left _ _ (by simp [u64Max]; omega)
  · rw [List.mem_append, mem_pairsUpTo, mem_heldEntries hrest, List.flatten_singleton,
      List.mem_filter, decide_eq_true_eq]
    simp only [h.mem_iff]
    constructor
    · rintro (⟨i, hi, he⟩ | ⟨he, -⟩)
      · exact ⟨i, by omega, he⟩
      · exact he
    · rintro ⟨i, hi, he⟩
      by_cases hlt : i < 10 ^ 6 - 1
      · exact Or.inl ⟨i, by omega, he⟩
      · refine Or.inr ⟨⟨i, hi, he⟩, ?_⟩
        rcases he with rfl | rfl <;> exact (hparse i).mpr hlt

lemma getElem?_pairsUpTo (m i : ℕ) :
    (pairsUpTo root₁ root₂ cap₁ cap₂ bodies m)[i]? =
      if i < 2 * m then
        some (if i % 2 = 0 then firstAt root₁ root₂ cap₁ cap₂ bodies (i / 2)
          else secondAt root₁ root₂ cap₁ cap₂ bodies (i / 2))
      else none := by
  induction m with
  | zero => simp [pairsUpTo]
  | succ m ih =>
    have hlen : (pairsUpTo root₁ root₂ cap₁ cap₂ bodies m).length = 2 * m := by
      simp [pairsUpTo, Nat.mul_comm]
    have hsucc : pairsUpTo root₁ root₂ cap₁ cap₂ bodies (m + 1) =
        pairsUpTo root₁ root₂ cap₁ cap₂ bodies m ++
          [firstAt root₁ root₂ cap₁ cap₂ bodies m, secondAt root₁ root₂ cap₁ cap₂ bodies m] := by
      simp [pairsUpTo, List.range_succ]
    rw [hsucc]
    by_cases hi : i < 2 * m
    · have hi' : i < 2 * (m + 1) := by omega
      rw [List.getElem?_append_left (by omega), ih, if_pos hi, if_pos hi']
    · rw [List.getElem?_append_right (by omega), hlen]
      obtain ⟨d, rfl⟩ : ∃ d, i = 2 * m + d := ⟨i - 2 * m, by omega⟩
      rw [Nat.add_sub_cancel_left]
      match d with
      | 0 => simp
      | 1 =>
        rw [if_pos (by omega), if_neg (by omega), show (2 * m + 1) / 2 = m by omega]
        rfl
      | d + 2 => rw [if_neg (by omega)]; rfl

lemma HoldsBoth.nulled {bodies : List Bytes}
    (h : HoldsBoth root₁ root₂ cap₁ cap₂ bodies snapshots) (hroot : root₁ ≠ root₂)
    {e : ArchiveEntry} (he : e ∈ snapshots.flatten) :
    (parseShardSeq e.shard).filter (· ∉ ambiguousSequences snapshots) = none := by
  obtain ⟨i, hi, hie⟩ := h.mem_iff.mp he
  have h₁ := h.mem_iff.mpr ⟨i, hi, Or.inl rfl⟩
  have h₂ := h.mem_iff.mpr ⟨i, hi, Or.inr rfl⟩
  have hshard : e.shard = shardFilename (i + 1) := by rcases hie with rfl | rfl <;> rfl
  have hpaths : archivePath root₁ (i + 1) cap₁ ≠ archivePath root₂ (i + 1) cap₂ :=
    fun heq => hroot (archivePath_inj heq).1
  cases hs : parseShardSeq e.shard with
  | none => rfl
  | some s =>
    rw [hshard] at hs
    have hamb := mem_ambiguousSequences h₁ h₂ hs hs hpaths
    simp [hamb]

lemma HoldsBoth.mem_dump {bodies : List Bytes}
    (h : HoldsBoth root₁ root₂ cap₁ cap₂ bodies snapshots) (hroot : root₁ ≠ root₂)
    (observed : List (Option ℕ × Bytes) → List ℕ) :
    dumpCumulativeSession observed true snapshots =
      ((heldEntries snapshots).zipIdx.filter fun x =>
        x.2 ∉ duplicateShardIndicesSequenced
          ((heldEntries snapshots).map fun e => (parseShardSeq e.shard, e.body))).map Prod.fst := by
  simp only [dumpCumulativeSession, if_true]
  congr 1
  refine List.filter_congr fun x hx => ?_
  have hmem : x.1 ∈ heldEntries snapshots := (List.mem_zipIdx' hx).2 ▸ List.getElem_mem _
  rw [h.nulled hroot ((mem_heldEntries (h.apart hroot)).mp hmem)]
  simp

lemma HoldsBoth.held_getElem? {bodies : List Bytes}
    (h : HoldsBoth root₁ root₂ cap₁ cap₂ bodies snapshots) (hroot : root₁ ≠ root₂) (i : ℕ) :
    (((heldEntries snapshots).map fun e => (parseShardSeq e.shard, e.body))[i]?).bind Prod.fst =
      if i < 2 * min bodies.length (10 ^ 6 - 1) then some (i / 2 + 1) else none := by
  rw [h.held_eq hroot]
  generalize hm : min bodies.length (10 ^ 6 - 1) = m
  have hlen : (pairsUpTo root₁ root₂ cap₁ cap₂ bodies m).length = 2 * m := by
    simp [pairsUpTo, Nat.mul_comm]
  rw [List.getElem?_map]
  by_cases hi : i < 2 * m
  · rw [List.getElem?_append_left (by omega), getElem?_pairsUpTo, if_pos hi, if_pos hi]
    have hparse : parseShardSeq (shardFilename (i / 2 + 1)) = some (i / 2 + 1) :=
      parseShardSeq_of_lt (by omega)
    split <;> simp [hparse]
  · rw [List.getElem?_append_right (by omega), if_neg hi]
    cases hget : (heldEntries [snapshots.flatten.filter fun e =>
        parseShardSeq e.shard = none])[i - (pairsUpTo root₁ root₂ cap₁ cap₂ bodies m).length]? with
    | none => rfl
    | some e =>
      have hrest : IdentitiesApart
          [snapshots.flatten.filter fun e => parseShardSeq e.shard = none].flatten := by
        simp only [List.flatten_singleton]
        exact fun x hx y hy =>
          h.apart hroot x (List.mem_filter.mp hx).1 y (List.mem_filter.mp hy).1
      have hmem := (mem_heldEntries hrest).mp (List.mem_of_getElem? hget)
      rw [List.flatten_singleton, List.mem_filter, decide_eq_true_eq] at hmem
      simp [hmem.2]

lemma HoldsBoth.folded {bodies : List Bytes}
    (h : HoldsBoth root₁ root₂ cap₁ cap₂ bodies snapshots) (hroot : root₁ ≠ root₂) {i : ℕ}
    (hi : i ∈ duplicateShardIndicesSequenced
      ((heldEntries snapshots).map fun e => (parseShardSeq e.shard, e.body))) :
    i < 2 * min bodies.length (10 ^ 6 - 1) ∧ i % 2 = 1 ∧
      (i, i - 1) ∈ tailReplayPartners ((heldEntries snapshots).map ArchiveEntry.body) := by
  obtain ⟨p, hp, s, hs, hps⟩ := mem_duplicateShardIndices.mp hi
  rw [h.held_getElem? hroot] at hs hps
  have hlt : p < i := (tailReplayLoop_partner (by simp) hp).2.1
  split at hs
  next hib =>
    split at hps
    next hpb =>
      have := Option.some.inj hs
      have := Option.some.inj hps
      obtain rfl : p = i - 1 := by omega
      refine ⟨hib, by omega, ?_⟩
      simpa [Function.comp_def] using hp
    next => cases hps
  next => cases hs

lemma HoldsBoth.held_eq_pairs {bodies : List Bytes}
    (h : HoldsBoth root₁ root₂ cap₁ cap₂ bodies snapshots) (hroot : root₁ ≠ root₂)
    (hn : bodies.length < 10 ^ 6) :
    heldEntries snapshots = pairsUpTo root₁ root₂ cap₁ cap₂ bodies bodies.length := by
  refine heldEntries_eq (h.apart hroot) (pairsUpTo_sorted bodies hroot hn) fun e => ?_
  rw [mem_pairsUpTo, h.mem_iff]

lemma map_body_pairsUpTo :
    (pairsUpTo root₁ root₂ cap₁ cap₂ bodies bodies.length).map ArchiveEntry.body =
      pairUp bodies := by
  apply List.ext_getElem?
  intro i
  rw [List.getElem?_map, getElem?_pairsUpTo, getElem?_pairUp]
  by_cases hi : i < 2 * bodies.length
  · have hdiv : i / 2 < bodies.length := by omega
    rw [if_pos hi, List.getElem?_eq_getElem hdiv]
    split <;> simp [List.getElem?_eq_getElem hdiv]
  · rw [if_neg hi, List.getElem?_eq_none (by omega)]
    rfl

lemma HoldsBoth.mem_read {bodies : List Bytes}
    (h : HoldsBoth root₁ root₂ cap₁ cap₂ bodies snapshots) (hroot : root₁ ≠ root₂)
    (observed : List (Option ℕ × Bytes) → List ℕ) {i : ℕ} {e : ArchiveEntry}
    (hget : (heldEntries snapshots)[i]? = some e)
    (hi : i ∉ duplicateShardIndicesSequenced
      ((heldEntries snapshots).map fun e => (parseShardSeq e.shard, e.body))) :
    e ∈ dumpCumulativeSession observed true snapshots := by
  rw [h.mem_dump hroot, List.mem_map]
  exact ⟨(e, i), List.mem_filter.mpr ⟨List.mem_zipIdx_iff_getElem?.mpr hget, by simpa using hi⟩, rfl⟩

lemma HoldsBoth.length_lt_read {bodies : List Bytes}
    (h : HoldsBoth root₁ root₂ cap₁ cap₂ bodies snapshots) (hroot : root₁ ≠ root₂)
    (observed : List (Option ℕ × Bytes) → List ℕ) {j : ℕ}
    (hsecond : secondAt root₁ root₂ cap₁ cap₂ bodies j ∈
      dumpCumulativeSession observed true snapshots) :
    bodies.length < (dumpCumulativeSession observed true snapshots).length := by
  have hfirst : ∀ i < bodies.length, firstAt root₁ root₂ cap₁ cap₂ bodies i ∈
      dumpCumulativeSession observed true snapshots := by
    intro i hi
    have hmem : firstAt root₁ root₂ cap₁ cap₂ bodies i ∈ snapshots.flatten :=
      h.mem_iff.mpr ⟨i, hi, (mem_firstAt_secondAt ..).mp List.mem_cons_self⟩
    obtain ⟨p, hp⟩ := List.mem_iff_getElem?.mp ((mem_heldEntries (h.apart hroot)).mpr hmem)
    refine h.mem_read hroot observed hp fun hfold => ?_
    -- a folded position is odd and six-digit, and there the union holds a second shard
    obtain ⟨hlt, hodd, -⟩ := h.folded hroot hfold
    rw [h.held_eq hroot, List.getElem?_append_left (by simp [pairsUpTo]; omega),
      getElem?_pairsUpTo, if_pos hlt, if_neg (by omega)] at hp
    have hpi := congrArg (fun e => e.map ArchiveEntry.shard) hp
    simp only [Option.map_some, secondAt_shard, firstAt_shard, Option.some.injEq] at hpi
    have hpi : p / 2 = i := Nat.succ_injective (shardFilename_injective hpi)
    have hpath := firstAt_lt_secondAt root₁ root₂ cap₁ cap₂ bodies hroot i
    rw [← Option.some.inj hp, hpi] at hpath
    exact lt_irrefl _ hpath
  have hnodup : ((List.range bodies.length).map (firstAt root₁ root₂ cap₁ cap₂ bodies) ++
      [secondAt root₁ root₂ cap₁ cap₂ bodies j]).Nodup := by
    refine List.nodup_append.mpr ⟨?_, by simp, ?_⟩
    · refine List.Nodup.map_on (fun x _ y _ hxy => ?_) List.nodup_range
      have := congrArg ArchiveEntry.shard hxy
      simp only [firstAt_shard] at this
      exact Nat.succ_injective (shardFilename_injective this)
    · simp only [List.mem_map, List.mem_singleton]
      rintro _ ⟨i, -, rfl⟩ _ rfl heq
      have hshard := congrArg ArchiveEntry.shard heq
      simp only [firstAt_shard, secondAt_shard] at hshard
      have hij : i = j := Nat.succ_injective (shardFilename_injective hshard)
      have hpath := firstAt_lt_secondAt root₁ root₂ cap₁ cap₂ bodies hroot j
      rw [← hij, heq, hij] at hpath
      exact lt_irrefl _ hpath
  have hsub : _ ⊆ dumpCumulativeSession observed true snapshots := fun e he => by
    rcases List.mem_append.mp he with he | he
    · obtain ⟨i, hi, rfl⟩ := List.mem_map.mp he
      exact hfirst i (List.mem_range.mp hi)
    · rw [List.mem_singleton.mp he]
      exact hsecond
  have hlen := (List.subperm_of_subset hnodup hsub).length_le
  rw [List.length_append, List.length_map, List.length_range] at hlen
  exact hlen

theorem HoldsBoth.read_of_fresh {bodies : List Bytes}
    (h : HoldsBoth root₁ root₂ cap₁ cap₂ bodies snapshots) (hroot : root₁ ≠ root₂)
    (observed : List (Option ℕ × Bytes) → List ℕ) (hn : bodies.length < 10 ^ 6)
    (hfresh : FreshUpTo bodies bodies.length) :
    dumpCumulativeSession observed true snapshots =
      (List.range bodies.length).map (firstAt root₁ root₂ cap₁ cap₂ bodies) := by
  have hdup : ∀ i < 2 * bodies.length, i ∈ duplicateShardIndicesSequenced
      ((heldEntries snapshots).map fun e => (parseShardSeq e.shard, e.body)) ↔ i % 2 = 1 := by
    refine fun i hi => ⟨fun hfold => (h.folded hroot hfold).2.1, fun hodd => ?_⟩
    refine mem_duplicateShardIndices.mpr ⟨i - 1, ?_, i / 2 + 1, ?_, ?_⟩
    · have hpartners := tailReplayPartners_fresh hfresh
      rw [← map_body_pairsUpTo bodies, ← h.held_eq_pairs hroot hn] at hpartners
      rw [List.map_map]
      change (i, i - 1) ∈ tailReplayPartners ((heldEntries snapshots).map ArchiveEntry.body)
      rw [hpartners]
      exact List.mem_map.mpr ⟨i / 2, List.mem_range.mpr (by omega), by
        rw [Prod.mk.injEq]; omega⟩
    · rw [h.held_getElem? hroot, if_pos (by omega)]
    · rw [h.held_getElem? hroot, if_pos (by omega), show (i - 1) / 2 = i / 2 by omega]
  rw [h.mem_dump hroot]
  have hkeep : ∀ x ∈ (heldEntries snapshots).zipIdx, decide (x.2 ∉ duplicateShardIndicesSequenced
      ((heldEntries snapshots).map fun e => (parseShardSeq e.shard, e.body))) =
      decide (x.2 % 2 = 0) := by
    intro x hx
    have hlt := (List.mem_zipIdx' hx).1
    rw [h.held_eq_pairs hroot hn] at hlt
    have hlt : x.2 < 2 * bodies.length := by simpa [pairsUpTo, Nat.mul_comm] using hlt
    rw [decide_eq_decide, hdup x.2 hlt]
    omega
  rw [List.filter_congr hkeep, h.held_eq_pairs hroot hn, pairsUpTo]
  exact filter_even_pairs _ _ _

theorem HoldsBoth.length_lt_read_of_not_fresh {bodies : List Bytes}
    (h : HoldsBoth root₁ root₂ cap₁ cap₂ bodies snapshots) (hroot : root₁ ≠ root₂)
    (observed : List (Option ℕ × Bytes) → List ℕ)
    (hbad : ¬ (bodies.length < 10 ^ 6 ∧ FreshUpTo bodies bodies.length)) :
    bodies.length < (dumpCumulativeSession observed true snapshots).length := by
  by_cases hn : bodies.length < 10 ^ 6
  · have hrep : ¬ FreshUpTo bodies bodies.length := fun hf => hbad ⟨hn, hf⟩
    simp only [FreshUpTo, not_forall, not_not] at hrep
    -- the first consecutive repeat: everything before it is fresh
    obtain ⟨hk, hkrep⟩ := Nat.find_spec hrep
    have hfresh : FreshUpTo bodies (Nat.find hrep + 1) := fun i hi heq =>
      Nat.find_min hrep (m := i) (by omega) ⟨by omega, heq⟩
    have hnot := not_mem_tailReplayPartners hfresh hk hkrep
    rw [← map_body_pairsUpTo bodies, ← h.held_eq_pairs hroot hn] at hnot
    refine h.length_lt_read hroot observed (j := Nat.find hrep + 1)
      (h.mem_read hroot observed (i := 2 * (Nat.find hrep + 1) + 1) ?_ fun hfold => ?_)
    · rw [h.held_eq_pairs hroot hn, getElem?_pairsUpTo, if_pos (by omega), if_neg (by omega),
        show (2 * (Nat.find hrep + 1) + 1) / 2 = Nat.find hrep + 1 by omega]
    · exact hnot (h.folded hroot hfold).2.2
  · have hmem : secondAt root₁ root₂ cap₁ cap₂ bodies (10 ^ 6 - 1) ∈ snapshots.flatten :=
      h.mem_iff.mpr ⟨10 ^ 6 - 1, by omega, (mem_firstAt_secondAt ..).mp (by simp)⟩
    obtain ⟨p, hp⟩ := List.mem_iff_getElem?.mp ((mem_heldEntries (h.apart hroot)).mpr hmem)
    refine h.length_lt_read hroot observed (h.mem_read hroot observed hp fun hfold => ?_)
    have hseq := h.held_getElem? hroot p
    rw [if_pos (h.folded hroot hfold).1, List.getElem?_map, hp] at hseq
    have hnone : parseShardSeq (shardFilename (10 ^ 6 - 1 + 1)) = none :=
      parseShardSeq_of_le le_rfl
    simp only [Option.map_some, Option.bind_some, secondAt_shard, hnone] at hseq
    cases hseq

end Snapshots

end Read

lemma freshUpTo_iff_isChain {bodies : List Bytes} :
    FreshUpTo bodies bodies.length ↔ bodies.IsChain (· ≠ ·) := by
  rw [List.isChain_iff_getElem]
  refine forall_congr' fun i => forall_congr' fun hi => not_congr ?_
  rw [List.getElem?_eq_getElem hi, List.getElem?_eq_getElem (by omega), Option.some.injEq]

/-- The collapse read of a session re-sealed under a second root returns the sealed bodies exactly
when no two consecutive bodies are equal and no sequence needs a seventh digit; the shards it keeps
are the originals exactly when, besides, their paths sort before the copies'. -/
theorem collapse_read_of_reseal (root₁ root₂ : FileName) (cap₁ cap₂ : ℕ) (bodies : List Bytes)
    (observed : List (Option ℕ × Bytes) → List ℕ) (snapshots : List (List ArchiveEntry))
    (hroot : root₁ ≠ root₂) (h : HoldsBoth root₁ root₂ cap₁ cap₂ bodies snapshots) :
    ((dumpCumulativeSession observed true snapshots).map ArchiveEntry.body = bodies ↔
      bodies.length < 10 ^ 6 ∧ bodies.IsChain (· ≠ ·)) ∧
    (dumpCumulativeSession observed true snapshots = sealedUnder root₁ cap₁ bodies ↔
      bodies.length < 10 ^ 6 ∧ bodies.IsChain (· ≠ ·) ∧
        ∀ i < bodies.length, archivePath root₁ (i + 1) cap₁ < archivePath root₂ (i + 1) cap₂) := by
  by_cases hgood : bodies.length < 10 ^ 6 ∧ FreshUpTo bodies bodies.length
  · have hread := h.read_of_fresh hroot observed hgood.1 hgood.2
    have hchain := freshUpTo_iff_isChain.mp hgood.2
    constructor
    · refine ⟨fun _ => ⟨hgood.1, hchain⟩, fun _ => ?_⟩
      rw [hread]
      apply List.ext_getElem
      · simp
      · intro i h1 h2
        simp [List.getElem?_eq_getElem h2]
    · rw [hread, sealedUnder_eq]
      constructor
      · refine fun heq => ⟨hgood.1, hchain, fun i hi => ?_⟩
        have hi' := List.map_inj_left.mp heq i (List.mem_range.mpr hi)
        by_contra hlt
        rw [firstAt, if_neg hlt] at hi'
        exact hroot (archivePath_inj (congrArg ArchiveEntry.path hi')).1.symm
      · rintro ⟨-, -, hlt⟩
        refine List.map_congr_left fun i hi => ?_
        rw [firstAt, if_pos (hlt i (List.mem_range.mp hi))]
  · have hlen := h.length_lt_read_of_not_fresh hroot observed hgood
    rw [freshUpTo_iff_isChain] at hgood
    constructor
    · refine ⟨fun heq => ?_, fun hc => absurd hc hgood⟩
      have := congrArg List.length heq
      rw [List.length_map] at this
      omega
    · refine ⟨fun heq => ?_, fun hc => absurd ⟨hc.1, hc.2.1⟩ hgood⟩
      have := congrArg List.length heq
      rw [sealedUnder_eq, List.length_map, List.length_range] at this
      omega

/-- Two different turns, sealed under `a` and re-sealed under `b`, are read back once each. -/
theorem collapse_read_of_reseal_two_turns :
    dumpCumulativeSession (fun _ => []) true
        [sealedUnder ['b'] 20 [[120, 10], [121, 10]], sealedUnder ['a'] 20 [[120, 10], [121, 10]]] =
      sealedUnder ['a'] 20 [[120, 10], [121, 10]] :=
  (collapse_read_of_reseal ['a'] ['b'] 20 20 [[120, 10], [121, 10]] (fun _ => [])
    [sealedUnder ['b'] 20 [[120, 10], [121, 10]], sealedUnder ['a'] 20 [[120, 10], [121, 10]]]
    (by decide) (fun e => by
      rw [List.flatten_cons, List.flatten_singleton, List.mem_append, or_comm])).2.mpr (by decide)

/-- A turn sealed twice in a row comes back three times: the repeat is matched by the first copy,
and then neither copy of the second shard can be folded. -/
theorem collapse_read_keeps_copy_of_repeat :
    let read := dumpCumulativeSession (fun _ => []) true
      [sealedUnder ['b'] 20 [[120, 10], [120, 10]], sealedUnder ['a'] 20 [[120, 10], [120, 10]]]
    read.map ArchiveEntry.body ≠ [[120, 10], [120, 10]] ∧ read.length = 3 := by
  decide

end ChatStasher
