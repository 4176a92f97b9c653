import ChatStasher.Collect.HashCache

/-! Which answers of the hash cache are digests of what the files hold at that moment. -/
namespace ChatStasher
namespace HashCache
open StepRun

/-- What happens to the files, and what a pass asks or does with its cache. -/
inductive CacheAction (P : Type)
  | write (path : P) (file : SourceFile)
  | delete (path : P)
  | prefixSha256 (path : P) (offset : ℕ)
  | fileSha256 (path : P)
  | shardConcatSha256 (dir : P) (shards : List (ℕ × P)) (covered : ℕ)
  | save (written : Bool)
  | load (readable : Bool)
  | disabled

/-- The files, the cache in memory and in the state directory, and every version any file has had
under its path digest. -/
structure CacheState (P K D : Type) where
  disk : P → Option SourceFile
  cache : HashCache K D
  saved : Option (List (HashKey K × CacheValue K D))
  versions : List (K × SourceFile)

section Steps
variable (H : Sha256) {P K : Type} [DecidableEq P] [DecidableEq K] (pathDigest : P → K)

def call (s : CacheState P K H.Digest) :
    CacheAction P → Option (StatAnswer H.Digest × HashCache K H.Digest)
  | .prefixSha256 path offset => HashCache.prefixSha256 H pathDigest s.cache s.disk path offset
  | .fileSha256 path => HashCache.fileSha256 H pathDigest s.cache s.disk path
  | .shardConcatSha256 dir shards covered =>
    HashCache.shardConcatSha256 H pathDigest s.cache s.disk dir shards covered
  | _ => none

def cacheStep (s : CacheState P K H.Digest) (a : CacheAction P) : CacheState P K H.Digest :=
  match a with
  | .write path file =>
    { s with
      disk := Function.update s.disk path (some file)
      versions := (pathDigest path, file) :: s.versions }
  | .delete path => { s with disk := Function.update s.disk path none }
  | .save written =>
    let (cache, saved) := s.cache.save s.saved written
    { s with
      cache := cache
      saved := saved }
  | .load readable => { s with cache := HashCache.load (if readable then s.saved else none) }
  | .disabled => { s with cache := HashCache.disabled }
  | asked =>
    match call H pathDigest s asked with
    | some (_, cache) => { s with cache := cache }
    | none => s

def coldStart : CacheState P K H.Digest := ⟨fun _ => none, HashCache.load none, none, []⟩

/-- The paths a call reads. -/
def CacheAction.asked : CacheAction P → List P
  | .prefixSha256 path _ => [path]
  | .fileSha256 path => [path]
  | .shardConcatSha256 _ shards _ => shards.map Prod.snd
  | _ => []

/-- The bytes a call asks about, read now. -/
def freshBytes (disk : P → Option SourceFile) : CacheAction P → Option Bytes
  | .prefixSha256 path offset => (disk path).map fun file => file.bytes.take offset
  | .fileSha256 path => (disk path).map SourceFile.bytes
  | .shardConcatSha256 _ shards covered =>
    (openShards disk shards).map fun opened =>
      (opened.flatMap fun shard => shard.2.bytes).take covered
  | _ => none

def MtimeReadable (disk : P → Option SourceFile) (path : P) : Prop :=
  ∀ file, disk path = some file → file.mtimeNs.isSome

/-- An answer is the digest of a fresh read, and one from the cache is about files whose mtimes
can be read. -/
def AnswersFresh (s : CacheState P K H.Digest) (a : CacheAction P) : Prop :=
  ∀ answer cache, call H pathDigest s a = some (answer, cache) →
    (∃ bytes, freshBytes s.disk a = some bytes ∧ answer.sha256 = H.digest bytes) ∧
      (answer.fromCache = true → ∀ path ∈ a.asked, MtimeReadable s.disk path)

/-- A write under a readable mtime brings an identity that no file with this path digest has had
with other bytes. -/
def WriteVisible (s : CacheState P K H.Digest) : CacheAction P → Prop
  | .write path file => ∀ v, (pathDigest path, v) ∈ s.versions → v.identity = file.identity →
      v.mtimeNs.isSome → v.bytes = file.bytes
  | _ => True

/-- Where the directory's entry stands for the listed identities and this many bytes, all their
mtimes can be read. -/
def ShardsReadable (s : CacheState P K H.Digest) : CacheAction P → Prop
  | .shardConcatSha256 dir shards covered =>
    ∀ opened sha256, openShards s.disk shards = some opened →
      s.cache.entries.lookup (.shardsOf (pathDigest dir)) =
        some (.dir (identities pathDigest opened) covered sha256) →
      ∀ shard ∈ opened, shard.2.mtimeNs.isSome
  | _ => True

end Steps

section Sound
variable {H : Sha256} {P K : Type} {versions : List (K × SourceFile)}

/-- What an entry remembers was computed from versions the files under its path digests had. -/
def EntrySound (H : Sha256) (versions : List (K × SourceFile)) :
    HashKey K × CacheValue K H.Digest → Prop
  | (.prefixOf path, .prefixOf file offset sha256) =>
    ∃ v, (path, v) ∈ versions ∧ v.identity = file ∧ sha256 = H.digest (v.bytes.take offset)
  | (.wholeFile path, .file file sha256) =>
    ∃ v, (path, v) ∈ versions ∧ v.identity = file ∧ sha256 = H.digest v.bytes
  | (.shardsOf _, .dir files covered sha256) =>
    ∃ vs, List.Forall₂ (fun id v => (id.path, v) ∈ versions ∧ v.identity = id.file) files vs ∧
      sha256 = H.digest ((vs.flatMap SourceFile.bytes).take covered)
  | _ => True

def EntriesSound (H : Sha256) (versions : List (K × SourceFile))
    (entries : List (HashKey K × CacheValue K H.Digest)) : Prop :=
  ∀ e ∈ entries, EntrySound H versions e

/-- A readable identity under one path digest stands for one content. -/
def Faithful (versions : List (K × SourceFile)) : Prop :=
  ∀ path v w, (path, v) ∈ versions → (path, w) ∈ versions → v.identity = w.identity →
    w.mtimeNs.isSome → v.bytes = w.bytes

lemma EntrySound.mono {versions' : List (K × SourceFile)} (h : versions ⊆ versions')
    {e : HashKey K × CacheValue K H.Digest} (he : EntrySound H versions e) :
    EntrySound H versions' e := by
  obtain ⟨key, value⟩ := e
  cases key <;> cases value <;> try trivial
  case prefixOf.prefixOf =>
    obtain ⟨v, hv, hrest⟩ := he
    exact ⟨v, h hv, hrest⟩
  case wholeFile.file =>
    obtain ⟨v, hv, hrest⟩ := he
    exact ⟨v, h hv, hrest⟩
  case shardsOf.dir =>
    obtain ⟨vs, hvs, hsha⟩ := he
    exact ⟨vs, hvs.imp fun _ _ hid => ⟨h hid.1, hid.2⟩, hsha⟩

lemma entriesSound_nil : EntriesSound H versions [] := fun _ he => absurd he List.not_mem_nil

variable {pathDigest : P → K} {disk : P → Option SourceFile}

lemma openShards_eq_some {shards : List (ℕ × P)} {opened : List ((ℕ × P) × SourceFile)}
    (h : openShards disk shards = some opened) :
    opened.map Prod.fst = shards ∧ ∀ shard ∈ opened, disk shard.1.2 = some shard.2 := by
  induction shards generalizing opened with
  | nil =>
    obtain rfl := Option.some.inj h
    exact ⟨rfl, fun _ h => absurd h List.not_mem_nil⟩
  | cons shard shards ih =>
    unfold openShards at h
    split at h
    next file rest hfile hrest =>
      obtain rfl := Option.some.inj h
      obtain ⟨hmap, hdisk⟩ := ih hrest
      exact ⟨by rw [List.map_cons, hmap], List.forall_mem_cons.mpr ⟨hfile, hdisk⟩⟩
    next => exact absurd h.symm (Option.some_ne_none opened)

lemma contents_eq (hf : Faithful versions) {opened : List ((ℕ × P) × SourceFile)}
    (hfiles : ∀ shard ∈ opened, (pathDigest shard.1.2, shard.2) ∈ versions)
    (hsome : ∀ shard ∈ opened, shard.2.mtimeNs.isSome) {vs : List SourceFile}
    (hvs : List.Forall₂ (fun id v => (id.path, v) ∈ versions ∧ v.identity = id.file)
      (identities pathDigest opened) vs) :
    vs.map SourceFile.bytes = opened.map fun shard => shard.2.bytes := by
  induction opened generalizing vs with
  | nil =>
    obtain rfl := List.forall₂_nil_left_iff.mp hvs
    rfl
  | cons shard opened ih =>
    obtain ⟨v, rest, ⟨hv, hid⟩, hrest, rfl⟩ := List.forall₂_cons_left_iff.mp hvs
    have hhead := hf _ v shard.2 hv (hfiles shard List.mem_cons_self) hid
      (hsome shard List.mem_cons_self)
    have htail := ih (fun s hs => hfiles s (List.mem_cons_of_mem _ hs))
      (fun s hs => hsome s (List.mem_cons_of_mem _ hs)) hrest
    rw [List.map_cons, List.map_cons, hhead, htail]

variable [DecidableEq K] {cache : HashCache K H.Digest}

lemma EntriesSound.store (h : EntriesSound H versions cache.entries) {key : HashKey K}
    {value : CacheValue K H.Digest} (hnew : EntrySound H versions (key, value)) :
    EntriesSound H versions (cache.store key value).entries := by
  intro e he
  rcases KeyedList.mem_put.mp he with rfl | ⟨hmem, -⟩
  · exact hnew
  · exact h e hmem

lemma EntriesSound.retained (h : EntriesSound H versions cache.entries) :
    EntriesSound H versions cache.retained := by
  unfold HashCache.retained
  split
  next => exact fun e he => h e (List.mem_of_mem_filter he)
  next => exact h

lemma EntriesSound.save {saved : Option (List (HashKey K × CacheValue K H.Digest))}
    (h : EntriesSound H versions cache.entries)
    (hs : ∀ entries, saved = some entries → EntriesSound H versions entries) (written : Bool) :
    EntriesSound H versions (cache.save saved written).1.entries ∧
      ∀ entries, (cache.save saved written).2 = some entries →
        EntriesSound H versions entries := by
  unfold HashCache.save
  split
  next => exact ⟨h, hs⟩
  next =>
    split
    next => exact ⟨h.retained, fun entries he => Option.some.inj he ▸ h.retained⟩
    next => exact ⟨entriesSound_nil, hs⟩

lemma EntriesSound.lookup (h : EntriesSound H versions cache.entries) {key : HashKey K}
    {value : CacheValue K H.Digest} (hvalue : cache.entries.lookup key = some value) :
    EntrySound H versions (key, value) := by
  obtain ⟨l₁, l₂, hentries, -⟩ := List.lookup_eq_some_iff.mp hvalue
  exact h _ (hentries ▸ List.mem_append_right l₁ List.mem_cons_self)

/-- What an answer has to be: the digest of these bytes, from the cache only about files whose
mtimes can be read, leaving a cache that is still sound. -/
structure Answered (versions : List (K × SourceFile)) (bytes : Bytes) (readable : Prop)
    (r : StatAnswer H.Digest × HashCache K H.Digest) : Prop where
  sha256 : r.1.sha256 = H.digest bytes
  readable : r.1.fromCache = true → readable
  entries : EntriesSound H versions r.2.entries

theorem prefixSha256_answered (hf : Faithful versions)
    (he : EntriesSound H versions cache.entries) {path : P} {file : SourceFile}
    (hdisk : disk path = some file) (hfile : (pathDigest path, file) ∈ versions) (offset : ℕ) :
    ∃ r, HashCache.prefixSha256 H pathDigest cache disk path offset = some r ∧
      Answered versions (file.bytes.take offset) (file.mtimeNs.isSome = true) r := by
  unfold HashCache.prefixSha256
  rw [hdisk, Option.map_some]
  refine ⟨_, rfl, ?_⟩
  have hnew : EntrySound H versions (.prefixOf (pathDigest path),
      .prefixOf file.identity offset (H.digest (file.bytes.take offset))) :=
    ⟨file, hfile, rfl, rfl⟩
  have hmiss : Answered versions (file.bytes.take offset) (file.mtimeNs.isSome = true)
      ((⟨⟨H.digest (file.bytes.take offset), (file.bytes.take offset).length, false⟩,
        file.bytes.length⟩ : StatAnswer H.Digest),
        if file.mtimeNs.isSome ∧ (file.bytes.take offset).length = offset then
          cache.store (.prefixOf (pathDigest path))
            (.prefixOf file.identity offset (H.digest (file.bytes.take offset)))
        else cache) := by
    refine ⟨rfl, fun h => absurd h Bool.false_ne_true, ?_⟩
    split
    next => exact he.store hnew
    next => exact he
  dsimp only
  split
  next stored cachedOffset sha256 hlookup =>
    split
    next hhit =>
      obtain ⟨rfl, hsame⟩ := hhit
      obtain ⟨hsome, rfl⟩ := isSameFile_iff.mp hsame
      obtain ⟨v, hv, hid, hsha⟩ := he.lookup hlookup
      refine ⟨?_, fun _ => hsome, he⟩
      rw [hsha, hf _ v file hv hfile hid hsome]
    next => exact hmiss
  next => exact hmiss

theorem fileSha256_answered (hf : Faithful versions)
    (he : EntriesSound H versions cache.entries) {path : P} {file : SourceFile}
    (hdisk : disk path = some file) (hfile : (pathDigest path, file) ∈ versions) :
    ∃ r, HashCache.fileSha256 H pathDigest cache disk path = some r ∧
      Answered versions file.bytes (file.mtimeNs.isSome = true) r := by
  unfold HashCache.fileSha256
  rw [hdisk, Option.map_some]
  refine ⟨_, rfl, ?_⟩
  have hmiss : Answered versions file.bytes (file.mtimeNs.isSome = true)
      ((⟨⟨H.digest file.bytes, file.bytes.length, false⟩, file.bytes.length⟩ :
        StatAnswer H.Digest),
        if file.mtimeNs.isSome then
          cache.store (.wholeFile (pathDigest path)) (.file file.identity (H.digest file.bytes))
        else cache) := by
    refine ⟨rfl, fun h => absurd h Bool.false_ne_true, ?_⟩
    split
    next => exact he.store ⟨file, hfile, rfl, rfl⟩
    next => exact he
  dsimp only
  split
  next stored sha256 hlookup =>
    split
    next hsame =>
      obtain ⟨hsome, rfl⟩ := isSameFile_iff.mp hsame
      obtain ⟨v, hv, hid, hsha⟩ := he.lookup hlookup
      refine ⟨?_, fun _ => hsome, he⟩
      rw [hsha, hf _ v file hv hfile hid hsome]
    next => exact hmiss
  next => exact hmiss

lemma foldl_readCovered (covered : ℕ) (files : List SourceFile) (read : Bytes)
    (h : read.length ≤ covered) :
    files.foldl (fun read file =>
      if covered ≤ read.length then read
      else read ++ file.bytes.take (covered - read.length)) read =
      (read ++ files.flatMap SourceFile.bytes).take covered := by
  induction files generalizing read with
  | nil => simp [List.take_of_length_le h]
  | cons file files ih =>
    rw [List.foldl_cons, List.flatMap_cons]
    split
    next hfull =>
      have hlen : read.length = covered := Nat.le_antisymm h hfull
      rw [ih read h, List.take_append_of_le_length hfull, List.take_append_of_le_length hfull]
    next hroom =>
      have hpart : (read ++ file.bytes.take (covered - read.length)).length ≤ covered := by
        rw [List.length_append, List.length_take]
        omega
      have hcut : (file.bytes.take (covered - read.length) ++
          files.flatMap SourceFile.bytes).take (covered - read.length) =
            (file.bytes ++ files.flatMap SourceFile.bytes).take (covered - read.length) := by
        rw [List.take_append, List.take_append, List.take_take, Nat.min_self, List.length_take]
        congr 2
        omega
      rw [ih _ hpart, List.append_assoc, List.take_append, hcut, ← List.take_append]

lemma readCovered_eq (covered : ℕ) (files : List SourceFile) :
    readCovered covered files = (files.flatMap SourceFile.bytes).take covered :=
  foldl_readCovered covered files [] (Nat.zero_le _)

theorem shardConcatSha256_answered (hf : Faithful versions)
    (he : EntriesSound H versions cache.entries) {shards : List (ℕ × P)}
    {opened : List ((ℕ × P) × SourceFile)} (hopen : openShards disk shards = some opened)
    (hfiles : ∀ shard ∈ opened, (pathDigest shard.1.2, shard.2) ∈ versions) (dir : P)
    (covered : ℕ)
    (hsome : ∀ sha256, cache.entries.lookup (.shardsOf (pathDigest dir)) =
      some (.dir (identities pathDigest opened) covered sha256) →
        ∀ shard ∈ opened, shard.2.mtimeNs.isSome) :
    ∃ r, HashCache.shardConcatSha256 H pathDigest cache disk dir shards covered = some r ∧
      Answered versions ((opened.flatMap fun shard => shard.2.bytes).take covered)
        (∀ shard ∈ opened, shard.2.mtimeNs.isSome = true) r := by
  have hread : readCovered covered (opened.map Prod.snd) =
      (opened.flatMap fun shard => shard.2.bytes).take covered := by
    rw [readCovered_eq, List.flatMap_map]
  unfold HashCache.shardConcatSha256
  rw [hopen, Option.map_some]
  refine ⟨_, rfl, ?_⟩
  dsimp only
  rw [hread]
  have hnew : EntrySound H versions (.shardsOf (pathDigest dir),
      .dir (identities pathDigest opened) covered
        (H.digest ((opened.flatMap fun shard => shard.2.bytes).take covered))) := by
    refine ⟨opened.map Prod.snd, ?_, by rw [List.flatMap_map]⟩
    rw [identities, List.forall₂_map_left_iff, List.forall₂_map_right_iff, List.forall₂_same]
    exact fun shard hshard => ⟨hfiles shard hshard, rfl⟩
  split
  next stored cachedCovered sha256 hlookup =>
    split
    next hhit =>
      obtain ⟨rfl, rfl⟩ := hhit
      have hreadable := hsome sha256 hlookup
      obtain ⟨vs, hvs, hsha⟩ := he.lookup hlookup
      refine ⟨?_, fun _ => hreadable, he⟩
      rw [hsha, List.flatMap, contents_eq hf hfiles hreadable hvs, ← List.flatMap]
    next =>
      refine ⟨rfl, fun h => absurd h Bool.false_ne_true, ?_⟩
      dsimp only
      split
      next => exact he.store hnew
      next => exact he
  next =>
    refine ⟨rfl, fun h => absurd h Bool.false_ne_true, ?_⟩
    dsimp only
    split
    next => exact he.store hnew
    next => exact he

end Sound

section Runs
variable (H : Sha256) {P K : Type} (pathDigest : P → K)

/-- Along a run of visible writes the remembered digests describe versions the files have had. -/
structure Remembers (s : CacheState P K H.Digest) : Prop where
  live : ∀ path file, s.disk path = some file → (pathDigest path, file) ∈ s.versions
  faithful : Faithful s.versions
  cache : EntriesSound H s.versions s.cache.entries
  saved : ∀ entries, s.saved = some entries → EntriesSound H s.versions entries

lemma remembers_coldStart : Remembers H pathDigest (coldStart H) where
  live _ _ h := absurd h.symm (Option.some_ne_none _)
  faithful _ _ _ h := absurd h List.not_mem_nil
  cache := entriesSound_nil
  saved _ h := absurd h.symm (Option.some_ne_none _)

variable {H pathDigest}

lemma Remembers.of_cache {s : CacheState P K H.Digest} (h : Remembers H pathDigest s)
    {cache : HashCache K H.Digest} (hc : EntriesSound H s.versions cache.entries) :
    Remembers H pathDigest { s with cache := cache } :=
  ⟨h.live, h.faithful, hc, h.saved⟩

variable [DecidableEq K]

/-- Every call is answered by a fresh digest as long as no unreadable shard is taken from the
cache. -/
lemma Remembers.call_fresh {s : CacheState P K H.Digest} (h : Remembers H pathDigest s)
    {a : CacheAction P} (ha : ShardsReadable H pathDigest s a) :
    ∀ r, call H pathDigest s a = some r → ∃ bytes, freshBytes s.disk a = some bytes ∧
      Answered s.versions bytes (∀ path ∈ a.asked, MtimeReadable s.disk path) r := by
  intro r hr
  have hone : ∀ path file, s.disk path = some file → file.mtimeNs.isSome = true →
      ∀ p ∈ [path], MtimeReadable s.disk p := by
    intro path file hfile hsome p hp f hf
    obtain rfl := List.mem_singleton.mp hp
    rw [hfile] at hf
    exact Option.some.inj hf ▸ hsome
  cases a with
  | prefixSha256 path offset =>
    cases hfile : s.disk path with
    | none => simp [call, HashCache.prefixSha256, hfile] at hr
    | some file =>
      obtain ⟨r', hr', hans⟩ := prefixSha256_answered h.faithful h.cache hfile
        (h.live path file hfile) offset
      obtain rfl := Option.some.inj (hr'.symm.trans hr)
      exact ⟨file.bytes.take offset, by simp [freshBytes, hfile], hans.sha256,
        fun hc => hone path file hfile (hans.readable hc), hans.entries⟩
  | fileSha256 path =>
    cases hfile : s.disk path with
    | none => simp [call, HashCache.fileSha256, hfile] at hr
    | some file =>
      obtain ⟨r', hr', hans⟩ := fileSha256_answered h.faithful h.cache hfile
        (h.live path file hfile)
      obtain rfl := Option.some.inj (hr'.symm.trans hr)
      exact ⟨file.bytes, by simp [freshBytes, hfile], hans.sha256,
        fun hc => hone path file hfile (hans.readable hc), hans.entries⟩
  | shardConcatSha256 dir shards covered =>
    cases hopen : openShards s.disk shards with
    | none => simp [call, HashCache.shardConcatSha256, hopen] at hr
    | some opened =>
      obtain ⟨hshards, hdisk⟩ := openShards_eq_some hopen
      obtain ⟨r', hr', hans⟩ := shardConcatSha256_answered h.faithful h.cache hopen
        (fun shard hshard => h.live _ _ (hdisk shard hshard)) dir covered
        (fun sha256 => ha opened sha256 hopen)
      obtain rfl := Option.some.inj (hr'.symm.trans hr)
      refine ⟨(opened.flatMap fun shard => shard.2.bytes).take covered,
        by simp [freshBytes, hopen], hans.sha256, fun hc path hpath f hf => ?_, hans.entries⟩
      obtain ⟨x, hx, rfl⟩ := List.mem_map.mp hpath
      rw [← hshards] at hx
      obtain ⟨shard, hshard, rfl⟩ := List.mem_map.mp hx
      rw [hdisk shard hshard] at hf
      exact Option.some.inj hf ▸ hans.readable hc shard hshard
  | write => exact absurd hr.symm (Option.some_ne_none r)
  | delete => exact absurd hr.symm (Option.some_ne_none r)
  | save => exact absurd hr.symm (Option.some_ne_none r)
  | load => exact absurd hr.symm (Option.some_ne_none r)
  | disabled => exact absurd hr.symm (Option.some_ne_none r)

theorem answersFresh_iff {s : CacheState P K H.Digest} (h : Remembers H pathDigest s)
    (a : CacheAction P) :
    AnswersFresh H pathDigest s a ↔ ShardsReadable H pathDigest s a := by
  constructor
  · intro hfresh
    cases a with
    | shardConcatSha256 dir shards covered =>
      intro opened sha256 hopen hlookup shard hshard
      obtain ⟨hshards, hdisk⟩ := openShards_eq_some hopen
      have hhit : call H pathDigest s (.shardConcatSha256 dir shards covered) =
          some (⟨⟨sha256, 0, true⟩,
            ((identities pathDigest opened).map fun shard => shard.file.size).sum⟩,
            s.cache.touch (.shardsOf (pathDigest dir))) := by
        simp only [call, HashCache.shardConcatSha256, hopen, Option.map_some, hlookup]
        simp
      refine (hfresh _ _ hhit).2 rfl shard.1.2 ?_ shard.2 (hdisk shard hshard)
      rw [CacheAction.asked, ← hshards]
      exact List.mem_map_of_mem (List.mem_map_of_mem hshard)
    | _ => trivial
  · intro ha answer cache hcall
    obtain ⟨bytes, hbytes, hans⟩ := h.call_fresh ha _ hcall
    exact ⟨⟨bytes, hbytes, hans.sha256⟩, hans.readable⟩

variable [DecidableEq P]

lemma Remembers.write {s : CacheState P K H.Digest} (h : Remembers H pathDigest s) {path : P}
    {file : SourceFile} (hw : WriteVisible H pathDigest s (.write path file)) :
    Remembers H pathDigest (cacheStep H pathDigest s (.write path file)) where
  live other f hf := by
    have hf : Function.update s.disk path (some file) other = some f := hf
    by_cases hp : other = path
    · subst hp
      rw [Function.update_self] at hf
      obtain rfl := Option.some.inj hf
      exact List.mem_cons_self
    · rw [Function.update_of_ne hp] at hf
      exact List.mem_cons_of_mem _ (h.live other f hf)
  faithful d v w hv hw' hid hsome := by
    have hmem : ∀ x, (d, x) ∈ (pathDigest path, file) :: s.versions →
        (d = pathDigest path ∧ x = file) ∨ (d, x) ∈ s.versions := fun x hx =>
      (List.mem_cons.mp hx).imp_left Prod.mk.inj
    rcases hmem v hv with ⟨rfl, rfl⟩ | hv' <;> rcases hmem w hw' with ⟨hd, rfl⟩ | hw''
    · rfl
    · exact (hw w hw'' hid.symm hsome).symm
    · subst hd
      have hmtime : v.mtimeNs = w.mtimeNs := congrArg FileIdentity.mtimeNs hid
      exact hw v hv' hid (hmtime ▸ hsome)
    · exact h.faithful d v w hv' hw'' hid hsome
  cache e he := (h.cache e he).mono (List.subset_cons_self _ _)
  saved entries hentries e he := (h.saved entries hentries e he).mono (List.subset_cons_self _ _)

lemma Remembers.delete {s : CacheState P K H.Digest} (h : Remembers H pathDigest s) (path : P) :
    Remembers H pathDigest (cacheStep H pathDigest s (.delete path)) where
  live other f hf := by
    have hf : Function.update s.disk path none other = some f := hf
    by_cases hp : other = path
    · subst hp
      rw [Function.update_self] at hf
      exact absurd hf.symm (Option.some_ne_none f)
    · rw [Function.update_of_ne hp] at hf
      exact h.live other f hf
  faithful := h.faithful
  cache := h.cache
  saved := h.saved

lemma Remembers.save {s : CacheState P K H.Digest} (h : Remembers H pathDigest s)
    (written : Bool) : Remembers H pathDigest (cacheStep H pathDigest s (.save written)) := by
  obtain ⟨hcache, hsaved⟩ := h.cache.save h.saved written
  exact ⟨h.live, h.faithful, hcache, hsaved⟩

lemma Remembers.load {s : CacheState P K H.Digest} (h : Remembers H pathDigest s)
    (readable : Bool) : Remembers H pathDigest (cacheStep H pathDigest s (.load readable)) := by
  refine h.of_cache ?_
  cases readable with
  | false => exact entriesSound_nil
  | true =>
    cases hsaved : s.saved with
    | none => simpa [HashCache.load, hsaved] using entriesSound_nil
    | some entries => simpa [HashCache.load, hsaved] using h.saved entries hsaved

lemma Remembers.step {s : CacheState P K H.Digest} (h : Remembers H pathDigest s)
    {a : CacheAction P} (hw : WriteVisible H pathDigest s a)
    (ha : ShardsReadable H pathDigest s a) :
    Remembers H pathDigest (cacheStep H pathDigest s a) := by
  have hcall : ∀ r, call H pathDigest s a = some r →
      Remembers H pathDigest { s with cache := r.2 } := by
    intro r hr
    obtain ⟨bytes, -, hans⟩ := h.call_fresh ha r hr
    exact h.of_cache hans.entries
  cases a with
  | write path file => exact h.write hw
  | delete path => exact h.delete path
  | save written => exact h.save written
  | load readable => exact h.load readable
  | disabled => exact h.of_cache entriesSound_nil
  | _ =>
    unfold cacheStep
    dsimp only
    split
    next cache hc => exact hcall _ hc
    next => exact h

/-- In a run of visible writes every digest is one of a fresh read, and no unreadable mtime is
answered from the cache, as long as no directory entry is hit while one of its shards has one. -/
theorem answersFresh_along_iff {as : List (CacheAction P)}
    (hw : Along (cacheStep H pathDigest) (WriteVisible H pathDigest) (coldStart H) as) :
    Along (cacheStep H pathDigest) (AnswersFresh H pathDigest) (coldStart H) as ↔
      Along (cacheStep H pathDigest) (ShardsReadable H pathDigest) (coldStart H) as := by
  have hgen : ∀ s, Remembers H pathDigest s →
      Along (cacheStep H pathDigest) (WriteVisible H pathDigest) s as →
      (Along (cacheStep H pathDigest) (AnswersFresh H pathDigest) s as ↔
        Along (cacheStep H pathDigest) (ShardsReadable H pathDigest) s as) := by
    clear hw
    induction as with
    | nil => exact fun _ _ _ => Iff.rfl
    | cons a as ih =>
      intro s hs hw
      rw [along_cons, along_cons, answersFresh_iff hs]
      exact and_congr_right fun ha => ih _ (hs.step hw.1 ha) hw.2
  exact hgen _ (remembers_coldStart H pathDigest) hw

/-- A shard with a readable mtime is rewritten between two coverage digests. -/
def readableRewrite : List (CacheAction ℕ) :=
  [.write 1 ⟨[1], some 5, 7⟩, .shardConcatSha256 0 [(1, 1)] 1, .save true, .load true,
    .shardConcatSha256 0 [(1, 1)] 1, .write 1 ⟨[2], some 6, 7⟩, .shardConcatSha256 0 [(1, 1)] 1]

theorem answersFresh_of_readableRewrite :
    Along (cacheStep Sha256.verbatim id) (AnswersFresh Sha256.verbatim id)
      (coldStart Sha256.verbatim) readableRewrite := by
  refine (answersFresh_along_iff ?_).mpr ?_
  · refine ⟨fun v hv => absurd hv List.not_mem_nil, trivial, trivial, trivial, trivial, ?_,
      trivial, trivial⟩
    intro v hv hid
    obtain ⟨-, rfl⟩ := Prod.mk.inj (List.mem_singleton.mp hv)
    exact absurd (congrArg FileIdentity.mtimeNs hid) (by decide)
  · refine ⟨trivial, ?_, trivial, trivial, ?_, trivial, ?_, trivial⟩ <;>
    · rintro opened sha256 hopen -
      obtain rfl := Option.some.inj hopen
      exact fun shard hshard => List.mem_singleton.mp hshard ▸ rfl

/-- A shard whose mtime cannot be read is rewritten between two coverage digests. -/
def unreadableRewrite : List (CacheAction ℕ) :=
  [.write 1 ⟨[1], none, 7⟩, .shardConcatSha256 0 [(1, 1)] 1, .write 1 ⟨[2], none, 7⟩,
    .shardConcatSha256 0 [(1, 1)] 1]

/-- Two unknown mtimes count as the same one: the second digest is that of the first content. -/
theorem unreadable_shard_answered_stale :
    Along (cacheStep Sha256.verbatim id) (WriteVisible Sha256.verbatim id)
      (coldStart Sha256.verbatim) unreadableRewrite ∧
    ¬ Along (cacheStep Sha256.verbatim id) (AnswersFresh Sha256.verbatim id)
      (coldStart Sha256.verbatim) unreadableRewrite := by
  constructor
  · refine ⟨fun v hv => absurd hv List.not_mem_nil, trivial, ?_, trivial, trivial⟩
    intro v hv _ hsome
    obtain ⟨-, rfl⟩ := Prod.mk.inj (List.mem_singleton.mp hv)
    exact absurd hsome (by decide)
  · rintro ⟨-, -, -, hlast, -⟩
    obtain ⟨bytes, hbytes, hsha⟩ := (hlast ⟨⟨[1], 0, true⟩, 1⟩ _ rfl).1
    obtain rfl := Option.some.inj hbytes
    exact absurd hsha (by decide)

end Runs

end HashCache
end ChatStasher
