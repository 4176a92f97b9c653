import ChatStasher.Mirror.BodyCache
import ChatStasher.Library.RecentRun
import Mathlib.Data.Prod.Lex

/-! The body cache as a directory of files. A file's modification time tells when the entry was last
used, and an eviction pass goes by these times; what is left is the cache in the order of use. -/
namespace ChatStasher.Mirror

variable {H : Sha256} {P : Type} [LinearOrder P]

/-- An entry file as a walk of the directory measures it. -/
structure CacheFile (H : Sha256) where
  key : CacheKey H.Digest
  raw : EntryFile H
  modified : ℕ

def CacheFile.bytes (file : CacheFile H) : ℕ := file.raw.size

def CacheFile.entry (file : CacheFile H) : CacheKey H.Digest × EntryFile H := (file.key, file.raw)

/-- The cache root of one handle, its entry files in the order they are listed. -/
structure CacheDir (H : Sha256) where
  files : List (CacheFile H)
  maxBytes : ℕ
  session : Option ℕ

/-- What a store is counted as. -/
inductive PutOutcome
  | disabled
  | skippedTooLarge
  | skippedSession
  | stored
  deriving DecidableEq

/-- The store was refused and counted as skipped. -/
def PutOutcome.isSkipped : PutOutcome → Bool
  | skippedTooLarge => true
  | skippedSession => true
  | _ => false

namespace CacheDir

def enabled (dir : CacheDir H) : Bool := decide (0 < dir.maxBytes)

def usage (dir : CacheDir H) : ℕ := (dir.files.map CacheFile.bytes).sum

/-- Write one entry: the temporary file is renamed onto the entry's name. -/
def writeEntry (files : List (CacheFile H)) (file : CacheFile H) : List (CacheFile H) :=
  files.filter (fun other => other.key ≠ file.key) ++ [file]

/-- Delete the listed files in order until the rest fits, and tell whether any was deleted. -/
def deleteOldest (maxBytes : ℕ) : ℕ → List (CacheFile H) → List (CacheFile H) →
    List (CacheFile H) × Bool
  | _, [], files => (files, false)
  | total, file :: rest, files =>
    if total ≤ maxBytes then (files, false)
    else
      ((deleteOldest maxBytes (total - file.bytes) rest
        (files.filter fun other => other.key ≠ file.key)).1, true)

/-- The files by modification time, and by path where two times are the same. -/
def youngestLast (path : CacheKey H.Digest → P) (files : List (CacheFile H)) : List (CacheFile H) :=
  files.insertionSort fun a b => toLex (a.modified, path a.key) ≤ toLex (b.modified, path b.key)

/-- Measure and delete until the quota is met or nothing can be deleted any more. -/
def enforceLoop (path : CacheKey H.Digest → P) (maxBytes : ℕ) :
    ℕ → List (CacheFile H) → List (CacheFile H)
  | 0, files => files
  | fuel + 1, files =>
    let total := (files.map CacheFile.bytes).sum
    if total ≤ maxBytes then files
    else
      match deleteOldest maxBytes total (youngestLast path files) files with
      | (files, true) => enforceLoop path maxBytes fuel files
      | (files, false) => files

/-- Drop least recently used entries until the quota is met. Every further measurement follows a
deletion. -/
def enforceQuota (path : CacheKey H.Digest → P) (dir : CacheDir H) : CacheDir H :=
  if dir.usage ≤ dir.maxBytes then dir
  else { dir with files := enforceLoop path dir.maxBytes (dir.files.length + 1) dir.files }

/-- Look an entry up; a hit moves its modification time. -/
def get (dir : CacheDir H) (key : CacheKey H.Digest) (now : ℕ) : Option Bytes × CacheDir H :=
  if !dir.enabled then (none, dir)
  else
    match dir.files.find? fun file => file.key = key with
    | none => (none, dir)
    | some file =>
      match verifyEntry file.raw with
      | none => (none, { dir with files := dir.files.filter fun other => other.key ≠ key })
      | some payload =>
        (some payload, { dir with
          files := dir.files.map fun other =>
            if other.key = key then { other with modified := now } else other })

/-- Store one entry, then bring the cache back under its quota. -/
def put (path : CacheKey H.Digest → P) (dir : CacheDir H) (key : CacheKey H.Digest)
    (payload : Bytes) (now : ℕ) : PutOutcome × CacheDir H :=
  if !dir.enabled then (.disabled, dir)
  else if dir.maxBytes < payload.length then (.skippedTooLarge, dir)
  else if dir.session.any fun bytes => decide (dir.maxBytes / sessionQuotaDenominator < bytes)
  then (.skippedSession, dir)
  else (.stored, enforceQuota path
    { dir with files := writeEntry dir.files ⟨key, encodeEntry payload, now⟩ })

end CacheDir

def CacheFaults.none {D : Type} : CacheFaults D := ⟨false, false, false, false, fun _ => false⟩

/-- The files are the entries of the cache, one for each key, in the order of their times, all
before `now`. -/
structure Ordered (dir : CacheDir H) (cache : BodyCache H) (now : ℕ) : Prop where
  order : ∃ files, dir.files.Perm files ∧ files.Pairwise (fun a b => a.modified < b.modified) ∧
    cache.entries = files.map CacheFile.entry
  nodup : (cache.entries.map Prod.fst).Nodup
  maxBytes : dir.maxBytes = cache.maxBytes
  session : dir.session = cache.session
  past : ∀ file ∈ dir.files, file.modified < now

namespace CacheDir
variable {path : CacheKey H.Digest → P} {dir : CacheDir H} {cache : BodyCache H} {now : ℕ}

lemma youngestLast_eq {files order : List (CacheFile H)} (hperm : files.Perm order)
    (horder : order.Pairwise fun a b => a.modified < b.modified) :
    youngestLast path files = order := by
  have hsorted : (youngestLast path files).Pairwise fun a b => a.modified ≤ b.modified := by
    have : Std.Total fun a b : CacheFile H =>
        toLex (a.modified, path a.key) ≤ toLex (b.modified, path b.key) :=
      ⟨fun a b => le_total _ _⟩
    have : IsTrans (CacheFile H) fun a b =>
        toLex (a.modified, path a.key) ≤ toLex (b.modified, path b.key) :=
      ⟨fun a b c hab hbc => le_trans hab hbc⟩
    refine (List.pairwise_insertionSort _ files).imp fun {a b} hab => ?_
    rcases Prod.Lex.toLex_le_toLex.mp hab with hlt | ⟨heq, -⟩
    · exact hlt.le
    · exact heq.le
  have hperm' : (youngestLast path files).Perm order := (List.perm_insertionSort _ files).trans hperm
  have hnodup : (order.map CacheFile.modified).Nodup :=
    List.pairwise_map.mpr (horder.imp fun hlt => hlt.ne)
  refine hperm'.eq_of_pairwise (fun a b ha hb hab hba => ?_) hsorted (horder.imp fun hlt => hlt.le)
  exact List.inj_on_of_nodup_map hnodup (hperm'.subset ha) hb (le_antisymm hab hba)

lemma deleteOldest_perm {maxBytes : ℕ} {order files : List (CacheFile H)} (hperm : files.Perm order)
    (hnodup : (order.map CacheFile.key).Nodup) :
    (deleteOldest maxBytes (RecentRun.total CacheFile.bytes order) order files).1.Perm
      (RecentRun.keep CacheFile.bytes maxBytes order) := by
  induction order generalizing files with
  | nil => exact hperm
  | cons file order ih =>
    obtain ⟨hkey, hrest⟩ := List.nodup_cons.mp hnodup
    rw [deleteOldest, RecentRun.keep]
    split
    · exact hperm
    · have htotal : RecentRun.total CacheFile.bytes (file :: order) - file.bytes =
          RecentRun.total CacheFile.bytes order := by simp
      have hleft : (files.filter fun other => other.key ≠ file.key).Perm order := by
        refine (hperm.filter _).trans ?_
        rw [List.filter_cons_of_neg (by simp), List.filter_eq_self.mpr]
        exact fun other hother => decide_eq_true fun hsame =>
          hkey (List.mem_map.mpr ⟨other, hother, hsame⟩)
      rw [htotal]
      exact ih hleft hrest

lemma enforceLoop_perm {maxBytes fuel : ℕ} {order files : List (CacheFile H)}
    (hperm : files.Perm order) (horder : order.Pairwise fun a b => a.modified < b.modified)
    (hnodup : (order.map CacheFile.key).Nodup) (hfuel : files.length < fuel) :
    (enforceLoop path maxBytes fuel files).Perm (RecentRun.keep CacheFile.bytes maxBytes order) := by
  have htotal : (files.map CacheFile.bytes).sum = RecentRun.total CacheFile.bytes order :=
    RecentRun.total_perm hperm
  obtain ⟨fuel, rfl⟩ : ∃ k, fuel = k + 1 := ⟨fuel - 1, by omega⟩
  rw [enforceLoop]
  split
  next hfits => rwa [RecentRun.keep_of_fits (by omega)]
  next hover =>
    obtain ⟨file, rest, rfl⟩ : ∃ file rest, order = file :: rest := by
      cases order with
      | nil => simp [htotal] at hover
      | cons file rest => exact ⟨file, rest, rfl⟩
    have hpass := @deleteOldest_perm _ maxBytes _ _ hperm hnodup
    have hdeleted : (deleteOldest maxBytes (files.map CacheFile.bytes).sum (file :: rest) files).2 =
        true := by
      rw [deleteOldest, if_neg hover]
    rw [youngestLast_eq hperm horder]
    rw [← htotal] at hpass
    generalize deleteOldest maxBytes (files.map CacheFile.bytes).sum (file :: rest) files = pass
      at hpass hdeleted
    obtain ⟨left, deleted⟩ := pass
    obtain rfl : deleted = true := hdeleted
    have hfits : (left.map CacheFile.bytes).sum ≤ maxBytes :=
      (@RecentRun.total_perm _ CacheFile.bytes _ _ hpass).trans_le
        (RecentRun.total_keep_le maxBytes _)
    dsimp only
    obtain ⟨fuel, rfl⟩ : ∃ k, fuel = k + 1 := by
      refine ⟨fuel - 1, ?_⟩
      have := hperm.length_eq
      simp only [List.length_cons] at this
      omega
    rw [enforceLoop]
    rw [if_pos hfits]
    exact hpass

lemma map_entry_keep (maxBytes : ℕ) (files : List (CacheFile H)) :
    (RecentRun.keep CacheFile.bytes maxBytes files).map CacheFile.entry =
      RecentRun.keep (fun e => e.2.size) maxBytes (files.map CacheFile.entry) := by
  induction files with
  | nil => rfl
  | cons file files ih =>
    have htotal : RecentRun.total (fun e : CacheKey H.Digest × EntryFile H => e.2.size)
        ((file :: files).map CacheFile.entry) = RecentRun.total CacheFile.bytes (file :: files) := by
      simp only [RecentRun.total, List.map_map]
      rfl
    rw [RecentRun.keep, List.map_cons, RecentRun.keep, ← List.map_cons, htotal]
    split
    · rfl
    · exact ih

lemma touch_perm {files : List (CacheFile H)} (hnodup : (files.map CacheFile.key).Nodup)
    {file : CacheFile H} (hfile : file ∈ files) (now : ℕ) :
    (files.map fun other =>
      if other.key = file.key then { other with modified := now } else other).Perm
        (writeEntry files ⟨file.key, file.raw, now⟩) := by
  obtain ⟨before, after, rfl⟩ := List.append_of_mem hfile
  rw [List.map_append, List.map_cons, List.nodup_middle, List.nodup_cons, ← List.map_append] at hnodup
  have hother : ∀ other ∈ before ++ after, other.key ≠ file.key := by
    intro other hmem hsame
    exact hnodup.1 (List.mem_map.mpr ⟨other, hmem, hsame⟩)
  have hkept : ∀ l ⊆ before ++ after, (l.map fun other =>
      if other.key = file.key then { other with modified := now } else other) = l := by
    intro l hl
    refine (List.map_congr_left fun other hmem => ?_).trans (List.map_id l)
    exact if_neg (hother other (hl hmem))
  have hfilter : ∀ l ⊆ before ++ after, (l.filter fun other => other.key ≠ file.key) = l := by
    intro l hl
    exact List.filter_eq_self.mpr fun other hmem => decide_eq_true (hother other (hl hmem))
  have hbefore : before ⊆ before ++ after := List.subset_append_left _ _
  have hafter : after ⊆ before ++ after := List.subset_append_right _ _
  rw [writeEntry, List.map_append, List.map_cons, hkept _ hbefore, hkept _ hafter, if_pos rfl,
    List.filter_append, List.filter_cons_of_neg (by simp), hfilter _ hbefore, hfilter _ hafter]
  exact List.perm_middle.trans (List.perm_append_singleton _ _).symm

end CacheDir

section Refinement
variable {dir : CacheDir H} {cache : BodyCache H} {now : ℕ}

lemma evictOldest_eq_keep (maxBytes : ℕ) (entries : List (CacheKey H.Digest × EntryFile H)) :
    BodyCache.evictOldest maxBytes (fun _ => false) (RecentRun.total (fun e => e.2.size) entries)
      entries = RecentRun.keep (fun e => e.2.size) maxBytes entries := by
  induction entries with
  | nil => rfl
  | cons e entries ih =>
    rw [BodyCache.evictOldest, RecentRun.keep]
    split
    · rfl
    · rw [if_neg Bool.false_ne_true, RecentRun.total_cons, Nat.add_sub_cancel_left]
      exact ih

lemma Ordered.usage_eq (h : Ordered dir cache now) : dir.usage = cache.usage := by
  obtain ⟨files, hperm, -, hentries⟩ := h.order
  rw [CacheDir.usage, BodyCache.usage, hentries, List.map_map]
  exact RecentRun.total_perm hperm

lemma Ordered.keys_nodup {files : List (CacheFile H)} (h : Ordered dir cache now)
    (hentries : cache.entries = files.map CacheFile.entry) : (files.map CacheFile.key).Nodup := by
  have hnodup := h.nodup
  rw [hentries, List.map_map] at hnodup
  exact hnodup

lemma Ordered.mono (h : Ordered dir cache now) {later : ℕ} (hlater : now ≤ later) :
    Ordered dir cache later :=
  { h with past := fun file hfile => (h.past file hfile).trans_le hlater }

lemma Ordered.enforceQuota (h : Ordered dir cache now) (path : CacheKey H.Digest → P) :
    Ordered (CacheDir.enforceQuota path dir) (cache.enforceQuota fun _ => false) now := by
  obtain ⟨files, hperm, horder, hentries⟩ := h.order
  have hkeep : (cache.enforceQuota fun _ => false).entries =
      (RecentRun.keep CacheFile.bytes cache.maxBytes files).map CacheFile.entry := by
    rw [CacheDir.map_entry_keep, ← hentries, ← evictOldest_eq_keep]
    rfl
  have hleft : (CacheDir.enforceQuota path dir).files.Perm
      (RecentRun.keep CacheFile.bytes cache.maxBytes files) := by
    unfold CacheDir.enforceQuota
    split
    next hfits =>
      rw [CacheDir.usage, h.maxBytes] at hfits
      have htotal : (dir.files.map CacheFile.bytes).sum = RecentRun.total CacheFile.bytes files :=
        RecentRun.total_perm hperm
      rwa [RecentRun.keep_of_fits (by omega)]
    · rw [← h.maxBytes]
      exact CacheDir.enforceLoop_perm hperm horder (h.keys_nodup hentries) (Nat.lt_succ_self _)
  have hsub : (RecentRun.keep CacheFile.bytes cache.maxBytes files).Sublist files :=
    (RecentRun.keep_suffix _ files).sublist
  refine ⟨⟨_, hleft, horder.sublist hsub, hkeep⟩, ?_, ?_, ?_, fun file hfile => ?_⟩
  · rw [hkeep]
    have hnodup := h.nodup
    rw [hentries] at hnodup
    exact hnodup.sublist ((hsub.map _).map _)
  · unfold CacheDir.enforceQuota
    split <;> exact h.maxBytes
  · unfold CacheDir.enforceQuota
    split <;> exact h.session
  · exact h.past file (hperm.symm.subset (hsub.subset (hleft.subset hfile)))

lemma Ordered.write (h : Ordered dir cache now) (key : CacheKey H.Digest) (raw : EntryFile H) :
    Ordered { dir with files := CacheDir.writeEntry dir.files ⟨key, raw, now⟩ }
      { cache with entries := KeyedList.put cache.entries (key, raw) } (now + 1) := by
  obtain ⟨files, hperm, horder, hentries⟩ := h.order
  refine ⟨⟨CacheDir.writeEntry files ⟨key, raw, now⟩, (hperm.filter _).append_right _, ?_, ?_⟩,
    KeyedList.put_nodup h.nodup, h.maxBytes, h.session, fun file hfile => ?_⟩
  · refine List.pairwise_append.mpr ⟨horder.filter _, List.pairwise_singleton _ _, ?_⟩
    intro file hfile last hlast
    obtain rfl := List.mem_singleton.mp hlast
    exact h.past file (hperm.symm.subset (List.mem_filter.mp hfile).1)
  · simp only [KeyedList.put, CacheDir.writeEntry, hentries, List.map_append, List.filter_map]
    rfl
  · rcases List.mem_append.mp hfile with hold | hnew
    · exact (h.past file (List.mem_filter.mp hold).1).trans (Nat.lt_succ_self now)
    · obtain rfl := List.mem_singleton.mp hnew
      exact Nat.lt_succ_self now

theorem Ordered.put (h : Ordered dir cache now) (path : CacheKey H.Digest → P)
    (key : CacheKey H.Digest) (payload : Bytes) :
    Ordered (CacheDir.put path dir key payload now).2 (cache.put key payload CacheFaults.none)
      (now + 1) := by
  have hlater := h.mono (Nat.le_succ now)
  obtain ⟨files, maxBytes, session⟩ := dir
  obtain ⟨entries, _, _⟩ := cache
  obtain rfl : maxBytes = _ := h.maxBytes
  obtain rfl : session = _ := h.session
  simp only [CacheDir.put, BodyCache.put, CacheDir.enabled, BodyCache.enabled, CacheFaults.none,
    Bool.false_eq_true, if_false]
  split_ifs
  · exact hlater
  · exact hlater
  · exact hlater
  · exact (h.write key (encodeEntry payload)).enforceQuota path

lemma Ordered.find (h : Ordered dir cache now) (key : CacheKey H.Digest) :
    (dir.files.find? fun file => file.key = key).map CacheFile.raw = cache.entries.lookup key := by
  obtain ⟨files, hperm, -, hentries⟩ := h.order
  ext raw
  rw [KeyedList.lookup_eq_some_iff_mem h.nodup, hentries, List.mem_map, Option.map_eq_some_iff]
  have hkeys := h.keys_nodup hentries
  constructor
  · rintro ⟨file, hfind, rfl⟩
    obtain rfl : file.key = key := by simpa using List.find?_some hfind
    exact ⟨file, hperm.subset (List.mem_of_find?_eq_some hfind), rfl⟩
  · rintro ⟨file, hfile, hentry⟩
    obtain ⟨rfl, rfl⟩ := Prod.mk.inj hentry
    refine ⟨file, ?_, rfl⟩
    cases hfind : dir.files.find? fun other => other.key = file.key with
    | none =>
      have := List.find?_eq_none.mp hfind file (hperm.symm.subset hfile)
      simp at this
    | some other =>
      have hsame : other.key = file.key := by simpa using List.find?_some hfind
      rw [List.inj_on_of_nodup_map hkeys (hperm.subset (List.mem_of_find?_eq_some hfind)) hfile hsame]

lemma Ordered.remove (h : Ordered dir cache now) (key : CacheKey H.Digest) :
    Ordered { dir with files := dir.files.filter fun other => other.key ≠ key }
      { cache with entries := cache.entries.filter fun e => e.1 ≠ key } now := by
  obtain ⟨files, hperm, horder, hentries⟩ := h.order
  refine ⟨⟨files.filter fun other => other.key ≠ key, hperm.filter _, horder.filter _, ?_⟩,
    h.nodup.sublist (List.filter_sublist.map _), h.maxBytes, h.session,
    fun file hfile => h.past file (List.mem_filter.mp hfile).1⟩
  simp only [hentries, List.filter_map]
  rfl

lemma Ordered.touch (h : Ordered dir cache now) {key : CacheKey H.Digest} {raw : EntryFile H}
    (hraw : cache.entries.lookup key = some raw) :
    Ordered { dir with files := dir.files.map fun other =>
        if other.key = key then { other with modified := now } else other }
      { cache with entries := KeyedList.put cache.entries (key, raw) } (now + 1) := by
  have hwrite := h.write key raw
  obtain ⟨files, hperm, horder, hentries⟩ := h.order
  have hkeys := h.keys_nodup hentries
  rw [KeyedList.lookup_eq_some_iff_mem h.nodup, hentries] at hraw
  obtain ⟨file, hfile, hentry⟩ := List.mem_map.mp hraw
  obtain ⟨rfl, rfl⟩ := Prod.mk.inj hentry
  have htouched := CacheDir.touch_perm ((hperm.map CacheFile.key).nodup_iff.mpr hkeys)
    (hperm.symm.subset hfile) now
  obtain ⟨written, hperm', horder', hentries'⟩ := hwrite.order
  exact ⟨⟨written, htouched.trans hperm', horder', hentries'⟩, hwrite.nodup, h.maxBytes, h.session,
    fun other hother => hwrite.past other (htouched.subset hother)⟩

theorem Ordered.get (h : Ordered dir cache now) (key : CacheKey H.Digest) :
    (dir.get key now).1 = (cache.get key CacheFaults.none).1 ∧
      Ordered (dir.get key now).2 (cache.get key CacheFaults.none).2 (now + 1) := by
  have hlater := h.mono (Nat.le_succ now)
  have hfind := h.find key
  have htouch := @Ordered.touch _ _ _ _ h key
  obtain ⟨files, maxBytes, session⟩ := dir
  obtain ⟨entries, _, _⟩ := cache
  obtain rfl : maxBytes = _ := h.maxBytes
  obtain rfl : session = _ := h.session
  simp only [CacheDir.get, BodyCache.get, CacheDir.enabled, BodyCache.enabled, CacheFaults.none,
    Bool.or_false]
  by_cases hpos : 0 < maxBytes
  · simp only [hpos, decide_true, Bool.not_true, Bool.false_eq_true, if_false]
    dsimp only at hfind
    cases hfound : files.find? fun file => file.key = key with
    | none =>
      rw [hfound, Option.map_none] at hfind
      rw [← hfind]
      exact ⟨rfl, hlater⟩
    | some file =>
      rw [hfound, Option.map_some] at hfind
      rw [← hfind]
      cases hverify : verifyEntry file.raw with
      | none =>
        simp only [hverify]
        exact ⟨trivial, hlater.remove key⟩
      | some payload =>
        simp only [hverify]
        exact ⟨trivial, htouch hfind.symm⟩
  · simp only [hpos, decide_false, Bool.not_false, if_true]
    exact ⟨trivial, hlater⟩

end Refinement

end ChatStasher.Mirror
