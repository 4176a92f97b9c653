import ChatStasher.GrokBot.Reader
import ChatStasher.Library.Lists

/-! Temporary files of the publication: their names, the three spellings and their ages, and the sweep
that deletes what is due. -/
namespace ChatStasher.Sweep
open GrokBot (Value)
open Inbox (Text)
open SplitOnce

section Names

def isHexChar (c : Char) : Bool := ('0' ≤ c && c ≤ '9') || ('a' ≤ c && c ≤ 'f')

def isHex (text : Text) (len : ℕ) : Bool := decide (text.length = len) && text.all isHexChar

def hexDigit (n : ℕ) : Char := ("0123456789abcdef".toList).getD n '0'

def byteHex (b : UInt8) : Text := [hexDigit (b.toNat / 16), hexDigit (b.toNat % 16)]

def tmpName (idHex : Text) (now : UInt64) (random : Fin 8 → UInt8) : Text :=
  idHex ++ ".tmp-".toList ++ Nat.toDigits 10 now.toNat ++ '-' :: (List.ofFn random).flatMap byteHex

/-- The id and the seconds of such a name. -/
def parseTmpName (name : Text) : Option (Text × ℕ) :=
  match splitOnce ".tmp-".toList name with
  | none => none
  | some (id, rest) =>
    match splitOnce ['-'] rest with
    | none => none
    | some (secs, random) =>
      if !isHex id 64 || !isHex random 16 || secs.isEmpty then none
      else if !secs.all Char.isDigit then none
      else (Value.parseBelow (2 ^ 64) secs).map fun n => (id, n)

end Names

section Spellings

/-- The spellings of a temporary file: the name of today, the one of the local backend, and any file in
the old staging directory. -/
inductive TmpKind
  | current
  | legacyLocal
  | legacyStaging
  deriving DecidableEq

def legacyStagingDir : Text := ".chat-stasher-tmp".toList

def fileName (path : Text) : Text := (path.reverse.takeWhile (· ≠ '/')).reverse

/-- The spelling of a path, and the seconds that its name carries. -/
def classify (path : Text) : Option (TmpKind × Option ℕ) :=
  if legacyStagingDir ++ ['/'] <+: path then some (.legacyStaging, none)
  else
    match parseTmpName (fileName path) with
    | some (_, secs) => some (.current, some secs)
    | none =>
      match stripSuffix "-tmp-".toList (fileName path) with
      | some id => if isHex id 64 then some (.legacyLocal, none) else none
      | none => none

end Spellings

section Ages

def sweepAgeSecs : ℕ := 7 * 24 * 3600

structure TmpEntry where
  kind : TmpKind
  path : Text
  bytes : ℕ
  nameSecs : Option ℕ
  mtime : Option ℕ
  deriving DecidableEq

inductive Age
  | due
  | young
  | unknown
  deriving DecidableEq

def isOld (now secs : ℕ) : Bool := sweepAgeSecs < now - secs

/-- The current spelling needs both its clocks; the older ones have one. -/
def TmpEntry.age (entry : TmpEntry) (now : ℕ) : Age :=
  match entry.kind, entry.nameSecs, entry.mtime with
  | .current, some name, some mtime => if isOld now name && isOld now mtime then .due else .young
  | .current, _, _ => .unknown
  | _, _, some mtime => if isOld now mtime then .due else .young
  | _, _, none => .unknown

end Ages

section Listing

structure FileEntry where
  path : Text
  bytes : ℕ
  mtime : Option ℕ

/-- A repository root: the files below a directory, `none` where it cannot be listed, and whether a
deletion succeeds. -/
structure PackIo where
  listFiles : Text → Option (List FileEntry)
  delete : Text → Bool

def surveyDirs : List Text :=
  ["data/".toList, "index/".toList, "snapshots/".toList, "keys/".toList, "locks/".toList,
    ".chat-stasher-tmp/".toList]

structure TmpSurvey where
  entries : List TmpEntry
  unlisted : ℕ

def tmpEntry (file : FileEntry) : Option TmpEntry :=
  (classify file.path).map fun (kind, nameSecs) =>
    ⟨kind, file.path, file.bytes, nameSecs, file.mtime⟩

def survey (io : PackIo) : TmpSurvey where
  entries := (surveyDirs.flatMap fun dir => ((io.listFiles dir).getD []).filterMap tmpEntry).mergeSort
    fun a b => a.path ≤ b.path
  unlisted := surveyDirs.countP fun dir => (io.listFiles dir).isNone

/-- What one sweep did. `requested` are the entries whose deletion was asked for, a ghost. -/
structure SweepReport where
  removed : ℕ
  removedBytes : ℕ
  keptYoung : ℕ
  keptUnknownAge : ℕ
  failed : ℕ
  unlisted : ℕ
  requested : List TmpEntry

def sweepEntry (io : PackIo) (now : ℕ) (report : SweepReport) (entry : TmpEntry) : SweepReport :=
  match entry.age now with
  | .due =>
    let report := { report with requested := report.requested ++ [entry] }
    if io.delete entry.path then
      { report with
        removed := report.removed + 1
        removedBytes := report.removedBytes + entry.bytes }
    else { report with failed := report.failed + 1 }
  | .young => { report with keptYoung := report.keptYoung + 1 }
  | .unknown => { report with keptUnknownAge := report.keptUnknownAge + 1 }

def sweep (io : PackIo) (now : ℕ) : SweepReport :=
  let found := survey io
  found.entries.foldl (sweepEntry io now) ⟨0, 0, 0, 0, 0, found.unlisted, []⟩

end Listing

end ChatStasher.Sweep

/-! What the names of temporary files say, and that the sweep deletes nothing but old ones. -/
namespace ChatStasher.Sweep
open GrokBot (Value)
open Inbox (Text)
open SplitOnce

section Names

variable {name id digits random : Text} {secs : ℕ}

lemma not_mem_of_isHex {c : Char} {len : ℕ} (h : isHex id len = true) (hc : isHexChar c = false) :
    c ∉ id := by
  intro hmem
  have hall := (Bool.and_eq_true _ _ ▸ h : _ ∧ _).2
  rw [List.all_eq_true.mp hall c hmem] at hc
  exact nomatch hc

lemma not_mem_of_isDigit {c : Char} (h : digits.all Char.isDigit = true)
    (hc : c.isDigit = false) : c ∉ digits := by
  intro hmem
  rw [List.all_eq_true.mp h c hmem] at hc
  exact nomatch hc

/-- A name of today's spelling: an id, digits that are a `u64`, and sixteen hex digits. -/
structure TmpNameParts (name id : Text) (secs : ℕ) (digits random : Text) : Prop where
  name_eq : name = id ++ ".tmp-".toList ++ (digits ++ '-' :: random)
  idHex : isHex id 64 = true
  randomHex : isHex random 16 = true
  nonempty : digits ≠ []
  allDigits : digits.all Char.isDigit = true
  value : Nat.ofDigitChars 10 digits 0 = secs
  bound : secs < 2 ^ 64

lemma parseBelow_digits {bound : ℕ} (hne : digits ≠ []) (hdigits : digits.all Char.isDigit = true) :
    Value.parseBelow bound digits =
      if Nat.ofDigitChars 10 digits 0 < bound then some (Nat.ofDigitChars 10 digits 0)
      else none := by
  unfold Value.parseBelow
  rw [if_pos ⟨hne, hdigits⟩]

lemma parseTmpName_of_parts (h : TmpNameParts name id secs digits random) :
    parseTmpName name = some (id, secs) := by
  have hid : splitOnce ".tmp-".toList name = some (id, digits ++ '-' :: random) := by
    rw [h.name_eq]
    exact splitOnce_append (not_mem_of_isHex h.idHex (by decide)) _
  have hrest : splitOnce ['-'] (digits ++ '-' :: random) = some (digits, random) := by
    have hsplit : splitOnce ['-'] (digits ++ ['-'] ++ random) = some (digits, random) :=
      splitOnce_append (not_mem_of_isDigit h.allDigits (show '-'.isDigit = false by decide)) random
    rwa [List.append_assoc] at hsplit
  unfold parseTmpName
  rw [hid]
  dsimp only
  rw [hrest]
  dsimp only
  rw [h.idHex, h.randomHex, h.allDigits, parseBelow_digits h.nonempty h.allDigits, h.value, if_pos h.bound]
  simp [h.nonempty]

lemma parts_of_parseTmpName (h : parseTmpName name = some (id, secs)) :
    ∃ digits random, TmpNameParts name id secs digits random := by
  unfold parseTmpName at h
  split at h
  · exact nomatch h
  · rename_i id' rest hid
    split at h
    · exact nomatch h
    · rename_i digits random hrest
      split at h
      · exact nomatch h
      · rename_i hshape
        split at h
        · exact nomatch h
        · rename_i hdigits
          simp only [Bool.or_eq_true, Bool.not_eq_true', not_or, Bool.not_eq_false,
            List.isEmpty_iff] at hshape hdigits
          obtain ⟨⟨hidHex, hrandom⟩, hne⟩ := hshape
          rw [parseBelow_digits hne hdigits] at h
          split at h
          · rename_i hbound
            cases h
            refine ⟨digits, random, ?_, hidHex, hrandom, hne, hdigits, rfl, hbound⟩
            have hrest' := eq_append_of_splitOnce hrest
            rw [List.append_assoc, List.singleton_append] at hrest'
            rw [eq_append_of_splitOnce hid, hrest']
          · exact nomatch h

lemma parseTmpName_iff : parseTmpName name = some (id, secs) ↔
    ∃ digits random, TmpNameParts name id secs digits random :=
  ⟨parts_of_parseTmpName, fun ⟨_, _, h⟩ => parseTmpName_of_parts h⟩

lemma isHexChar_hexDigit {n : ℕ} (h : n < 16) : isHexChar (hexDigit n) = true := by
  have hall : ∀ n : Fin 16, isHexChar (hexDigit n) = true := by decide
  exact hall ⟨n, h⟩

lemma isHex_random (bytes : Fin 8 → UInt8) :
    isHex ((List.ofFn bytes).flatMap byteHex) 16 = true := by
  unfold isHex
  rw [Bool.and_eq_true]
  constructor
  · simp [byteHex]
  · refine List.all_eq_true.mpr fun c hc => ?_
    obtain ⟨b, -, hb⟩ := List.mem_flatMap.mp hc
    have hlt : b.toNat < 256 := b.toNat_lt
    obtain rfl | hb := List.mem_cons.mp hb
    · exact isHexChar_hexDigit (by omega)
    · obtain rfl := List.mem_singleton.mp hb
      exact isHexChar_hexDigit (by omega)

lemma tmpName_parts (hid : isHex id 64 = true) (now : UInt64) (bytes : Fin 8 → UInt8) :
    TmpNameParts (tmpName id now bytes) id now.toNat (Nat.toDigits 10 now.toNat)
      ((List.ofFn bytes).flatMap byteHex) where
  name_eq := by simp [tmpName]
  idHex := hid
  randomHex := isHex_random bytes
  nonempty := Nat.toDigits_ne_nil
  allDigits := List.all_eq_true.mpr fun _ hc => Nat.isDigit_of_mem_toDigits (by decide) (by decide) hc
  value := Nat.ofDigitChars_ten_toDigits
  bound := now.toNat_lt

end Names

section Sweep

variable {io : PackIo} {now : ℕ} {entry : TmpEntry}

lemma requested_foldl (entries : List TmpEntry) (report : SweepReport) :
    (entries.foldl (sweepEntry io now) report).requested =
      report.requested ++ entries.filter fun entry => entry.age now = .due := by
  induction entries generalizing report with
  | nil => simp
  | cons entry entries ih =>
    rw [List.foldl_cons, ih]
    unfold sweepEntry
    cases hage : entry.age now with
    | due =>
      rw [List.filter_cons_of_pos (by simpa using hage)]
      dsimp only
      split <;> simp
    | young => rw [List.filter_cons_of_neg (by simp [hage])]
    | unknown => rw [List.filter_cons_of_neg (by simp [hage])]

lemma mem_requested : entry ∈ (sweep io now).requested ↔
    entry ∈ (survey io).entries ∧ entry.age now = .due := by
  unfold sweep
  rw [requested_foldl, List.nil_append, List.mem_filter, decide_eq_true_iff]

lemma mem_survey : entry ∈ (survey io).entries ↔
    ∃ dir ∈ surveyDirs, ∃ files, io.listFiles dir = some files ∧
      ∃ file ∈ files, tmpEntry file = some entry := by
  unfold survey
  rw [List.mem_mergeSort, List.mem_flatMap]
  constructor
  · rintro ⟨dir, hdir, hentry⟩
    obtain ⟨file, hfile, htmp⟩ := List.mem_filterMap.mp hentry
    cases hfiles : io.listFiles dir with
    | none =>
      rw [hfiles] at hfile
      exact absurd hfile List.not_mem_nil
    | some files =>
      rw [hfiles] at hfile
      exact ⟨dir, hdir, files, hfiles, file, hfile, htmp⟩
  · rintro ⟨dir, hdir, files, hfiles, file, hfile, htmp⟩
    refine ⟨dir, hdir, List.mem_filterMap.mpr ⟨file, ?_, htmp⟩⟩
    rw [hfiles]
    exact hfile

/-- Every clock that the spelling has is read, and more than seven days behind. -/
@[mk_iff]
structure Elapsed (entry : TmpEntry) (now : ℕ) : Prop where
  mtime : ∃ mtime, entry.mtime = some mtime ∧ mtime + sweepAgeSecs < now
  name : entry.kind = .current →
    ∃ secs, entry.nameSecs = some secs ∧ secs + sweepAgeSecs < now

@[simp] lemma isOld_iff {secs : ℕ} : isOld now secs = true ↔ secs + sweepAgeSecs < now := by
  unfold isOld
  rw [decide_eq_true_iff]
  omega

lemma age_eq_due_iff : entry.age now = .due ↔ Elapsed entry now := by
  rw [elapsed_iff]
  unfold TmpEntry.age
  cases entry.kind with
  | current => cases entry.nameSecs <;> cases entry.mtime <;> simp [and_comm]
  | legacyLocal | legacyStaging => cases entry.mtime <;> simp

end Sweep

section Debris

variable {io : PackIo} {now : ℕ} {path : Text}

/-- A path in the old staging directory, or a file name of one of the two other spellings. -/
def Spelled (path : Text) : Prop :=
  legacyStagingDir ++ ['/'] <+: path ∨
    (∃ id secs digits random, TmpNameParts (fileName path) id secs digits random) ∨
      ∃ id, isHex id 64 = true ∧ fileName path = id ++ "-tmp-".toList

lemma eq_append_of_stripSuffix {suffix name base : Text}
    (h : stripSuffix suffix name = some base) : name = base ++ suffix := by
  unfold stripSuffix at h
  split at h
  · rename_i hsuffix
    obtain ⟨front, rfl⟩ := hsuffix
    rw [← Option.some.inj h]
    simp
  · exact nomatch h

lemma spelled_of_classify (h : (classify path).isSome = true) : Spelled path := by
  unfold classify at h
  split at h
  · rename_i hstaging
    exact .inl hstaging
  · split at h
    · rename_i id secs hparse
      obtain ⟨digits, random, hparts⟩ := parts_of_parseTmpName hparse
      exact .inr (.inl ⟨id, secs, digits, random, hparts⟩)
    · split at h
      · rename_i id hstrip
        split at h
        · rename_i hid
          exact .inr (.inr ⟨id, hid, eq_append_of_stripSuffix hstrip⟩)
        · exact nomatch h
      · exact nomatch h

lemma not_isHex_of_parts {name id digits random : Text} {secs len : ℕ}
    (h : TmpNameParts name id secs digits random) : isHex name len = false := by
  have hdot : '.' ∈ name := by
    rw [h.name_eq]
    simp
  by_contra hhex
  exact not_mem_of_isHex (Bool.eq_true_of_not_eq_false hhex) (by decide) hdot

lemma not_isHex_of_legacyLocal {name id : Text} {len : ℕ} (h : name = id ++ "-tmp-".toList) :
    isHex name len = false := by
  have hdash : '-' ∈ name := by
    rw [h]
    simp
  by_contra hhex
  exact not_mem_of_isHex (Bool.eq_true_of_not_eq_false hhex) (by decide) hdash

/-- What the sweep asks to delete, and what a name says. -/
structure SweepsOnlyDebris (io : PackIo) (now : ℕ) : Prop where
  deleted : ∀ {entry : TmpEntry}, entry ∈ (sweep io now).requested →
    ∃ dir ∈ surveyDirs, ∃ files, io.listFiles dir = some files ∧ ∃ file ∈ files,
      tmpEntry file = some entry ∧ Spelled file.path ∧ Elapsed entry now
  undated : ∀ {entry : TmpEntry}, entry.mtime = none ∨
    entry.kind = .current ∧ entry.nameSecs = none → entry ∉ (sweep io now).requested
  published : ∀ {entry : TmpEntry}, isHex (fileName entry.path) 64 = true →
    ¬ legacyStagingDir ++ ['/'] <+: entry.path → entry ∉ (sweep io now).requested
  accepts : ∀ {name id : Text} {secs : ℕ}, parseTmpName name = some (id, secs) ↔
    ∃ digits random, TmpNameParts name id secs digits random
  recovers : ∀ {id : Text}, isHex id 64 = true → ∀ (begun : UInt64) (random : Fin 8 → UInt8),
    parseTmpName (tmpName id begun random) = some (id, begun.toNat)

/-- The sweep deletes only old files with a name of one of the three spellings. -/
theorem sweep_only_debris (io : PackIo) (now : ℕ) : SweepsOnlyDebris io now := by
  have hdeleted : ∀ {entry : TmpEntry}, entry ∈ (sweep io now).requested →
      ∃ dir ∈ surveyDirs, ∃ files, io.listFiles dir = some files ∧ ∃ file ∈ files,
        tmpEntry file = some entry ∧ Spelled file.path ∧ Elapsed entry now := by
    intro entry hentry
    obtain ⟨hmem, hdue⟩ := mem_requested.mp hentry
    obtain ⟨dir, hdir, files, hfiles, file, hfile, htmp⟩ := mem_survey.mp hmem
    obtain ⟨spelling, hclassify, -⟩ := Option.map_eq_some_iff.mp htmp
    have hspelled := spelled_of_classify (by rw [hclassify]; rfl)
    exact ⟨dir, hdir, files, hfiles, file, hfile, htmp, hspelled, age_eq_due_iff.mp hdue⟩
  refine ⟨hdeleted, ?_, ?_, parseTmpName_iff, fun hid begun random =>
    parseTmpName_of_parts (tmpName_parts hid begun random)⟩
  · intro entry hundated hentry
    obtain ⟨-, -, -, -, -, -, -, -, ⟨mtime, hmtime, -⟩, hname⟩ := hdeleted hentry
    obtain hnone | ⟨hkind, hnone⟩ := hundated
    · rw [hnone] at hmtime
      exact nomatch hmtime
    · obtain ⟨secs, hsecs, -⟩ := hname hkind
      rw [hnone] at hsecs
      exact nomatch hsecs
  · intro entry hid hstaging hentry
    obtain ⟨-, -, -, -, file, -, htmp, hspelled, -⟩ := hdeleted hentry
    obtain ⟨spelling, -, rfl⟩ := Option.map_eq_some_iff.mp htmp
    obtain hprefix | ⟨_, _, _, _, hparts⟩ | ⟨_, -, hlocal⟩ := hspelled
    · exact hstaging hprefix
    · rw [not_isHex_of_parts hparts] at hid
      exact nomatch hid
    · rw [not_isHex_of_legacyLocal hlocal] at hid
      exact nomatch hid

end Debris

section OlderSpelling

def sixtyFour : Text := List.replicate 64 'a'

/-- What the local backend leaves when it is killed between write and rename. -/
def localDebris : PackIo where
  listFiles dir :=
    if dir = "index/".toList then
      some [⟨"index/".toList ++ sixtyFour ++ "-tmp-".toList, 10, some 0⟩]
    else some []
  delete _ := true

/-- The sweep deletes a file whose name the parser refuses; and the parser accepts a name that no
publication makes. -/
theorem older_spelling_deleted :
    (∃ entry ∈ (sweep localDebris 700000).requested,
        parseTmpName (fileName entry.path) = none) ∧
      ∃ name, (parseTmpName name).isSome = true ∧
        ∀ id begun random, isHex id 64 = true → tmpName id begun random ≠ name := by
  constructor
  · exact ⟨⟨.legacyLocal, "index/".toList ++ sixtyFour ++ "-tmp-".toList, 10, none, some 0⟩,
      by decide +kernel, by decide +kernel⟩
  · refine ⟨sixtyFour ++ ".tmp-07-0011223344556677".toList, by decide +kernel, ?_⟩
    intro id begun random hid heq
    have hparse := parseTmpName_of_parts (tmpName_parts hid begun random)
    rw [heq] at hparse
    have hseven : parseTmpName (sixtyFour ++ ".tmp-07-0011223344556677".toList) =
        some (sixtyFour, 7) := by decide +kernel
    rw [hseven] at hparse
    have hbegun : begun.toNat = 7 := (congrArg Prod.snd (Option.some.inj hparse)).symm
    have hlength := congrArg List.length heq
    have hrandom : ((List.ofFn random).flatMap byteHex).length = 16 := by simp [byteHex]
    have hidLength : id.length = 64 := of_decide_eq_true (Bool.and_eq_true _ _ ▸ hid : _ ∧ _).1
    unfold tmpName at hlength
    rw [hbegun] at hlength
    simp only [List.length_append, List.length_cons, hrandom, hidLength, sixtyFour,
      List.length_replicate] at hlength
    exact absurd hlength (by decide +kernel)

end OlderSpelling

end ChatStasher.Sweep
