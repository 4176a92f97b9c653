import ChatStasher.Inbox.DirectoryNames

/-! When the directories of conversations tell them apart: the directory of a conversation is known
by its text and its dots, and both by the id. -/
namespace ChatStasher.Inbox
open Readback (inferHarness)
open Sweep (isHexChar)

section Ascii

def IsAscii (text : Text) : Prop := ∀ c ∈ text, c.toNat < 128

lemma IsAscii.size {c : Char} (h : c.toNat < 128) : (String.utf8EncodeChar c).length = 1 := by
  rw [String.length_utf8EncodeChar]
  have hle : c.val ≤ 127 := by
    apply UInt32.le_iff_toNat_le.mpr
    change c.toNat ≤ 127
    omega
  exact Char.utf8Size_eq_one_iff.mpr hle

lemma IsAscii.length_utf8 {text : Text} (h : IsAscii text) : (utf8 text).length = text.length := by
  induction text with
  | nil => rfl
  | cons c text ih =>
    have htail := ih fun d hd => h d (List.mem_cons_of_mem c hd)
    have hsize := IsAscii.size (h c List.mem_cons_self)
    rw [utf8] at htail ⊢
    rw [List.flatMap_cons, List.length_append, htail, hsize, List.length_cons]
    omega

lemma truncate_append {text : Text} (h : IsAscii text) {limit : ℕ} (hfits : text.length ≤ limit)
    (rest : Text) : truncateToByteBoundary limit (text ++ rest) =
      text ++ truncateToByteBoundary (limit - text.length) rest := by
  induction text generalizing limit with
  | nil => simp
  | cons c text ih =>
    have hsize := IsAscii.size (h c List.mem_cons_self)
    rw [List.length_cons] at hfits
    rw [List.cons_append, List.cons_append, truncateToByteBoundary, hsize, if_pos (by omega),
      ih (fun d hd => h d (List.mem_cons_of_mem c hd)) (by omega), List.length_cons, Nat.sub_sub,
      Nat.add_comm 1]

lemma truncate_eq_take {text : Text} (h : IsAscii text) (limit : ℕ) :
    truncateToByteBoundary limit text = text.take limit := by
  induction text generalizing limit with
  | nil => simp [truncateToByteBoundary]
  | cons c text ih =>
    have hsize := IsAscii.size (h c List.mem_cons_self)
    rw [truncateToByteBoundary, hsize]
    cases limit with
    | zero => rfl
    | succ limit =>
      rw [if_pos (by omega), ih fun d hd => h d (List.mem_cons_of_mem c hd)]
      rfl

end Ascii

section Spelling

def isKept (c : Char) : Bool := c.isAlphanum || c == '.' || c == '_'

/-- An id as far as it names a directory: without the characters that are not kept at its ends, and
the word for an id with no other characters. -/
def named (id : Text) : Text :=
  let core := trimMatches (fun c => !isKept c) id
  if core.isEmpty then "unknown".toList else core

def Alike (c d : Char) : Prop := c = d ∨ (!isKept c ∧ !isKept d)

def SameSpelling (i j : Text) : Prop := List.Forall₂ Alike (named i) (named j)

def spelled (c : Char) : Char := if isKept c then c else '-'

lemma spelled_eq (c : Char) :
    spelled c = if c.isAlphanum || c == '-' || c == '.' || c == '_' then c else '-' := by
  unfold spelled isKept
  by_cases hdash : c = '-'
  · subst hdash
    decide
  · simp [hdash]

lemma spelled_eq_dash (c : Char) : (spelled c == '-') = !isKept c := by
  unfold spelled
  by_cases hkept : isKept c
  · have hne : c ≠ '-' := by
      rintro rfl
      exact absurd hkept (by decide)
    simp [hkept, hne]
  · simp [hkept]

lemma spelled_eq_iff (c d : Char) : spelled c = spelled d ↔ Alike c d := by
  constructor
  · intro h
    by_cases hc : isKept c
    · have hd : isKept d := by
        have hdash := congrArg (· == '-') h
        simp only [spelled_eq_dash] at hdash
        simpa [hc] using hdash
      left
      simpa [spelled, hc, hd] using h
    · have hd : ¬ isKept d := by
        have hdash := congrArg (· == '-') h
        simp only [spelled_eq_dash] at hdash
        simpa [hc] using hdash
      right
      simp [hc, hd]
  · rintro (rfl | ⟨hc, hd⟩)
    · rfl
    · simp only [Bool.not_eq_true'] at hc hd
      simp [spelled, hc, hd]

lemma trimMatches_map {p : Char → Bool} (f : Char → Char) (text : Text) :
    trimMatches p (text.map f) = (trimMatches (p ∘ f) text).map f := by
  simp only [trimMatches, List.rdropWhile, List.dropWhile_map, ← List.map_reverse]

lemma sanitizeComponent_eq (id : Text) : sanitizeComponent id = (named id).map spelled := by
  have hspelled : (fun c : Char =>
      if c.isAlphanum || c == '-' || c == '.' || c == '_' then c else '-') = spelled :=
    funext fun c => (spelled_eq c).symm
  have hdash : (fun c => c == '-') ∘ spelled = fun c => !isKept c :=
    funext fun c => spelled_eq_dash c
  simp only [sanitizeComponent, hspelled, trimMatches_map, hdash, named, List.isEmpty_map]
  by_cases hempty : (trimMatches (fun c => !isKept c) id).isEmpty = true
  · rw [if_pos hempty, if_pos hempty]
    decide
  · rw [if_neg hempty, if_neg hempty]

lemma sanitizeComponent_eq_iff (i j : Text) :
    sanitizeComponent i = sanitizeComponent j ↔ SameSpelling i j := by
  rw [sanitizeComponent_eq, sanitizeComponent_eq, ← List.forall₂_eq_eq_eq,
    List.forall₂_map_left_iff, List.forall₂_map_right_iff]
  unfold SameSpelling
  simp only [spelled_eq_iff]

end Spelling

section Characters

def isNameChar (c : Char) : Bool := c.isAlphanum || c == '-' || c == '.' || c == '_'

lemma isNameChar_spelled (c : Char) : isNameChar (spelled c) := by
  unfold spelled
  by_cases hkept : isKept c
  · rw [if_pos hkept]
    simp only [isKept, Bool.or_eq_true] at hkept
    simp only [isNameChar, Bool.or_eq_true]
    tauto
  · rw [if_neg hkept]
    decide

lemma isNameChar_sanitize {id : Text} {c : Char} (h : c ∈ sanitizeComponent id) :
    isNameChar c := by
  rw [sanitizeComponent_eq] at h
  obtain ⟨d, -, rfl⟩ := List.mem_map.mp h
  exact isNameChar_spelled d

lemma toNat_lt_of_isAlphanum {c : Char} (h : c.isAlphanum) : c.toNat < 128 := by
  unfold Char.isAlphanum Char.isAlpha Char.isUpper Char.isLower Char.isDigit at h
  simp only [Bool.or_eq_true, Bool.and_eq_true, decide_eq_true_eq, UInt32.le_iff_toNat_le,
    ge_iff_le] at h
  change c.val.toNat < 128
  rcases h with ((⟨-, h⟩ | ⟨-, h⟩) | ⟨-, h⟩)
  · exact lt_of_le_of_lt h (by decide)
  · exact lt_of_le_of_lt h (by decide)
  · exact lt_of_le_of_lt h (by decide)

lemma isAlphanum_of_isLower {c : Char} (h : c.isLower) : c.isAlphanum := by
  unfold Char.isAlphanum Char.isAlpha
  simp [h]

lemma toNat_lt_of_isNameChar {c : Char} (h : isNameChar c) : c.toNat < 128 := by
  simp only [isNameChar, Bool.or_eq_true, beq_iff_eq] at h
  rcases h with ((h | rfl) | rfl) | rfl
  · exact toNat_lt_of_isAlphanum h
  · decide
  · decide
  · decide

lemma isNameChar_of_isHexChar {c : Char} (h : isHexChar c) : isNameChar c ∧ c ≠ '.' := by
  have halnum : c.isAlphanum := by
    simp only [isHexChar, Bool.or_eq_true, Bool.and_eq_true, decide_eq_true_eq] at h
    unfold Char.isAlphanum Char.isAlpha Char.isUpper Char.isLower Char.isDigit
    simp only [Bool.or_eq_true, Bool.and_eq_true, decide_eq_true_eq, ge_iff_le]
    rcases h with h | ⟨ha, hf⟩
    · exact Or.inr h
    · exact Or.inl (Or.inr ⟨ha, le_trans hf (by decide)⟩)
  constructor
  · simp [isNameChar, halnum]
  · rintro rfl
    exact absurd halnum (by decide)

end Characters

section Directory
variable (D : HexDigest)

def Conversation.composite (c : Conversation) : Text :=
  sanitizeComponent c.platform ++ '.' :: sanitizeComponent c.id

def Conversation.directory (c : Conversation) : Text := sessionDirId D.hexPrefix c.platform c.id

def Conversation.tag (c : Conversation) : Text := D.hexPrefix c.composite pathComponentTagHex

lemma isKept_of_isLower {c : Char} (h : c.isLower) : isKept c := by
  simp [isKept, isAlphanum_of_isLower h]

lemma named_of_ends {id : Text} (hne : id ≠ []) (hhead : isKept (id.head hne))
    (hlast : isKept (id.getLast hne)) : named id = id := by
  have hdrop : id.dropWhile (fun c => !isKept c) = id := by
    cases id with
    | nil => exact absurd rfl hne
    | cons c rest => simpa using hhead
  have htrim : trimMatches (fun c => !isKept c) id = id := by
    rw [trimMatches, hdrop]
    apply List.rdropWhile_eq_self_iff.mpr
    intro _
    simpa using hlast
  rw [named, htrim, if_neg (by simpa using hne)]

lemma Conversation.sanitize_platform (c : Conversation) :
    sanitizeComponent c.platform = c.platform := by
  have hkept : ∀ d ∈ c.platform, isKept d := fun d hd => isKept_of_isLower (c.lower d hd)
  rw [sanitizeComponent_eq, named_of_ends c.platform_ne (hkept _ (List.head_mem _))
    (hkept _ (List.getLast_mem _))]
  exact (List.map_congr_left fun d hd => if_pos (hkept d hd)).trans (List.map_id _)

lemma Conversation.composite_eq (c : Conversation) :
    c.composite = c.platform ++ '.' :: sanitizeComponent c.id := by
  rw [Conversation.composite, c.sanitize_platform]

lemma Conversation.isNameChar_of_mem {c : Conversation} {d : Char} (h : d ∈ c.composite) :
    isNameChar d := by
  rcases List.mem_append.mp h with h | h
  · exact isNameChar_sanitize h
  · rcases List.mem_cons.mp h with rfl | h
    · decide
    · exact isNameChar_sanitize h

lemma Conversation.isAscii (c : Conversation) : IsAscii c.composite := fun _ hd =>
  toNat_lt_of_isNameChar (Conversation.isNameChar_of_mem hd)

lemma Conversation.not_mem_platform (c : Conversation) {d : Char} (h : ¬ d.isLower) :
    d ∉ c.platform := fun hmem => h (c.lower d hmem)

lemma Conversation.length_tag (c : Conversation) : (c.tag D).length = 32 :=
  D.length_hexPrefix _ _ (by decide)

lemma Conversation.isHexChar_tag {c : Conversation} {d : Char} (h : d ∈ c.tag D) : isHexChar d :=
  D.hex _ _ d h

lemma Conversation.directory_of_le {c : Conversation} (h : c.composite.length ≤ 255) :
    c.directory D = c.composite := by
  have hlength := c.isAscii.length_utf8
  exact if_pos (hlength.trans_le h)

lemma Conversation.directory_of_lt {c : Conversation} (h : 255 < c.composite.length) :
    c.directory D = c.composite.take 222 ++ '~' :: c.tag D := by
  have hlength := c.isAscii.length_utf8
  have hlong : ¬ (utf8 c.composite).length ≤ maxPathComponentBytes := by
    rw [hlength]
    exact not_le.mpr h
  have htag : (D.hexPrefix c.composite (min maxPathComponentBytes pathComponentTagHex)) =
      c.tag D := rfl
  have hlimit : maxPathComponentBytes - (1 + (c.tag D).length) = 222 := by
    rw [c.length_tag]
    rfl
  have hhead : (c.composite.take 222).isEmpty = false := by
    cases hc : c.composite with
    | nil => simp [hc] at h
    | cons d rest => rfl
  change boundedPathComponent D.hexPrefix c.composite maxPathComponentBytes = _
  rw [boundedPathComponent, if_neg hlong, htag]
  dsimp only
  rw [hlimit, truncate_eq_take c.isAscii, hhead]
  rfl

lemma Conversation.tilde_not_mem {c : Conversation} : '~' ∉ c.composite := fun h =>
  absurd (Conversation.isNameChar_of_mem h) (by decide)

lemma Conversation.composite_eq_of_directory {c c' : Conversation}
    (hfree : 255 < c.composite.length → 255 < c'.composite.length → c.tag D = c'.tag D →
      c.composite = c'.composite)
    (h : c.directory D = c'.directory D) : c.composite = c'.composite := by
  have htilde : ∀ {a b : Conversation}, 255 < b.composite.length →
      a.composite ≠ b.directory D := by
    intro a b hb heq
    rw [b.directory_of_lt D hb] at heq
    apply a.tilde_not_mem
    rw [heq]
    simp
  by_cases hc : c.composite.length ≤ 255
  · by_cases hc' : c'.composite.length ≤ 255
    · rwa [c.directory_of_le D hc, c'.directory_of_le D hc'] at h
    · rw [c.directory_of_le D hc] at h
      exact absurd h (htilde (not_le.mp hc'))
  · by_cases hc' : c'.composite.length ≤ 255
    · rw [c'.directory_of_le D hc'] at h
      exact absurd h.symm (htilde (not_le.mp hc))
    · rw [not_le] at hc hc'
      rw [c.directory_of_lt D hc, c'.directory_of_lt D hc'] at h
      have hhead : ∀ b : Conversation, '~' ∉ b.composite.take 222 := fun b hmem =>
        b.tilde_not_mem (List.mem_of_mem_take hmem)
      exact hfree hc hc' (SplitOnce.append_cons_inj (hhead c) (hhead c') h).2

lemma Conversation.composite_eq_iff (c c' : Conversation) :
    c.composite = c'.composite ↔ c.platform = c'.platform ∧ SameSpelling c.id c'.id := by
  rw [← sanitizeComponent_eq_iff, c.composite_eq, c'.composite_eq]
  constructor
  · intro h
    have hdot : ∀ b : Conversation, '.' ∉ b.platform := fun b => b.not_mem_platform (by decide)
    exact SplitOnce.append_cons_inj (hdot c) (hdot c') h
  · rintro ⟨hplatform, hid⟩
    rw [hplatform, hid]

end Directory

section Dots

def Conversation.room (c : Conversation) : ℕ :=
  if c.platform.length + 1 + (named c.id).length ≤ 255 then (named c.id).length
  else 221 - c.platform.length

lemma Conversation.length_composite (c : Conversation) :
    c.composite.length = c.platform.length + 1 + (named c.id).length := by
  rw [c.composite_eq, sanitizeComponent_eq]
  simp
  omega

lemma Conversation.room_of_le {c : Conversation} (h : c.composite.length ≤ 255) :
    c.room = (named c.id).length := if_pos (c.length_composite ▸ h)

lemma Conversation.room_of_lt {c : Conversation} (h : 255 < c.composite.length) :
    c.room = 221 - c.platform.length := if_neg (not_le.mpr (c.length_composite ▸ h))

lemma spelled_eq_dot (c : Char) : (spelled c == '.') = (c == '.') := by
  unfold spelled
  by_cases hkept : isKept c
  · rw [if_pos hkept]
  · rw [if_neg hkept]
    have hne : c ≠ '.' := by
      rintro rfl
      exact hkept (by decide)
    simp [hne]

lemma count_dot_spelled (text : Text) : (text.map spelled).count '.' = text.count '.' := by
  induction text with
  | nil => rfl
  | cons c text ih => rw [List.map_cons, List.count_cons, List.count_cons, ih, spelled_eq_dot]

variable (D : HexDigest)

lemma count_dot_tag (c : Conversation) : (c.tag D).count '.' = 0 :=
  List.count_eq_zero.mpr fun h => (isNameChar_of_isHexChar (Conversation.isHexChar_tag D h)).2 rfl

lemma Conversation.two_le_count (c : Conversation) :
    2 ≤ (c.directory D).count '.' ↔ '.' ∈ (named c.id).take c.room := by
  have hplatform : c.platform.count '.' = 0 :=
    List.count_eq_zero.mpr (c.not_mem_platform (by decide))
  rw [← List.one_le_count_iff]
  by_cases hc : c.composite.length ≤ 255
  · rw [c.directory_of_le D hc, c.composite_eq, sanitizeComponent_eq, List.count_append,
      List.count_cons, count_dot_spelled, hplatform, Conversation.room_of_le hc, List.take_length]
    simp
  · rw [not_le] at hc
    rw [c.directory_of_lt D hc, Conversation.room_of_lt hc, List.count_append, List.count_cons,
      count_dot_tag, c.composite_eq, sanitizeComponent_eq, List.take_append, List.count_append]
    have hhead : (c.platform.take 222).count '.' = 0 :=
      Nat.le_zero.mp (hplatform ▸ (List.take_sublist 222 c.platform).count_le '.')
    rw [hhead]
    by_cases hlong : 222 ≤ c.platform.length
    · have hnone : 222 - c.platform.length = 0 := by omega
      have hnone' : 221 - c.platform.length = 0 := by omega
      simp [hnone, hnone']
    · have hsome : 222 - c.platform.length = 221 - c.platform.length + 1 := by omega
      rw [hsome, List.take_succ_cons, List.count_cons, ← List.map_take, count_dot_spelled]
      simp

lemma inferHarness_eq_some {c : Char} {rest : Text} (hdot : c ≠ '.') (htilde : c ≠ '~') :
    (inferHarness (c :: rest)).isNone = false := by
  simp [inferHarness, hdot, htilde]

lemma Conversation.directory_cons (c : Conversation) :
    ∃ d rest, c.directory D = d :: rest ∧ d.isLower := by
  obtain ⟨d, platform, hplatform⟩ := List.exists_cons_of_ne_nil c.platform_ne
  have hlower : d.isLower := c.lower d (hplatform ▸ List.mem_cons_self)
  have hcomposite : ∃ rest, c.composite = d :: rest := by
    rw [c.composite_eq, hplatform]
    exact ⟨_, rfl⟩
  obtain ⟨rest, hrest⟩ := hcomposite
  by_cases hc : c.composite.length ≤ 255
  · exact ⟨d, rest, (c.directory_of_le D hc).trans hrest, hlower⟩
  · rw [c.directory_of_lt D (not_le.mp hc), hrest]
    exact ⟨d, _, rfl, hlower⟩

lemma Conversation.isNameChar_of_mem_directory {c : Conversation} {d : Char}
    (h : d ∈ c.directory D) : isNameChar d ∨ d = '~' := by
  by_cases hc : c.composite.length ≤ 255
  · rw [c.directory_of_le D hc] at h
    exact Or.inl (Conversation.isNameChar_of_mem h)
  · rw [c.directory_of_lt D (not_le.mp hc)] at h
    rcases List.mem_append.mp h with h | h
    · exact Or.inl (Conversation.isNameChar_of_mem (List.mem_of_mem_take h))
    · rcases List.mem_cons.mp h with rfl | h
      · exact Or.inr rfl
      · exact Or.inl (isNameChar_of_isHexChar (Conversation.isHexChar_tag D h)).1

lemma Conversation.isAscii_directory (c : Conversation) : IsAscii (c.directory D) := by
  intro d hd
  rcases Conversation.isNameChar_of_mem_directory D hd with h | rfl
  · exact toNat_lt_of_isNameChar h
  · decide

lemma Conversation.length_directory (c : Conversation) : (c.directory D).length ≤ 255 := by
  by_cases hc : c.composite.length ≤ 255
  · rwa [c.directory_of_le D hc]
  · rw [c.directory_of_lt D (not_le.mp hc), List.length_append, List.length_cons, c.length_tag,
      List.length_take]
    omega

lemma not_mem_utf8EncodeChar {c : Char} (h : isNameChar c) :
    0x7E ∉ String.utf8EncodeChar c := by
  have hascii : c.toNat < 128 := toNat_lt_of_isNameChar h
  have hsize : c.utf8Size = 1 := by
    rw [← String.length_utf8EncodeChar]
    exact IsAscii.size hascii
  rw [String.utf8EncodeChar_eq_singleton hsize, List.mem_singleton]
  intro hbyte
  have hval : c.toNat = 0x7E := by
    have hnat : 0x7E = c.toNat % 256 := congrArg UInt8.toNat hbyte
    omega
  have htilde : c = '~' := Char.toNat_inj.mp hval
  rw [htilde] at h
  exact absurd h (by decide)

lemma Conversation.not_displayShort (c : Conversation) :
    isDisplayShortId (c.directory D) = false := by
  by_cases hc : c.composite.length ≤ 255
  · rw [isDisplayShortId, c.directory_of_le D hc]
    have htilde : (utf8 c.composite)[8]? ≠ some 0x7E := by
      intro hget
      obtain ⟨d, hd, hbyte⟩ := List.mem_flatMap.mp (List.mem_of_getElem? hget)
      exact not_mem_utf8EncodeChar (Conversation.isNameChar_of_mem hd) hbyte
    simp [htilde]
  · have hlength := (c.isAscii_directory D).length_utf8
    rw [c.directory_of_lt D (not_le.mp hc), List.length_append, List.length_cons, c.length_tag,
      List.length_take, min_eq_left (by omega), ← c.directory_of_lt D (not_le.mp hc)] at hlength
    simp [isDisplayShortId, hlength]

lemma Conversation.idProducer_eq_local (c : Conversation) :
    idProducer (c.directory D) = some .localHarness ↔ 2 ≤ (c.directory D).count '.' := by
  have hsome : (inferHarness (c.directory D)).isNone = false := by
    obtain ⟨d, rest, heq, hlower⟩ := c.directory_cons D
    rw [heq]
    apply inferHarness_eq_some
    · rintro rfl
      exact absurd hlower (by decide)
    · rintro rfl
      exact absurd hlower (by decide)
  rw [idProducer, hsome, c.not_displayShort]
  simp only [Bool.false_eq_true, if_false]
  by_cases hzero : (c.directory D).count '.' = 0
  · simp [hzero]
  · rw [if_neg hzero]
    by_cases htwo : (c.directory D).count '.' ≥ 2
    · simp [htwo]
    · simp [htwo]

end Dots

section LocalSessions
variable {lower : Text → Text}

lemma HarnessSource.short_spec (source : HarnessSource) :
    source.short.length ≤ 18 ∧ ∀ c ∈ source.short, isNameChar c := by
  cases source <;> exact ⟨by decide, List.all_eq_true.mp (by decide)⟩

lemma mem_collapseDashes {b : Bool} {text : Text} {c : Char} (h : c ∈ collapseDashes b text) :
    c ∈ text := by
  induction text generalizing b with
  | nil => exact h
  | cons d text ih =>
    unfold collapseDashes at h
    split at h
    · next hdash =>
      split at h
      · exact List.mem_cons_of_mem d (ih h)
      · rcases List.mem_cons.mp h with rfl | h
        · exact hdash ▸ List.mem_cons_self
        · exact List.mem_cons_of_mem d (ih h)
    · rcases List.mem_cons.mp h with rfl | h
      · exact List.mem_cons_self
      · exact List.mem_cons_of_mem d (ih h)

lemma SessionIdentity.machine_spec (identity : SessionIdentity lower) :
    identity.machine.length ≤ 40 ∧ ∀ c ∈ identity.machine, isNameChar c := by
  obtain ⟨raw, hraw⟩ := identity.normalized
  rw [← hraw]
  constructor
  · exact List.length_take_le _ _
  · intro c hc
    obtain ⟨d, -, rfl⟩ := List.mem_map.mp (mem_collapseDashes (List.mem_of_mem_take hc))
    by_cases hkept : d.isAlphanum || d == '-'
    · rw [if_pos hkept]
      simp only [Bool.or_eq_true] at hkept
      simp only [isNameChar, Bool.or_eq_true]
      tauto
    · rw [if_neg hkept]
      decide

lemma SessionIdentity.two_le_count (D : HexDigest) (identity : SessionIdentity lower) :
    2 ≤ (identity.id D.hexPrefix).count '.' := by
  obtain ⟨hshort, hshortChars⟩ := identity.source.short_spec
  obtain ⟨hmachine, hmachineChars⟩ := identity.machine_spec
  set segments := identity.source.short ++ '.' :: (identity.machine ++ ['.']) with hsegments
  have hvalue : identity.source.short ++ '.' :: (identity.machine ++ '.' :: identity.nativeId) =
      segments ++ identity.nativeId := by simp [hsegments]
  have hcount : 2 ≤ segments.count '.' := by
    simp only [hsegments, List.count_append, List.count_cons, List.count_nil, beq_self_eq_true,
      if_true]
    omega
  have hlength : segments.length ≤ 60 := by
    simp only [hsegments, List.length_append, List.length_cons, List.length_nil]
    omega
  have hascii : IsAscii segments := by
    intro c hc
    apply toNat_lt_of_isNameChar
    rcases List.mem_append.mp hc with hc | hc
    · exact hshortChars c hc
    · rcases List.mem_cons.mp hc with rfl | hc
      · decide
      · rcases List.mem_append.mp hc with hc | hc
        · exact hmachineChars c hc
        · obtain rfl := List.mem_singleton.mp hc
          decide
  rw [SessionIdentity.id, hvalue, boundedPathComponent]
  split
  · rw [List.count_append]
    omega
  · have htag : (D.hexPrefix (segments ++ identity.nativeId)
        (min maxPathComponentBytes pathComponentTagHex)).length = 32 :=
      D.length_hexPrefix _ _ (by decide)
    dsimp only
    rw [htag, truncate_append hascii (hlength.trans (by decide))]
    split
    · next hempty =>
      have hnil : segments = [] := (List.append_eq_nil_iff.mp (List.isEmpty_iff.mp hempty)).1
      rw [hnil] at hcount
      exact absurd hcount (by decide)
    · rw [List.count_append, List.count_append]
      omega

end LocalSessions

section Faithful
variable (D : HexDigest) (lower : Text → Text)

/-- A name that a file system takes as one component of a path. -/
structure IsComponent (name : Text) : Prop where
  fits : (utf8 name).length ≤ 255
  ne_nil : name ≠ []
  ne_dot : name ≠ ".".toList
  ne_dots : name ≠ "..".toList
  single : ∀ c ∈ name, c ≠ '/' ∧ c ≠ '\\' ∧ c ≠ '\x00'

/-- The conversations are told apart, from one another and from the local sessions. -/
structure Faithful (held : Set Conversation) : Prop where
  injective : ∀ c ∈ held, ∀ c' ∈ held, c.directory D = c'.directory D → c = c'
  verbatim : ∀ c ∈ held, conversationIdIsSafe c.id →
    (utf8 (c.platform ++ '.' :: c.id)).length ≤ 255 → c.directory D = c.platform ++ '.' :: c.id
  component : ∀ c ∈ held, IsComponent (c.directory D)
  notLocal : ∀ c ∈ held, ∀ identity : SessionIdentity lower,
    c.directory D ≠ identity.id D.hexPrefix
  producer : ∀ c ∈ held, idProducer (c.directory D) ≠ some .localHarness
  localProducer : ∀ identity : SessionIdentity lower,
    idProducer (identity.id D.hexPrefix) ≠ some .webCapture

/-- Ids that name different directories, that need no trimming where an importer wrote them, and
that have no dot where the directory keeps it. -/
structure Unambiguous (held : Set Conversation) : Prop where
  spelled : ∀ c ∈ held, ∀ c' ∈ held, c.platform = c'.platform → SameSpelling c.id c'.id →
    c.id = c'.id
  undashed : ∀ c ∈ held, conversationIdIsSafe c.id →
    (utf8 (c.platform ++ '.' :: c.id)).length ≤ 255 → c.id.getLast? ≠ some '-'
  undotted : ∀ c ∈ held, '.' ∉ (named c.id).take c.room

variable {D lower}

lemma Conversation.isComponent (c : Conversation) : IsComponent (c.directory D) := by
  obtain ⟨d, rest, heq, hlower⟩ := c.directory_cons D
  have hdot : d ≠ '.' := by
    rintro rfl
    exact absurd hlower (by decide)
  constructor
  · rw [(c.isAscii_directory D).length_utf8]
    exact c.length_directory D
  · simp [heq]
  · rw [heq]
    exact fun h => hdot (List.cons.inj h).1
  · rw [heq]
    exact fun h => hdot (List.cons.inj h).1
  · intro e he
    rcases Conversation.isNameChar_of_mem_directory D he with hname | rfl
    · refine ⟨?_, ?_, ?_⟩ <;> rintro rfl <;> exact absurd hname (by decide)
    · decide

lemma sanitizeComponent_getLast? (id : Text) : (sanitizeComponent id).getLast? ≠ some '-' := by
  rw [sanitizeComponent]
  split
  · decide
  · next hne =>
    have hcore := mt List.isEmpty_iff.mpr hne
    intro hlast
    have hnot := List.rdropWhile_last_not (fun c : Char => c == '-') _ hcore
    rw [List.getLast?_eq_some_getLast hcore] at hlast
    exact hnot (beq_iff_eq.mpr (Option.some.inj hlast))

lemma sanitizeComponent_of_safe {id : Text} (hsafe : conversationIdIsSafe id) :
    sanitizeComponent id = id ↔ id.getLast? ≠ some '-' := by
  constructor
  · intro h
    rw [← h]
    exact sanitizeComponent_getLast? id
  · intro hlast
    cases id with
    | nil => exact absurd hsafe (by decide)
    | cons first rest =>
      simp only [conversationIdIsSafe, Bool.and_eq_true, List.all_eq_true, Bool.or_eq_true,
        beq_iff_eq] at hsafe
      obtain ⟨⟨hfirst, -⟩, hrest⟩ := hsafe
      have hchar : ∀ c ∈ first :: rest, isKept c ∨ c = '-' := by
        intro c hc
        simp only [isKept, Bool.or_eq_true, beq_iff_eq]
        rcases List.mem_cons.mp hc with rfl | hc
        · exact Or.inl (Or.inl (Or.inl hfirst))
        · have := hrest c hc
          tauto
      have hlastKept : isKept ((first :: rest).getLast (List.cons_ne_nil first rest)) := by
        refine (hchar _ (List.getLast_mem _)).resolve_right fun hdash => hlast ?_
        rw [List.getLast?_eq_some_getLast (List.cons_ne_nil first rest), hdash]
      have hnamed : named (first :: rest) = first :: rest :=
        named_of_ends (List.cons_ne_nil first rest) (by simp [isKept, hfirst]) hlastKept
      rw [sanitizeComponent_eq, hnamed]
      have hspelled : ∀ c ∈ first :: rest, spelled c = c := by
        intro c hc
        unfold spelled
        rcases hchar c hc with hkept | rfl
        · rw [if_pos hkept]
        · decide
      exact (List.map_congr_left hspelled).trans (List.map_id _)

lemma isAscii_of_safe {id : Text} (hsafe : conversationIdIsSafe id) : IsAscii id := by
  cases id with
  | nil => exact fun c hc => absurd hc List.not_mem_nil
  | cons first rest =>
    simp only [conversationIdIsSafe, Bool.and_eq_true, List.all_eq_true, Bool.or_eq_true,
      beq_iff_eq] at hsafe
    intro c hc
    apply toNat_lt_of_isNameChar
    simp only [isNameChar, Bool.or_eq_true, beq_iff_eq]
    rcases List.mem_cons.mp hc with rfl | hc
    · exact Or.inl (Or.inl (Or.inl hsafe.1.1))
    · have := hsafe.2 c hc
      tauto

lemma length_named_of_safe {id : Text} (hsafe : conversationIdIsSafe id) :
    (named id).length ≤ id.length := by
  cases id with
  | nil => exact absurd hsafe (by decide)
  | cons first rest =>
    simp only [conversationIdIsSafe, Bool.and_eq_true] at hsafe
    have hfirst : isKept first := by simp [isKept, hsafe.1.1]
    have hdrop : (first :: rest).dropWhile (fun c => !isKept c) = first :: rest := by
      simp [hfirst]
    have hcore : trimMatches (fun c => !isKept c) (first :: rest) ≠ [] := by
      rw [trimMatches, hdrop]
      intro hnil
      have hall := List.rdropWhile_eq_nil_iff.mp hnil first List.mem_cons_self
      rw [hfirst] at hall
      exact absurd hall (by decide)
    rw [named, if_neg (mt List.isEmpty_iff.mp hcore), trimMatches, hdrop]
    exact (List.rdropWhile_prefix _ _).length_le

lemma Conversation.directory_eq_of_safe {c : Conversation} (hsafe : conversationIdIsSafe c.id)
    (hfits : (utf8 (c.platform ++ '.' :: c.id)).length ≤ 255) :
    c.directory D = c.platform ++ '.' :: c.id ↔ c.id.getLast? ≠ some '-' := by
  have hascii : IsAscii (c.platform ++ '.' :: c.id) := by
    intro d hd
    rcases List.mem_append.mp hd with hd | hd
    · exact toNat_lt_of_isAlphanum (isAlphanum_of_isLower (c.lower d hd))
    · rcases List.mem_cons.mp hd with rfl | hd
      · decide
      · exact isAscii_of_safe hsafe d hd
  rw [hascii.length_utf8, List.length_append, List.length_cons] at hfits
  have hnamed := length_named_of_safe hsafe
  have hcomposite : c.composite.length ≤ 255 := by
    rw [c.length_composite]
    omega
  rw [c.directory_of_le D hcomposite, c.composite_eq, ← sanitizeComponent_of_safe hsafe]
  simp

/-- The directories are faithful exactly when the ids are not ambiguous. -/
theorem faithful_iff {held : Set Conversation}
    (hfree : ∀ c ∈ held, ∀ c' ∈ held, 255 < c.composite.length → 255 < c'.composite.length →
      c.tag D = c'.tag D → c.composite = c'.composite) :
    Faithful D lower held ↔ Unambiguous held := by
  constructor
  · intro h
    refine ⟨?_, ?_, ?_⟩
    · intro c hc c' hc' hplatform hid
      have hcomposite := (c.composite_eq_iff c').mpr ⟨hplatform, hid⟩
      have hdirectory : c.directory D = c'.directory D :=
        congrArg (fun value => boundedPathComponent D.hexPrefix value maxPathComponentBytes)
          hcomposite
      rw [h.injective c hc c' hc' hdirectory]
    · intro c hc hsafe hfits
      exact (Conversation.directory_eq_of_safe hsafe hfits).mp (h.verbatim c hc hsafe hfits)
    · intro c hc hdot
      exact h.producer c hc ((c.idProducer_eq_local D).mpr ((c.two_le_count D).mpr hdot))
  · intro h
    have hone : ∀ c ∈ held, ¬ 2 ≤ (c.directory D).count '.' := fun c hc htwo =>
      h.undotted c hc ((c.two_le_count D).mp htwo)
    refine ⟨?_, ?_, ?_, ?_, ?_, ?_⟩
    · intro c hc c' hc' hdirectory
      have hcomposite := Conversation.composite_eq_of_directory D (hfree c hc c' hc') hdirectory
      obtain ⟨hplatform, hid⟩ := (c.composite_eq_iff c').mp hcomposite
      exact Conversation.ext hplatform (h.spelled c hc c' hc' hplatform hid)
    · intro c hc hsafe hfits
      exact (Conversation.directory_eq_of_safe hsafe hfits).mpr (h.undashed c hc hsafe hfits)
    · exact fun c _ => c.isComponent
    · intro c hc identity heq
      exact hone c hc (heq ▸ identity.two_le_count D)
    · exact fun c hc hlocal => hone c hc ((c.idProducer_eq_local D).mp hlocal)
    · intro identity
      have htwo := identity.two_le_count D
      have hcount : ¬ (identity.id D.hexPrefix).count '.' = 0 := by omega
      simp only [idProducer, ge_iff_le, htwo, if_true, hcount, if_false]
      split
      · exact nofun
      · split
        · exact nofun
        · exact nofun

end Faithful

section Examples

/-- A digest that knows the parity of a length only. -/
def parityDigest : HexDigest where
  hexPrefix value n := List.replicate n (if value.length % 2 = 0 then '0' else '1')
  length_hexPrefix value n _ := List.length_replicate
  hex value n c hc := by
    obtain rfl := List.eq_of_mem_replicate hc
    split <;> decide

def plainConversation : Conversation where
  platform := "gemini".toList
  id := "c_abcdefgh".toList
  platform_ne := by decide
  lower := List.all_eq_true.mp (by decide)
  accepted := by decide

def dashedConversation : Conversation where
  platform := "gemini".toList
  id := "c_abcdefgh-".toList
  platform_ne := by decide
  lower := List.all_eq_true.mp (by decide)
  accepted := by decide

def longConversation : Conversation where
  platform := "gemini".toList
  id := List.replicate 300 'a'
  platform_ne := by decide
  lower := List.all_eq_true.mp (by decide)
  accepted := by decide +kernel

theorem plain_and_long_told_apart :
    Faithful parityDigest id {plainConversation, longConversation} := by
  refine (faithful_iff ?_).mpr ⟨?_, ?_, ?_⟩
  · rintro c (rfl | rfl) c' (rfl | rfl) hlong hlong' -
    · rfl
    · exact absurd hlong (by decide +kernel)
    · exact absurd hlong' (by decide +kernel)
    · rfl
  · rintro c (rfl | rfl) c' (rfl | rfl) - hspelled
    · rfl
    · exact absurd hspelled.length_eq (by decide +kernel)
    · exact absurd hspelled.length_eq (by decide +kernel)
    · rfl
  · rintro c (rfl | rfl) - -
    · decide
    · decide +kernel
  · rintro c (rfl | rfl)
    · decide
    · decide +kernel

/-- An id with a dash at its end, which both producers accept, has the directory of the id without
it. -/
theorem dashed_id_not_told_apart :
    (∀ c ∈ [plainConversation, dashedConversation],
      extensionAccepts c.platform c.id ∧ conversationIdIsSafe c.id) ∧
    ¬ ∃ (D : HexDigest) (lower : Text → Text),
      Faithful D lower {plainConversation, dashedConversation} := by
  constructor
  · decide
  · rintro ⟨D, lower, h⟩
    have hcomposite : plainConversation.composite = dashedConversation.composite := by decide
    have hdirectory : plainConversation.directory D = dashedConversation.directory D :=
      congrArg (fun value => boundedPathComponent D.hexPrefix value maxPathComponentBytes)
        hcomposite
    have heq := h.injective _ (Or.inl rfl) _ (Or.inr rfl) hdirectory
    exact absurd (congrArg Conversation.id heq) (by decide)

end Examples

end ChatStasher.Inbox
