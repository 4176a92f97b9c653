import ChatStasher.Push.PackCheck

/-! When a pack verifies: its name, its layout and its blobs are what they claim to be, and every
reader of its header answers alike. -/
namespace ChatStasher.Pack

def Serves (be : Backend) (hex : List Char) (bytes : Bytes) : Prop :=
  ∀ id, parseId hex = some id → ∀ offset length, offset + length ≤ bytes.length →
    be id offset length = some ((bytes.drop offset).take length)

/-- A blob's stored bytes decrypt, decompress to the length its entry declares, if it declares one,
and are then the content of its id. -/
def Opens (crypto : Crypto) (entry : HeaderEntry) (piece : Bytes) : Prop :=
  ∃ plain content, decrypt crypto piece = .ok plain ∧
    (match entry.uncompressed with
      | none => content = plain
      | some length => crypto.decompress plain = some content ∧ content.length = length.1.toNat) ∧
    crypto.sha256 content = entry.id

def Closed (bytes region header : Bytes) : Prop :=
  ∃ headerLen : UInt32, bytes = region ++ header ++ toLeBytes headerLen ∧
    header.length = headerLen.toNat ∧ compOverhead ≤ header.length

/-- The bytes can be read as a pack: a header that fits and decrypts. -/
def Readable (crypto : Crypto) (bytes : Bytes) : Prop :=
  ∃ region header plaintext, Closed bytes region header ∧ decrypt crypto header = .ok plaintext

/-- The name is the hash, the header's entries fill it, and their blobs tile the rest. -/
def WellFormed (crypto : Crypto) (hex : List Char) (bytes : Bytes) (entries : List HeaderEntry) :
    Prop :=
  hexDigest (crypto.sha256 bytes).bytes = hex ∧ ∃ pieces header,
    Closed bytes pieces.flatten header ∧ decrypt crypto header = .ok (writeEntries entries) ∧
      header.length = (writeEntries entries).length + compOverhead ∧
        List.Forall₂ (fun entry piece => piece.length = entry.len.toNat ∧ Opens crypto entry piece)
          entries pieces

def indexBlobs : ℕ → List HeaderEntry → List IndexBlob
  | _, [] => []
  | offset, entry :: entries =>
    ⟨entry.id, entry.tpe, ⟨UInt32.ofNat offset, entry.len, entry.uncompressed⟩⟩ ::
      indexBlobs (offset + entry.len.toNat) entries

section Steps
variable {α β : Type}

lemma bind_eq_ok {x : Except PackError α} {f : α → Except PackError β} {b : β} :
    x >>= f = .ok b ↔ ∃ a, x = .ok a ∧ f a = .ok b := by
  cases x with
  | error e => exact iff_of_false nofun (by rintro ⟨_, h, -⟩; cases h)
  | ok a =>
    constructor
    · exact fun h => ⟨a, rfl, h⟩
    · rintro ⟨_, h, hf⟩
      cases h
      exact hf

def NotUnreadable (x : Except PackError α) : Prop := ∀ why, x ≠ .error (.unreadableHeader why)

lemma notUnreadable_ok (a : α) : NotUnreadable (.ok a) := nofun

lemma notUnreadable_unusable (why : String) :
    NotUnreadable (.error (.unusable why) : Except PackError α) := nofun

lemma notUnreadable_ite {p : Prop} [Decidable p] {a : α} {why : String} :
    NotUnreadable (if p then .ok a else .error (.unusable why)) := by
  split <;> nofun

lemma NotUnreadable.bind {x : Except PackError α} {f : α → Except PackError β}
    (hx : NotUnreadable x) (hf : ∀ a, NotUnreadable (f a)) : NotUnreadable (x >>= f) := by
  cases x with
  | error e => exact fun why h => hx why (by cases h; rfl)
  | ok a => exact hf a

lemma notUnreadable_mapError {ε : Type*} {x : Except ε α} {why : ε → String} :
    NotUnreadable (x.mapError fun e => .unusable (why e)) := by
  cases x <;> nofun

end Steps

section Reads
variable {crypto : Crypto} {be : Backend} {hex : List Char} {bytes : Bytes} {id : Id}

lemma notUnreadable_readRange (offset length : ℕ) : NotUnreadable (readRange be id offset length) := by
  unfold readRange
  split
  · exact notUnreadable_unusable _
  · split
    · exact notUnreadable_unusable _
    · split
      · exact notUnreadable_unusable _
      · exact notUnreadable_ok _

lemma readRange_of_serves (hserves : Serves be hex bytes) (hid : parseId hex = some id)
    {offset length : ℕ} (hfit : offset + length ≤ bytes.length) (hoffset : offset < 2 ^ 32) :
    readRange be id offset length = .ok ((bytes.drop offset).take length) := by
  have hlength : ((bytes.drop offset).take length).length = length := by
    rw [List.length_take, List.length_drop]
    omega
  unfold readRange
  rw [if_neg (by omega), hserves id hid offset length hfit]
  dsimp only
  rw [if_neg (by rw [hlength]; exact not_not.mpr rfl)]

lemma headerLengthFits_eq_ok_iff {listed n : ℕ} {short : String} {headerLen : UInt32} :
    headerLengthFits listed short (toLeBytes headerLen) = .ok n ↔
      n = headerLen.toNat ∧ compOverhead ≤ n ∧ n + lengthLen ≤ listed := by
  have hread : readU32 (toLeBytes headerLen) = some (headerLen, []) := by
    simpa using readU32_toLeBytes headerLen []
  unfold headerLengthFits
  rw [hread]
  dsimp only [Option.map_some, Option.getD_some]
  split
  next h => exact iff_of_false nofun (by rintro ⟨rfl, h₁, h₂⟩; omega)
  next h =>
    rw [Except.ok.injEq, eq_comm]
    exact ⟨fun hn => ⟨hn, by omega, by omega⟩, And.left⟩

lemma exists_tail (hlength : lengthLen ≤ bytes.length) :
    ∃ front headerLen, bytes = front ++ toLeBytes headerLen := by
  have htail : (bytes.drop (bytes.length - lengthLen)).length = 4 := by
    rw [List.length_drop]
    unfold lengthLen at *
    omega
  obtain ⟨headerLen, hheaderLen⟩ := exists_toLeBytes htail
  exact ⟨bytes.take (bytes.length - lengthLen), headerLen, by rw [← hheaderLen, List.take_append_drop]⟩

lemma closed_of_fits {front : Bytes} {headerLen : UInt32} (hbytes : bytes = front ++ toLeBytes headerLen)
    (hle : compOverhead ≤ headerLen.toNat) (hfit : headerLen.toNat + lengthLen ≤ bytes.length) :
    Closed bytes (front.take (front.length - headerLen.toNat))
      (front.drop (front.length - headerLen.toNat)) := by
  have hlength : bytes.length = front.length + lengthLen := by
    rw [hbytes, List.length_append, length_toLeBytes]
    rfl
  have hheader : (front.drop (front.length - headerLen.toNat)).length = headerLen.toNat := by
    rw [List.length_drop]
    omega
  exact ⟨headerLen, by rw [List.take_append_drop, hbytes], hheader, hheader.symm ▸ hle⟩

lemma Closed.parts {region header : Bytes} (h : Closed bytes region header) :
    ∃ headerLen : UInt32, header.length = headerLen.toNat ∧ compOverhead ≤ headerLen.toNat ∧
      bytes.length = region.length + header.length + lengthLen ∧
      bytes.drop (bytes.length - lengthLen) = toLeBytes headerLen ∧
      (bytes.drop (bytes.length - lengthLen - headerLen.toNat)).take headerLen.toNat = header := by
  obtain ⟨headerLen, rfl, hheader, hle⟩ := h
  have hlength : (region ++ header ++ toLeBytes headerLen).length =
      region.length + header.length + lengthLen := by
    rw [List.length_append, List.length_append, length_toLeBytes]
    rfl
  refine ⟨headerLen, hheader, hheader ▸ hle, hlength, ?_, ?_⟩
  · rw [hlength, show region.length + header.length + lengthLen - lengthLen =
      (region ++ header).length by rw [List.length_append]; omega, List.drop_left]
  · rw [hlength, ← hheader, show region.length + header.length + lengthLen - lengthLen -
      header.length = region.length by omega, List.append_assoc, List.drop_left, List.take_left]

lemma Closed.unique {region region' header header' : Bytes} (h : Closed bytes region header)
    (h' : Closed bytes region' header') : region = region' ∧ header = header' := by
  obtain ⟨headerLen, hheader, -, hlength, htail, hslice⟩ := h.parts
  obtain ⟨headerLen', hheader', -, hlength', htail', hslice'⟩ := h'.parts
  obtain rfl := toLeBytes_injective (htail.symm.trans htail')
  have hsame : header = header' := hslice.symm.trans hslice'
  subst hsame
  obtain ⟨_, hbytes, -⟩ := h
  obtain ⟨_, hbytes', -⟩ := h'
  rw [hbytes, List.append_assoc, List.append_assoc] at hbytes'
  exact ⟨(List.append_inj hbytes' (by omega)).1, rfl⟩

lemma openHeader_of_closed (hserves : Serves be hex bytes) (hid : parseId hex = some id)
    (hsize : bytes.length < 2 ^ 32 + lengthLen) {region header : Bytes}
    (hclosed : Closed bytes region header) :
    ∃ tail, bytes = region ++ header ++ tail ∧
      openHeader crypto be hex bytes.length = match decrypt crypto header with
        | .ok plaintext => .ok ⟨id, tail, header, plaintext⟩
        | .error why => .error (.unreadableHeader s!"pack {short hex}: {why}") := by
  obtain ⟨headerLen, hheader, hle, hlength, htail, hslice⟩ := hclosed.parts
  obtain ⟨_, hbytes, hheader', -⟩ := hclosed
  obtain rfl := UInt32.toNat_inj.mp (hheader.symm.trans hheader')
  refine ⟨toLeBytes headerLen, hbytes, ?_⟩
  have htailRead := readRange_of_serves hserves hid
    (by omega : bytes.length - lengthLen + lengthLen ≤ bytes.length) (by omega)
  rw [htail, show (toLeBytes headerLen).take lengthLen = toLeBytes headerLen from rfl] at htailRead
  have hheaderRead := readRange_of_serves hserves hid
    (by omega : bytes.length - lengthLen - headerLen.toNat + headerLen.toNat ≤ bytes.length)
    (by omega)
  have hfits : headerLengthFits bytes.length (short hex) (toLeBytes headerLen) =
      .ok headerLen.toNat := headerLengthFits_eq_ok_iff.mpr ⟨rfl, hle, by omega⟩
  unfold openHeader headerDecrypts
  rw [hid]
  dsimp only
  rw [if_neg (by omega), htailRead]
  dsimp only [bind, Except.bind]
  rw [hfits]
  dsimp only [Except.mapError]
  rw [hheaderRead, hslice]
  dsimp only
  cases decrypt crypto header <;> rfl

lemma openHeader_of_not_closed (hserves : Serves be hex bytes) (hid : parseId hex = some id)
    (hsize : bytes.length < 2 ^ 32 + lengthLen)
    (hclosed : ∀ region header, ¬ Closed bytes region header) :
    ∃ why, openHeader crypto be hex bytes.length = .error (.unreadableHeader why) := by
  unfold openHeader
  rw [hid]
  dsimp only
  split
  next => exact ⟨_, rfl⟩
  next hlong =>
    obtain ⟨front, headerLen, hbytes⟩ := exists_tail (by omega : lengthLen ≤ bytes.length)
    have hlength : bytes.length = front.length + lengthLen := by
      rw [hbytes, List.length_append, length_toLeBytes]
      rfl
    have htail : (bytes.drop (bytes.length - lengthLen)).take lengthLen = toLeBytes headerLen := by
      rw [hlength, Nat.add_sub_cancel, hbytes, List.drop_left]
      rfl
    rw [readRange_of_serves hserves hid
      (by omega : bytes.length - lengthLen + lengthLen ≤ bytes.length) (by omega), htail]
    cases hfits : headerLengthFits bytes.length (short hex) (toLeBytes headerLen) with
    | error why =>
      refine ⟨why, ?_⟩
      dsimp only [bind, Except.bind]
      rw [hfits]
      rfl
    | ok n =>
      obtain ⟨rfl, hle, hfit⟩ := headerLengthFits_eq_ok_iff.mp hfits
      exact absurd (closed_of_fits hbytes hle hfit) (hclosed _ _)

lemma openHeader_of_no_id (hid : parseId hex = none) :
    NotUnreadable (openHeader crypto be hex bytes.length) ∧
      ∀ opened, openHeader crypto be hex bytes.length ≠ .ok opened := by
  unfold openHeader
  rw [hid]
  exact ⟨nofun, nofun⟩

lemma openHeader_of_large (hid : parseId hex = some id)
    (hsize : 2 ^ 32 + lengthLen ≤ bytes.length) :
    NotUnreadable (openHeader crypto be hex bytes.length) ∧
      ∀ opened, openHeader crypto be hex bytes.length ≠ .ok opened := by
  have hlarge : 2 ^ 32 ≤ bytes.length - lengthLen := by omega
  unfold openHeader readRange
  rw [hid]
  dsimp only
  rw [if_neg (by unfold compOverhead; omega), if_pos hlarge]
  exact ⟨nofun, nofun⟩

/-- A header is opened exactly if the name is an id's, 32 bits reach the end of the file, and the
header closes the file and decrypts. -/
theorem openHeader_eq_ok_iff (hserves : Serves be hex bytes) {opened : OpenedHeader} :
    openHeader crypto be hex bytes.length = .ok opened ↔ parseId hex = some opened.id ∧
      bytes.length < 2 ^ 32 + lengthLen ∧ ∃ region, Closed bytes region opened.header ∧
        bytes = region ++ opened.header ++ opened.tail ∧
          decrypt crypto opened.header = .ok opened.plaintext := by
  cases hid : parseId hex with
  | none => exact iff_of_false ((openHeader_of_no_id hid).2 opened) (by simp)
  | some id =>
    rcases Nat.lt_or_ge bytes.length (2 ^ 32 + lengthLen) with hsize | hsize
    · by_cases hclosed : ∃ region header, Closed bytes region header
      · obtain ⟨region, header, hclosed⟩ := hclosed
        obtain ⟨tail, hbytes, hopen⟩ := @openHeader_of_closed crypto _ _ _ _ hserves hid hsize _ _ hclosed
        rw [hopen]
        constructor
        · intro h
          split at h
          next plaintext hplaintext =>
            cases h
            exact ⟨rfl, hsize, region, hclosed, hbytes, hplaintext⟩
          next => cases h
        · rintro ⟨hid', -, region', hclosed', hbytes', hdecrypt⟩
          obtain ⟨rfl, rfl⟩ := hclosed.unique hclosed'
          rw [hbytes] at hbytes'
          obtain rfl := List.append_cancel_left hbytes'
          rw [hdecrypt]
          obtain rfl := Option.some.inj hid'
          rfl
      · refine iff_of_false ?_ ?_
        · obtain ⟨why, hwhy⟩ := @openHeader_of_not_closed crypto _ _ _ _ hserves hid hsize
            fun region header h => hclosed ⟨region, header, h⟩
          rw [hwhy]
          nofun
        · rintro ⟨-, -, region, h, -⟩
          exact hclosed ⟨region, _, h⟩
    · exact iff_of_false ((openHeader_of_large hid hsize).2 opened) (by omega)

/-- A header is unreadable exactly if the name is an id's, 32 bits reach the end of the file, and the
file cannot be read as a pack. -/
theorem openHeader_unreadable_iff (hserves : Serves be hex bytes) :
    (∃ why, openHeader crypto be hex bytes.length = .error (.unreadableHeader why)) ↔
      (parseId hex).isSome = true ∧ bytes.length < 2 ^ 32 + lengthLen ∧ ¬ Readable crypto bytes := by
  cases hid : parseId hex with
  | none =>
    refine iff_of_false ?_ (by simp)
    rintro ⟨why, hwhy⟩
    exact (openHeader_of_no_id hid).1 why hwhy
  | some id =>
    rcases Nat.lt_or_ge bytes.length (2 ^ 32 + lengthLen) with hsize | hsize
    · simp only [Option.isSome_some, hsize, true_and]
      by_cases hclosed : ∃ region header, Closed bytes region header
      · obtain ⟨region, header, hclosed⟩ := hclosed
        obtain ⟨tail, hbytes, hopen⟩ := @openHeader_of_closed crypto _ _ _ _ hserves hid hsize _ _ hclosed
        rw [hopen]
        cases hdecrypt : decrypt crypto header with
        | error why =>
          refine iff_of_true ⟨_, rfl⟩ ?_
          rintro ⟨region', header', plaintext, hclosed', hdecrypt'⟩
          obtain ⟨-, rfl⟩ := hclosed.unique hclosed'
          cases hdecrypt.symm.trans hdecrypt'
        | ok plaintext =>
          refine iff_of_false nofun ?_
          exact not_not.mpr ⟨region, header, plaintext, hclosed, hdecrypt⟩
      · refine iff_of_true (openHeader_of_not_closed hserves hid hsize
          fun region header h => hclosed ⟨region, header, h⟩) ?_
        rintro ⟨region, header, -, h, -⟩
        exact hclosed ⟨region, header, h⟩
    · refine iff_of_false ?_ (by omega)
      rintro ⟨why, hwhy⟩
      exact (openHeader_of_large hid hsize).1 why hwhy

theorem probeHeaderBytes_cases :
    probeHeaderBytes crypto hex bytes = .ok () ∧ Readable crypto bytes ∨
      (∃ why, probeHeaderBytes crypto hex bytes = .error (.unreadableHeader why)) ∧
        ¬ Readable crypto bytes := by
  unfold probeHeaderBytes
  dsimp only
  split
  next hshort =>
    refine Or.inr ⟨⟨_, rfl⟩, ?_⟩
    rintro ⟨region, header, -, hclosed, -⟩
    obtain ⟨headerLen, hheader, hle, hlength, -⟩ := hclosed.parts
    omega
  next hlong =>
    obtain ⟨front, headerLen, hbytes⟩ := exists_tail (by omega : lengthLen ≤ bytes.length)
    have hlength : bytes.length = front.length + lengthLen := by
      rw [hbytes, List.length_append, length_toLeBytes]
      rfl
    have htail : bytes.drop (bytes.length - lengthLen) = toLeBytes headerLen := by
      rw [hlength, Nat.add_sub_cancel, hbytes, List.drop_left]
    rw [htail]
    cases hfits : headerLengthFits bytes.length (short hex) (toLeBytes headerLen) with
    | error why =>
      refine Or.inr ⟨⟨why, rfl⟩, ?_⟩
      rintro ⟨region, header, -, hclosed, -⟩
      obtain ⟨headerLen', hheader, hle, hlength', htail', -⟩ := hclosed.parts
      obtain rfl := toLeBytes_injective (htail.symm.trans htail')
      have hok := (@headerLengthFits_eq_ok_iff bytes.length _ (short hex) _).mpr
        ⟨rfl, hle, (by omega : headerLen.toNat + lengthLen ≤ bytes.length)⟩
      cases hfits.symm.trans hok
    | ok n =>
      obtain ⟨rfl, hle, hfit⟩ := headerLengthFits_eq_ok_iff.mp hfits
      have hclosed := closed_of_fits hbytes hle hfit
      obtain ⟨headerLen', hheader', -, -, htail', hslice⟩ := hclosed.parts
      obtain rfl := toLeBytes_injective (htail.symm.trans htail')
      dsimp only [Except.mapError, bind, Except.bind]
      rw [hslice]
      unfold headerDecrypts
      cases hdecrypt : decrypt crypto (front.drop (front.length - headerLen.toNat)) with
      | ok plaintext => exact Or.inl ⟨rfl, _, _, plaintext, hclosed, hdecrypt⟩
      | error why =>
        refine Or.inr ⟨⟨_, rfl⟩, ?_⟩
        rintro ⟨region, header, plaintext, hclosed', hdecrypt'⟩
        obtain ⟨-, rfl⟩ := hclosed.unique hclosed'
        cases hdecrypt.symm.trans hdecrypt'

end Reads

section Blobs
variable {crypto : Crypto} {be : Backend} {hex : List Char} {bytes : Bytes} {id : Id}

lemma fillBuffer_of_serves (hserves : Serves be hex bytes) (hid : parseId hex = some id)
    {length rounds : ℕ} {region : Region} (hrounds : length - region.buffer.length ≤ rounds)
    (hfit : region.next + (length - region.buffer.length) ≤ bytes.length)
    (hsize : region.next + (length - region.buffer.length) ≤ 2 ^ 32) :
    fillBuffer be id length rounds region =
      .ok ⟨region.hashed ++ (bytes.drop region.next).take (length - region.buffer.length),
        region.next + (length - region.buffer.length),
        region.buffer ++ (bytes.drop region.next).take (length - region.buffer.length)⟩ := by
  induction rounds generalizing region with
  | zero =>
    rw [Nat.le_zero.mp hrounds]
    simp [fillBuffer]
  | succ rounds ih =>
    rw [fillBuffer]
    by_cases hless : region.buffer.length < length
    · rw [if_pos hless]
      have hwant : 0 < min verifyChunk (length - region.buffer.length) :=
        lt_min (by decide) (by omega)
      have hle := Nat.min_le_right verifyChunk (length - region.buffer.length)
      generalize min verifyChunk (length - region.buffer.length) = want at hwant hle
      have hread := readRange_of_serves hserves hid
        (by omega : region.next + want ≤ bytes.length) (by omega)
      have hchunk : ((bytes.drop region.next).take want).length = want := by
        rw [List.length_take, List.length_drop]
        omega
      obtain ⟨rest, hrest⟩ : ∃ rest, length - region.buffer.length = want + rest :=
        ⟨length - region.buffer.length - want, by omega⟩
      have hleft : length - (region.buffer.length + want) = rest := by omega
      dsimp only
      rw [hread]
      dsimp only [bind, Except.bind]
      rw [ih]
      all_goals simp only [List.length_append, hchunk, hleft]
      · rw [hrest, List.take_add, List.drop_drop, List.append_assoc, List.append_assoc,
          Nat.add_assoc]
      all_goals omega
    · rw [if_neg hless, show length - region.buffer.length = 0 by omega]
      simp

def HeaderEntry.blob (entry : HeaderEntry) (offset : ℕ) : Blob :=
  ⟨entry.id, entry.tpe, offset, entry.len.toNat, entry.uncompressed⟩

lemma checkContent_eq_ok_iff {index offset : ℕ} {entry : HeaderEntry} {piece : Bytes} :
    checkContent crypto hex index (entry.blob offset) piece = .ok () ↔ Opens crypto entry piece := by
  unfold checkContent Opens HeaderEntry.blob
  cases decrypt crypto piece with
  | error why => exact iff_of_false (by rintro ⟨⟩) (by rintro ⟨_, _, h, -⟩; cases h)
  | ok plain =>
    simp only [Except.mapError, bind, Except.bind, Except.ok.injEq, exists_and_left,
      exists_eq_left']
    cases entry.uncompressed with
    | none =>
      simp only [exists_eq_left]
      split <;> simp [*]
    | some length =>
      cases crypto.decompress plain with
      | none => exact iff_of_false (by rintro ⟨⟩) (by rintro ⟨_, ⟨h, -⟩, -⟩; cases h)
      | some content =>
        simp only [Option.some.injEq, and_assoc, exists_eq_left']
        by_cases hlength : content.length = length.1.toNat
        · simp only [hlength, ne_eq, not_true_eq_false, if_false, true_and]
          split <;> simp [*]
        · simp [hlength]

/-- A blob's pieces of the file. -/
def Pieces (crypto : Crypto) (entries : List HeaderEntry) (region : Bytes) : Prop :=
  ∃ pieces : List Bytes, pieces.flatten = region ∧
    List.Forall₂ (fun entry piece => piece.length = entry.len.toNat ∧ Opens crypto entry piece)
      entries pieces

lemma Pieces.length_eq {entries : List HeaderEntry} {region : Bytes}
    (h : Pieces crypto entries region) : blobBytes entries = region.length := by
  obtain ⟨pieces, rfl, hpieces⟩ := h
  induction hpieces with
  | nil => rfl
  | cons hpiece _ ih =>
    rw [blobBytes_cons, List.flatten_cons, List.length_append, hpiece.1, ih]

lemma pieces_cons {entry : HeaderEntry} {entries : List HeaderEntry} {region : Bytes}
    (hlength : entry.len.toNat ≤ region.length) : Pieces crypto (entry :: entries) region ↔
      Opens crypto entry (region.take entry.len.toNat) ∧
        Pieces crypto entries (region.drop entry.len.toNat) := by
  constructor
  · rintro ⟨pieces, rfl, hpieces⟩
    obtain ⟨piece, rest, ⟨hpiece, hopens⟩, hrest, rfl⟩ := List.forall₂_cons_left_iff.mp hpieces
    rw [List.flatten_cons, ← hpiece, List.take_left, List.drop_left]
    exact ⟨hopens, rest, rfl, hrest⟩
  · rintro ⟨hopens, rest, hflatten, hrest⟩
    refine ⟨region.take entry.len.toNat :: rest, ?_, .cons ⟨?_, hopens⟩ hrest⟩
    · rw [List.flatten_cons, hflatten, List.take_append_drop]
    · rw [List.length_take, min_eq_left hlength]

theorem checkBlobs_eq_ok_iff (hserves : Serves be hex bytes) (hid : parseId hex = some id)
    {entries : List HeaderEntry} {index offset : ℕ} {hashed : Bytes} {region : Region}
    (hfit : offset + blobBytes entries ≤ bytes.length)
    (hsize : offset + blobBytes entries ≤ 2 ^ 32) :
    checkBlobs crypto be hex id index (blobsAt offset entries) ⟨hashed, offset, []⟩ = .ok region ↔
      region = ⟨hashed ++ (bytes.drop offset).take (blobBytes entries), offset + blobBytes entries,
        []⟩ ∧ Pieces crypto entries ((bytes.drop offset).take (blobBytes entries)) := by
  induction entries generalizing index offset hashed with
  | nil =>
    simp [blobsAt, checkBlobs, blobBytes, Pieces, eq_comm]
  | cons entry entries ih =>
    rw [blobBytes_cons] at hfit hsize ⊢
    have hfill := @fillBuffer_of_serves be hex bytes id hserves hid entry.len.toNat entry.len.toNat
      ⟨hashed, offset, []⟩ (Nat.sub_le _ _) (by simp; omega) (by simp; omega)
    simp only [List.length_nil, Nat.sub_zero, List.nil_append] at hfill
    have hpiece : ((bytes.drop offset).take entry.len.toNat).length = entry.len.toNat := by
      rw [List.length_take, List.length_drop]
      omega
    rw [blobsAt, checkBlobs]
    dsimp only
    rw [hfill]
    dsimp only [bind, Except.bind]
    rw [if_neg (by rw [hpiece]; omega), List.take_of_length_le hpiece.le,
      List.drop_of_length_le hpiece.le]
    have hregion : ((bytes.drop offset).take (entry.len.toNat + blobBytes entries)).length =
        entry.len.toNat + blobBytes entries := by
      rw [List.length_take, List.length_drop]
      omega
    rw [pieces_cons (by omega), List.take_take, min_eq_left (Nat.le_add_right _ _),
      List.drop_take, Nat.add_sub_cancel_left, List.drop_drop]
    have hopens := @checkContent_eq_ok_iff crypto hex index offset entry
      ((bytes.drop offset).take entry.len.toNat)
    unfold HeaderEntry.blob at hopens
    rw [← hopens]
    cases hcontent : checkContent crypto hex index
        ⟨entry.id, entry.tpe, offset, entry.len.toNat, entry.uncompressed⟩
        ((bytes.drop offset).take entry.len.toNat) with
    | error e => exact iff_of_false (by rintro ⟨⟩) (by rintro ⟨-, h, -⟩; cases h)
    | ok found =>
      dsimp only
      rw [ih (by omega) (by omega), List.append_assoc, ← List.drop_drop, ← List.take_add,
        ← Nat.add_assoc]
      simp only [true_and]

lemma sum_length_blobsAt (offset : ℕ) (entries : List HeaderEntry) :
    ((blobsAt offset entries).map Blob.length).sum = blobBytes entries := by
  induction entries generalizing offset with
  | nil => rfl
  | cons entry entries ih => rw [blobsAt, List.map_cons, List.sum_cons, ih, blobBytes_cons]

lemma mapM_indexBlob {offset : ℕ} {entries : List HeaderEntry}
    (hsize : offset + blobBytes entries < 2 ^ 32) :
    (blobsAt offset entries).mapM (indexBlob hex) = .ok (indexBlobs offset entries) := by
  induction entries generalizing offset with
  | nil => rfl
  | cons entry entries ih =>
    rw [blobBytes_cons] at hsize
    have hoffset : tryU32 offset = some (UInt32.ofNat offset) := if_pos (by omega)
    rw [blobsAt, List.mapM_cons, ih (by omega), indexBlob, hoffset, tryU32_eq_some_iff.mpr rfl]
    rfl

/-- What a closed file's accounting says: the header's entries fill it, their blobs the rest. -/
lemma verifyOpened_eq_ok_iff (hserves : Serves be hex bytes) (hid : parseId hex = some id)
    {region header tail plaintext : Bytes} (hclosed : Closed bytes region header)
    (hbytes : bytes = region ++ header ++ tail) (hsize : bytes.length < 2 ^ 32 + lengthLen)
    {index : IndexPack} :
    verifyOpened crypto be hex bytes.length ⟨id, tail, header, plaintext⟩ = .ok index ↔
      hexDigest (crypto.sha256 bytes).bytes = hex ∧ bytes.length < 2 ^ 32 ∧
        ∃ entries, plaintext = writeEntries entries ∧
          header.length = plaintext.length + compOverhead ∧ Pieces crypto entries region ∧
            index = ⟨id, indexBlobs 0 entries, some (UInt32.ofNat bytes.length)⟩ := by
  obtain ⟨headerLen, hheader, hle, hlength, -⟩ := hclosed.parts
  unfold verifyOpened
  dsimp only
  cases hparse : parseHeader plaintext with
  | none =>
    refine iff_of_false nofun ?_
    rintro ⟨-, -, entries, rfl, -, hpieces, -⟩
    have hsome := parseHeader_eq_some_iff.mpr
      ⟨entries, rfl, rfl, rfl, (by rw [hpieces.length_eq]; omega : blobBytes entries < 2 ^ 64)⟩
    cases hparse.symm.trans hsome
  | some parsed =>
    obtain ⟨blobs, headerBytes⟩ := parsed
    obtain ⟨entries, rfl, rfl, rfl, hsum⟩ := parseHeader_eq_some_iff.mp hparse
    have hentries : ∀ (p : List HeaderEntry → Prop),
        (∃ entries', writeEntries entries = writeEntries entries' ∧ p entries') ↔ p entries :=
      fun p => ⟨fun ⟨entries', h, hp⟩ => writeEntries_injective h ▸ hp, fun hp => ⟨entries, rfl, hp⟩⟩
    rw [hentries]
    dsimp only
    rw [sum_length_blobsAt]
    split
    next hfill => exact iff_of_false nofun (by rintro ⟨-, -, h, -⟩; exact hfill h.symm)
    next hfill =>
      rw [not_not] at hfill
      split
      next htile =>
        refine iff_of_false nofun ?_
        rintro ⟨-, -, -, hpieces, -⟩
        exact htile (by rw [hpieces.length_eq]; omega)
      next htile =>
        rw [not_not] at htile
        have hregion : region.length = blobBytes entries := by omega
        have hfront : (bytes.drop 0).take (blobBytes entries) = region := by
          rw [List.drop_zero, hbytes, ← hregion, List.append_assoc, List.take_left]
        have hblobs := fun read => @checkBlobs_eq_ok_iff crypto be hex bytes id hserves hid entries 0
          0 [] read (by omega) (by omega)
        simp only [Nat.zero_add, hfront, List.nil_append] at hblobs
        rw [bind_eq_ok]
        simp only [hblobs, and_assoc, exists_eq_left, ← hbytes, hfill, true_and]
        by_cases hname : hexDigest (crypto.sha256 bytes).bytes = hex
        · rw [if_neg (not_not.mpr hname), mapM_indexBlob (by omega)]
          dsimp only [bind, Except.bind]
          by_cases hsmall : bytes.length < 2 ^ 32
          · rw [show tryU32 bytes.length = some (UInt32.ofNat bytes.length) from if_pos hsmall]
            simp only [hname, hsmall, true_and, Except.ok.injEq, @eq_comm _ index]
          · rw [show tryU32 bytes.length = none from if_neg hsmall]
            exact iff_of_false nofun fun h => hsmall h.2.1
        · rw [if_pos hname]
          exact iff_of_false nofun fun h => hname h.1

end Blobs

section Verify
variable {crypto : Crypto} {be : Backend} {hex : List Char} {bytes : Bytes} {id : Id}

def packIndex (crypto : Crypto) (bytes : Bytes) (entries : List HeaderEntry) : IndexPack :=
  ⟨crypto.sha256 bytes, indexBlobs 0 entries, some (UInt32.ofNat bytes.length)⟩

/-- A pack verifies exactly if it is well formed and 32 bits hold its size, and then to the entries
of its header. -/
theorem verifyPack_eq_ok_iff (hserves : Serves be hex bytes) {index : IndexPack} :
    verifyPack crypto be hex bytes.length = .ok index ↔ bytes.length < 2 ^ 32 ∧
      ∃ entries, WellFormed crypto hex bytes entries ∧ index = packIndex crypto bytes entries := by
  rw [verifyPack, bind_eq_ok]
  constructor
  · rintro ⟨⟨id, tail, header, plaintext⟩, hopen, hverify⟩
    obtain ⟨hid, hsize, region, hclosed, hbytes, hdecrypt⟩ := (openHeader_eq_ok_iff hserves).mp hopen
    obtain ⟨rfl, hsmall, entries, rfl, hfill, ⟨pieces, rfl, hpieces⟩, rfl⟩ :=
      (verifyOpened_eq_ok_iff hserves hid hclosed hbytes hsize).mp hverify
    rw [parseId_hexDigest] at hid
    obtain rfl := Option.some.inj hid
    exact ⟨hsmall, entries, ⟨rfl, pieces, header, hclosed, hdecrypt, hfill, hpieces⟩, rfl⟩
  · rintro ⟨hsmall, entries, ⟨rfl, pieces, header, hclosed, hdecrypt, hfill, hpieces⟩, rfl⟩
    obtain ⟨headerLen, hbytes, -⟩ := id hclosed
    have hid := parseId_hexDigest (crypto.sha256 bytes)
    have hsize : bytes.length < 2 ^ 32 + lengthLen := Nat.lt_add_right _ hsmall
    exact ⟨⟨crypto.sha256 bytes, toLeBytes headerLen, header, writeEntries entries⟩,
      (openHeader_eq_ok_iff hserves).mpr ⟨hid, hsize, pieces.flatten, hclosed, hbytes, hdecrypt⟩,
      (verifyOpened_eq_ok_iff hserves hid hclosed hbytes hsize).mpr
        ⟨rfl, hsmall, entries, rfl, hfill, ⟨pieces, rfl, hpieces⟩, rfl⟩⟩

lemma notUnreadable_fillBuffer (length rounds : ℕ) (region : Region) :
    NotUnreadable (fillBuffer be id length rounds region) := by
  induction rounds generalizing region with
  | zero => exact notUnreadable_ok _
  | succ rounds ih =>
    rw [fillBuffer]
    split
    · exact (notUnreadable_readRange _ _).bind fun chunk => ih _
    · exact notUnreadable_ok _

lemma notUnreadable_checkContent (index : ℕ) (blob : Blob) (ciphertext : Bytes) :
    NotUnreadable (checkContent crypto hex index blob ciphertext) := by
  unfold checkContent
  dsimp only
  refine notUnreadable_mapError.bind fun plain => ?_
  split
  · exact (notUnreadable_ok plain).bind fun _ => notUnreadable_ite
  · split
    · exact (notUnreadable_unusable _).bind fun _ => notUnreadable_ite
    · split
      · exact (notUnreadable_unusable _).bind fun _ => notUnreadable_ite
      · exact (notUnreadable_ok _).bind fun _ => notUnreadable_ite

lemma notUnreadable_checkBlobs (index : ℕ) (blobs : List Blob) (region : Region) :
    NotUnreadable (checkBlobs crypto be hex id index blobs region) := by
  induction blobs generalizing index region with
  | nil => exact notUnreadable_ok _
  | cons blob blobs ih =>
    rw [checkBlobs]
    refine (notUnreadable_fillBuffer _ _ _).bind fun filled => ?_
    dsimp only
    split
    · exact notUnreadable_unusable _
    · exact (notUnreadable_checkContent _ _ _).bind fun _ => ih _ _

lemma notUnreadable_mapM_indexBlob (blobs : List Blob) :
    NotUnreadable (blobs.mapM (indexBlob hex)) := by
  induction blobs with
  | nil => exact notUnreadable_ok _
  | cons blob blobs ih =>
    rw [List.mapM_cons]
    refine NotUnreadable.bind ?_ fun entry => ih.bind fun rest => notUnreadable_ok _
    unfold indexBlob
    split
    · exact notUnreadable_unusable _
    · exact notUnreadable_unusable _
    · exact notUnreadable_ok _

lemma notUnreadable_verifyOpened (listed : ℕ) (opened : OpenedHeader) :
    NotUnreadable (verifyOpened crypto be hex listed opened) := by
  unfold verifyOpened
  dsimp only
  split
  · exact notUnreadable_unusable _
  · split
    · exact notUnreadable_unusable _
    · split
      · exact notUnreadable_unusable _
      · refine (notUnreadable_checkBlobs _ _ _).bind fun region => ?_
        split
        · exact notUnreadable_unusable _
        · refine (notUnreadable_mapM_indexBlob _).bind fun blobs => ?_
          split
          · exact notUnreadable_unusable _
          · exact notUnreadable_ok _

/-- The verifier and the probe of a stored pack give the same answer where either says that the header
is unreadable. -/
theorem verifyPack_unreadable_iff {listed : ℕ} {why : String} :
    verifyPack crypto be hex listed = .error (.unreadableHeader why) ↔
      probeHeader crypto be hex listed = .error (.unreadableHeader why) := by
  unfold verifyPack probeHeader
  cases openHeader crypto be hex listed with
  | error e => exact Iff.rfl.trans (by simp [bind, Except.bind, Except.map])
  | ok opened =>
    exact iff_of_false (notUnreadable_verifyOpened listed opened why) nofun

end Verify

end ChatStasher.Pack
