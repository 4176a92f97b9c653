import ChatStasher.Push.PackSpec

/-! What is laid out as a pack verifies, and every reader classes a pack alike. -/
namespace ChatStasher.Pack

section Layout
variable (crypto : Crypto)

abbrev Nonce := { nonce : Bytes // nonce.length = 16 }

def encryptData (nonce : Nonce) (data : Bytes) : Bytes := nonce.1 ++ crypto.encryptAead nonce.1 data

/-- Blobs, header, length: the header's entries with the stored bytes of their blobs. -/
def layPack (nonce : Nonce) (blobs : List (HeaderEntry × Bytes)) : Bytes :=
  let header := encryptData crypto nonce (writeEntries (blobs.map Prod.fst))
  (blobs.map Prod.snd).flatten ++ header ++ toLeBytes (UInt32.ofNat header.length)

/-- A pack file that is being written, of blobs of one type. -/
structure RawPacker where
  blobType : BlobType
  file : Bytes
  size : UInt32
  blobs : List IndexBlob

/-- Add a blob's stored bytes unless the pack has the blob. -/
def RawPacker.addRaw (packer : RawPacker) (data : Bytes) (id : Id)
    (uncompressed : Option NonZeroU32) : Option RawPacker :=
  if packer.blobs.any fun b => b.id = id then some packer
  else do
    let len ← tryU32 data.length
    some { packer with
      file := packer.file ++ data
      size := packer.size + len
      blobs := packer.blobs ++ [⟨id, packer.blobType, ⟨packer.size, len, uncompressed⟩⟩] }

/-- The file with the header and its length. -/
def RawPacker.writeHeader (packer : RawPacker) (nonce : Nonce) : Option Bytes := do
  let data := encryptData crypto nonce (writeEntries (packer.blobs.map HeaderEntry.fromBlob))
  let headerlen ← tryU32 data.length
  some (packer.file ++ data ++ toLeBytes headerlen)

/-- `process_data`: compressed if that is asked for, and encrypted. -/
def processData (zstd : Bool) (nonce : Nonce) (data : Bytes) : Option (Bytes × Option NonZeroU32) := do
  let dataLen ← tryU32 data.length
  some (if zstd then (encryptData crypto nonce (crypto.compress data), newNonZero dataLen)
    else (encryptData crypto nonce data, none))

def RawPacker.add (zstd : Bool) (packer : RawPacker) (blob : Nonce × Bytes) : Option RawPacker := do
  let (data, uncompressed) ← processData crypto zstd blob.1 blob.2
  packer.addRaw data (crypto.sha256 blob.2) uncompressed

/-- The pack of some contents, and what the packer's index says it holds. -/
def writePack (zstd : Bool) (blobType : BlobType) (contents : List (Nonce × Bytes)) (nonce : Nonce) :
    Option (Bytes × List IndexBlob) := do
  let packer ← contents.foldlM (RawPacker.add crypto zstd) ⟨blobType, [], 0, []⟩
  let file ← packer.writeHeader crypto nonce
  some (file, packer.blobs)

variable {crypto}

lemma decrypt_encryptData (nonce : Nonce) (data : Bytes) :
    decrypt crypto (encryptData crypto nonce data) = .ok data := by
  obtain ⟨nonce, hnonce⟩ := nonce
  unfold decrypt encryptData
  rw [if_neg (by rw [List.length_append, hnonce]; omega)]
  dsimp only
  rw [← hnonce, List.take_left, List.drop_left, crypto.decrypt_encrypt]

lemma length_encryptData (nonce : Nonce) (data : Bytes) :
    (encryptData crypto nonce data).length = data.length + compOverhead := by
  rw [encryptData, List.length_append, crypto.length_encrypt, nonce.2, compOverhead]
  omega

lemma length_layPack (nonce : Nonce) (blobs : List (HeaderEntry × Bytes)) :
    (layPack crypto nonce blobs).length = (blobs.map Prod.snd).flatten.length +
      ((writeEntries (blobs.map Prod.fst)).length + compOverhead) + 4 := by
  rw [layPack, List.length_append, List.length_append, length_encryptData, length_toLeBytes]

theorem wellFormed_layPack {nonce : Nonce} {blobs : List (HeaderEntry × Bytes)}
    (hblobs : ∀ blob ∈ blobs, blob.2.length = blob.1.len.toNat ∧ Opens crypto blob.1 blob.2)
    (hheader : (writeEntries (blobs.map Prod.fst)).length + compOverhead < 2 ^ 32) :
    WellFormed crypto (hexDigest (crypto.sha256 (layPack crypto nonce blobs)).bytes)
      (layPack crypto nonce blobs) (blobs.map Prod.fst) := by
  refine ⟨rfl, blobs.map Prod.snd, encryptData crypto nonce (writeEntries (blobs.map Prod.fst)),
    ⟨_, rfl, ?_, ?_⟩, decrypt_encryptData _ _, length_encryptData _ _, ?_⟩
  · rw [length_encryptData, UInt32.toNat_ofNat', Nat.mod_eq_of_lt hheader]
  · rw [length_encryptData]
    omega
  · rw [List.forall₂_map_left_iff, List.forall₂_map_right_iff, List.forall₂_same]
    exact hblobs

@[simp] lemma id_fromBlob (blob : IndexBlob) : (HeaderEntry.fromBlob blob).id = blob.id := by
  unfold HeaderEntry.fromBlob
  split <;> rfl

@[simp] lemma tpe_fromBlob (blob : IndexBlob) : (HeaderEntry.fromBlob blob).tpe = blob.tpe := by
  unfold HeaderEntry.fromBlob
  split <;> simp [HeaderEntry.tpe, *]

@[simp] lemma len_fromBlob (blob : IndexBlob) :
    (HeaderEntry.fromBlob blob).len = blob.location.length := by
  unfold HeaderEntry.fromBlob
  split <;> rfl

@[simp] lemma uncompressed_fromBlob (blob : IndexBlob) :
    (HeaderEntry.fromBlob blob).uncompressed = blob.location.uncompressedLength := by
  have hnew : ∀ n : NonZeroU32, newNonZero n.1 = some n := fun n => dif_neg n.2
  unfold HeaderEntry.fromBlob
  split <;> simp [HeaderEntry.uncompressed, *]

lemma indexBlobs_concat (offset : ℕ) (entries : List HeaderEntry) (entry : HeaderEntry) :
    indexBlobs offset (entries ++ [entry]) = indexBlobs offset entries ++ [⟨entry.id, entry.tpe,
      ⟨UInt32.ofNat (offset + blobBytes entries), entry.len, entry.uncompressed⟩⟩] := by
  induction entries generalizing offset with
  | nil => simp [indexBlobs, blobBytes]
  | cons first entries ih =>
    rw [List.cons_append, indexBlobs, indexBlobs, ih, blobBytes_cons, Nat.add_assoc,
      List.cons_append]

/-- What a packer has written so far are the blobs of its index, each openable. -/
structure RawPacker.Holds (crypto : Crypto) (packer : RawPacker) : Prop where
  pieces : Pieces crypto (packer.blobs.map HeaderEntry.fromBlob) packer.file
  index : packer.blobs = indexBlobs 0 (packer.blobs.map HeaderEntry.fromBlob)
  size : packer.size = UInt32.ofNat packer.file.length

lemma Pieces.concat {entries : List HeaderEntry} {entry : HeaderEntry} {region piece : Bytes}
    (h : Pieces crypto entries region) (hlength : piece.length = entry.len.toNat)
    (hopens : Opens crypto entry piece) : Pieces crypto (entries ++ [entry]) (region ++ piece) := by
  obtain ⟨pieces, rfl, hpieces⟩ := h
  refine ⟨pieces ++ [piece], by simp, ?_⟩
  exact List.rel_append hpieces (.cons ⟨hlength, hopens⟩ .nil)

lemma opens_processData {zstd : Bool} {nonce : Nonce} {content data : Bytes}
    {uncompressed : Option NonZeroU32} (hcontent : zstd = true → content ≠ [])
    (h : processData crypto zstd nonce content = some (data, uncompressed)) {entry : HeaderEntry}
    (hid : entry.id = crypto.sha256 content) (huncompressed : entry.uncompressed = uncompressed) :
    Opens crypto entry data := by
  obtain ⟨dataLen, hlen, h⟩ := Option.bind_eq_some_iff.mp h
  rw [tryU32_eq_some_iff] at hlen
  cases zstd with
  | false =>
    cases h
    exact ⟨content, content, decrypt_encryptData _ _, by rw [huncompressed], hid.symm⟩
  | true =>
    cases h
    have hpos := List.length_pos_iff.mpr (hcontent rfl)
    have hne : dataLen ≠ 0 := by
      rintro rfl
      rw [hlen] at hpos
      exact absurd hpos (by decide)
    refine ⟨crypto.compress content, content, decrypt_encryptData _ _, ?_, hid.symm⟩
    rw [huncompressed, newNonZero, dif_neg hne]
    exact ⟨crypto.decompress_compress content, hlen⟩

lemma RawPacker.Holds.add {zstd : Bool} {packer packer' : RawPacker} {blob : Nonce × Bytes}
    (h : packer.Holds crypto) (hcontent : zstd = true → blob.2 ≠ [])
    (hadd : RawPacker.add crypto zstd packer blob = some packer') : packer'.Holds crypto := by
  obtain ⟨⟨data, uncompressed⟩, hdata, hadd⟩ := Option.bind_eq_some_iff.mp hadd
  dsimp only [RawPacker.addRaw] at hadd
  split at hadd
  next =>
    cases hadd
    exact h
  next =>
    obtain ⟨len, hlen, hadd⟩ := Option.bind_eq_some_iff.mp hadd
    rw [tryU32_eq_some_iff] at hlen
    cases hadd
    have hbytes := h.pieces.length_eq
    refine ⟨?_, ?_, ?_⟩
    · rw [List.map_append, List.map_singleton]
      exact h.pieces.concat (by simpa using hlen) (opens_processData hcontent hdata (by simp) (by simp))
    · dsimp only
      rw [List.map_append, List.map_singleton, indexBlobs_concat, ← h.index, hbytes, Nat.zero_add,
        ← h.size]
      simp
    · dsimp only
      rw [List.length_append, UInt32.ofNat_add, ← h.size, hlen, UInt32.ofNat_toNat]

/-- A pack that was written verifies, under the name of its hash, to the index of its packer. -/
theorem verifyPack_writePack {zstd : Bool} {blobType : BlobType} {contents : List (Nonce × Bytes)}
    {nonce : Nonce} {file : Bytes} {blobs : List IndexBlob} {be : Backend}
    (hcontents : zstd = true → ∀ content ∈ contents, content.2 ≠ [])
    (hwrite : writePack crypto zstd blobType contents nonce = some (file, blobs))
    (hsize : file.length < 2 ^ 32)
    (hserves : Serves be (hexDigest (crypto.sha256 file).bytes) file) :
    verifyPack crypto be (hexDigest (crypto.sha256 file).bytes) file.length =
      .ok ⟨crypto.sha256 file, blobs, some (UInt32.ofNat file.length)⟩ := by
  obtain ⟨packer, hpacker, hwrite⟩ := Option.bind_eq_some_iff.mp hwrite
  obtain ⟨file', hheader, hwrite⟩ := Option.bind_eq_some_iff.mp hwrite
  cases hwrite
  have hrun : ∀ (contents : List (Nonce × Bytes)) (start : RawPacker), start.Holds crypto →
      (zstd = true → ∀ content ∈ contents, content.2 ≠ []) →
        contents.foldlM (RawPacker.add crypto zstd) start = some packer → packer.Holds crypto := by
    intro contents
    induction contents with
    | nil =>
      rintro start hstart - hrun
      cases hrun
      exact hstart
    | cons content contents ih =>
      intro start hstart hcontents hrun
      rw [List.foldlM_cons] at hrun
      obtain ⟨next, hnext, hrun⟩ := Option.bind_eq_some_iff.mp hrun
      exact ih next (hstart.add (fun h => hcontents h content List.mem_cons_self) hnext)
        (fun h later hlater => hcontents h later (List.mem_cons_of_mem _ hlater)) hrun
  have hholds := hrun contents ⟨blobType, [], 0, []⟩ ⟨⟨[], rfl, .nil⟩, rfl, rfl⟩ hcontents hpacker
  obtain ⟨headerlen, hlen, hheader⟩ := Option.bind_eq_some_iff.mp hheader
  rw [tryU32_eq_some_iff] at hlen
  cases hheader
  obtain ⟨pieces, hflatten, hpieces⟩ := hholds.pieces
  refine (verifyPack_eq_ok_iff hserves).mpr ⟨hsize, packer.blobs.map HeaderEntry.fromBlob,
    ⟨rfl, pieces, _, ⟨headerlen, by rw [hflatten], hlen, ?_⟩, decrypt_encryptData _ _,
      length_encryptData _ _, hpieces⟩, ?_⟩
  · rw [length_encryptData]
    omega
  · rw [packIndex, ← hholds.index]

end Layout

section Readers
variable (crypto : Crypto) (be : Backend)

/-- What the adopting open and `prune-orphans` hold about an unindexed pack. -/
def verifiedClass (named : Option Bool) (hex : List Char) (listed : ℕ) : PackClass :=
  classifyPack named ((verifyPack crypto be hex listed).map fun _ => ())

def probedClass (named : Option Bool) (hex : List Char) (listed : ℕ) : PackClass :=
  classifyPack named (probeHeader crypto be hex listed)

/-- What a copy holds about a pack whose bytes are not the content its name declares. -/
def copiedClass (named : Option Bool) (hex : List Char) (bytes : Bytes) : PackClass :=
  classifyPack named (match probeHeaderBytes crypto hex bytes with
    | .ok _ => .error (.unusable
        "its header reads while its bytes are not the content their own name declares")
    | .error failure => .error failure)

/-- Debris, or damage of a pack that an index names. -/
inductive Standing
  | torn
  | damaged
  | other
  deriving DecidableEq

def standing : PackClass → Standing
  | .torn _ => .torn
  | .corrupt _ => .damaged
  | .stranded | .failClosed _ => .other

def isUnreadable {α : Type} : Except PackError α → Bool
  | .error (.unreadableHeader _) => true
  | _ => false

/-- What the readers of a stored pack answer: the verifier accepts what is well formed, whatever is
laid out as a pack among it, and the other readers class a pack as the verifier does. -/
structure VerifiesExactly (hex : List Char) (bytes : Bytes) : Prop where
  accepts : ∀ index, verifyPack crypto be hex bytes.length = .ok index ↔ bytes.length < 2 ^ 32 ∧
    ∃ entries, WellFormed crypto hex bytes entries ∧ index = packIndex crypto bytes entries
  laid : ∀ nonce blobs,
    (∀ blob ∈ blobs, blob.2.length = blob.1.len.toNat ∧ Opens crypto blob.1 blob.2) →
      bytes = layPack crypto nonce blobs → hex = hexDigest (crypto.sha256 bytes).bytes →
        bytes.length < 2 ^ 32 →
          verifyPack crypto be hex bytes.length = .ok (packIndex crypto bytes (blobs.map Prod.fst))
  probed : isUnreadable (probeHeader crypto be hex bytes.length) =
    isUnreadable (verifyPack crypto be hex bytes.length)
  probedBytes : (parseId hex).isSome = true → bytes.length < 2 ^ 32 →
    isUnreadable (probeHeaderBytes crypto hex bytes) =
      isUnreadable (verifyPack crypto be hex bytes.length)
  torn : ∀ named, standing (probedClass crypto be named hex bytes.length) = .torn ↔
    standing (verifiedClass crypto be named hex bytes.length) = .torn
  copied : (parseId hex).isSome = true → bytes.length < 2 ^ 32 →
    hexDigest (crypto.sha256 bytes).bytes ≠ hex → ∀ named,
      standing (copiedClass crypto named hex bytes) =
        standing (verifiedClass crypto be named hex bytes.length)

variable {crypto be} {hex : List Char} {bytes : Bytes}

lemma isUnreadable_eq_true_iff {α : Type} {x : Except PackError α} :
    isUnreadable x = true ↔ ∃ why, x = .error (.unreadableHeader why) := by
  match x with
  | .ok _ => simp [isUnreadable]
  | .error (.unreadableHeader why) => simp [isUnreadable]
  | .error (.unusable why) => simp [isUnreadable]

lemma isUnreadable_map {α β : Type} (x : Except PackError α) (f : α → β) :
    isUnreadable (x.map f) = isUnreadable x := by
  match x with
  | .ok _ => rfl
  | .error (.unreadableHeader _) => rfl
  | .error (.unusable _) => rfl

lemma standing_eq_torn_iff {named : Option Bool} {check : Except PackError Unit} :
    standing (classifyPack named check) = .torn ↔ named = some false ∧ isUnreadable check = true := by
  match named, check with
  | none, .ok _ => simp [standing, classifyPack]
  | some true, .ok _ => simp [standing, classifyPack]
  | some false, .ok _ => simp [standing, classifyPack, isUnreadable]
  | none, .error (.unreadableHeader _) => simp [standing, classifyPack]
  | none, .error (.unusable _) => simp [standing, classifyPack]
  | some true, .error (.unreadableHeader _) => simp [standing, classifyPack]
  | some true, .error (.unusable _) => simp [standing, classifyPack]
  | some false, .error (.unreadableHeader _) => simp [standing, classifyPack, isUnreadable]
  | some false, .error (.unusable _) => simp [standing, classifyPack, isUnreadable]

lemma standing_congr {named : Option Bool} {failure failure' : PackError}
    (h : isUnreadable (.error failure : Except PackError Unit) =
      isUnreadable (.error failure' : Except PackError Unit)) :
    standing (classifyPack named (.error failure)) = standing (classifyPack named (.error failure')) := by
  match failure, failure' with
  | .unreadableHeader _, .unreadableHeader _ => cases named with
    | none => rfl
    | some named => cases named <;> rfl
  | .unusable _, .unusable _ => cases named with
    | none => rfl
    | some named => cases named <;> rfl

lemma isUnreadable_probeHeader (listed : ℕ) : isUnreadable (probeHeader crypto be hex listed) =
    isUnreadable (verifyPack crypto be hex listed) := by
  rw [Bool.eq_iff_iff, isUnreadable_eq_true_iff, isUnreadable_eq_true_iff]
  exact exists_congr fun why => verifyPack_unreadable_iff.symm

lemma isUnreadable_probeHeaderBytes (hserves : Serves be hex bytes)
    (hid : (parseId hex).isSome = true) (hsize : bytes.length < 2 ^ 32) :
    isUnreadable (probeHeaderBytes crypto hex bytes) =
      isUnreadable (verifyPack crypto be hex bytes.length) := by
  have hopen := @openHeader_unreadable_iff crypto be hex bytes hserves
  rw [← isUnreadable_eq_true_iff, ← isUnreadable_map _ fun _ => ()] at hopen
  rw [← isUnreadable_probeHeader, Bool.eq_iff_iff, probeHeader, hopen, and_iff_right hid,
    and_iff_right (Nat.lt_add_right _ hsize)]
  rcases @probeHeaderBytes_cases crypto hex bytes with ⟨hok, hreadable⟩ | ⟨⟨why, hwhy⟩, hreadable⟩
  · rw [hok]
    exact iff_of_false (by decide) (not_not.mpr hreadable)
  · rw [hwhy]
    exact iff_of_true rfl hreadable

lemma standing_copiedClass (hserves : Serves be hex bytes) (hid : (parseId hex).isSome = true)
    (hsize : bytes.length < 2 ^ 32) (hname : hexDigest (crypto.sha256 bytes).bytes ≠ hex)
    (named : Option Bool) : standing (copiedClass crypto named hex bytes) =
      standing (verifiedClass crypto be named hex bytes.length) := by
  have hsame := @isUnreadable_probeHeaderBytes crypto be hex bytes hserves hid hsize
  unfold copiedClass verifiedClass
  cases hverify : verifyPack crypto be hex bytes.length with
  | ok index =>
    obtain ⟨-, entries, hwell, -⟩ := (verifyPack_eq_ok_iff hserves).mp hverify
    exact absurd hwell.1 hname
  | error failure =>
    rw [hverify] at hsame
    cases hprobe : probeHeaderBytes crypto hex bytes with
    | ok found =>
      rw [hprobe] at hsame
      exact standing_congr (hsame.trans (by cases failure <;> rfl))
    | error failure' =>
      rw [hprobe] at hsame
      exact standing_congr (hsame.trans (by cases failure <;> rfl))

/-- The verifier accepts exactly the well-formed packs that 32 bits can hold, and every reader classes
a pack as the verifier does. -/
theorem verifiesExactly (hserves : Serves be hex bytes) : VerifiesExactly crypto be hex bytes where
  accepts _ := verifyPack_eq_ok_iff hserves
  laid nonce blobs hblobs hbytes hhex hsize := by
    subst hbytes hhex
    have hlength := @length_layPack crypto nonce blobs
    exact (verifyPack_eq_ok_iff hserves).mpr
      ⟨hsize, _, wellFormed_layPack hblobs (by omega), rfl⟩
  probed := isUnreadable_probeHeader _
  probedBytes hid hsize := isUnreadable_probeHeaderBytes hserves hid hsize
  torn named := by
    unfold probedClass verifiedClass
    rw [standing_eq_torn_iff, standing_eq_torn_iff, isUnreadable_map, isUnreadable_probeHeader]
  copied hid hsize hname named := standing_copiedClass hserves hid hsize hname named

/-- A cipher that only appends a tag, a compression that only marks, and the first bytes for a hash. -/
def plainCrypto : Crypto where
  encryptAead _ plaintext := plaintext ++ List.replicate 16 0
  decryptAead _ ciphertext :=
    if ciphertext.drop (ciphertext.length - 16) = List.replicate 16 0 then
      some (ciphertext.take (ciphertext.length - 16))
    else none
  decrypt_encrypt nonce plaintext := by simp
  length_encrypt nonce plaintext := by simp
  compress content := 1 :: content
  decompress
    | 1 :: content => some content
    | _ => none
  decompress_compress content := rfl
  sha256 content := ⟨(content ++ List.replicate 32 0).take 32, by simp⟩

/-- An empty pack under the name of its hash. -/
theorem verifiesExactly_empty_pack : VerifiesExactly plainCrypto
    (fun _ offset length => some ((layPack plainCrypto ⟨List.replicate 16 7, rfl⟩ []).drop offset |>.take
      length))
    (hexDigest (plainCrypto.sha256 (layPack plainCrypto ⟨List.replicate 16 7, rfl⟩ [])).bytes)
    (layPack plainCrypto ⟨List.replicate 16 7, rfl⟩ []) :=
  verifiesExactly fun _ _ _ _ _ => rfl

def oneContent : List (Nonce × Bytes) := [(⟨List.replicate 16 7, rfl⟩, [5])]

theorem verifyPack_writePack_one : ∃ file blobs,
    writePack plainCrypto true .data oneContent ⟨List.replicate 16 7, rfl⟩ = some (file, blobs) ∧
      verifyPack plainCrypto (fun _ offset n => some ((file.drop offset).take n))
        (hexDigest (plainCrypto.sha256 file).bytes) file.length =
          .ok ⟨plainCrypto.sha256 file, blobs, some (UInt32.ofNat file.length)⟩ :=
  ⟨_, _, rfl, @verifyPack_writePack plainCrypto true .data oneContent ⟨List.replicate 16 7, rfl⟩ _ _ _
    (by simp [oneContent]) rfl (by decide +kernel) fun _ _ _ _ _ => rfl⟩

def plainPiece (content : Bytes) : Bytes := encryptData plainCrypto ⟨List.replicate 16 7, rfl⟩ content

lemma opens_plainPiece {entry : HeaderEntry} {content : Bytes}
    (hid : entry.id = plainCrypto.sha256 content) (hnone : entry.uncompressed = none) :
    Opens plainCrypto entry (plainPiece content) :=
  ⟨content, content, decrypt_encryptData _ _, by rw [hnone], hid.symm⟩

/-- A pack that holds a content of `n` zero bytes twice. -/
def doublePack (n : ℕ) : Bytes :=
  let entry := HeaderEntry.data (UInt32.ofNat (n + 32)) (plainCrypto.sha256 (List.replicate n 0))
  layPack plainCrypto ⟨List.replicate 16 7, rfl⟩
    [(entry, plainPiece (List.replicate n 0)), (entry, plainPiece (List.replicate n 0))]

lemma length_plainPiece (n : ℕ) : (plainPiece (List.replicate n 0)).length = n + 32 := by
  rw [plainPiece, length_encryptData, List.length_replicate, compOverhead]

lemma le_length_doublePack (n : ℕ) : 2 * (n + 32) ≤ (doublePack n).length := by
  rw [doublePack, length_layPack]
  simp only [List.map_cons, List.map_nil, List.flatten_cons, List.flatten_nil, List.length_append,
    List.length_nil, length_plainPiece]
  omega

lemma wellFormed_doublePack {n : ℕ} (hn : n + 32 < 2 ^ 32) : ∃ entries, WellFormed plainCrypto
    (hexDigest (plainCrypto.sha256 (doublePack n)).bytes) (doublePack n) entries := by
  have hpiece : (plainPiece (List.replicate n 0)).length = (UInt32.ofNat (n + 32)).toNat := by
    rw [length_plainPiece, UInt32.toNat_ofNat', Nat.mod_eq_of_lt hn]
  refine ⟨_, wellFormed_layPack ?_ ?_⟩
  · simp only [List.forall_mem_cons, List.not_mem_nil, false_implies, implies_true, and_true]
    exact ⟨⟨hpiece, opens_plainPiece rfl rfl⟩, hpiece, opens_plainPiece rfl rfl⟩
  · simp only [List.map_cons, List.map_nil, writeEntries_cons, List.length_append,
      HeaderEntry.length_write]
    exact (by decide : 37 + (37 + 0) + 32 < 2 ^ 32)

/-- A pack whose entry is of a compressed blob and declares no length. -/
def markedPack : Bytes :=
  layPack plainCrypto ⟨List.replicate 16 7, rfl⟩
    [(.compData 33 0 (plainCrypto.sha256 [0]), plainPiece [0])]

/-- Bytes under a name that is no id are unreadable to the probe and not to the verifier; a pack of
2 ^ 32 bytes is well formed and refused; a blob that does not decompress is accepted. -/
theorem verifies_otherwise :
    (isUnreadable (probeHeaderBytes plainCrypto ['x'] []) = true ∧
      isUnreadable (verifyPack plainCrypto (fun _ _ _ => some []) ['x'] 0) = false) ∧
    ((∃ entries, WellFormed plainCrypto
        (hexDigest (plainCrypto.sha256 (doublePack (2 ^ 31 - 32))).bytes)
        (doublePack (2 ^ 31 - 32)) entries) ∧
      ∀ index, verifyPack plainCrypto
        (fun _ offset n => some (((doublePack (2 ^ 31 - 32)).drop offset).take n))
        (hexDigest (plainCrypto.sha256 (doublePack (2 ^ 31 - 32))).bytes)
        (doublePack (2 ^ 31 - 32)).length ≠ .ok index) ∧
    ((∃ index, verifyPack plainCrypto (fun _ offset n => some ((markedPack.drop offset).take n))
        (hexDigest (plainCrypto.sha256 markedPack).bytes) markedPack.length = .ok index) ∧
      decrypt plainCrypto (plainPiece [0]) = .ok [0] ∧ plainCrypto.decompress [0] = none) := by
  refine ⟨⟨rfl, rfl⟩, ⟨wellFormed_doublePack (by decide), ?_⟩, ?_, decrypt_encryptData _ _, rfl⟩
  · intro index hok
    have hsmall := ((verifyPack_eq_ok_iff fun _ _ _ _ _ => rfl).mp hok).1
    exact absurd hsmall (not_lt.mpr (le_length_doublePack (2 ^ 31 - 32)))
  · have hserves : Serves (fun _ offset n => some ((markedPack.drop offset).take n))
        (hexDigest (plainCrypto.sha256 markedPack).bytes) markedPack := fun _ _ _ _ _ => rfl
    refine ⟨_, (verifyPack_eq_ok_iff hserves).mpr ⟨by decide, _, wellFormed_layPack ?_ (by decide), rfl⟩⟩
    simp only [List.forall_mem_cons, List.not_mem_nil, false_implies, implies_true, and_true]
    exact ⟨by decide, opens_plainPiece rfl rfl⟩

end Readers

end ChatStasher.Pack
