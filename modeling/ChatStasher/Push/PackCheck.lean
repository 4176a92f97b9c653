import ChatStasher.Push.Pushes
import ChatStasher.Push.PackLayout

/-! Verifying a pack from its own bytes: the header, every blob it declares, and the name. -/
namespace ChatStasher.Pack

/-- The black boxes under a pack, for one repository key: the AEAD cipher, compression, the hash. -/
structure Crypto where
  encryptAead : (nonce plaintext : Bytes) → Bytes
  decryptAead : (nonce ciphertext : Bytes) → Option Bytes
  decrypt_encrypt : ∀ nonce plaintext, decryptAead nonce (encryptAead nonce plaintext) = some plaintext
  length_encrypt : ∀ nonce plaintext, (encryptAead nonce plaintext).length = plaintext.length + 16
  compress : Bytes → Bytes
  decompress : Bytes → Option Bytes
  decompress_compress : ∀ content, decompress (compress content) = some content
  sha256 : Bytes → Id

abbrev Backend := Id → ℕ → ℕ → Option Bytes

def lengthLen : ℕ := 4

def compOverhead : ℕ := 32

def verifyChunk : ℕ := 8 * 1024 * 1024

/-- `hex.get(..12)`, or the whole name where that is no cut between characters. -/
def takeUtf8 : List Char → ℕ → Option (List Char)
  | _, 0 => some []
  | [], _ + 1 => none
  | c :: cs, n + 1 =>
    if c.utf8Size ≤ n + 1 then (takeUtf8 cs (n + 1 - c.utf8Size)).map (c :: ·) else none

def short (hex : List Char) : String := String.ofList ((takeUtf8 hex 12).getD hex)

def Id.display (id : Id) : String := String.ofList ((hexDigest id.bytes).take 8)

variable (crypto : Crypto) (be : Backend)

def readRange (id : Id) (offset length : ℕ) : Except PackError Bytes :=
  if 2 ^ 32 ≤ offset then
    .error (.unusable s!"pack {id.display} is larger than a pack can be: offset {offset}")
  else
    match be id offset length with
    | none => .error (.unusable s!"pack {id.display} could not be read at {offset}+{length}")
    | some data =>
      if data.length ≠ length then
        .error (.unusable (s!"pack {id.display} ended after {data.length} of the {length} bytes " ++
          s!"its header gives at {offset}"))
      else .ok data

/-- Decrypt one AEAD ciphertext: nonce, ciphertext, tag. -/
def decrypt (data : Bytes) : Except String Bytes :=
  if data.length < 16 then
    .error s!"its ciphertext is {data.length} bytes, shorter than an AEAD nonce"
  else
    match crypto.decryptAead (data.take 16) (data.drop 16) with
    | none => .error "its bytes do not decrypt with this repository's key (MAC check failed)"
    | some plaintext => .ok plaintext

/-- The header's length is that of a header this file can hold. -/
def headerLengthFits (listed : ℕ) (short : String) (tail : Bytes) : Except String ℕ :=
  let headerLen := ((readU32 tail).map fun n => n.1.toNat).getD 0
  if headerLen < compOverhead ∨ listed < headerLen + lengthLen then
    .error (s!"pack {short} declares a {headerLen}-byte header, which does not fit a " ++
      s!"{listed}-byte pack")
  else .ok headerLen

def headerDecrypts (short : String) (header : Bytes) : Except String Bytes :=
  (decrypt crypto header).mapError fun why => s!"pack {short}: {why}"

/-- What is read of a pack before its header is parsed. -/
structure OpenedHeader where
  id : Id
  tail : Bytes
  header : Bytes
  plaintext : Bytes

/-- The reads the verifier and the probe begin with: the name, the length field, the header. -/
def openHeader (hex : List Char) (listed : ℕ) : Except PackError OpenedHeader :=
  match parseId hex with
  | none => .error (.unusable s!"pack {short hex} is not a valid id")
  | some id =>
    if listed < compOverhead + lengthLen then
      .error (.unreadableHeader
        s!"pack {short hex} is {listed} bytes, too short to hold a header")
    else do
      let tail ← readRange be id (listed - lengthLen) lengthLen
      let headerLen ← (headerLengthFits listed (short hex) tail).mapError .unreadableHeader
      let header ← readRange be id (listed - lengthLen - headerLen) headerLen
      let plaintext ← (headerDecrypts crypto (short hex) header).mapError .unreadableHeader
      .ok ⟨id, tail, header, plaintext⟩

/-- What was hashed so far, where the next read starts, and what was read and not yet used. -/
structure Region where
  hashed : Bytes
  next : ℕ
  buffer : Bytes

/-- Read on until the buffer holds a blob. Every round reads, so as many as bytes are enough. -/
def fillBuffer (id : Id) (length : ℕ) : ℕ → Region → Except PackError Region
  | 0, region => .ok region
  | rounds + 1, region =>
    if region.buffer.length < length then do
      let want := min verifyChunk (length - region.buffer.length)
      let chunk ← readRange be id region.next want
      fillBuffer id length rounds
        ⟨region.hashed ++ chunk, region.next + chunk.length, region.buffer ++ chunk⟩
    else .ok region

def checkContent (hex : List Char) (index : ℕ) (blob : Blob) (ciphertext : Bytes) :
    Except PackError Unit := do
  let blobHex := String.ofList (hexDigest blob.id.bytes)
  let bytes ← (decrypt crypto ciphertext).mapError fun why =>
    .unusable s!"pack {short hex}, blob {blobHex}: {why}"
  let bytes ← match blob.uncompressed with
    | none => .ok bytes
    | some length =>
      match crypto.decompress bytes with
      | none =>
        .error (.unusable s!"pack {short hex}, blob {blobHex}: its bytes do not decompress")
      | some bytes =>
        if bytes.length ≠ length.1.toNat then
          .error (.unusable (s!"pack {short hex}, blob {blobHex}: decompresses to " ++
            s!"{bytes.length} bytes, not the {length.1.toNat} its header gives"))
        else .ok bytes
  if crypto.sha256 bytes = blob.id then .ok ()
  else
    .error (.unusable
      s!"pack {short hex}, blob {index}: its plaintext is not the content of {blobHex}")

/-- Every blob the header names, in file order. -/
def checkBlobs (hex : List Char) (id : Id) : ℕ → List Blob → Region → Except PackError Region
  | _, [], region => .ok region
  | index, blob :: blobs, region => do
    let region ← fillBuffer be id blob.length blob.length region
    let start := region.next - region.buffer.length
    if blob.offset ≠ start then
      .error (.unusable (s!"pack {short hex}, blob {index}: its header puts it at " ++
        s!"{blob.offset} of a region that reads at {start}"))
    else do
      checkContent crypto hex index blob (region.buffer.take blob.length)
      checkBlobs hex id (index + 1) blobs
        { region with buffer := region.buffer.drop blob.length }

/-- The index entry of a blob, whose place has to fit 32 bits. -/
def indexBlob (hex : List Char) (blob : Blob) : Except PackError IndexBlob :=
  match tryU32 blob.offset, tryU32 blob.length with
  | none, _ => .error (.unusable s!"pack {short hex} has an invalid blob offset")
  | some _, none => .error (.unusable s!"pack {short hex} has an invalid blob length")
  | some offset, some length => .ok ⟨blob.id, blob.tpe, ⟨offset, length, blob.uncompressed⟩⟩

/-- What the verifier checks behind a header it could open: the header's own accounting, every blob,
the name, and that the index can hold the places. -/
def verifyOpened (hex : List Char) (listed : ℕ) (opened : OpenedHeader) :
    Except PackError IndexPack :=
  let headerLen := opened.header.length
  match parseHeader opened.plaintext with
  | none => .error (.unusable s!"pack {short hex} does not declare a usable header")
  | some (blobs, headerBytes) =>
    let blobBytes := (blobs.map Blob.length).sum
    if headerBytes + compOverhead ≠ headerLen then
      .error (.unusable (s!"pack {short hex}'s header declares {headerBytes} bytes of entries, " ++
        s!"not the {headerLen - compOverhead} its length field gives"))
    else if blobBytes + headerLen + lengthLen ≠ listed then
      .error (.unusable (s!"pack {short hex}'s header accounts for " ++
        s!"{blobBytes + headerLen + lengthLen} of its {listed} bytes"))
    else do
      let region ← checkBlobs crypto be hex opened.id 0 blobs ⟨[], 0, []⟩
      let computed := hexDigest (crypto.sha256 (region.hashed ++ opened.header ++ opened.tail)).bytes
      if computed ≠ hex then
        .error (.unusable (s!"pack {short hex} is not the bytes it is stored under: its contents " ++
          s!"hash to {short computed}"))
      else do
        let blobs ← blobs.mapM (indexBlob hex)
        match tryU32 listed with
        | none => .error (.unusable s!"pack {short hex} has an invalid listed size")
        | some size => .ok ⟨opened.id, blobs, some size⟩

/-- Read one pack's header and verify every blob in it, or say why it cannot be trusted. -/
def verifyPack (hex : List Char) (listed : ℕ) : Except PackError IndexPack := do
  let opened ← openHeader crypto be hex listed
  verifyOpened crypto be hex listed opened

def probeHeader (hex : List Char) (listed : ℕ) : Except PackError Unit :=
  (openHeader crypto be hex listed).map fun _ => ()

/-- Whether the bytes of a whole pack can be read as a pack at all. -/
def probeHeaderBytes (hex : List Char) (bytes : Bytes) : Except PackError Unit :=
  let len := bytes.length
  if len < compOverhead + lengthLen then
    .error (.unreadableHeader s!"pack {short hex} is {len} bytes, too short to hold a header")
  else do
    let tail := bytes.drop (len - lengthLen)
    let headerLen ← (headerLengthFits len (short hex) tail).mapError .unreadableHeader
    let header := (bytes.drop (len - lengthLen - headerLen)).take headerLen
    (headerDecrypts crypto (short hex) header).mapError PackError.unreadableHeader |>.map fun _ => ()

end ChatStasher.Pack
