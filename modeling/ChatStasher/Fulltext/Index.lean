import ChatStasher.Inbox.Bundle
import ChatStasher.Library.KeyedList
import Mathlib.Data.List.Lex
import Mathlib.Data.Char
import Mathlib.Data.Finset.Card

/-! The full-text index: the incremental build over a list of sources and the coverage it records. -/
namespace ChatStasher.Fulltext
open Inbox (Text utf8)
open KeyedList

variable {H : Sha256}

/-- One archived conversation the build must consider. -/
inductive SourceDoc
  | fingerprinted (id sourceSha256 : Text)
  | unreadable (id reason : Text)
  deriving DecidableEq

def SourceDoc.id : SourceDoc → Text
  | fingerprinted id _ => id
  | unreadable id _ => id

/-- Text returned by the archive reader; `notIndexable` names a format that cannot be read. -/
structure DocText where
  title : Text
  body : Text
  messageOffsets : List ℕ
  notIndexable : Option Text
  unreadLines : ℕ

def DocText.isIndexable (text : DocText) : Bool := text.notIndexable.isNone

structure LoadedDoc where
  text : DocText
  bytesRead : ℕ

structure LoadFailure where
  bytesRead : ℕ
  error : Text

/-- What the loads of one build answer; every source is loaded at most once. -/
abbrev Load := Text → Except LoadFailure LoadedDoc

structure BuildStats where
  documents : ℕ
  read : ℕ
  unchanged : ℕ
  removed : ℕ
  indexed : ℕ
  notIndexable : List (Text × Text)
  emptyBody : ℕ
  bytesRead : ℕ
  unreadLines : ℕ

def BuildStats.zero : BuildStats := ⟨0, 0, 0, 0, 0, [], 0, 0, 0⟩

/-- A row of `documents`. Whether the load that stored it read its format is no column: it is kept
for what is proved about rows, and nothing below reads it. -/
structure Row (H : Sha256) where
  sourceSha256 : Text
  contentSha256 : H.Digest
  title : Text
  body : Text
  messageOffsets : List ℕ
  readable : Bool

/-- What a completed build records in `index_meta`. -/
structure BuildRecord where
  indexed : ℕ
  notIndexable : ℕ
  notIndexableIds : List (Text × Text)
  emptyBody : ℕ
  bytesRead : ℕ
  unreadLines : ℕ

structure Index (H : Sha256) where
  documents : List (Text × Row H)
  documentsFts : List (Text × Text × Text)
  lastBuild : Option BuildRecord

def Index.created : Index H := ⟨[], [], none⟩

/-- An index without a completed build has no record, which a build takes as the empty map. -/
def Index.readMetaReasonsIfPresent (index : Index H) : List (Text × Text) :=
  (index.lastBuild.map BuildRecord.notIndexableIds).getD []

def digestText (H : Sha256) (title body : Text) : H.Digest :=
  H.digest (utf8 title ++ [0] ++ utf8 body)

structure Building (H : Sha256) where
  documents : List (Text × Row H)
  documentsFts : List (Text × Text × Text)
  unreadable : List (Text × Text)
  stats : BuildStats
  present : List Text

inductive BuildError
  | duplicateSource
  deriving DecidableEq

/-- The row of what was loaded at a fingerprint. -/
def rowOf (H : Sha256) (sourceSha256 : Text) (text : DocText) : Row H where
  sourceSha256 := sourceSha256
  contentSha256 := digestText H text.title text.body
  title := text.title
  body := text.body
  messageOffsets := text.messageOffsets
  readable := text.isIndexable

/-- Replace the rows of a session by what was loaded for it. -/
def storeDocument (b : Building H) (id sourceSha256 : Text) (text : DocText) : Building H :=
  { b with
    documents := put b.documents (id, rowOf H sourceSha256 text)
    documentsFts := put b.documentsFts (id, text.title, text.body) }

/-- The record of what was loaded: a format that cannot be read joins the reasons, a load that read
the source leaves them. -/
def recordLoaded (b : Building H) (id : Text) (loaded : LoadedDoc) : Building H :=
  match loaded.text.notIndexable with
  | some reason => { b with
      unreadable := put b.unreadable (id, reason)
      stats := { b.stats with
        bytesRead := b.stats.bytesRead + loaded.bytesRead
        unreadLines := b.stats.unreadLines + loaded.text.unreadLines } }
  | none => { b with
      unreadable := b.unreadable.filter fun x => x.1 ≠ id
      stats := { b.stats with
        bytesRead := b.stats.bytesRead + loaded.bytesRead
        unreadLines := b.stats.unreadLines + loaded.text.unreadLines
        emptyBody := b.stats.emptyBody + if loaded.text.body.isEmpty then 1 else 0
        indexed := b.stats.indexed + 1 } }

def readSource (old : List (Text × Text)) (load : Load) (b : Building H) (source : SourceDoc) :
    Except BuildError (Building H) :=
  if source.id ∈ b.present then .error .duplicateSource
  else
    let present := source.id :: b.present
    match source with
    | .unreadable id reason => .ok { b with
        present := present
        stats := { b.stats with read := b.stats.read + 1 }
        unreadable := put b.unreadable (id, reason) }
    | .fingerprinted id sourceSha256 =>
      if old.lookup id = some sourceSha256 then
        .ok { b with
          present := present
          stats := { b.stats with unchanged := b.stats.unchanged + 1 } }
      else
        match load id with
        | .error failure => .ok { b with
            present := present
            stats := { b.stats with
              read := b.stats.read + 1
              bytesRead := b.stats.bytesRead + failure.bytesRead }
            unreadable := put b.unreadable (id, failure.error) }
        | .ok loaded =>
          let b := { b with
            present := present
            stats := { b.stats with read := b.stats.read + 1 } }
          .ok (recordLoaded (storeDocument b id sourceSha256 loaded.text) id loaded)

/-- Build or update the documents, up to the commit. -/
def Index.build (index : Index H) (sources : List SourceDoc) (load : Load) :
    Except BuildError (Index H × BuildStats) :=
  let old := index.documents.map fun x => (x.1, x.2.sourceSha256)
  let start : Building H := {
    documents := index.documents
    documentsFts := index.documentsFts
    unreadable := index.readMetaReasonsIfPresent
    stats := .zero
    present := [] }
  match sources.foldlM (readSource old load) start with
  | .error e => .error e
  | .ok b =>
    let stale := (old.map Prod.fst).filter fun id => id ∉ b.present
    let unreadable := b.unreadable.filter fun x => x.1 ∈ b.present
    let stats := { b.stats with
      removed := stale.length
      documents := sources.length
      notIndexable := inKeyOrder unreadable }
    .ok ({
      documents := b.documents.filter fun x => x.1 ∉ stale
      documentsFts := b.documentsFts.filter fun x => x.1 ∉ stale
      lastBuild := some {
        indexed := stats.indexed
        notIndexable := stats.notIndexable.length
        notIndexableIds := stats.notIndexable
        emptyBody := stats.emptyBody
        bytesRead := stats.bytesRead
        unreadLines := stats.unreadLines } }, stats)

/-- What an index holds: the ids of its documents and the ids a build named not indexable. -/
structure IndexSummary where
  ids : Finset Text
  notIndexable : List (Text × Text)

def Index.summary (index : Index H) : Option IndexSummary :=
  index.lastBuild.map fun record =>
    ⟨(index.documents.map Prod.fst).toFinset, record.notIndexableIds⟩

namespace IndexSummary

def covers (summary : IndexSummary) (id : Text) : Bool :=
  id ∈ summary.ids && (summary.notIndexable.lookup id).isNone

def indexable (summary : IndexSummary) : ℕ := summary.ids.card - summary.notIndexable.length

end IndexSummary

end ChatStasher.Fulltext
