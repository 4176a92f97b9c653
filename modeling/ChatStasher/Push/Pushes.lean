import Mathlib.Data.List.Dedup
import Mathlib.Data.List.Lex
import ChatStasher.Collect.Facts
import Mathlib.Data.Char

/-! Packs that no index file names: what a push's open adopts, and how it names them before its
snapshot. -/
namespace ChatStasher

/-- What the bytes under a pack's name are: a pack, a torn one without a readable header, or one that
reads as a pack and does not verify. -/
inductive PackState
  | complete
  | torn (why : String)
  | damaged (why : String)
  deriving DecidableEq

structure PackFile where
  id : Ident
  bytes : ℕ
  state : PackState
  deriving DecidableEq

/-- An index file, with the packs it names as live and those it names as marked for deletion. -/
structure IndexFile where
  packs : List Ident
  packsToDelete : List Ident
  deriving DecidableEq

def IndexFile.names (f : IndexFile) : List Ident := f.packs ++ f.packsToDelete

inductive PackError
  | unreadableHeader (why : String)
  | unusable (why : String)
  deriving DecidableEq

def PackError.why : PackError → String
  | .unreadableHeader why | .unusable why => why

inductive PackClass
  | stranded
  | corrupt (why : String)
  | torn (why : String)
  | failClosed (why : String)
  deriving DecidableEq

def classifyPack (namedByIndex : Option Bool) (check : Except PackError Unit) : PackClass :=
  match check, namedByIndex with
  | .ok _, some false => .stranded
  | .ok _, some true => .failClosed
      "an index file names this pack and its bytes verify; there is no debris to classify"
  | .ok _, none => .failClosed ("the index files could not be read, so whether any index file " ++
      "names this pack is unknown (its bytes verify)")
  | .error failure, none => .failClosed ("the index files could not be read, so whether any index " ++
      "file names this pack is unknown (" ++ failure.why ++ ")")
  | .error failure, some true => .corrupt failure.why
  | .error (.unreadableHeader why), some false => .torn why
  | .error (.unusable why), some false => .failClosed why

/-- `verify_pack`: a pack verifies only as what its bytes are. `fault` is what else stops the
verifier, such as a backend that does not serve the bytes. -/
def verifyPack (packs : List PackFile) (id : Ident) (fault : Option PackError) :
    Except PackError Unit :=
  match fault, packs.find? fun p => p.id = id with
  | some e, _ => .error e
  | none, none => .error (.unusable "the pack is not there")
  | none, some p => match p.state with
    | .complete => .ok ()
    | .torn why => .error (.unreadableHeader why)
    | .damaged why => .error (.unusable why)

/-- How the backend and the index files disagree. -/
structure OrphanReport where
  unindexed : List (Ident × ℕ)
  missing : List Ident
  deriving DecidableEq

/-- The inventory captured by one survey. -/
structure Survey where
  report : OrphanReport
  listed : List (Ident × ℕ)
  indexed : List Ident
  indexedPacks : List Ident
  deriving DecidableEq

def listPacks (packs : List PackFile) : List (Ident × ℕ) :=
  (packs.map fun p => (p.id, p.bytes)).insertionSort fun a b => a.1 ≤ b.1

/-- `survey_inventory` from one listing and one pass over the index files. -/
def surveyInventory (listed : List (Ident × ℕ)) (index : List IndexFile) : Survey :=
  let indexed := ((index.flatMap IndexFile.names).dedup).insertionSort (· ≤ ·)
  { report :=
      { unindexed := listed.filter fun p => p.1 ∉ indexed
        missing := indexed.filter fun id => id ∉ listed.map Prod.fst }
    listed, indexed
    indexedPacks := index.flatMap IndexFile.packs }

inductive IndexAdoption
  | plain
  | adopted
  | debris
  | refused (why : String)
  deriving DecidableEq

/-- An unindexed candidate set aside as torn debris. -/
structure ExcludedTorn where
  id : Ident
  bytes : ℕ
  why : String
  deriving DecidableEq

/-- What a persist step did with the packs its open verified. -/
inductive PersistOutcome
  | named (packs : ℕ)
  | alreadyNamed (packs : ℕ)
  | notWritten (why : String)
  deriving DecidableEq

def PersistOutcome.coversDependency : PersistOutcome → Bool
  | .named _ | .alreadyNamed _ => true
  | .notWritten _ => false

/-- The decision of `persist_verified` from its fresh survey: the packs to name, or what else it
comes to. -/
def persistPlan (verified : List Ident) (fresh : Survey) : Except PersistOutcome (List Ident) :=
  let unnamed := verified.filter fun id => id ∉ fresh.indexed
  let vanished := (unnamed.filter fun id => id ∉ fresh.listed.map Prod.fst).length
  if verified.isEmpty then
    .error (.notWritten "this open verified no pack, so there was nothing to name")
  else if 0 < vanished then
    .error (.notWritten (toString vanished ++ " pack(s) this push verified are neither listed by " ++
      "the backend nor named by an index file, so nothing was written"))
  else if unnamed.isEmpty then .error (.alreadyNamed verified.length)
  else .ok unnamed

def gateFailed (why : String) : String :=
  "no snapshot was written: the stranded packs this push reused could not be named in an index " ++
    "file first (" ++ why ++ "); the next push verifies them again and retries"

section Spec

lemma mem_indexed {listed : List (Ident × ℕ)} {index : List IndexFile} {id : Ident} :
    id ∈ (surveyInventory listed index).indexed ↔ ∃ f ∈ index, id ∈ f.names := by
  simp only [surveyInventory, (List.perm_insertionSort _ _).mem_iff, List.mem_dedup,
    List.mem_flatMap]

lemma persistPlan_ok {verified survivors : List Ident} {fresh : Survey}
    (h : persistPlan verified fresh = .ok survivors) :
    ∀ id ∈ verified, id ∈ fresh.indexed ∨ id ∈ survivors := by
  intro id hid
  unfold persistPlan at h
  dsimp only at h
  split at h
  next => cases h
  next =>
    split at h
    next => cases h
    next =>
      split at h
      next => cases h
      next =>
        obtain rfl := Except.ok.inj h
        by_cases hin : id ∈ fresh.indexed
        · exact Or.inl hin
        · exact Or.inr (List.mem_filter.mpr ⟨hid, decide_eq_true hin⟩)

lemma persistPlan_error {verified : List Ident} {fresh : Survey} {outcome : PersistOutcome}
    (h : persistPlan verified fresh = .error outcome) (hcovers : outcome.coversDependency = true) :
    ∀ id ∈ verified, id ∈ fresh.indexed := by
  intro id hid
  unfold persistPlan at h
  dsimp only at h
  split at h
  next => obtain rfl := Except.error.inj h; cases hcovers
  next =>
    split at h
    next => obtain rfl := Except.error.inj h; cases hcovers
    next =>
      split at h
      next hempty =>
        have hnil := List.isEmpty_iff.mp hempty
        by_contra hnot
        have hmem : id ∈ verified.filter fun id => id ∉ fresh.indexed :=
          List.mem_filter.mpr ⟨hid, decide_eq_true hnot⟩
        rw [hnil] at hmem
        cases hmem
      next => cases h

end Spec

end ChatStasher

/-! Pushes and other clients on one repository, cut at their listings, reads and writes. -/
namespace ChatStasher

/-- What a push does next. `gate` tells the persist step before a snapshot from the one after a push
that wrote none. -/
inductive PushPhase
  | listing
  | readingIndex (listed : List (Ident × ℕ))
  | indexingPlain (adoption : IndexAdoption)
  | verifying (initial : Survey) (todo : List (Ident × ℕ)) (verified : List Ident)
  | relisting (initial : Survey) (verified : List Ident)
  | rereadingIndex (initial : Survey) (verified : List Ident) (listed : List (Ident × ℕ))
  | indexing (initial : Survey) (verified : List Ident)
  | backingUp
  | persistListing (gate : Bool)
  | persistReading (gate : Bool) (listed : List (Ident × ℕ))
  | appending (gate : Bool) (survivors : List Ident)
  | publishing
  | finished (error : Option String)

/-- A push: what its open surveyed, found and verified, and the packs its in-memory index has. -/
structure PackPush where
  phase : PushPhase
  unindexed : List (Ident × ℕ)
  verdicts : List (Ident × Except PackError Unit)
  torn : List ExcludedTorn
  adoption : Option IndexAdoption
  verified : List Ident
  inMemory : List Ident
  persisted : Option PersistOutcome

/-- A published snapshot, with the push it is from and the index files present at that moment. -/
structure PublishedSnapshot where
  push : PackPush
  index : List IndexFile

structure PackRepo where
  packs : List PackFile
  index : List IndexFile
  snapshots : List PublishedSnapshot
  pushes : List PackPush

/-- Replies of the backend and of the library to a push's next request: an error, whether a write has
landed in spite of it, what else stops the verifier, what a backup writes, and whether it leaves out
the snapshot. -/
structure PushReply where
  error : Option String
  landed : Bool
  fault : Option PackError
  packs : List PackFile
  index : List IndexFile
  unchanged : Bool

/-- A pack under its name. Only a torn one can still change. -/
def putPack (packs : List PackFile) (p : PackFile) : List PackFile :=
  match packs.find? fun q => q.id = p.id with
  | none => packs ++ [p]
  | some q => match q.state with
    | .torn _ => packs.map fun q => if q.id = p.id then p else q
    | _ => packs

namespace PackPush

def finish (push : PackPush) (error : Option String) : PackPush :=
  { push with phase := .finished error }

def refuse (push : PackPush) (why : String) : PackPush :=
  { push with phase := .indexingPlain (.refused why) }

/-- `persist_verified` has come to an outcome. -/
def settle (push : PackPush) (gate : Bool) (outcome : PersistOutcome) : PackPush :=
  { push with
    persisted := some outcome
    phase :=
      if !gate then .finished none
      else match outcome with
        | .notWritten why => .finished (some (gateFailed why))
        | _ => .publishing }

end PackPush

/-- `push`, one request at a time. -/
def pushTurn (s : PackRepo) (push : PackPush) (reply : PushReply) : PackRepo × PackPush :=
  match push.phase with
  | .listing =>
    match reply.error with
    | some e => (s, push.finish (some e))
    | none => (s, { push with phase := .readingIndex (listPacks s.packs) })
  | .readingIndex listed =>
    match reply.error with
    | some e => (s, push.finish (some e))
    | none =>
      let initial := surveyInventory listed s.index
      let push := { push with unindexed := initial.report.unindexed }
      if initial.report.unindexed.isEmpty then (s, { push with phase := .indexingPlain .plain })
      else if !initial.report.missing.isEmpty then
        (s, push.refuse (toString initial.report.missing.length ++
          " pack(s) this index names are absent from the backend"))
      else (s, { push with phase := .verifying initial initial.report.unindexed [] })
  | .indexingPlain adoption =>
    match reply.error with
    | some e => (s, push.finish (some e))
    | none =>
      (s, { push with
        adoption := some adoption
        inMemory := s.index.flatMap IndexFile.packs
        phase := .backingUp })
  | .verifying initial [] verified => (s, { push with phase := .relisting initial verified })
  | .verifying initial ((id, bytes) :: todo) verified =>
    let check := verifyPack s.packs id reply.fault
    let push := { push with verdicts := push.verdicts ++ [(id, check)] }
    match check with
    | .ok _ => (s, { push with phase := .verifying initial todo (verified ++ [id]) })
    | .error e => match classifyPack (some false) (.error e) with
      | .torn why =>
        (s, { push with
          torn := push.torn ++ [⟨id, bytes, why⟩]
          phase := .verifying initial todo verified })
      | _ => (s, { push with torn := [] }.refuse e.why)
  | .relisting initial verified =>
    match reply.error with
    | some e => (s, push.finish (some e))
    | none => (s, { push with phase := .rereadingIndex initial verified (listPacks s.packs) })
  | .rereadingIndex initial verified listed =>
    match reply.error with
    | some e => (s, push.finish (some e))
    | none =>
      let after := surveyInventory listed s.index
      if after.report.unindexed ≠ initial.report.unindexed ∨ after.listed ≠ initial.listed ∨
          after.indexed ≠ initial.indexed then
        (s, { push with torn := [] }.refuse
          "packs no index file names appeared after the survey")
      else (s, { push with phase := .indexing initial verified })
  | .indexing initial verified =>
    match reply.error with
    | some e => (s, push.finish (some e))
    | none =>
      (s, { push with
        adoption := some (if verified.isEmpty then .debris else .adopted)
        verified
        inMemory := initial.indexedPacks ++ verified
        phase := .backingUp })
  | .backingUp =>
    -- What a backup has written stays, also when it fails.
    let s := { s with packs := reply.packs.foldl putPack s.packs, index := s.index ++ reply.index }
    match reply.error with
    | some e => (s, push.finish (some e))
    | none =>
      if reply.unchanged then
        if push.verified.isEmpty then (s, push.finish none)
        else (s, { push with phase := .persistListing false })
      else if push.verified.isEmpty then (s, { push with phase := .publishing })
      else (s, { push with phase := .persistListing true })
  | .persistListing gate =>
    match reply.error with
    | some e => (s, push.settle gate (.notWritten
        ("the pre-write survey over the repository failed, so nothing was named: " ++ e)))
    | none => (s, { push with phase := .persistReading gate (listPacks s.packs) })
  | .persistReading gate listed =>
    match reply.error with
    | some e => (s, push.settle gate (.notWritten
        ("the pre-write survey over the repository failed, so nothing was named: " ++ e)))
    | none => match persistPlan push.verified (surveyInventory listed s.index) with
      | .error outcome => (s, push.settle gate outcome)
      | .ok survivors => (s, { push with phase := .appending gate survivors })
  | .appending gate survivors =>
    let written := { s with index := s.index ++ [⟨survivors, []⟩] }
    match reply.error with
    | some e => (if reply.landed then written else s, push.settle gate (.notWritten
        ("writing the new index file failed, so the pack(s) stay unnamed on disk: " ++ e)))
    | none => (written, push.settle gate (.named survivors.length))
  | .publishing =>
    let published := { s with snapshots := s.snapshots ++ [⟨push, s.index⟩] }
    match reply.error with
    | some e => (if reply.landed then published else s, push.finish (some e))
    | none => (published, push.finish none)
  | .finished _ => (s, push)

/-- A push begins, the `i`-th one makes its next request or dies, another client writes a pack or an
index file. -/
inductive PackRepoAction
  | start
  | proceed (i : ℕ) (reply : PushReply)
  | kill (i : ℕ)
  | putPack (p : PackFile)
  | writeIndex (f : IndexFile)

def packRepoStep (s : PackRepo) : PackRepoAction → PackRepo
  | .start => { s with pushes := s.pushes ++ [⟨.listing, [], [], [], none, [], [], none⟩] }
  | .proceed i reply =>
    match s.pushes[i]? with
    | none => s
    | some push =>
      let (s, push) := pushTurn s push reply
      { s with pushes := s.pushes.set i push }
  | .kill i => { s with pushes := s.pushes.eraseIdx i }
  | .putPack p => { s with packs := ChatStasher.putPack s.packs p }
  | .writeIndex f => { s with index := s.index ++ [f] }

/-- A repository as interrupted and concurrent pushes may have left it. -/
def PackRepo.found (packs : List PackFile) (index : List IndexFile) : PackRepo :=
  ⟨packs, index, [], []⟩

end ChatStasher
