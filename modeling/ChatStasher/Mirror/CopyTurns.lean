import ChatStasher.Mirror.Sync

/-! The two copy workers of a round: how they claim files from a shared counter, copy them, and
release a claim when the round stops. -/
namespace ChatStasher.Mirror

/-- A claimed place of the queue, with the file there. -/
structure Claim (D : Type) where
  index : ℕ
  file : PlannedFile D
  deriving DecidableEq

/-- Where a worker is between two accesses to what it shares with the other one. -/
inductive WorkerAt (D : Type)
  | idle
  | claimed (claim : Claim D)
  | asking (claim : Claim D)
  | reading (claim : Claim D) (attempt : ℕ)
  | creating (claim : Claim D) (bytes : Bytes)
  | filling (claim : Claim D) (bytes : Bytes)
  | moving (claim : Claim D) (bytes : Bytes)
  | counting (length : ℕ)
  | countingTorn (size : ℕ)
  | releasing (cause : Option StopCause)
  | recording (cause : StopCause)
  | done
  deriving DecidableEq

/-- What the stop decision, the destination's backend, the mirror's survey and the local file system
answer a worker's turn. -/
structure CopyAnswer where
  roundEnd : Option StopCause
  read : Option Bytes
  opens : Bool
  written : Bool

/-- The state that two workers of a phase share, and where each of them is. `written` and `skipped`
record, for each phase, the claims that were written and those that were torn debris. -/
structure CopyRound (H : Sha256) where
  phase : List (PlannedFile H.Digest)
  later : List (PlannedFile H.Digest)
  tail : Bool
  workers : Bool → WorkerAt H.Digest
  next : ℕ
  stop : Option StopCause
  files : ℕ
  bytes : ℕ
  torn : ℕ
  tornBytes : ℕ
  mirror : MirrorFiles H.Digest
  temps : MirrorFiles H.Digest
  written : List (Bool × Claim H.Digest × Bytes)
  skipped : List (Bool × Claim H.Digest)

variable {H : Sha256}

def PlannedFile.key (file : PlannedFile H.Digest) : FileKind × H.Digest := (file.kind, file.id)

/-- The bytes are what a file of this name has to hold; the config has no content address. -/
def Verified (file : PlannedFile H.Digest) (bytes : Bytes) : Prop :=
  file.kind = .config ∨ H.digest bytes = file.id

def spawnWorkers (files : ℕ) : Bool → WorkerAt H.Digest := fun w =>
  if w.toNat < min mirrorConnections files then .idle else .done

def CopyRound.setWorker (s : CopyRound H) (w : Bool) (at' : WorkerAt H.Digest) : CopyRound H :=
  { s with workers := Function.update s.workers w at' }

/-- The reads of `copy_one`, each with its verdict. -/
def readOne (format : RepositoryFormat H) (mirror : MirrorFiles H.Digest) (claim : Claim H.Digest)
    (attempt : ℕ) (answer : CopyAnswer) : WorkerAt H.Digest :=
  let file := claim.file
  let attempts := if file.kind = .config then 1 else 2
  if maxWholeFileBytes < file.size then .releasing (some (.hard .oversizeListing))
  else match answer.read with
  | none => .releasing (some (.pause .remoteRead))
  | some bytes =>
    if maxWholeFileBytes < bytes.length then .releasing (some (.hard .oversizeListing))
    else if file.kind = .config || H.digest bytes = file.id then .creating claim bytes
    else if attempt + 1 = attempts then
      if file.kind = .pack then
        match classifyFailedPack format mirror answer.opens file bytes with
        | some failure => .releasing (some (.hard failure))
        | none => .countingTorn file.size
      else .releasing (some (.hard .sourceCorrupt))
    else .reading claim (attempt + 1)

def copyTurn (format : RepositoryFormat H) (s : CopyRound H) (w : Bool) (answer : CopyAnswer) :
    CopyRound H :=
  match s.workers w with
  | .idle =>
    -- the counter goes up also where the queue is drained
    let s' := { s with next := s.next + 1 }
    match s.phase[s.next]? with
    | none => s'.setWorker w .done
    | some file => s'.setWorker w (.claimed ⟨s.next, file⟩)
  | .claimed claim =>
    if s.stop.isSome then s.setWorker w (.releasing none) else s.setWorker w (.asking claim)
  | .asking claim =>
    match answer.roundEnd with
    | some cause => s.setWorker w (.releasing (some cause))
    | none => s.setWorker w (.reading claim 0)
  | .reading claim attempt =>
    match readOne format s.mirror claim attempt answer with
    | .countingTorn size =>
      { s with skipped := s.skipped ++ [(s.tail, claim)] }.setWorker w (.countingTorn size)
    | after => s.setWorker w after
  | .creating claim bytes =>
    if answer.written then
      { s with temps := KeyedList.put s.temps (claim.file.key, []) }.setWorker w
        (.filling claim bytes)
    else s.setWorker w (.releasing (some (.hard .localWrite)))
  | .filling claim bytes =>
    if answer.written then
      { s with temps := KeyedList.put s.temps (claim.file.key, bytes) }.setWorker w
        (.moving claim bytes)
    else s.setWorker w (.releasing (some (.hard .localWrite)))
  | .moving claim bytes =>
    if answer.written then
      -- the temp file takes the final name with whatever it holds by now
      { s with
        mirror := KeyedList.put s.mirror
          (claim.file.key, (s.temps.lookup claim.file.key).getD [])
        temps := s.temps.filter fun e => e.1 ≠ claim.file.key
        written := s.written ++ [(s.tail, claim, bytes)] }.setWorker w (.counting bytes.length)
    else s.setWorker w (.releasing (some (.hard .localWrite)))
  | .counting length =>
    { s with files := s.files + 1, bytes := s.bytes + length }.setWorker w .idle
  | .countingTorn size =>
    { s with torn := s.torn + 1, tornBytes := s.tornBytes + size }.setWorker w .idle
  | .releasing cause =>
    { s with next := s.next - 1 }.setWorker w (match cause with
      | none => .done
      | some cause => .recording cause)
  | .recording cause => { s with stop := some (s.stop.getD cause) }.setWorker w .done
  | .done => s

def CopyRound.Joined (s : CopyRound H) : Prop := ∀ w, s.workers w = .done

instance CopyRound.Joined.decidable (s : CopyRound H) : Decidable s.Joined :=
  inferInstanceAs (Decidable (∀ w, s.workers w = .done))

/-- The barrier between the phases: the claims of the tail start at the first file again. -/
def joinPhase (s : CopyRound H) : CopyRound H :=
  if s.Joined ∧ s.tail = false ∧ s.stop = none then
    { s with
      phase := s.later
      later := []
      tail := true
      next := 0
      workers := spawnWorkers s.later.length }
  else s

inductive CopyAction
  | turn (w : Bool) (answer : CopyAnswer)
  | join

def copyStep (format : RepositoryFormat H) (s : CopyRound H) : CopyAction → CopyRound H
  | .turn w answer => copyTurn format s w answer
  | .join => joinPhase s

structure MissingFiles (H : Sha256) where
  files : List (PlannedFile H.Digest)
  nodup : (files.map PlannedFile.key).Nodup

def MissingFiles.queue (missing : MissingFiles H) : List (PlannedFile H.Digest) :=
  missing.files.insertionSort queueLe

/-- A round before its first claim. -/
def CopyRound.start (missing : MissingFiles H) (mirror : MirrorFiles H.Digest) : CopyRound H :=
  let metaQueue := missing.queue.filter inMetaPhase
  { phase := metaQueue
    later := missing.queue.filter fun f => !inMetaPhase f
    tail := false
    workers := spawnWorkers metaQueue.length
    next := 0
    stop := none
    files := 0
    bytes := 0
    torn := 0
    tornBytes := 0
    mirror
    temps := []
    written := []
    skipped := [] }

end ChatStasher.Mirror

/-! What one turn of a copy worker can do, and what both workers keep: their claims are different
files, the temp file under a rename is their own, and the counters count the writes. -/
namespace ChatStasher.Mirror

variable {H : Sha256}

namespace WorkerAt
variable {D : Type}

def claim? : WorkerAt D → Option (Claim D)
  | .claimed claim | .asking claim | .reading claim _ | .creating claim _ | .filling claim _
  | .moving claim _ => some claim
  | _ => none

/-- The worker may still hold or take a claim, or has one to release. -/
def live : WorkerAt D → Bool
  | .recording _ | .done => false
  | _ => true

/-- The claim a worker holds and is not about to be turned back from. -/
def admitted? : WorkerAt D → Option (Claim D)
  | .claimed _ => none
  | at' => at'.claim?

def uncounted : WorkerAt D → ℕ
  | .counting _ => 1
  | _ => 0

def uncountedBytes : WorkerAt D → ℕ
  | .counting length => length
  | _ => 0

@[simp] lemma uncounted_done : (done : WorkerAt D).uncounted = 0 := rfl

@[simp] lemma uncountedBytes_done : (done : WorkerAt D).uncountedBytes = 0 := rfl

def content? : WorkerAt D → Option (Claim D × Bytes)
  | .creating claim bytes | .filling claim bytes | .moving claim bytes => some (claim, bytes)
  | _ => none

def stopping : WorkerAt D → Bool
  | .releasing (some _) | .recording _ => true
  | _ => false

lemma claim?_of_admitted? {at' : WorkerAt D} {claim : Claim D} (h : at'.admitted? = some claim) :
    at'.claim? = some claim := by
  cases at' with
  | claimed => cases h
  | _ => exact h

lemma live_of_claim? {at' : WorkerAt D} {claim : Claim D} (h : at'.claim? = some claim) :
    at'.live = true := by
  cases at' with
  | recording => cases h
  | done => cases h
  | _ => rfl

end WorkerAt

inductive Turn (s : CopyRound H) (w : Bool) : CopyRound H → Prop
  | claim {file} (hat : s.workers w = .idle) (hfile : s.phase[s.next]? = some file) :
    Turn s w ({ s with next := s.next + 1 }.setWorker w (.claimed ⟨s.next, file⟩))
  | drained (hat : s.workers w = .idle) (hfile : s.phase[s.next]? = none) :
    Turn s w ({ s with next := s.next + 1 }.setWorker w .done)
  | advance {claim after} (hclaim : (s.workers w).claim? = some claim)
    (hafter : after.admitted? = some claim) (hcontent : after.content? = none)
    (hstop : s.workers w = .claimed claim → s.stop = none) : Turn s w (s.setWorker w after)
  | verify {claim bytes attempt} (hat : s.workers w = .reading claim attempt)
    (hverified : Verified claim.file bytes) : Turn s w (s.setWorker w (.creating claim bytes))
  | skip {claim attempt size} (hat : s.workers w = .reading claim attempt)
    (hpack : claim.file.kind = .pack) :
    Turn s w ({ s with skipped := s.skipped ++ [(s.tail, claim)] }.setWorker w (.countingTorn size))
  | create {claim bytes} (hat : s.workers w = .creating claim bytes) :
    Turn s w ({ s with temps := KeyedList.put s.temps (claim.file.key, []) }.setWorker w
      (.filling claim bytes))
  | fill {claim bytes} (hat : s.workers w = .filling claim bytes) :
    Turn s w ({ s with temps := KeyedList.put s.temps (claim.file.key, bytes) }.setWorker w
      (.moving claim bytes))
  | rename {claim bytes} (hat : s.workers w = .moving claim bytes) :
    Turn s w ({ s with
      mirror := KeyedList.put s.mirror (claim.file.key, (s.temps.lookup claim.file.key).getD [])
      temps := s.temps.filter fun e => e.1 ≠ claim.file.key
      written := s.written ++ [(s.tail, claim, bytes)] }.setWorker w (.counting bytes.length))
  | count {length} (hat : s.workers w = .counting length) :
    Turn s w ({ s with files := s.files + 1, bytes := s.bytes + length }.setWorker w .idle)
  | countTorn {size} (hat : s.workers w = .countingTorn size) :
    Turn s w ({ s with torn := s.torn + 1, tornBytes := s.tornBytes + size }.setWorker w .idle)
  | refuse {claim cause} (hclaim : (s.workers w).admitted? = some claim) :
    Turn s w (s.setWorker w (.releasing (some cause)))
  | turnBack {claim} (hat : s.workers w = .claimed claim) (hstop : s.stop ≠ none) :
    Turn s w (s.setWorker w (.releasing none))
  | release (hat : s.workers w = .releasing none) :
    Turn s w ({ s with next := s.next - 1 }.setWorker w .done)
  | releaseStop {cause} (hat : s.workers w = .releasing (some cause)) :
    Turn s w ({ s with next := s.next - 1 }.setWorker w (.recording cause))
  | record {cause} (hat : s.workers w = .recording cause) :
    Turn s w ({ s with stop := some (s.stop.getD cause) }.setWorker w .done)
  | stay (hat : s.workers w = .done) : Turn s w s

/-- What a read of a claimed file can come to. -/
lemma readOne_cases (format : RepositoryFormat H) (mirror : MirrorFiles H.Digest)
    (claim : Claim H.Digest) (attempt : ℕ) (answer : CopyAnswer) :
    (∃ cause, readOne format mirror claim attempt answer = .releasing (some cause)) ∨
      (∃ bytes, readOne format mirror claim attempt answer = .creating claim bytes ∧
        Verified claim.file bytes) ∨
      (∃ size, readOne format mirror claim attempt answer = .countingTorn size ∧
        claim.file.kind = .pack) ∨
      readOne format mirror claim attempt answer = .reading claim (attempt + 1) := by
  unfold readOne
  dsimp only
  generalize (if claim.file.kind = .config then 1 else 2) = attempts
  split
  next => exact Or.inl ⟨_, rfl⟩
  next =>
    cases answer.read with
    | none => exact Or.inl ⟨_, rfl⟩
    | some bytes =>
      dsimp only
      split
      next => exact Or.inl ⟨_, rfl⟩
      next =>
        split
        next hverified =>
          refine Or.inr (Or.inl ⟨bytes, rfl, ?_⟩)
          simpa [Verified] using hverified
        next =>
          split
          next =>
            split
            next hpack =>
              split
              next => exact Or.inl ⟨_, rfl⟩
              next => exact Or.inr (Or.inr (Or.inl ⟨_, rfl, hpack⟩))
            next => exact Or.inl ⟨_, rfl⟩
          next => exact Or.inr (Or.inr (Or.inr rfl))

theorem copyTurn_turn (format : RepositoryFormat H) (s : CopyRound H) (w : Bool)
    (answer : CopyAnswer) : Turn s w (copyTurn format s w answer) := by
  unfold copyTurn
  cases hat : s.workers w with
  | idle =>
    dsimp only
    cases hfile : s.phase[s.next]? with
    | none => exact .drained hat hfile
    | some file => exact .claim hat hfile
  | claimed claim =>
    dsimp only
    cases hstop : s.stop with
    | none => exact .advance (by rw [hat]; rfl) rfl rfl fun _ => hstop
    | some cause => exact .turnBack hat (by simp [hstop])
  | asking claim =>
    dsimp only
    cases answer.roundEnd with
    | none => exact .advance (by rw [hat]; rfl) rfl rfl (by rw [hat]; nofun)
    | some cause => exact .refuse (by rw [hat]; rfl)
  | reading claim attempt =>
    dsimp only
    rcases readOne_cases format s.mirror claim attempt answer with
      ⟨cause, h⟩ | ⟨bytes, h, hverified⟩ | ⟨size, h, hpack⟩ | h
    · rw [h]
      exact .refuse (by rw [hat]; rfl)
    · rw [h]
      exact .verify hat hverified
    · rw [h]
      exact .skip hat hpack
    · rw [h]
      exact .advance (by rw [hat]; rfl) rfl rfl (by rw [hat]; nofun)
  | creating claim bytes =>
    dsimp only
    split
    next => exact .create hat
    next => exact .refuse (by rw [hat]; rfl)
  | filling claim bytes =>
    dsimp only
    split
    next => exact .fill hat
    next => exact .refuse (by rw [hat]; rfl)
  | moving claim bytes =>
    dsimp only
    split
    next => exact .rename hat
    next => exact .refuse (by rw [hat]; rfl)
  | counting length => exact .count hat
  | countingTorn size => exact .countTorn hat
  | releasing cause =>
    cases cause with
    | none => exact .release hat
    | some cause => exact .releaseStop hat
  | recording cause => exact .record hat
  | done => exact .stay hat

@[simp] lemma CopyRound.setWorker_self (s : CopyRound H) (w : Bool) (at' : WorkerAt H.Digest) :
    (s.setWorker w at').workers w = at' := Function.update_self ..

@[simp] lemma CopyRound.setWorker_other (s : CopyRound H) (w : Bool) (at' : WorkerAt H.Digest) :
    (s.setWorker w at').workers (!w) = s.workers (!w) :=
  Function.update_of_ne (Bool.not_ne_self w) ..

section Turns
variable {s s' : CopyRound H} {w : Bool}

lemma Turn.frame (h : Turn s w s') : s'.workers (!w) = s.workers (!w) ∧ s'.phase = s.phase ∧
    s'.later = s.later ∧ s'.tail = s.tail := by
  cases h <;> exact ⟨by simp, rfl, rfl, rfl⟩

/-- A worker keeps its claim or takes the next one. -/
lemma Turn.claim? (h : Turn s w s') {claim : Claim H.Digest}
    (hclaim : (s'.workers w).claim? = some claim) :
    (s.workers w).claim? = some claim ∧ s'.next = s.next ∨
      s.workers w = .idle ∧ claim.index = s.next ∧ s.phase[claim.index]? = some claim.file ∧
        s'.next = s.next + 1 := by
  cases h with
  | claim hat hfile =>
    rw [CopyRound.setWorker_self] at hclaim
    cases hclaim
    exact Or.inr ⟨hat, rfl, hfile, rfl⟩
  | advance hclaim' hafter =>
    rw [CopyRound.setWorker_self, WorkerAt.claim?_of_admitted? hafter] at hclaim
    exact Or.inl ⟨hclaim' ▸ hclaim, rfl⟩
  | stay => exact Or.inl ⟨hclaim, rfl⟩
  | verify hat | create hat | fill hat =>
    rw [CopyRound.setWorker_self] at hclaim
    rw [hat]
    exact Or.inl ⟨hclaim, rfl⟩
  | drained | skip | rename | count | countTorn | refuse | turnBack | release | releaseStop
    | record =>
    rw [CopyRound.setWorker_self] at hclaim
    cases hclaim

lemma Turn.next_le (h : Turn s w s') (hlive : (s'.workers w).live = true) : s.next ≤ s'.next := by
  cases h with
  | claim | drained => exact Nat.le_succ _
  | release | releaseStop =>
    rw [CopyRound.setWorker_self] at hlive
    cases hlive
  | _ => exact le_rfl

lemma Turn.live_of_live (h : Turn s w s') (hlive : (s'.workers w).live = true) :
    (s.workers w).live = true := by
  cases h with
  | advance hclaim => exact WorkerAt.live_of_claim? hclaim
  | refuse hclaim => exact WorkerAt.live_of_claim? (WorkerAt.claim?_of_admitted? hclaim)
  | stay => exact hlive
  | record =>
    rw [CopyRound.setWorker_self] at hlive
    cases hlive
  | claim hat | drained hat | verify hat | skip hat | create hat | fill hat | rename hat | count hat
    | countTorn hat | turnBack hat | release hat | releaseStop hat => rw [hat]; rfl

/-- The two workers hold claims of different files, below the counter while the other one can still
take the next. -/
structure Apart (s : CopyRound H) : Prop where
  placed : ∀ v claim, (s.workers v).claim? = some claim → s.phase[claim.index]? = some claim.file
  below : ∀ v claim, (s.workers v).claim? = some claim → (s.workers (!v)).live = true →
    claim.index < s.next
  apart : ∀ v claim claim', (s.workers v).claim? = some claim →
    (s.workers (!v)).claim? = some claim' → claim.index ≠ claim'.index

lemma eq_or_eq_not (v w : Bool) : v = w ∨ v = !w := by
  cases v <;> cases w <;> simp

lemma Apart.turn (hs : Apart s) (h : Turn s w s') : Apart s' := by
  obtain ⟨hother, hphase, -, -⟩ := h.frame
  have hbelow : ∀ v claim, (s'.workers v).claim? = some claim →
      (s'.workers (!v)).live = true → claim.index < s'.next := by
    intro v claim hclaim hlive
    rcases eq_or_eq_not v w with rfl | rfl
    · rw [hother] at hlive
      rcases h.claim? hclaim with ⟨hold, hnext⟩ | ⟨-, hindex, -, hnext⟩
      · rw [hnext]
        exact hs.below v claim hold hlive
      · omega
    · rw [Bool.not_not] at hlive
      rw [hother] at hclaim
      have hlt := hs.below (!w) claim hclaim (by rw [Bool.not_not]; exact h.live_of_live hlive)
      exact hlt.trans_le (h.next_le hlive)
  have hapart : ∀ claim claim', (s'.workers w).claim? = some claim →
      (s'.workers (!w)).claim? = some claim' → claim.index ≠ claim'.index := by
    intro claim claim' hclaim hclaim'
    rw [hother] at hclaim'
    rcases h.claim? hclaim with ⟨hold, -⟩ | ⟨hidle, hindex, -, -⟩
    · exact hs.apart w claim claim' hold hclaim'
    · have hlt := hs.below (!w) claim' hclaim' (by rw [Bool.not_not, hidle]; rfl)
      omega
  refine ⟨fun v claim hclaim => ?_, hbelow, fun v claim claim' hclaim hclaim' => ?_⟩
  · rw [hphase]
    rcases eq_or_eq_not v w with rfl | rfl
    · rcases h.claim? hclaim with ⟨hold, -⟩ | ⟨-, -, hfile, -⟩
      · exact hs.placed v claim hold
      · exact hfile
    · rw [hother] at hclaim
      exact hs.placed _ claim hclaim
  · rcases eq_or_eq_not v w with rfl | rfl
    · exact hapart claim claim' hclaim hclaim'
    · rw [Bool.not_not] at hclaim'
      exact (hapart claim' claim hclaim' hclaim).symm

end Turns

end ChatStasher.Mirror
