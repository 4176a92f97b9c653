import ChatStasher.Reclaim.Manifest

/-! The proof a reclaim needs: the survey, every healthy destination's answer, the mirror leg. -/
namespace ChatStasher

/-- One session with a body in the stage, with its expected digest triple. -/
structure Candidate (D : Type) where
  key : SessionKey
  shardCount : ℕ
  concatBytes : ℕ
  sha256 : D
  deriving DecidableEq

/-- A surveyed session and the sequences its triple was hashed from, one enumeration for both. -/
structure SurveyedSession (D : Type) where
  expectation : Candidate D
  shardSequences : List ℕ
  deriving DecidableEq

inductive DestinationHealth
  | healthy
  | lagging
  | neverPushed
  | unknown (why : String)
  deriving DecidableEq

/-- Past its degrade-after, hence not consulted; `unknown` stays in the must-prove set. -/
def DestinationHealth.isDegraded : DestinationHealth → Bool
  | lagging | neverPushed => true
  | _ => false

/-- One machine's newest snapshot as the archive reports it. -/
structure MachineMerge (D : Type) where
  snapshotId : Ident
  sessions : List (Candidate D)

structure ReadAllReport (D : Type) where
  machines : List (MachineMerge D)
  warnings : List String

def ReadAllReport.complete {D : Type} (report : ReadAllReport D) : Bool := report.warnings.isEmpty

/-- A declared destination, and what opening and reading its archive gives. -/
structure NamedStore (D : Type) where
  name : Ident
  health : DestinationHealth
  archive : Except String (ReadAllReport D)

/-- How a destination answered the consult. -/
inductive DestinationRead (D : Type)
  | ready (map : List (SessionKey × Candidate D)) (snapshots : List (Ident × Ident))
  | unreachable (error : String)
  | partialRead (detail : String)

inductive BlockedKind
  | unreachable (error : String)
  | partialRead (detail : String)
  | sessionNotHeld
  | tripleMismatch
  | notMirrored
  | mirrorUnresolved
  deriving DecidableEq

/-- Why the reclaim is refused, and how much is held back. -/
structure Blocked where
  destination : Ident
  kind : BlockedKind
  sessions : ℕ
  bytes : ℕ
  deriving DecidableEq

/-- The machine's mirror of one destination: whether its copy is on disk, and which snapshots its
record holds closure-complete. -/
structure MirrorHoldback where
  mirrorOf : Ident
  copyOnDisk : Bool
  closureComplete : List Ident

variable (H : Sha256)

/-- Derive one session's expectation and, in the same enumeration, its sequence numbers. -/
def surveySession (stage : Stage H.Digest) (key : SessionKey) : SurveyedSession H.Digest :=
  let entries := sortedEntries (stage.dir key)
  let concat := (entries.map fun e => e.2.bytes).flatten
  ⟨⟨key, entries.length, concat.length, H.digest concat⟩, entries.map Prod.fst⟩

/-- `expected_manifest_surveyed`: every session directory once, in key order. -/
def expectedManifestSurveyed (stage : Stage H.Digest) : List (SurveyedSession H.Digest) :=
  (stage.sessions.map (surveySession H stage)).insertionSort fun a b =>
    toLex (a.expectation.key.machine, a.expectation.key.session) ≤
      toLex (b.expectation.key.machine, b.expectation.key.session)

def surveyCandidates (stage : Stage H.Digest) : List (SurveyedSession H.Digest) :=
  (expectedManifestSurveyed H stage).filter fun s => s.expectation.shardCount ≠ 0

section Decision
variable {D : Type} [DecidableEq D]

/-- Ask one destination for the digest triple of every session it holds. -/
def consultDestination (dest : NamedStore D) : DestinationRead D :=
  match dest.archive with
  | .error error => .unreachable error
  | .ok report =>
    if !report.complete then .partialRead ("; ".intercalate report.warnings)
    else
      .ready
        (KeyedList.lastWins (report.machines.flatMap fun m => m.sessions.map fun s => (s.key, s)))
        (KeyedList.lastWins (report.machines.flatMap fun m =>
          m.sessions.map fun s => (s.key.machine, m.snapshotId)))

/-- What stands against one candidate in one destination's answer. -/
def candidateGap (map : List (SessionKey × Candidate D)) (cand : Candidate D) :
    Option BlockedKind :=
  match map.lookup cand.key with
  | none => some .sessionNotHeld
  | some obs =>
    if obs.shardCount ≠ cand.shardCount ∨ obs.concatBytes ≠ cand.concatBytes ∨
        obs.sha256 ≠ cand.sha256 then some .tripleMismatch
    else none

/-- One row for a destination that fails to hold some candidate, under the first gap's kind. -/
def heldBack (candidates : List (Candidate D)) (name : Ident)
    (map : List (SessionKey × Candidate D)) : Option Blocked :=
  let gaps := candidates.filterMap fun cand =>
    (candidateGap map cand).map fun kind => (kind, cand.concatBytes)
  gaps.head?.map fun gap => ⟨name, gap.1, gaps.length, (gaps.map Prod.snd).sum⟩

def candidateBytes (candidates : List (Candidate D)) : ℕ := (candidates.map (·.concatBytes)).sum

/-- The row of a destination that could not be consulted, or not to completion. -/
def consultBlock (candidates : List (Candidate D)) (dest : NamedStore D) : Option Blocked :=
  match consultDestination dest with
  | .ready _ _ => none
  | .unreachable error =>
    some ⟨dest.name, .unreachable error, candidates.length, candidateBytes candidates⟩
  | .partialRead detail =>
    some ⟨dest.name, .partialRead detail, candidates.length, candidateBytes candidates⟩

/-- A destination's answer as the later phases use it, the consult having gone through. -/
def readyAnswer (dest : NamedStore D) :
    Option (Ident × List (SessionKey × Candidate D) × List (Ident × Ident)) :=
  match consultDestination dest with
  | .ready map snapshots => some (dest.name, map, snapshots)
  | _ => none

/-- The mirror leg: an enabled mirror must hold the proof's snapshot of its destination. -/
def mirrorBlock (candidates : List (Candidate D))
    (ready : List (Ident × List (SessionKey × Candidate D) × List (Ident × Ident)))
    (holdback : MirrorHoldback) : Option Blocked :=
  match ready.find? fun r => r.1 = holdback.mirrorOf with
  | none => some ⟨holdback.mirrorOf, .mirrorUnresolved, candidates.length, candidateBytes candidates⟩
  | some (name, _, snapshots) =>
    let uncovered := candidates.filter fun cand =>
      !(holdback.copyOnDisk && (snapshots.lookup cand.key.machine).any
        (holdback.closureComplete.contains ·))
    if uncovered = [] then none
    else some ⟨name, .notMirrored, uncovered.length, candidateBytes uncovered⟩

/-- The refusal of a reclaim: no healthy prover, or the rows that block it. -/
structure ProofReport where
  noHealthyProver : Bool
  blocked : List Blocked

def ProofReport.refused (report : ProofReport) : Bool :=
  !report.blocked.isEmpty || report.noHealthyProver

/-- Phases 0 to 2½: each phase runs only if the one before it blocked nothing. -/
def proveCandidates (candidates : List (Candidate D)) (destinations : List (NamedStore D))
    (mirror : Option MirrorHoldback) : ProofReport :=
  if destinations = [] then
    ⟨false, [⟨"<none>".toList,
      .unreachable "no destination declared; nothing can be proven against an empty set",
      candidates.length, candidateBytes candidates⟩]⟩
  else
    let mustProve := destinations.filter fun dest => !dest.health.isDegraded
    if mustProve = [] then ⟨true, []⟩
    else
      let unread := mustProve.filterMap (consultBlock candidates)
      if unread ≠ [] then ⟨false, unread⟩
      else
        let ready := mustProve.filterMap readyAnswer
        let held := (ready.filterMap fun r => heldBack candidates r.1 r.2.1).insertionSort
          fun a b => a.destination ≤ b.destination
        if held ≠ [] then ⟨false, held⟩
        else ⟨false, (mirror.bind (mirrorBlock candidates ready)).toList⟩

end Decision

end ChatStasher

/-! When a reclaim's proof passes, and when one destination's answer is enough to refuse it. -/
namespace ChatStasher

variable {D : Type}

def SameTriple (a b : Candidate D) : Prop :=
  a.shardCount = b.shardCount ∧ a.concatBytes = b.concatBytes ∧ a.sha256 = b.sha256

/-- The destination could be read, and to the end, and its answer has every candidate's triple. -/
def ProvesAll (candidates : List (Candidate D)) (dest : NamedStore D) : Prop :=
  ∃ map snapshots, consultDestination dest = .ready map snapshots ∧
    ∀ cand ∈ candidates, ∃ obs, map.lookup cand.key = some obs ∧ SameTriple obs cand

lemma candidateGap_eq_none [DecidableEq D] {map : List (SessionKey × Candidate D)}
    {cand : Candidate D} :
    candidateGap map cand = none ↔ ∃ obs, map.lookup cand.key = some obs ∧ SameTriple obs cand := by
  unfold candidateGap SameTriple
  cases map.lookup cand.key with
  | none => simp
  | some obs =>
    simp only [Option.some.injEq, exists_eq_left']
    split
    next hne => simp only [reduceCtorEq, false_iff]; tauto
    next hsame => simp only [true_iff]; tauto

lemma heldBack_eq_none [DecidableEq D] {candidates : List (Candidate D)} {name : Ident}
    {map : List (SessionKey × Candidate D)} :
    heldBack candidates name map = none ↔ ∀ cand ∈ candidates, candidateGap map cand = none := by
  rw [heldBack, Option.map_eq_none_iff, List.head?_eq_none_iff, List.filterMap_eq_nil_iff]
  simp

lemma consultBlock_eq_none {candidates : List (Candidate D)} {dest : NamedStore D} :
    consultBlock candidates dest = none ↔
      ∃ map snapshots, consultDestination dest = .ready map snapshots := by
  unfold consultBlock
  cases consultDestination dest <;> simp

def readyAnswers (destinations : List (NamedStore D)) :
    List (Ident × List (SessionKey × Candidate D) × List (Ident × Ident)) :=
  (destinations.filter fun dest => !dest.health.isDegraded).filterMap readyAnswer

lemma ProofReport.refused_eq_false {report : ProofReport} :
    report.refused = false ↔ report.blocked = [] ∧ report.noHealthyProver = false := by
  simp [refused, List.isEmpty_iff]

lemma mem_readyAnswers {destinations : List (NamedStore D)}
    {r : Ident × List (SessionKey × Candidate D) × List (Ident × Ident)} :
    r ∈ readyAnswers destinations ↔ ∃ dest ∈ destinations, dest.health.isDegraded = false ∧
      r.1 = dest.name ∧ consultDestination dest = .ready r.2.1 r.2.2 := by
  have hready : ∀ dest, readyAnswer dest = some r ↔
      r.1 = dest.name ∧ consultDestination dest = .ready r.2.1 r.2.2 := by
    intro dest
    obtain ⟨name, map, snapshots⟩ := r
    unfold readyAnswer
    cases consultDestination dest <;> simp [eq_comm]
  simp only [readyAnswers, List.mem_filterMap, List.mem_filter, Bool.not_eq_true', hready, and_assoc]

/-- A proof passes exactly when some destination is not degraded, each such destination proves every
candidate, and an enabled mirror stands against none. -/
theorem proveCandidates_passes [DecidableEq D] {candidates : List (Candidate D)}
    {destinations : List (NamedStore D)} {mirror : Option MirrorHoldback} :
    (proveCandidates candidates destinations mirror).refused = false ↔
      (∃ dest ∈ destinations, dest.health.isDegraded = false) ∧
      (∀ dest ∈ destinations, dest.health.isDegraded = false → ProvesAll candidates dest) ∧
      ∀ holdback ∈ mirror, mirrorBlock candidates (readyAnswers destinations) holdback = none := by
  have hmust : destinations.filter (fun dest => !dest.health.isDegraded) = [] ↔
      ¬ ∃ dest ∈ destinations, dest.health.isDegraded = false := by
    simp [List.filter_eq_nil_iff]
  have hunread : (destinations.filter fun dest => !dest.health.isDegraded).filterMap
        (consultBlock candidates) = [] ↔ ∀ dest ∈ destinations, dest.health.isDegraded = false →
      ∃ map snapshots, consultDestination dest = .ready map snapshots := by
    simp only [List.filterMap_eq_nil_iff, List.mem_filter, Bool.not_eq_true', and_imp,
      consultBlock_eq_none]
  have hheld : ((readyAnswers destinations).filterMap fun r =>
        heldBack candidates r.1 r.2.1).insertionSort (fun a b => a.destination ≤ b.destination) = []
      ↔ ∀ r ∈ readyAnswers destinations, ∀ cand ∈ candidates, candidateGap r.2.1 cand = none := by
    rw [← List.length_eq_zero_iff, List.length_insertionSort, List.length_eq_zero_iff,
      List.filterMap_eq_nil_iff]
    exact forall₂_congr fun r _ => heldBack_eq_none
  by_cases hnone : ∃ dest ∈ destinations, dest.health.isDegraded = false
  · have hne : destinations ≠ [] := by
      rintro rfl
      simp at hnone
    simp only [proveCandidates, if_neg hne, if_neg (mt hmust.mp (not_not.mpr hnone))]
    rw [and_iff_right hnone]
    by_cases hread : ∀ dest ∈ destinations, dest.health.isDegraded = false →
        ∃ map snapshots, consultDestination dest = .ready map snapshots
    · rw [if_neg (not_not.mpr (hunread.mpr hread)), ← readyAnswers]
      have hproves : (∀ dest ∈ destinations, dest.health.isDegraded = false →
          ProvesAll candidates dest) ↔
          ∀ r ∈ readyAnswers destinations, ∀ cand ∈ candidates, candidateGap r.2.1 cand = none := by
        constructor
        · intro hall r hr cand hcand
          obtain ⟨dest, hdest, hhealth, -, hready⟩ := mem_readyAnswers.mp hr
          obtain ⟨map, snapshots, hready', hmap⟩ := hall dest hdest hhealth
          obtain ⟨rfl, -⟩ := DestinationRead.ready.inj (hready.symm.trans hready')
          exact candidateGap_eq_none.mpr (hmap cand hcand)
        · intro hall dest hdest hhealth
          obtain ⟨map, snapshots, hready⟩ := hread dest hdest hhealth
          have hr : (dest.name, map, snapshots) ∈ readyAnswers destinations :=
            mem_readyAnswers.mpr ⟨dest, hdest, hhealth, rfl, hready⟩
          exact ⟨map, snapshots, hready, fun cand hcand =>
            candidateGap_eq_none.mp (hall _ hr cand hcand)⟩
      rw [hproves]
      by_cases hgaps : ∀ r ∈ readyAnswers destinations, ∀ cand ∈ candidates,
          candidateGap r.2.1 cand = none
      · rw [if_neg (not_not.mpr (hheld.mpr hgaps)), ProofReport.refused_eq_false,
          and_iff_right hgaps]
        cases mirror <;> simp
      · rw [if_pos (mt hheld.mp hgaps), ProofReport.refused_eq_false]
        exact ⟨fun h => absurd (hheld.mp h.1) hgaps, fun h => absurd h.1 hgaps⟩
    · rw [if_pos (mt hunread.mp hread), ProofReport.refused_eq_false]
      have hnot : ¬ ∀ dest ∈ destinations, dest.health.isDegraded = false →
          ProvesAll candidates dest := fun hall => hread fun dest hdest hhealth => by
        obtain ⟨map, snapshots, hready, -⟩ := hall dest hdest hhealth
        exact ⟨map, snapshots, hready⟩
      exact ⟨fun h => absurd (hunread.mp h.1) hread, fun h => absurd h.1 hnot⟩
  · rw [proveCandidates]
    simp only [hmust.mpr hnone, if_true, hnone, false_and, iff_false]
    split <;> simp [ProofReport.refused]

end ChatStasher
