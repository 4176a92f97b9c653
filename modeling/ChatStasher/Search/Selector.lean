import ChatStasher.Library.ThreeValued
import ChatStasher.Search.Sessions

/-! The filters of a search: what `Selector::select` answers for a session, and when that is the
three-valued conjunction of the filters. -/
namespace ChatStasher.Selection
open ThreeValued
open Search (Verdict UnplacedBy)

/-- What the two bounds of a session are bounds of: its span, or an inner part of it. -/
inductive TimeBounds
  | complete
  | innerBounds
  deriving DecidableEq

structure SessionMeta where
  machine : Ident
  sessionId : Ident
  harness : Option Ident
  surfaces : Option (List Ident)
  firstUnix : Option ℤ
  lastUnix : Option ℤ
  timeBounds : TimeBounds
  timeWhy : Option String

structure TimeWindow where
  sinceUnix : Option ℤ
  untilUnix : Option ℤ

/-- The filter set; an absent field is no constraint. -/
structure Selector where
  sessionIdPrefix : Option Ident
  machine : Option Ident
  harnesses : Option (List Ident)
  surface : Option Ident
  window : Option TimeWindow

def unknownSurface : Ident := "unknown".toList

def harnessWhy : String := "the harness filter cannot be evaluated for this session: its archived " ++
  "id carries no harness prefix (no `.` or `~` segment)"

def unknownSurfaceWhy : String :=
  "the session has an unknown source surface, so the surface filter cannot establish a match"

def noSurfaceWhy : String := "no source-surface provenance was recorded for this session"

def partialTimeWhy : String := "only part of this session's conversation could be placed in time " ++
  "and no reason was recorded"

def unknownTimeWhy : String :=
  "the conversation time of this session is unknown and no reason was recorded"

def TimeWindow.meets (window : TimeWindow) (first last : ℤ) : Bool :=
  window.sinceUnix.all (· ≤ last) && window.untilUnix.all (first ≤ ·)

/-- The last check: the window against the bounds. -/
def TimeWindow.select (window : TimeWindow) (session : SessionMeta) : Verdict :=
  match session.firstUnix, session.lastUnix with
  | some first, some last =>
    if window.meets first last then .selected
    else if session.timeBounds = .innerBounds then
      .unevaluated .time (session.timeWhy.getD partialTimeWhy)
    else .notSelected
  | _, _ => .unevaluated .time (session.timeWhy.getD unknownTimeWhy)

namespace Selector

def selectWindow (s : Selector) (session : SessionMeta) : Verdict :=
  match s.window with
  | none => .selected
  | some window => window.select session

def selectSurface (s : Selector) (session : SessionMeta) : Verdict :=
  match s.surface with
  | none => s.selectWindow session
  | some want =>
    match session.surfaces with
    | some values =>
      if want ∈ values then s.selectWindow session
      else if unknownSurface ∈ values then .unevaluated .surface unknownSurfaceWhy
      else if values ≠ [] then .notSelected
      else .unevaluated .surface noSurfaceWhy
    | none => .unevaluated .surface noSurfaceWhy

def selectHarness (s : Selector) (session : SessionMeta) : Verdict :=
  match s.harnesses with
  | none => s.selectSurface session
  | some want =>
    match session.harness with
    | some h => if h ∈ want then s.selectSurface session else .notSelected
    | none => .unevaluated .harness harnessWhy

/-- Decide one session: one filter after the other, up to the first that does not hold. -/
def select (s : Selector) (session : SessionMeta) : Verdict :=
  if s.machine.any (· ≠ session.machine) then .notSelected
  else if s.sessionIdPrefix.any (¬ · <+: session.sessionId) then .notSelected
  else s.selectHarness session

/-- The rule that a search places sessions by, for rows that record their surfaces. -/
def rule {Extra : Type} (surfaces : Extra → List Ident) (s : Selector)
    (row : Search.SessionMeta Extra) : Verdict :=
  s.select ⟨row.machine, row.sessionId, row.harness, row.extra.map surfaces, row.firstUnix,
    row.lastUnix, if row.boundsPartial then .innerBounds else .complete, row.timeWhy⟩

end Selector

section Answers

/-- What a verdict says of the conjunction of the filters. -/
def outcome : Verdict → Truth
  | .selected => .holds
  | .notSelected => .fails
  | .unevaluated .. => .unknown

/-- The filters, in the order they are written. -/
inductive Dimension
  | machine
  | sessionId
  | harness
  | surface
  | window
  deriving DecidableEq

def Dimension.written : List Dimension := [.machine, .sessionId, .harness, .surface, .window]

def knownWhether (holds : Bool) : Truth := if holds then .holds else .fails

namespace SessionMeta
variable (session : SessionMeta)

def harnessAmong (want : List Ident) : Truth :=
  session.harness.elim .unknown fun h => knownWhether (h ∈ want)

/-- A recorded surface holds; other recorded surfaces fail, unless one of them is unknown. -/
def onSurface (want : Ident) : Truth :=
  match session.surfaces with
  | none | some [] => .unknown
  | some values =>
    if want ∈ values then .holds else if unknownSurface ∈ values then .unknown else .fails

/-- An interval of which one bound is unknown answers nothing; an inner part of one only that the
window is met. -/
def within (window : TimeWindow) : Truth :=
  match session.firstUnix, session.lastUnix, session.timeBounds with
  | some first, some last, .complete => knownWhether (window.meets first last)
  | some first, some last, .innerBounds => if window.meets first last then .holds else .unknown
  | _, _, _ => .unknown

end SessionMeta

/-- What is known of one filter for a session, where the filter is active. -/
def Selector.answer (s : Selector) (session : SessionMeta) : Dimension → Option Truth
  | .machine => s.machine.map fun want => knownWhether (session.machine = want)
  | .sessionId => s.sessionIdPrefix.map fun start => knownWhether (start <+: session.sessionId)
  | .harness => s.harnesses.map session.harnessAmong
  | .surface => s.surface.map session.onSurface
  | .window => s.window.map session.within

def Selector.answers (s : Selector) (session : SessionMeta) (order : List Dimension) : List Truth :=
  order.filterMap (s.answer session)

variable (s : Selector) (session : SessionMeta)

lemma outcome_selectWindow :
    outcome (s.selectWindow session) = scan (s.answers session [.window]) := by
  unfold Selector.selectWindow Selector.answers
  cases hwindow : s.window with
  | none => simp [Selector.answer, hwindow, outcome, scan]
  | some window =>
    dsimp only
    unfold TimeWindow.select
    simp only [List.filterMap_cons, Selector.answer, hwindow, Option.map_some, List.filterMap_nil,
      SessionMeta.within]
    cases session.firstUnix with
    | none => rfl
    | some first =>
      cases session.lastUnix with
      | none => rfl
      | some last =>
        cases hmeets : window.meets first last with
        | true => cases session.timeBounds <;> simp [hmeets, knownWhether, outcome, scan]
        | false => cases session.timeBounds <;> simp [hmeets, knownWhether, outcome]

lemma outcome_selectSurface :
    outcome (s.selectSurface session) = scan (s.answers session [.surface, .window]) := by
  have hwindow := outcome_selectWindow s session
  unfold Selector.selectSurface
  unfold Selector.answers at hwindow ⊢
  cases hsurface : s.surface with
  | none => simpa [Selector.answer, hsurface] using hwindow
  | some want =>
    rw [List.filterMap_cons_some (b := session.onSurface want) (by simp [Selector.answer, hsurface])]
    unfold SessionMeta.onSurface
    cases session.surfaces with
    | none => rfl
    | some values =>
      cases values with
      | nil => rfl
      | cons value values =>
        dsimp only
        split
        · rw [scan_holds_cons, hwindow]
        · split
          · rfl
          · rfl

lemma outcome_selectHarness :
    outcome (s.selectHarness session) = scan (s.answers session [.harness, .surface, .window]) := by
  have hsurface := outcome_selectSurface s session
  unfold Selector.selectHarness
  unfold Selector.answers at hsurface ⊢
  cases hharness : s.harnesses with
  | none => simpa [Selector.answer, hharness] using hsurface
  | some want =>
    rw [List.filterMap_cons_some (b := session.harnessAmong want)
      (by simp [Selector.answer, hharness])]
    unfold SessionMeta.harnessAmong
    cases session.harness with
    | none => rfl
    | some h =>
      by_cases hmem : h ∈ want
      · simp [knownWhether, hmem, hsurface]
      · simp [knownWhether, hmem, outcome]

theorem outcome_select : outcome (s.select session) = scan (s.answers session Dimension.written) := by
  have hrest := outcome_selectHarness s session
  unfold Selector.select Dimension.written
  unfold Selector.answers at hrest ⊢
  rw [List.filterMap_cons, List.filterMap_cons]
  simp only [Selector.answer]
  cases s.machine with
  | none =>
    cases s.sessionIdPrefix with
    | none => simpa using hrest
    | some start =>
      by_cases hstart : start <+: session.sessionId
      · simpa [hstart, knownWhether] using hrest
      · simp [hstart, knownWhether, outcome]
  | some want =>
    by_cases hmachine : want = session.machine
    · subst hmachine
      cases s.sessionIdPrefix with
      | none => simpa [knownWhether] using hrest
      | some start =>
        by_cases hstart : start <+: session.sessionId
        · simpa [hstart, knownWhether] using hrest
        · simp [hstart, knownWhether, outcome]
    · simp [knownWhether, hmachine, Ne.symm hmachine, outcome]

end Answers

end ChatStasher.Selection
