import ChatStasher.Search.Selector

/-! What a verdict of the selector says of the session as it truly is, and when it is the three-valued
conjunction of the active filters. -/
namespace ChatStasher.Selection
open ThreeValued
open Search (Verdict)

/-- A session with nothing unknown. -/
structure TrueSession where
  machine : Ident
  sessionId : Ident
  harness : Ident
  surfaces : List Ident
  firstUnix : ℤ
  lastUnix : ℤ

/-- A bound that is known is the true one, or lies within the true span where it is an inner bound. -/
def boundAgrees (bounds : TimeBounds) (known : Option ℤ) (true_ : ℤ) (outside : ℤ → Prop) : Prop :=
  ∀ bound ∈ known, match bounds with
    | .complete => true_ = bound
    | .innerBounds => outside bound

/-- The true session is one that what is recorded of it leaves possible. -/
structure Completes (session : SessionMeta) (truth : TrueSession) : Prop where
  machine : truth.machine = session.machine
  sessionId : truth.sessionId = session.sessionId
  harness : ∀ h ∈ session.harness, truth.harness = h
  surfaces : ∀ values ∈ session.surfaces, values ≠ [] →
    (∀ value ∈ values, value ∈ truth.surfaces) ∧
      (unknownSurface ∉ values → ∀ value ∈ truth.surfaces, value ∈ values)
  first : boundAgrees session.timeBounds session.firstUnix truth.firstUnix (truth.firstUnix ≤ ·)
  last : boundAgrees session.timeBounds session.lastUnix truth.lastUnix (· ≤ truth.lastUnix)

def Selector.demands (s : Selector) (truth : TrueSession) : Dimension → Prop
  | .machine => ∀ want ∈ s.machine, truth.machine = want
  | .sessionId => ∀ start ∈ s.sessionIdPrefix, start <+: truth.sessionId
  | .harness => ∀ want ∈ s.harnesses, truth.harness ∈ want
  | .surface => ∀ want ∈ s.surface, want ∈ truth.surfaces
  | .window => ∀ window ∈ s.window, window.meets truth.firstUnix truth.lastUnix = true

variable {s : Selector} {session : SessionMeta} {truth : TrueSession}

lemma knownWhether_eq_holds {b : Bool} : knownWhether b = .holds ↔ b = true := by
  cases b <;> simp [knownWhether]

lemma knownWhether_eq_fails {b : Bool} : knownWhether b = .fails ↔ b = false := by
  cases b <;> simp [knownWhether]

lemma TimeWindow.meets_of_inner {window : TimeWindow} {first last first' last' : ℤ}
    (h : window.meets first last = true) (hfirst : first' ≤ first) (hlast : last ≤ last') :
    window.meets first' last' = true := by
  unfold TimeWindow.meets at h ⊢
  rw [Bool.and_eq_true, Option.all_eq_true, Option.all_eq_true] at h ⊢
  refine ⟨fun since hsince => ?_, fun until_ huntil => ?_⟩
  · have := of_decide_eq_true (h.1 since hsince)
    exact decide_eq_true (by omega)
  · have := of_decide_eq_true (h.2 until_ huntil)
    exact decide_eq_true (by omega)

lemma within_spec (h : Completes session truth) (window : TimeWindow) :
    (session.within window = .holds → window.meets truth.firstUnix truth.lastUnix = true) ∧
      (session.within window = .fails → window.meets truth.firstUnix truth.lastUnix = false) := by
  have hfirst := h.first
  have hlast := h.last
  unfold SessionMeta.within
  cases hf : session.firstUnix with
  | none => simp
  | some first =>
    cases hl : session.lastUnix with
    | none => simp
    | some last =>
      cases hbounds : session.timeBounds with
      | complete =>
        have hf' : truth.firstUnix = first := by
          simpa [boundAgrees, hf, hbounds] using hfirst
        have hl' : truth.lastUnix = last := by
          simpa [boundAgrees, hl, hbounds] using hlast
        simp [knownWhether_eq_holds, knownWhether_eq_fails, hf', hl']
      | innerBounds =>
        have hf' : truth.firstUnix ≤ first := by
          simpa [boundAgrees, hf, hbounds] using hfirst
        have hl' : last ≤ truth.lastUnix := by
          simpa [boundAgrees, hl, hbounds] using hlast
        cases hmeets : window.meets first last with
        | true => simp [hmeets, TimeWindow.meets_of_inner hmeets hf' hl']
        | false => simp [hmeets]

lemma onSurface_spec (h : Completes session truth) (want : Ident) :
    (session.onSurface want = .holds → want ∈ truth.surfaces) ∧
      (session.onSurface want = .fails → want ∉ truth.surfaces) := by
  have hsurfaces := h.surfaces
  unfold SessionMeta.onSurface
  cases hs : session.surfaces with
  | none => simp
  | some values =>
    cases values with
    | nil => simp
    | cons value values =>
      obtain ⟨hsub, honly⟩ := hsurfaces _ hs (List.cons_ne_nil _ _)
      dsimp only
      split
      next hwant => exact ⟨fun _ => hsub want hwant, nofun⟩
      next hwant =>
        split
        · exact ⟨nofun, nofun⟩
        next hunknown => exact ⟨nofun, fun _ hmem => hwant (honly hunknown want hmem)⟩

lemma answer_spec (h : Completes session truth) (d : Dimension) :
    (s.answer session d = some .holds → s.demands truth d) ∧
      (s.answer session d = some .fails → ¬ s.demands truth d) := by
  cases d with
  | machine =>
    cases hs : s.machine <;>
      simp [Selector.answer, Selector.demands, hs, h.machine, knownWhether_eq_holds,
        knownWhether_eq_fails]
  | sessionId =>
    cases hs : s.sessionIdPrefix <;>
      simp [Selector.answer, Selector.demands, hs, h.sessionId, knownWhether_eq_holds,
        knownWhether_eq_fails]
  | harness =>
    cases hs : s.harnesses with
    | none => simp [Selector.answer, hs]
    | some want =>
      have hharness := h.harness
      cases hh : session.harness with
      | none => simp [Selector.answer, SessionMeta.harnessAmong, hs, hh]
      | some harness =>
        simp [Selector.answer, SessionMeta.harnessAmong, Selector.demands, hs, hh,
          hharness harness hh, knownWhether_eq_holds, knownWhether_eq_fails]
  | surface =>
    cases hs : s.surface with
    | none => simp [Selector.answer, hs]
    | some want => simpa [Selector.answer, Selector.demands, hs] using onSurface_spec h want
  | window =>
    cases hs : s.window with
    | none => simp [Selector.answer, hs]
    | some window => simpa [Selector.answer, Selector.demands, hs] using within_spec h window

lemma demands_of_inactive {d : Dimension} (h : s.answer session d = none) :
    s.demands truth d := by
  cases d with
  | machine | sessionId | harness | surface | window =>
    simp only [Selector.answer, Option.map_eq_none_iff] at h
    simp [Selector.demands, h]

lemma mem_answers {order : List Dimension} {answer : Truth} (horder : order.Perm Dimension.written) :
    answer ∈ s.answers session order ↔ ∃ d, s.answer session d = some answer := by
  have hall : ∀ d, d ∈ order := fun d => horder.mem_iff.mpr (by cases d <;> decide)
  simp [Selector.answers, List.mem_filterMap, hall]

/-- The outcome is the three-valued conjunction of the active filters: not selected where one is known
to fail, selected where each is known to hold, and unevaluated otherwise. -/
structure ThreeValuedSelect (s : Selector) (session : SessionMeta) : Prop where
  notSelected : s.select session = .notSelected ↔ ∃ d, s.answer session d = some .fails
  selected : s.select session = .selected ↔
    ∀ d answer, s.answer session d = some answer → answer = .holds

/-- Asked in any other order, the active filters give the same outcome. -/
def OrderFree (s : Selector) (session : SessionMeta) : Prop :=
  ∀ order, order.Perm Dimension.written →
    scan (s.answers session order) = outcome (s.select session)

lemma outcome_eq_holds {verdict : Verdict} : outcome verdict = .holds ↔ verdict = .selected := by
  cases verdict <;> simp [outcome]

lemma outcome_eq_fails {verdict : Verdict} : outcome verdict = .fails ↔ verdict = .notSelected := by
  cases verdict <;> simp [outcome]

lemma threeValuedSelect_iff :
    ThreeValuedSelect s session ↔ Unmasked (s.answers session Dimension.written) := by
  have hmem : ∀ answer, answer ∈ s.answers session Dimension.written ↔
      ∃ d, s.answer session d = some answer := fun _ => mem_answers (List.Perm.refl _)
  have hfails : conj (s.answers session Dimension.written) = .fails ↔
      ∃ d, s.answer session d = some .fails := conj_eq_fails.trans (hmem _)
  have hholds : conj (s.answers session Dimension.written) = .holds ↔
      ∀ d answer, s.answer session d = some answer → answer = .holds := by
    simp only [conj_eq_holds, hmem]
    exact ⟨fun h d answer hd => h answer ⟨d, hd⟩, fun h answer ⟨d, hd⟩ => h d answer hd⟩
  rw [← scan_eq_conj_iff, ← outcome_select]
  constructor
  · intro h
    have hnot := (outcome_eq_fails.trans h.notSelected).trans hfails.symm
    have hsel := (outcome_eq_holds.trans h.selected).trans hholds.symm
    cases hverdict : outcome (s.select session) with
    | holds => exact (hsel.mp hverdict).symm
    | fails => exact (hnot.mp hverdict).symm
    | unknown =>
      cases hconj : conj (s.answers session Dimension.written) with
      | holds => rw [hsel.mpr hconj] at hverdict; cases hverdict
      | fails => rw [hnot.mpr hconj] at hverdict; cases hverdict
      | unknown => rfl
  · intro h
    rw [← h] at hfails hholds
    exact ⟨outcome_eq_fails.symm.trans hfails, outcome_eq_holds.symm.trans hholds⟩

lemma answers_perm {order : List Dimension} (horder : order.Perm Dimension.written) :
    (s.answers session order).Perm (s.answers session Dimension.written) :=
  horder.filterMap _

lemma exists_order {answers : List Truth}
    (h : answers.Perm (s.answers session Dimension.written)) :
    ∃ order, order.Perm Dimension.written ∧ s.answers session order = answers := by
  generalize Dimension.written = written at h
  induction written generalizing answers with
  | nil => exact ⟨[], List.Perm.refl _, h.eq_nil.symm⟩
  | cons d written ih =>
    cases hd : s.answer session d with
    | none =>
      have hskip : s.answers session (d :: written) = s.answers session written := by
        simp [Selector.answers, hd]
      obtain ⟨order, hperm, horder⟩ := ih (hskip ▸ h)
      exact ⟨d :: order, hperm.cons d, by simpa [Selector.answers, hd] using horder⟩
    | some answer =>
      have hcons : s.answers session (d :: written) = answer :: s.answers session written := by
        simp [Selector.answers, hd]
      rw [hcons] at h
      obtain ⟨before, after, rfl⟩ := List.append_of_mem (h.mem_iff.mpr List.mem_cons_self)
      obtain ⟨order, hperm, horder⟩ := ih ((List.perm_middle.symm.trans h).cons_inv)
      obtain ⟨front, back, rfl, hfront, hback⟩ := List.filterMap_eq_append_iff.mp horder
      refine ⟨front ++ d :: back, List.perm_middle.trans (hperm.cons d), ?_⟩
      simp only [Selector.answers, List.filterMap_append, List.filterMap_cons, hd, hfront, hback]

lemma orderFree_iff : OrderFree s session ↔
    ¬ ((∃ d, s.answer session d = some .fails) ∧ ∃ d, s.answer session d = some .unknown) := by
  have hmem : ∀ answer, answer ∈ s.answers session Dimension.written ↔
      ∃ d, s.answer session d = some answer := fun _ => mem_answers (List.Perm.refl _)
  rw [← hmem, ← hmem, ← scan_perm_iff, OrderFree, outcome_select]
  constructor
  · intro h answers hperm
    obtain ⟨order, horder, rfl⟩ := exists_order hperm
    exact h order horder
  · intro h order horder
    exact h _ (answers_perm horder)

/-- The outcome is the three-valued conjunction of the active filters, in whatever order they are
written, exactly where none is known to fail while another cannot be evaluated; in the order they are
written, exactly where no such one stands before the first that fails. A selected session meets every
filter, and one that is not selected fails one, whatever its unknown fields truly are. -/
theorem select_three_valued_iff (s : Selector) (session : SessionMeta) :
    (ThreeValuedSelect s session ∧ OrderFree s session ↔
      ¬ ((∃ d, s.answer session d = some .fails) ∧ ∃ d, s.answer session d = some .unknown)) ∧
    (ThreeValuedSelect s session ↔ Unmasked (s.answers session Dimension.written)) ∧
    (s.select session = .selected →
      ∀ truth, Completes session truth → ∀ d, s.demands truth d) ∧
    (s.select session = .notSelected →
      ∀ truth, Completes session truth → ∃ d, ¬ s.demands truth d) := by
  have hmem : ∀ answer, answer ∈ s.answers session Dimension.written ↔
      ∃ d, s.answer session d = some answer := fun _ => mem_answers (List.Perm.refl _)
  refine ⟨⟨fun h => orderFree_iff.mp h.2, fun h => ⟨?_, orderFree_iff.mpr h⟩⟩,
    threeValuedSelect_iff, fun hselected truth htruth d => ?_, fun hnot truth htruth => ?_⟩
  · refine threeValuedSelect_iff.mpr fun before after heq hfails => absurd ?_ h
    rw [← hmem, ← hmem, heq]
    simp [hfails]
  · have hall := scan_eq_holds.mp (outcome_select s session ▸ outcome_eq_holds.mpr hselected)
    cases hd : s.answer session d with
    | none => exact demands_of_inactive hd
    | some answer =>
      obtain rfl := hall answer ((hmem _).mpr ⟨d, hd⟩)
      exact (answer_spec htruth d).1 hd
  · have hscan : scan (s.answers session Dimension.written) = .fails :=
      outcome_select s session ▸ outcome_eq_fails.mpr hnot
    obtain ⟨d, hd⟩ := (hmem _).mp (mem_of_scan hscan (by decide))
    exact ⟨d, (answer_spec htruth d).2 hd⟩

/-- A session outside the window is not reported as such when its harness is unknown. -/
theorem unknown_harness_masks_window :
    ¬ ThreeValuedSelect
      ⟨none, none, some ["codex".toList], none, some ⟨some 5000, some 6000⟩⟩
      ⟨"m".toList, ".odd".toList, none, none, some 1, some 2, .complete, none⟩ := by
  intro h
  have hnot := h.notSelected.mpr ⟨.window, by decide⟩
  have hselect : outcome (Selector.select
      ⟨none, none, some ["codex".toList], none, some ⟨some 5000, some 6000⟩⟩
      ⟨"m".toList, ".odd".toList, none, none, some 1, some 2, .complete, none⟩) = .unknown := rfl
  rw [hnot] at hselect
  cases hselect

end ChatStasher.Selection
