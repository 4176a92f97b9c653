import ChatStasher.Provenance.RowFile

/-! The session provenance sidecar that several passes read and replace at the same time. -/
namespace ChatStasher.Activity
open Inbox (Text)
open StepRun

/-- Privacy-safe provenance captured from a source path during collection. -/
structure SessionProvenance where
  sourcePathClass : Text
  parentSessionRef : Option Text
  deriving DecidableEq

abbrev SidecarRow := Text × SessionProvenance

abbrev SidecarRows := SortedMap Text SessionProvenance

variable (F : RowFormat SidecarRow)

/-- `load_session_provenance`: a missing file is the legacy state, a malformed one an error. -/
def loadSessionProvenance : Option Text → Option SidecarRows
  | none => some SortedMap.empty
  | some content => (F.parse content).map SortedMap.ofList

/-- One call of `record_session_provenance`. -/
structure RecordCall where
  sessionId : Text
  provenance : SessionProvenance
  deriving DecidableEq

/-- How far a call has come: nothing read yet, the sidecar read, its replacement in a temporary
file of its own, or ended. -/
inductive RecordPhase
  | begun
  | loaded (rows : SidecarRows)
  | prepared (rows : SidecarRows)
  | ended (ok : Bool)

/-- The sidecar, the calls in flight, and the value of the last call for each session that
returned `Ok`. -/
structure SidecarState where
  content : Option Text
  calls : ℕ → Option (RecordCall × RecordPhase)
  recorded : Text → Option SessionProvenance

/-- The storage operations of the calls; one that is killed or meets an error does no more. -/
inductive SidecarAction
  | begin (c : ℕ) (call : RecordCall)
  | load (c : ℕ)
  | prepare (c : ℕ)
  | persist (c : ℕ)
  | stop (c : ℕ)

namespace SidecarState

def phase (s : SidecarState) (c : ℕ) (call : RecordCall) (phase : RecordPhase) : SidecarState :=
  { s with calls := Function.update s.calls c (some (call, phase)) }

def succeed (s : SidecarState) (c : ℕ) (call : RecordCall) : SidecarState :=
  { s.phase c call (.ended true) with
    recorded := Function.update s.recorded call.sessionId (some call.provenance) }

end SidecarState

def sidecarStep (s : SidecarState) : SidecarAction → SidecarState
  | .begin c call =>
    match s.calls c with
    | none => s.phase c call .begun
    | some _ => s
  | .load c =>
    match s.calls c with
    | some (call, .begun) =>
      match loadSessionProvenance F s.content with
      | none => s.phase c call (.ended false)
      | some rows =>
        if rows.get call.sessionId = some call.provenance then s.succeed c call
        else s.phase c call (.loaded rows)
    | _ => s
  | .prepare c =>
    match s.calls c with
    | some (call, .loaded rows) =>
      s.phase c call (.prepared (rows.insert call.sessionId call.provenance))
    | _ => s
  | .persist c =>
    match s.calls c with
    | some (call, .prepared rows) =>
      { s.succeed c call with content := some (F.render rows.entries) }
    | _ => s
  | .stop c =>
    match s.calls c with
    | some (call, .ended ok) => s.phase c call (.ended ok)
    | some (call, _) => s.phase c call (.ended false)
    | none => s

def entry (s : SidecarState) (sessionId : Text) : Option SessionProvenance :=
  (loadSessionProvenance F s.content).bind fun rows => rows.get sessionId

def SidecarAction.call : SidecarAction → ℕ
  | .begin c _ | .load c | .prepare c | .persist c | .stop c => c

/-- An operation changes at most what the sidecar says of its own call's session. -/
def KeepsOthers (s : SidecarState) (a : SidecarAction) : Prop :=
  ∀ id, (∀ call phase, s.calls a.call = some (call, phase) → call.sessionId ≠ id) →
    entry F (sidecarStep F s a) id = entry F s id

/-- The sidecar parses and holds the latest provenance recorded for each session. -/
structure HoldsRecorded (s : SidecarState) : Prop where
  parses : ∃ rows, loadSessionProvenance F s.content = some rows
  recorded : ∀ id provenance, s.recorded id = some provenance → entry F s id = some provenance

/-- What an operation has to do: leave other sessions alone and keep what is recorded. -/
def RecordKept (s : SidecarState) (a : SidecarAction) : Prop :=
  KeepsOthers F s a ∧ HoldsRecorded F (sidecarStep F s a)

/-- A call that replaces the sidecar finds of every other session what it had read of it. -/
def OthersUnchanged (s : SidecarState) : SidecarAction → Prop
  | .persist c => ∀ call rows, s.calls c = some (call, .prepared rows) →
      ∀ id, call.sessionId ≠ id → rows.get id = entry F s id
  | _ => True

variable {F}

lemma entry_congr {s s' : SidecarState} (h : s'.content = s.content) (id : Text) :
    entry F s' id = entry F s id := by
  rw [entry, h, ← entry]

lemma entry_render (s : SidecarState) (rows : SidecarRows) (id : Text) :
    entry F { s with content := some (F.render rows.entries) } id = rows.get id := by
  simp [entry, loadSessionProvenance, F.parse_render]

def PreparedOwn (s : SidecarState) : Prop :=
  ∀ c call rows, s.calls c = some (call, .prepared rows) →
    rows.get call.sessionId = some call.provenance

/-- What one operation does to the sidecar and to what is recorded. -/
inductive SidecarTurn (F : RowFormat SidecarRow) (s : SidecarState) (a : SidecarAction)
    (s' : SidecarState) : Prop
  | silent (hcontent : s'.content = s.content) (hrecorded : s'.recorded = s.recorded)
  | already (call : RecordCall) (hcall : s.calls a.call = some (call, .begun))
      (hentry : entry F s call.sessionId = some call.provenance) (hcontent : s'.content = s.content)
      (hrecorded : s'.recorded =
        Function.update s.recorded call.sessionId (some call.provenance))
  | published (c : ℕ) (ha : a = .persist c) (call : RecordCall) (rows : SidecarRows)
      (hcall : s.calls c = some (call, .prepared rows))
      (hcontent : s'.content = some (F.render rows.entries))
      (hrecorded : s'.recorded =
        Function.update s.recorded call.sessionId (some call.provenance))

lemma sidecarStep_turn (s : SidecarState) (a : SidecarAction) :
    SidecarTurn F s a (sidecarStep F s a) := by
  cases a with
  | begin c call =>
    unfold sidecarStep
    dsimp only
    split
    next => exact .silent rfl rfl
    next => exact .silent rfl rfl
  | load c =>
    unfold sidecarStep
    dsimp only
    split
    next call hcall =>
      split
      next => exact .silent rfl rfl
      next rows hrows =>
        split
        next hget => exact .already call hcall (by rw [entry, hrows]; exact hget) rfl rfl
        next => exact .silent rfl rfl
    next => exact .silent rfl rfl
  | prepare c =>
    unfold sidecarStep
    dsimp only
    split
    next => exact .silent rfl rfl
    next => exact .silent rfl rfl
  | persist c =>
    unfold sidecarStep
    dsimp only
    split
    next call rows hcall => exact .published c rfl call rows hcall rfl rfl
    next => exact .silent rfl rfl
  | stop c =>
    unfold sidecarStep
    dsimp only
    split
    next => exact .silent rfl rfl
    next => exact .silent rfl rfl
    next => exact .silent rfl rfl

/-- What one operation does to the calls: nothing, or one call moves on, and what it has prepared
carries its own provenance. -/
lemma sidecarStep_preparedOwn {s : SidecarState} (h : PreparedOwn s) (a : SidecarAction) :
    PreparedOwn (sidecarStep F s a) := by
  have hmove : ∀ c call phase, (∀ rows, phase = .prepared rows →
      rows.get call.sessionId = some call.provenance) → PreparedOwn (s.phase c call phase) := by
    intro c call phase hphase d call' rows hd
    by_cases hcd : d = c
    · subst hcd
      have hd : some (call, phase) = some (call', .prepared rows) := by
        simpa [SidecarState.phase] using hd
      obtain ⟨rfl, hp⟩ := Prod.mk.inj (Option.some.inj hd)
      exact hphase rows hp
    · exact h d call' rows (by simpa [SidecarState.phase, hcd] using hd)
  cases a with
  | begin c call =>
    unfold sidecarStep
    dsimp only
    split
    next => exact hmove c call .begun nofun
    next => exact h
  | load c =>
    unfold sidecarStep
    dsimp only
    split
    next call _ =>
      split
      next => exact hmove c call (.ended false) nofun
      next rows _ =>
        split
        next => exact hmove c call (.ended true) nofun
        next => exact hmove c call (.loaded rows) nofun
    next => exact h
  | prepare c =>
    unfold sidecarStep
    dsimp only
    split
    next call rows _ =>
      refine hmove c call _ fun rows' hrows => ?_
      obtain rfl := RecordPhase.prepared.inj hrows
      exact SortedMap.get_insert_self _ _
    next => exact h
  | persist c =>
    unfold sidecarStep
    dsimp only
    split
    next call _ _ => exact hmove c call (.ended true) nofun
    next => exact h
  | stop c =>
    unfold sidecarStep
    dsimp only
    split
    next call ok _ => exact hmove c call (.ended ok) nofun
    next call _ _ _ => exact hmove c call (.ended false) nofun
    next => exact h

/-- A call that publishes replaces what others have published since exactly when it says something
else of their sessions. -/
theorem recordKept_iff {s : SidecarState} (h : HoldsRecorded F s) (hown : PreparedOwn s)
    (a : SidecarAction) : RecordKept F s a ↔ OthersUnchanged F s a := by
  constructor
  · intro hkept
    cases a with
    | persist c =>
      intro call rows hcall id hne
      have hother := hkept.1 id fun call' phase hcall' => by
        obtain ⟨rfl, -⟩ := Prod.mk.inj (Option.some.inj (hcall.symm.trans hcall'))
        exact hne
      rw [← hother]
      simp only [sidecarStep, hcall]
      exact (entry_render _ rows id).symm
    | _ => trivial
  · intro hothers
    cases sidecarStep_turn s a with
    | silent hcontent hrecorded =>
      refine ⟨fun id _ => entry_congr hcontent id, ⟨hcontent ▸ h.parses, fun id p hp => ?_⟩⟩
      rw [entry_congr hcontent]
      exact h.recorded id p (hrecorded ▸ hp)
    | already call hcall hentry hcontent hrecorded =>
      refine ⟨fun id _ => entry_congr hcontent id, ⟨hcontent ▸ h.parses, fun id p hp => ?_⟩⟩
      rw [entry_congr hcontent]
      by_cases hid : id = call.sessionId
      · subst hid
        rw [hrecorded, Function.update_self] at hp
        rw [hentry, Option.some.inj hp]
      · rw [hrecorded, Function.update_of_ne hid] at hp
        exact h.recorded id p hp
    | published c ha call rows hcall hcontent hrecorded =>
      subst ha
      have hentry : ∀ id, entry F (sidecarStep F s (.persist c)) id = rows.get id := by
        intro id
        rw [entry, hcontent]
        simp [loadSessionProvenance, F.parse_render]
      refine ⟨fun id hid => ?_, ⟨?_, fun id p hp => ?_⟩⟩
      · rw [hentry, hothers call rows hcall id (hid call _ hcall)]
      · rw [hcontent]
        exact ⟨rows, by simp [loadSessionProvenance, F.parse_render]⟩
      · rw [hentry]
        by_cases hid : id = call.sessionId
        · subst hid
          rw [hrecorded, Function.update_self] at hp
          rw [hown c call rows hcall, Option.some.inj hp]
        · rw [hrecorded, Function.update_of_ne hid] at hp
          rw [hothers call rows hcall id (Ne.symm hid)]
          exact h.recorded id p hp

def emptyStage : SidecarState := ⟨none, fun _ => none, fun _ => none⟩

/-- In a run every operation keeps what is recorded and leaves other sessions alone exactly when no
call replaces a sidecar that has come to say something else of another session than it read. -/
theorem recordKept_along_iff (as : List SidecarAction) :
    Along (sidecarStep F) (RecordKept F) emptyStage as ↔
      Along (sidecarStep F) (OthersUnchanged F) emptyStage as := by
  have hgen : ∀ s, HoldsRecorded F s → PreparedOwn s →
      (Along (sidecarStep F) (RecordKept F) s as ↔
        Along (sidecarStep F) (OthersUnchanged F) s as) := by
    induction as with
    | nil => exact fun _ _ _ => Iff.rfl
    | cons a as ih =>
      intro s hs hown
      rw [along_cons, along_cons, recordKept_iff hs hown]
      refine and_congr_right fun hothers => ih _ ?_ (sidecarStep_preparedOwn hown a)
      exact ((recordKept_iff hs hown a).mpr hothers).2
  exact hgen emptyStage ⟨⟨_, rfl⟩, fun _ _ hp => absurd hp.symm (Option.some_ne_none _)⟩
    fun _ _ _ hcall => absurd hcall.symm (Option.some_ne_none _)

section Json
open TextCodec

/-- The JSON object of a sidecar row, its members in the order they are declared. -/
def sidecarCodec : Codec SidecarRow :=
  ((stringCodec.andThen selfDelimiting_stringCodec
    ((stringCodec.andThen selfDelimiting_stringCodec
      (stringCodec.optional ",\"parent_session_ref\":".toList '\x7d' isDigit_closeBrace
        (by decide) (by decide))).preceded ",\"source_path_class\":".toList)).preceded
    "\x7b\"session_id\":".toList).imap
      (fun x => (x.1, ⟨x.2.1, x.2.2⟩))
      (fun row => (row.1, row.2.sourcePathClass, row.2.parentSessionRef)) fun _ => rfl

def sidecarJson : RowFormat SidecarRow :=
  .ofCodec sidecarCodec
    (((selfDelimiting_stringCodec.andThen (((selfDelimiting_stringCodec.andThen
      (Codec.selfDelimiting_optional _ _ _ _ _)).preceded _))).preceded _).imap _ _ _)
    (((avoids_stringCodec.andThen _ ((avoids_stringCodec.andThen _
      (avoids_stringCodec.optional (by decide) (by decide) _ _ _)).preceded (by decide))).preceded
        (by decide)).imap _ _ _)
    (((((Codec.endsWith_optional _ _ _ _ _).andThen _ _).preceded _).andThen _ _).preceded _ |>.imap
      _ _ _)

/-- Two passes record two sessions, and both have read the sidecar before either replaces it. -/
def racingRecords : List SidecarAction :=
  [.begin 0 ⟨['a'], ⟨['m'], none⟩⟩, .begin 1 ⟨['b'], ⟨['m'], none⟩⟩, .load 0, .load 1, .prepare 0,
    .prepare 1, .persist 0, .persist 1]

/-- The replacement of the second call takes away what the first one recorded. -/
theorem racing_record_lost :
    ¬ Along (sidecarStep sidecarJson) (RecordKept sidecarJson) emptyStage racingRecords := by
  rintro ⟨-, -, -, -, -, -, -, ⟨-, hlast⟩, -⟩
  have hentry := hlast.recorded ['a'] ⟨['m'], none⟩ rfl
  have hrows : entry sidecarJson (exec (sidecarStep sidecarJson) emptyStage racingRecords) ['a'] =
      (SortedMap.empty.insert ['b'] (⟨['m'], none⟩ : SessionProvenance)).get ['a'] :=
    entry_render (exec (sidecarStep sidecarJson) emptyStage racingRecords) _ ['a']
  rw [SortedMap.get_insert_of_ne (by decide)] at hrows
  exact absurd (hrows.symm.trans hentry) (by decide)

end Json

end ChatStasher.Activity
