import ChatStasher.Backfill.MergedRows

/-! What a migration leaves of one scope, wherever it dies and however often it is run again. -/
namespace ChatStasher.ScopeMigration
open DebtRecords

section Outcome

variable (key : AccountKey) (locale : LocaleOrder) (listable : Bool)

def Migrates (s : Store) (scope : Ident) : Prop :=
  if listable then ∃ layout, (s.load (layout, scope)).isSome else scope ∈ s.targets

instance Migrates.decidable (s : Store) (scope : Ident) : Decidable (Migrates listable s scope) :=
  decidable_of_iff (if listable then (s.load (.current, scope)).isSome ∨
      (s.load (.legacy, scope)).isSome else scope ∈ s.targets) <| by
    unfold Migrates
    cases listable with
    | false => simp
    | true =>
      simp only [if_true]
      constructor
      · rintro (h | h)
        · exact ⟨_, h⟩
        · exact ⟨_, h⟩
      · rintro ⟨layout, h⟩
        cases layout with
        | current => exact Or.inl h
        | legacy => exact Or.inr h

/-- The record under the new key, where one may be carried over to it. -/
def carried (nextScope : Ident) : Option StoredState → Option StoredState → Option StoredState
  | some (.header header there), _ => some (.header header there)
  | _, some (.header header _) => some (.header header nextScope)
  | there, _ => there

lemma carried_carried (nextScope : Ident) (there moved : Option StoredState) :
    carried nextScope (carried nextScope there moved) moved = carried nextScope there moved := by
  rcases there with _ | ⟨header, there⟩ | ⟨state, there⟩ | _ <;>
    rcases moved with _ | ⟨header', moved⟩ | ⟨state', moved⟩ | _ <;> rfl

@[simp] lemma carried_none (nextScope : Ident) (there : Option StoredState) :
    carried nextScope there none = there := by
  rcases there with _ | ⟨header, there⟩ | ⟨state, there⟩ | _ <;> rfl

/-- What a migration leaves of a scope: its own rows, those of its new scope, and the record
there. -/
structure Outcome where
  source : Rows
  destination : Rows
  record : Option StoredState

def outcome (s : Store) (scope : Ident) : Outcome :=
  if Migrates listable s scope then
    { source := []
      destination := mergedRows locale (s.rows scope) (s.rows (key.nextScope scope))
      record := carried (key.nextScope scope) (s.load (.current, key.nextScope scope))
        (s.load (.current, scope)) }
  else
    ⟨s.rows scope, s.rows (key.nextScope scope), s.load (.current, key.nextScope scope)⟩

/-- The two stores agree on all that the scope's migration reads. -/
structure SameFor (scope : Ident) (s t : Store) : Prop where
  source : t.rows scope = s.rows scope
  destination : t.rows (key.nextScope scope) = s.rows (key.nextScope scope)
  moved : ∀ layout, t.load (layout, scope) = s.load (layout, scope)
  there : t.load (.current, key.nextScope scope) = s.load (.current, key.nextScope scope)
  targets : t.targets = s.targets

variable {key locale listable} {scope : Ident} {s t : Store}

lemma migrates_of_same (hmoved : ∀ layout, t.load (layout, scope) = s.load (layout, scope))
    (htargets : t.targets = s.targets) : Migrates listable t scope ↔ Migrates listable s scope := by
  unfold Migrates
  rw [htargets]
  simp only [hmoved]

lemma SameFor.refl (s : Store) : SameFor key scope s s := ⟨rfl, rfl, fun _ => rfl, rfl, rfl⟩

lemma SameFor.trans {u : Store} (h : SameFor key scope s t) (h' : SameFor key scope t u) :
    SameFor key scope s u where
  source := h'.source.trans h.source
  destination := h'.destination.trans h.destination
  moved layout := (h'.moved layout).trans (h.moved layout)
  there := h'.there.trans h.there
  targets := h'.targets.trans h.targets

lemma SameFor.outcome (h : SameFor key scope s t) :
    outcome key locale listable t scope = outcome key locale listable s scope := by
  unfold ScopeMigration.outcome
  simp only [migrates_of_same h.moved h.targets, h.source, h.destination, h.moved, h.there]

end Outcome

section Loads

variable {s : Store} {k k' : StateKey} {value : StoredState}

lemma load_save : (s.save k value).load k' = if k' = k then some value else s.load k' :=
  KeyedList.lookup_put s.records (k, value) k'

lemma load_remove : (s.remove k).load k' = if k' = k then none else s.load k' := by
  rw [Store.remove, Store.load, KeyedList.lookup_filter_key s.records (fun key => key ≠ k) k']
  by_cases h : k' = k <;> simp [h, Store.load]

variable {key : AccountKey} {layout : Layout} {scope : Ident}

lemma saveRecord_cases (key : AccountKey) (s : Store) (layout : Layout) (scope : Ident) :
    saveRecord key s layout scope = s ∨
      ∃ value, saveRecord key s layout scope = s.save (layout, key.nextScope scope) value := by
  unfold saveRecord
  split
  · dsimp only
    split
    · exact Or.inr ⟨_, rfl⟩
    · exact Or.inr ⟨_, rfl⟩
  · exact Or.inr ⟨_, rfl⟩
  · exact Or.inl rfl

lemma load_saveRecord (h : k' ≠ (layout, key.nextScope scope)) :
    (saveRecord key s layout scope).load k' = s.load k' := by
  rcases saveRecord_cases key s layout scope with heq | ⟨value, heq⟩
  · rw [heq]
  · rw [heq, load_save, if_neg h]

@[simp] lemma rows_saveRecord : (saveRecord key s layout scope).rows = s.rows := by
  rcases saveRecord_cases key s layout scope with heq | ⟨value, heq⟩
  · rw [heq]
  · rw [heq]
    rfl

@[simp] lemma targets_saveRecord : (saveRecord key s layout scope).targets = s.targets := by
  rcases saveRecord_cases key s layout scope with heq | ⟨value, heq⟩
  · rw [heq]
  · rw [heq]
    rfl

lemma load_saveRecord_current :
    (saveRecord key s .current scope).load (.current, key.nextScope scope) =
      carried (key.nextScope scope) (s.load (.current, key.nextScope scope))
        (s.load (.current, scope)) := by
  unfold saveRecord
  cases hmoved : s.load (.current, scope) with
  | none => simp
  | some moved =>
    cases moved with
    | header header here =>
      dsimp only
      cases hthere : s.load (.current, key.nextScope scope) with
      | none => simp [load_save, carried]
      | some there => cases there <;> simp [load_save, carried]
    | legacyState state here =>
      dsimp only
      rcases hthere : s.load (.current, key.nextScope scope) with _ | ⟨_, _⟩ | ⟨_, _⟩ | _ <;> rfl
    | other =>
      dsimp only
      rcases hthere : s.load (.current, key.nextScope scope) with _ | ⟨_, _⟩ | ⟨_, _⟩ | _ <;> rfl

end Loads

section Rekey

variable {key : AccountKey} {locale : LocaleOrder} {rows : Ident → Rows} {src dst scope : Ident}

lemma rekeyDebtScope_of_ne (h : scope ≠ src) (h' : scope ≠ dst) :
    rekeyDebtScope locale rows src dst scope = rows scope := by
  unfold rekeyDebtScope
  split
  · rfl
  · simp [h, h']

lemma rekeyDebtScope_source (h : src ≠ dst) : rekeyDebtScope locale rows src dst src = [] := by
  simp only [rekeyDebtScope, if_neg h, if_true]
  refine List.filter_eq_nil_iff.mpr fun e he => ?_
  have hmem : e.1 ∈ (rows src).map Prod.fst := List.mem_map_of_mem he
  simpa using hmem

lemma rekeyDebtScope_destination (h : src ≠ dst) (hsrc : ((rows src).map Prod.fst).Nodup)
    (hdst : ((rows dst).map Prod.fst).Nodup) :
    rekeyDebtScope locale rows src dst dst = mergedRows locale (rows src) (rows dst) := by
  simp only [rekeyDebtScope, if_neg h, if_neg h.symm, if_true]
  rw [KeyedList.foldl_put_eq _ _ (nodup_mergedRows locale hsrc hdst)]
  -- Each row that was there has been merged.
  have hmerged : ∀ e ∈ rows dst, e.1 ∈ (mergedRows locale (rows src) (rows dst)).map Prod.fst :=
    fun e he => (mem_keys_mergedRows locale hsrc hdst).mpr (Or.inr (List.mem_map_of_mem he))
  refine (congrArg (· ++ _) (List.filter_eq_nil_iff.mpr fun e he => ?_)).trans (List.nil_append _)
  simpa using hmerged e he

lemma nodup_rekeyDebtScope (h : ∀ scope, ((rows scope).map Prod.fst).Nodup) (scope : Ident) :
    ((rekeyDebtScope locale rows src dst scope).map Prod.fst).Nodup := by
  by_cases hsame : src = dst
  · rw [rekeyDebtScope, if_pos hsame]
    exact h scope
  · by_cases hsrc : scope = src
    · rw [hsrc, rekeyDebtScope_source hsame]
      exact List.nodup_nil
    · by_cases hdst : scope = dst
      · rw [hdst, rekeyDebtScope_destination hsame (h src) (h dst)]
        exact nodup_mergedRows locale (h src) (h dst)
      · rw [rekeyDebtScope_of_ne hsrc hdst]
        exact h scope

end Rekey

section Turns

variable {key : AccountKey} {locale : LocaleOrder} {listable : Bool} {scope sc : Ident} {s : Store}
  {layout : Layout}

def Known (s : Store) (scope : Ident) : Prop :=
  (∃ layout, (s.load (layout, scope)).isSome) ∨ scope ∈ s.targets

/-- Each id, and each key, is stored once, and no other scope that is to be moved has the scope's
fingerprint. -/
structure WellKeyed (key : AccountKey) (scope : Ident) (s : Store) : Prop where
  rows : ∀ sc, ((s.rows sc).map Prod.fst).Nodup
  records : (s.records.map Prod.fst).Nodup
  apart : ∀ sc, isRaw sc → Known s sc → key.nextScope sc = key.nextScope scope → sc = scope

lemma ne_nextScope (h : isRaw scope) (sc : Ident) : scope ≠ key.nextScope sc := by
  rintro rfl
  rw [not_isRaw_nextScope] at h
  exact nomatch h

lemma known_of_turn (hraw : isRaw sc) {t : Turn} (h : Known (turn key locale s t) sc) :
    Known s sc := by
  cases t with
  | rekeyDebts scope => exact h
  | saveRecord layout scope =>
    rcases h with ⟨layout', h⟩ | h
    · rw [turn, load_saveRecord fun heq => ne_nextScope hraw scope (Prod.mk.inj heq).2] at h
      exact Or.inl ⟨layout', h⟩
    · rw [turn, targets_saveRecord] at h
      exact Or.inr h
  | removeRecord layout scope =>
    rcases h with ⟨layout', h⟩ | h
    · rw [turn, load_remove] at h
      split at h
      · exact nomatch h
      · exact Or.inl ⟨layout', h⟩
    · exact Or.inr h
  | saveTargets =>
    rcases h with h | h
    · exact Or.inl h
    · obtain ⟨before, hbefore, heq⟩ := List.mem_map.mp h
      split at heq
      · exact absurd heq.symm (ne_nextScope hraw before)
      · exact Or.inr (heq ▸ hbefore)

lemma WellKeyed.turn (h : WellKeyed key scope s) (t : Turn) :
    WellKeyed key scope (turn key locale s t) := by
  refine ⟨fun sc => ?_, ?_, fun sc hraw hknown => h.apart sc hraw (known_of_turn hraw hknown)⟩
  · cases t with
    | rekeyDebts sc' => exact nodup_rekeyDebtScope h.rows sc
    | saveRecord layout sc' =>
      rw [ScopeMigration.turn, rows_saveRecord]
      exact h.rows sc
    | removeRecord layout sc' => exact h.rows sc
    | saveTargets => exact h.rows sc
  · cases t with
    | rekeyDebts sc' => exact h.records
    | saveRecord layout sc' =>
      rw [ScopeMigration.turn]
      rcases saveRecord_cases key s layout sc' with heq | ⟨value, heq⟩
      · rw [heq]
        exact h.records
      · rw [heq]
        exact KeyedList.put_nodup h.records
    | removeRecord layout sc' => exact h.records.sublist (List.filter_sublist.map _)
    | saveTargets => exact h.records

lemma sameFor_turn (hscope : isRaw scope) (hsc : isRaw sc) (hne : sc ≠ scope)
    (hnext : key.nextScope sc ≠ key.nextScope scope) {t : Turn} (ht : t ∈ keyTurns (layout, sc)) :
    SameFor key scope s (turn key locale s t) := by
  rw [keyTurns, List.mem_cons, List.mem_cons, List.mem_singleton] at ht
  rcases ht with rfl | rfl | rfl
  · exact ⟨rekeyDebtScope_of_ne hne.symm (ne_nextScope hscope sc),
      rekeyDebtScope_of_ne (ne_nextScope hsc scope).symm hnext.symm, fun _ => rfl, rfl, rfl⟩
  · refine ⟨by rw [turn, rows_saveRecord], by rw [turn, rows_saveRecord], fun layout' => ?_, ?_,
      by rw [turn, targets_saveRecord]⟩
    · exact load_saveRecord fun heq => ne_nextScope hscope sc (Prod.mk.inj heq).2
    · exact load_saveRecord fun heq => hnext (Prod.mk.inj heq).2.symm
  · refine ⟨rfl, rfl, fun layout' => ?_, ?_, rfl⟩
    · rw [turn, load_remove, if_neg fun heq => hne (Prod.mk.inj heq).2.symm]
    · rw [turn, load_remove, if_neg fun heq => ne_nextScope hsc scope (Prod.mk.inj heq).2.symm]

end Turns

section OwnTurns

variable {key : AccountKey} {locale : LocaleOrder} {listable : Bool} {scope : Ident} {s : Store}
  {layout : Layout}

/-- The rows have been moved. -/
structure Moved (key : AccountKey) (locale : LocaleOrder) (scope : Ident) (s : Store) : Prop where
  source : s.rows scope = []
  destination : mergedRows locale [] (s.rows (key.nextScope scope)) = s.rows (key.nextScope scope)

def CarriedOver (key : AccountKey) (scope : Ident) (s : Store) : Prop :=
  carried (key.nextScope scope) (s.load (.current, key.nextScope scope))
    (s.load (.current, scope)) = s.load (.current, key.nextScope scope)

lemma outcome_of_migrates (h : Migrates listable s scope) : outcome key locale listable s scope =
    ⟨[], mergedRows locale (s.rows scope) (s.rows (key.nextScope scope)),
      carried (key.nextScope scope) (s.load (.current, key.nextScope scope))
        (s.load (.current, scope))⟩ := if_pos h

lemma outcome_of_not_migrates (h : ¬ Migrates listable s scope) :
    outcome key locale listable s scope =
      ⟨s.rows scope, s.rows (key.nextScope scope), s.load (.current, key.nextScope scope)⟩ :=
  if_neg h

lemma outcome_of_moved (h : Moved key locale scope s) (hcarried : CarriedOver key scope s) :
    outcome key locale listable s scope =
      ⟨[], s.rows (key.nextScope scope), s.load (.current, key.nextScope scope)⟩ := by
  by_cases hmigrates : Migrates listable s scope
  · rw [outcome_of_migrates hmigrates, h.source, h.destination, hcarried]
  · rw [outcome_of_not_migrates hmigrates, h.source]

lemma rows_rekeyDebts_next (h : WellKeyed key scope s) (hraw : isRaw scope) :
    (turn key locale s (.rekeyDebts scope)).rows (key.nextScope scope) =
      mergedRows locale (s.rows scope) (s.rows (key.nextScope scope)) :=
  rekeyDebtScope_destination (ne_nextScope hraw scope) (h.rows _) (h.rows _)

lemma moved_rekeyDebts (h : WellKeyed key scope s) (hraw : isRaw scope) :
    Moved key locale scope (turn key locale s (.rekeyDebts scope)) := by
  refine ⟨rekeyDebtScope_source (ne_nextScope hraw scope), ?_⟩
  rw [rows_rekeyDebts_next h hraw]
  exact mergedRows_nil locale (nodup_mergedRows locale (h.rows scope) (h.rows _))

lemma migrates_rekeyDebts : Migrates listable (turn key locale s (.rekeyDebts scope)) scope ↔
    Migrates listable s scope := migrates_of_same (fun _ => rfl) rfl

lemma outcome_rekeyDebts (h : WellKeyed key scope s) (hraw : isRaw scope)
    (hmigrates : Migrates listable s scope) :
    outcome key locale listable (turn key locale s (.rekeyDebts scope)) scope =
      outcome key locale listable s scope := by
  have hmoved : Moved key locale scope (turn key locale s (.rekeyDebts scope)) :=
    moved_rekeyDebts h hraw
  rw [outcome_of_migrates (migrates_rekeyDebts.mpr hmigrates), outcome_of_migrates hmigrates,
    hmoved.source, hmoved.destination, rows_rekeyDebts_next h hraw]
  rfl

lemma migrates_saveRecord (hraw : isRaw scope) :
    Migrates listable (turn key locale s (.saveRecord layout scope)) scope ↔
      Migrates listable s scope :=
  migrates_of_same
    (fun _ => load_saveRecord fun heq => ne_nextScope hraw scope (Prod.mk.inj heq).2)
    targets_saveRecord

lemma moved_saveRecord (h : Moved key locale scope s) :
    Moved key locale scope (turn key locale s (.saveRecord layout scope)) := by
  rw [turn]
  exact ⟨by rw [rows_saveRecord, h.source], by rw [rows_saveRecord, h.destination]⟩

lemma carriedOver_saveRecord (hraw : isRaw scope) :
    CarriedOver key scope (turn key locale s (.saveRecord .current scope)) := by
  unfold CarriedOver
  rw [turn, load_saveRecord_current,
    load_saveRecord fun heq => ne_nextScope hraw scope (Prod.mk.inj heq).2, carried_carried]

lemma outcome_saveRecord (hraw : isRaw scope) (hmigrates : Migrates listable s scope) :
    outcome key locale listable (turn key locale s (.saveRecord layout scope)) scope =
      outcome key locale listable s scope := by
  have hown : ∀ layout', (turn key locale s (.saveRecord layout scope)).load (layout', scope) =
      s.load (layout', scope) := fun _ =>
    load_saveRecord fun heq => ne_nextScope hraw scope (Prod.mk.inj heq).2
  rw [outcome_of_migrates ((migrates_saveRecord hraw).mpr hmigrates),
    outcome_of_migrates hmigrates, hown, turn, rows_saveRecord]
  cases layout with
  | current => rw [load_saveRecord_current, carried_carried]
  | legacy =>
    have hother : (Layout.current, key.nextScope scope) ≠ (.legacy, key.nextScope scope) := by simp
    rw [load_saveRecord hother]

lemma moved_removeRecord (h : Moved key locale scope s) :
    Moved key locale scope (turn key locale s (.removeRecord layout scope)) :=
  ⟨h.source, h.destination⟩

lemma load_next_removeRecord (hraw : isRaw scope) :
    (turn key locale s (.removeRecord layout scope)).load (.current, key.nextScope scope) =
      s.load (.current, key.nextScope scope) := by
  rw [turn, load_remove, if_neg fun heq => ne_nextScope hraw scope (Prod.mk.inj heq).2.symm]

lemma carriedOver_removeRecord (hraw : isRaw scope)
    (h : layout = .current ∨ CarriedOver key scope s) :
    CarriedOver key scope (turn key locale s (.removeRecord layout scope)) := by
  unfold CarriedOver
  rw [load_next_removeRecord hraw, turn, load_remove]
  split
  · exact carried_none _ _
  · next hne =>
    rcases h with rfl | h
    · exact absurd rfl hne
    · exact h

/-- Removing a key leaves the outcome: its record has been carried over, or it is one of the old
layout. -/
lemma outcome_removeRecord (hraw : isRaw scope) (hmoved : Moved key locale scope s)
    (hmigrates : Migrates listable s scope)
    (h : layout = .current ∧ CarriedOver key scope s ∨ layout = .legacy ∧ listable = true) :
    outcome key locale listable (turn key locale s (.removeRecord layout scope)) scope =
      outcome key locale listable s scope := by
  have hafter : Moved key locale scope (turn key locale s (.removeRecord layout scope)) :=
    moved_removeRecord hmoved
  have hcarried : CarriedOver key scope s →
      outcome key locale listable (turn key locale s (.removeRecord layout scope)) scope =
        outcome key locale listable s scope := by
    intro hcarried
    rw [outcome_of_moved hmoved hcarried,
      outcome_of_moved hafter (carriedOver_removeRecord hraw (Or.inr hcarried)),
      load_next_removeRecord hraw]
    rfl
  rcases h with ⟨-, h⟩ | ⟨rfl, rfl⟩
  · exact hcarried h
  · have hcurrent : (turn key locale s (.removeRecord .legacy scope)).load (.current, scope) =
        s.load (.current, scope) := by
      rw [turn, load_remove, if_neg (by simp)]
    by_cases hleft : Migrates true (turn key locale s (.removeRecord .legacy scope)) scope
    · rw [outcome_of_migrates hleft, outcome_of_migrates hmigrates, hafter.source,
        hafter.destination, hcurrent, load_next_removeRecord hraw, hmoved.source,
        hmoved.destination]
      rfl
    · -- No key is left, so no header is still to be carried over.
      refine hcarried ?_
      have hnone : s.load (.current, scope) = none := by
        rw [← hcurrent, ← Option.not_isSome_iff_eq_none]
        exact fun hsome => hleft ⟨_, hsome⟩
      rw [CarriedOver, hnone, carried_none]

end OwnTurns

section Keys

variable {key : AccountKey} {locale : LocaleOrder} {listable : Bool} {scope : Ident} {s : Store}
  {k k' : StateKey}

def Candidate (listable : Bool) (s : Store) (k : StateKey) : Prop :=
  isRaw k.2 = true ∧
    if listable then (s.load k).isSome = true else k.1 = .current ∧ k.2 ∈ s.targets

lemma Candidate.migrates (h : Candidate listable s k) : Migrates listable s k.2 := by
  unfold Candidate at h
  unfold Migrates
  cases listable with
  | false => exact h.2.2
  | true => exact ⟨k.1, h.2⟩

lemma Candidate.known (h : Candidate listable s k) : Known s k.2 := by
  unfold Candidate at h
  cases listable with
  | false => exact Or.inr h.2.2
  | true => exact Or.inl ⟨k.1, h.2⟩

lemma wellKeyed_exec (h : WellKeyed key scope s) (turns : List Turn) :
    WellKeyed key scope (StepRun.exec (turn key locale) s turns) :=
  StepRun.invariant_all (fun _ t hs => hs.turn t) h turns

lemma load_keyTurns (hraw : isRaw k'.2) :
    (StepRun.exec (turn key locale) s (keyTurns k)).load k' =
      if k' = k then none else s.load k' := by
  change ((saveRecord key _ k.1 k.2).remove (k.1, k.2)).load k' = _
  rw [load_remove, load_saveRecord fun heq => ne_nextScope hraw k.2 (congrArg Prod.snd heq)]
  rfl

lemma targets_keyTurns : (StepRun.exec (turn key locale) s (keyTurns k)).targets = s.targets := by
  change (saveRecord key _ k.1 k.2).targets = _
  rw [targets_saveRecord]
  rfl

lemma sameFor_exec (hscope : isRaw scope) (hraw : isRaw k.2) (hne : k.2 ≠ scope)
    (hnext : key.nextScope k.2 ≠ key.nextScope scope) {turns : List Turn}
    (hturns : ∀ t ∈ turns, t ∈ keyTurns k) (s : Store) :
    SameFor key scope s (StepRun.exec (turn key locale) s turns) := by
  induction turns generalizing s with
  | nil => exact SameFor.refl s
  | cons t turns ih =>
    have hfirst : SameFor key scope s (turn key locale s t) :=
      sameFor_turn hscope hraw hne hnext (hturns t List.mem_cons_self)
    exact hfirst.trans (ih (fun t ht => hturns t (List.mem_cons_of_mem _ ht)) _)

theorem outcome_keyTurns (hscope : isRaw scope) (h : WellKeyed key scope s)
    (hk : Candidate listable s k) (n : ℕ) :
    outcome key locale listable (StepRun.exec (turn key locale) s ((keyTurns k).take n)) scope =
      outcome key locale listable s scope := by
  by_cases hne : k.2 = scope
  · obtain ⟨layout, sc⟩ := k
    obtain rfl : sc = scope := hne
    have hmigrates : Migrates listable s sc := hk.migrates
    let s₁ := turn key locale s (.rekeyDebts sc)
    let s₂ := turn key locale s₁ (.saveRecord layout sc)
    have hmigrates₁ : Migrates listable s₁ sc := migrates_rekeyDebts.mpr hmigrates
    have hrekeyed : outcome key locale listable s₁ sc = outcome key locale listable s sc :=
      outcome_rekeyDebts h hscope hmigrates
    have hsaved : outcome key locale listable s₂ sc = outcome key locale listable s sc :=
      (outcome_saveRecord hscope hmigrates₁).trans hrekeyed
    match n with
    | 0 => rfl
    | 1 => exact hrekeyed
    | 2 => exact hsaved
    | n + 3 =>
      rw [List.take_of_length_le (by simp [keyTurns])]
      refine Eq.trans ?_ hsaved
      refine outcome_removeRecord hscope (moved_saveRecord (moved_rekeyDebts h hscope))
        ((migrates_saveRecord hscope).mpr hmigrates₁) ?_
      cases layout with
      | current => exact Or.inl ⟨rfl, carriedOver_saveRecord hscope⟩
      | legacy =>
        cases listable with
        | true => exact Or.inr ⟨rfl, rfl⟩
        | false => exact nomatch hk.2.1
  · exact (sameFor_exec hscope hk.1 hne (fun heq => hne (h.apart k.2 hk.1 hk.known heq))
      (fun t ht => List.mem_of_mem_take ht) s).outcome

def Ready (listable : Bool) (s : Store) (ks : List StateKey) : Prop :=
  (∀ k ∈ ks, Candidate listable s k) ∧ (listable = true → ks.Nodup)

lemma ready_candidates (h : WellKeyed key scope s) : Ready listable s (candidates listable s) := by
  cases listable with
  | true =>
    refine ⟨fun k hk => ?_, fun _ => h.records.filter _⟩
    obtain ⟨hmem, hraw⟩ := List.mem_filter.mp hk
    exact ⟨hraw, PlacedMap.lookup_isSome_iff.mpr hmem⟩
  | false =>
    refine ⟨fun k hk => ?_, fun h => nomatch h⟩
    obtain ⟨sc, hsc, rfl⟩ := List.mem_map.mp hk
    obtain ⟨hmem, hraw⟩ := List.mem_filter.mp hsc
    exact ⟨hraw, rfl, hmem⟩

lemma Ready.after {ks : List StateKey} (h : Ready listable s (k :: ks)) :
    Ready listable (StepRun.exec (turn key locale) s (keyTurns k)) ks := by
  refine ⟨fun k' hk' => ?_, fun hlistable => (List.nodup_cons.mp (h.2 hlistable)).2⟩
  obtain ⟨hraw, hin⟩ := h.1 k' (List.mem_cons_of_mem k hk')
  refine ⟨hraw, ?_⟩
  cases listable with
  | true =>
    have hne : k' ≠ k := fun heq => (List.nodup_cons.mp (h.2 rfl)).1 (heq ▸ hk')
    simpa only [if_true, load_keyTurns hraw, if_neg hne] using hin
  | false => simpa only [Bool.false_eq_true, if_false, targets_keyTurns] using hin

theorem outcome_take {ks : List StateKey} (hscope : isRaw scope) (h : WellKeyed key scope s)
    (hready : Ready listable s ks) (n : ℕ) :
    outcome key locale listable
        (StepRun.exec (turn key locale) s ((ks.flatMap keyTurns).take n)) scope =
      outcome key locale listable s scope := by
  induction ks generalizing s n with
  | nil =>
    rw [List.flatMap_nil, List.take_nil]
    rfl
  | cons k ks ih =>
    have hk := hready.1 k List.mem_cons_self
    rw [List.flatMap_cons, List.take_append, StepRun.exec_append]
    by_cases hn : n ≤ (keyTurns k).length
    · rw [Nat.sub_eq_zero_of_le hn, List.take_zero, StepRun.exec_nil]
      exact outcome_keyTurns hscope h hk n
    · rw [List.take_of_length_le (Nat.le_of_not_le hn)]
      have hwhole : outcome key locale listable
          (StepRun.exec (turn key locale) s (keyTurns k)) scope =
          outcome key locale listable s scope := by
        rw [← List.take_length (l := keyTurns k)]
        exact outcome_keyTurns hscope h hk _
      exact (ih (wellKeyed_exec h _) hready.after _).trans hwhole

lemma load_flatMap {ks : List StateKey} (hraw : isRaw k.2) (h : k ∈ ks ∨ s.load k = none) :
    (StepRun.exec (turn key locale) s (ks.flatMap keyTurns)).load k = none := by
  induction ks generalizing s with
  | nil => exact h.resolve_left List.not_mem_nil
  | cons k' ks ih =>
    rw [List.flatMap_cons, StepRun.exec_append]
    refine ih ?_
    rw [load_keyTurns hraw]
    rcases h with h | h
    · rcases List.mem_cons.mp h with rfl | h
      · exact Or.inr (if_pos rfl)
      · exact Or.inl h
    · rw [h, ite_self]
      exact Or.inr rfl

lemma targets_flatMap (ks : List StateKey) (s : Store) :
    (StepRun.exec (turn key locale) s (ks.flatMap keyTurns)).targets = s.targets := by
  induction ks generalizing s with
  | nil => rfl
  | cons k ks ih => rw [List.flatMap_cons, StepRun.exec_append, ih, targets_keyTurns]

lemma moved_flatMap {ks : List StateKey} (hscope : isRaw scope) (h : WellKeyed key scope s)
    (hready : Ready listable s ks) (hmoved : Moved key locale scope s ∨ ∃ k ∈ ks, k.2 = scope) :
    Moved key locale scope (StepRun.exec (turn key locale) s (ks.flatMap keyTurns)) := by
  induction ks generalizing s with
  | nil => exact hmoved.resolve_right fun ⟨k, hk, _⟩ => absurd hk List.not_mem_nil
  | cons k ks ih =>
    have hk := hready.1 k List.mem_cons_self
    rw [List.flatMap_cons, StepRun.exec_append]
    refine ih (wellKeyed_exec h _) hready.after ?_
    by_cases hne : k.2 = scope
    · obtain ⟨layout, sc⟩ := k
      obtain rfl : sc = scope := hne
      exact Or.inl (moved_removeRecord (moved_saveRecord (moved_rekeyDebts h hscope)))
    · rcases hmoved with hmoved | ⟨k', hk', heq⟩
      · have hsame : SameFor key scope s (StepRun.exec (turn key locale) s (keyTurns k)) :=
          sameFor_exec hscope hk.1 hne (fun heq => hne (h.apart k.2 hk.1 hk.known heq))
            (fun t ht => ht) s
        exact Or.inl ⟨hsame.source.trans hmoved.source,
          by rw [hsame.destination, hmoved.destination]⟩
      · rcases List.mem_cons.mp hk' with rfl | hk'
        · exact absurd heq hne
        · exact Or.inr ⟨k', hk', heq⟩

lemma not_mem_targets (hscope : isRaw scope) :
    scope ∉ (turn key locale s .saveTargets).targets := by
  intro h
  obtain ⟨before, -, heq⟩ := List.mem_map.mp h
  split at heq
  · exact ne_nextScope hscope before heq.symm
  · next hraw => exact hraw (heq ▸ hscope)

end Keys

section Runs

variable {key : AccountKey} {locale : LocaleOrder} {listable : Bool} {scope : Ident} {s : Store}

abbrev afterKeys (key : AccountKey) (locale : LocaleOrder) (listable : Bool) (s : Store) : Store :=
  StepRun.exec (turn key locale) s ((candidates listable s).flatMap keyTurns)

lemma migrate_eq (key : AccountKey) (locale : LocaleOrder) (listable : Bool) (s : Store) :
    migrateChatGptWorkspaceScopes key locale listable s =
      turn key locale (afterKeys key locale listable s) .saveTargets := by
  rw [migrateChatGptWorkspaceScopes, migrationTurns, StepRun.exec_append]
  rfl

lemma outcome_saveTargets (hscope : isRaw scope) (h : WellKeyed key scope s) :
    outcome key locale listable
        (turn key locale (afterKeys key locale listable s) .saveTargets) scope =
      outcome key locale listable (afterKeys key locale listable s) scope := by
  cases listable with
  | true => rfl
  | false =>
    have hafter : ¬ Migrates false
        (turn key locale (afterKeys key locale false s) .saveTargets) scope :=
      not_mem_targets hscope
    by_cases hin : scope ∈ s.targets
    · -- The scope's key was among those of the targets.
      have hmem : (Layout.current, scope) ∈ candidates false s :=
        List.mem_map_of_mem (List.mem_filter.mpr ⟨hin, hscope⟩)
      have hmoved : Moved key locale scope (afterKeys key locale false s) :=
        moved_flatMap hscope h (ready_candidates h) (Or.inr ⟨_, hmem, rfl⟩)
      have hcarried : CarriedOver key scope (afterKeys key locale false s) := by
        rw [CarriedOver, load_flatMap hscope (Or.inl hmem), carried_none]
      rw [outcome_of_moved hmoved hcarried, outcome_of_not_migrates hafter]
      exact congrArg (fun rows => Outcome.mk rows _ _) hmoved.source
    · have hbefore : ¬ Migrates false (afterKeys key locale false s) scope := by
        change scope ∉ (afterKeys key locale false s).targets
        rwa [targets_flatMap]
      rw [outcome_of_not_migrates hafter, outcome_of_not_migrates hbefore]
      rfl

theorem outcome_cut (hscope : isRaw scope) (h : WellKeyed key scope s) (n : ℕ) :
    outcome key locale listable
        (StepRun.exec (turn key locale) s ((migrationTurns listable s).take n)) scope =
      outcome key locale listable s scope := by
  have hready : Ready listable s (candidates listable s) := ready_candidates h
  by_cases hn : n ≤ ((candidates listable s).flatMap keyTurns).length
  · rw [migrationTurns, List.take_append_of_le_length hn]
    exact outcome_take hscope h hready n
  · have hall : (migrationTurns listable s).take n = migrationTurns listable s := by
      refine List.take_of_length_le ?_
      rw [migrationTurns, List.length_append, List.length_singleton]
      omega
    have hkeys : outcome key locale listable (afterKeys key locale listable s) scope =
        outcome key locale listable s scope := by
      rw [afterKeys, ← List.take_length (l := (candidates listable s).flatMap keyTurns)]
      exact outcome_take hscope h hready _
    rw [hall, ← hkeys, ← outcome_saveTargets hscope h]
    exact congrArg (outcome key locale listable · scope) (migrate_eq key locale listable s)

lemma not_migrates_migrate (hscope : isRaw scope) (s : Store) :
    ¬ Migrates listable (migrateChatGptWorkspaceScopes key locale listable s) scope := by
  rw [migrate_eq]
  cases listable with
  | false => exact not_mem_targets hscope
  | true =>
    rintro ⟨layout, h⟩
    change ((afterKeys key locale true s).load (layout, scope)).isSome at h
    rw [load_flatMap (by exact hscope)] at h
    · exact nomatch h
    · cases hload : s.load (layout, scope) with
      | none => exact Or.inr rfl
      | some value =>
        have hkey : (layout, scope) ∈ s.records.map Prod.fst := by
          rw [← PlacedMap.lookup_isSome_iff]
          exact Option.isSome_iff_exists.mpr ⟨value, hload⟩
        exact Or.inl (List.mem_filter.mpr ⟨hkey, hscope⟩)

theorem migrateAfterCrash_outcome (hscope : isRaw scope) (h : WellKeyed key scope s) (writes : ℕ) :
    outcome key locale listable s scope =
      ⟨(migrateAfterCrash key locale listable s writes).rows scope,
        (migrateAfterCrash key locale listable s writes).rows (key.nextScope scope),
        (migrateAfterCrash key locale listable s writes).load (.current, key.nextScope scope)⟩ := by
  let crashed := StepRun.exec (turn key locale) s ((migrationTurns listable s).take writes)
  have hcrashed : WellKeyed key scope crashed := wellKeyed_exec h _
  have hwhole : outcome key locale listable (StepRun.exec (turn key locale) crashed
      ((migrationTurns listable crashed).take (migrationTurns listable crashed).length)) scope =
      outcome key locale listable crashed scope := outcome_cut hscope hcrashed _
  rw [List.take_length] at hwhole
  rw [← outcome_cut hscope h writes]
  refine hwhole.symm.trans ?_
  exact outcome_of_not_migrates (not_migrates_migrate hscope crashed)

end Runs

end ChatStasher.ScopeMigration
