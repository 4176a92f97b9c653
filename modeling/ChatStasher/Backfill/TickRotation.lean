import ChatStasher.Backfill.Registry
import ChatStasher.Library.StepRun
import Mathlib.Data.Prod.Lex

/-! The rotation of the backfill's wakes: the cursor that ranks the targets, the order in which a wake
walks them, and the two mirrors that carry the cursor past the worker. -/
namespace ChatStasher

abbrev TargetKey := List Char

def keySeparator : Char := '\x00'

def targetIdentityKey (target : BackfillTarget) : TargetKey :=
  target.platform.toList ++ keySeparator :: target.scope.toList

/-- The registry as a wake reads it: each identity once, and no platform id with a separator. -/
structure TickRegistry where
  targets : List BackfillTarget
  nodup : targets.Nodup
  platforms : ∀ t ∈ targets, keySeparator ∉ t.platform.toList

def TickRegistry.keys (registry : TickRegistry) : List TargetKey :=
  registry.targets.map targetIdentityKey

lemma targetIdentityKey_inj {t t' : BackfillTarget} (h : keySeparator ∉ t.platform.toList)
    (h' : keySeparator ∉ t'.platform.toList) (heq : targetIdentityKey t = targetIdentityKey t') :
    t = t' := by
  have hsplit : ∀ p s : List Char, keySeparator ∉ p →
      (p ++ keySeparator :: s).takeWhile (· ≠ keySeparator) = p ∧
        (p ++ keySeparator :: s).dropWhile (· ≠ keySeparator) = keySeparator :: s := by
    intro p s hp
    have hall : ∀ c ∈ p, decide (c ≠ keySeparator) = true := fun c hc =>
      decide_eq_true fun hne => hp (hne ▸ hc)
    rw [List.takeWhile_append_of_pos hall, List.dropWhile_append_of_pos hall]
    simp
  obtain ⟨hp, hs⟩ := hsplit t.platform.toList t.scope.toList h
  obtain ⟨hp', hs'⟩ := hsplit t'.platform.toList t'.scope.toList h'
  unfold targetIdentityKey at heq
  rw [heq] at hp hs
  have hplatform := String.toList_injective (hp.symm.trans hp')
  have hscope := String.toList_injective (List.cons.inj (hs.symm.trans hs')).2
  obtain ⟨platform, scope⟩ := t
  obtain ⟨platform', scope'⟩ := t'
  exact congrArg₂ ScopeKey.mk hplatform hscope

lemma TickRegistry.keys_nodup (registry : TickRegistry) : registry.keys.Nodup :=
  registry.nodup.map_on fun t ht t' ht' => targetIdentityKey_inj (registry.platforms t ht)
    (registry.platforms t' ht')

/-- Identity to serve-order rank, in the order of the stored object, and a write generation. -/
structure TickCursor where
  served : List (TargetKey × ℕ)
  keys_nodup : (served.map Prod.fst).Nodup
  revision : Option ℕ
  deriving DecidableEq

section Stored

/-- A stored value where a number is expected: an integer, or anything else. -/
inductive StoredNumber
  | integer (n : ℤ)
  | other

/-- A stored object with its `served` object, if it is one, and its `revision`. -/
structure StoredCursor where
  served : Option { m : List (TargetKey × StoredNumber) // (m.map Prod.fst).Nodup }
  revision : StoredNumber

def maxSafeInteger : ℤ := 2 ^ 53 - 1

def StoredNumber.stamp : StoredNumber → Option ℕ
  | .integer n => if 0 ≤ n ∧ n ≤ maxSafeInteger then some n.toNat else none
  | .other => none

def readStamp (e : TargetKey × StoredNumber) : Option (TargetKey × ℕ) :=
  if keySeparator ∈ e.1 then e.2.stamp.map fun stamp => (e.1, stamp) else none

lemma readStamps_keys (m : List (TargetKey × StoredNumber)) :
    ((m.filterMap readStamp).map Prod.fst).Sublist (m.map Prod.fst) := by
  induction m with
  | nil => exact List.Sublist.slnil
  | cons e m ih =>
    cases h : readStamp e with
    | none =>
      rw [List.filterMap_cons_none h]
      exact ih.cons _
    | some x =>
      have hkey : x.1 = e.1 := by
        unfold readStamp at h
        split at h
        · obtain ⟨stamp, -, rfl⟩ := Option.map_eq_some_iff.mp h
          rfl
        · cases h
      rw [List.filterMap_cons_some h, List.map_cons, List.map_cons, hkey]
      exact ih.cons_cons _

/-- The stored value as a cursor: anything but a map is none, and a corrupt entry is dropped. -/
def readTickCursor (raw : Option StoredCursor) : Option TickCursor :=
  match raw with
  | none => none
  | some stored =>
    stored.served.map fun m =>
      ⟨m.1.filterMap readStamp, m.2.sublist (readStamps_keys m.1), stored.revision.stamp⟩

def TickCursor.stored (cursor : TickCursor) : StoredCursor where
  served := some ⟨cursor.served.map fun e => (e.1, .integer e.2), by
    simpa [Function.comp_def] using cursor.keys_nodup⟩
  revision := cursor.revision.elim .other fun n => .integer n

def newerMirror (localMirror session : Option TickCursor) : Option TickCursor :=
  match localMirror, session with
  | none, session => session
  | localMirror, none => localMirror
  | some l, some s => if s.revision.getD 0 > l.revision.getD 0 then some s else some l

end Stored

section Walk

def pruneToRegistry (cursor : Option TickCursor) (registry : TickRegistry) :
    List (TargetKey × ℕ) :=
  (cursor.elim [] TickCursor.served).filter fun e => e.1 ∈ registry.keys

/-- The rank of a row: its stamp, or behind every stamp, and then its place in the registry. -/
def tickRank (registry : TickRegistry) (cursor : Option TickCursor) (index : ℕ) :
    WithTop ℕ ×ₗ ℕ :=
  let stamp := (registry.targets[index]?).bind fun target =>
    (cursor.elim [] TickCursor.served).lookup (targetIdentityKey target)
  toLex (stamp.elim ⊤ fun stamp => (stamp : WithTop ℕ), index)

def tickWalkOrder (registry : TickRegistry) (cursor : Option TickCursor) : List ℕ :=
  (List.range registry.targets.length).insertionSort fun i j =>
    tickRank registry cursor i ≤ tickRank registry cursor j

/-- The first row of the walk that can run. -/
def servedRow (registry : TickRegistry) (cursor : Option TickCursor)
    (runnable : BackfillTarget → Bool) : Option BackfillTarget :=
  ((tickWalkOrder registry cursor).find? fun index => (registry.targets[index]?).any runnable).bind
    fun index => registry.targets[index]?

/-- The next rotation, head to tail: the stamped rows by their stamps, the newcomers, and at the very
back the row just served. -/
def nextOrder (cursor : Option TickCursor) (registry : TickRegistry) (served : BackfillTarget) :
    List TargetKey :=
  let prev := pruneToRegistry cursor registry
  let stamped := (prev.insertionSort fun a b => a.2 ≤ b.2).map Prod.fst
  let newcomers := registry.keys.filter fun key => key ∉ prev.map Prod.fst
  (stamped ++ newcomers).erase (targetIdentityKey served) ++ [targetIdentityKey served]

lemma stamped_perm (cursor : Option TickCursor) (registry : TickRegistry) :
    (((pruneToRegistry cursor registry).insertionSort fun a b => a.2 ≤ b.2).map Prod.fst).Perm
      ((pruneToRegistry cursor registry).map Prod.fst) :=
  (List.perm_insertionSort _ _).map _

lemma pruneToRegistry_nodup (cursor : Option TickCursor) (registry : TickRegistry) :
    ((pruneToRegistry cursor registry).map Prod.fst).Nodup := by
  refine List.Nodup.sublist (List.filter_sublist.map Prod.fst) ?_
  cases cursor with
  | none => exact List.nodup_nil
  | some cursor => exact cursor.keys_nodup

lemma rotation_perm (cursor : Option TickCursor) (registry : TickRegistry) :
    (((pruneToRegistry cursor registry).insertionSort fun a b => a.2 ≤ b.2).map Prod.fst ++
      registry.keys.filter fun key => key ∉ (pruneToRegistry cursor registry).map Prod.fst).Perm
        registry.keys := by
  have hpruned := pruneToRegistry_nodup cursor registry
  have hsub : ∀ key ∈ (pruneToRegistry cursor registry).map Prod.fst, key ∈ registry.keys := by
    intro key hkey
    obtain ⟨e, he, rfl⟩ := List.mem_map.mp hkey
    exact of_decide_eq_true (List.mem_filter.mp he).2
  refine ((stamped_perm cursor registry).append_right _).trans ?_
  refine (List.perm_ext_iff_of_nodup (List.Nodup.append hpruned (registry.keys_nodup.filter _) ?_)
    registry.keys_nodup).mpr fun key => ?_
  · intro key hkey hnew
    simp [hkey] at hnew
  · rw [List.mem_append, List.mem_filter]
    by_cases hkey : key ∈ (pruneToRegistry cursor registry).map Prod.fst
    · simp [hkey, hsub key hkey]
    · simp [hkey]

lemma nextOrder_perm (cursor : Option TickCursor) {registry : TickRegistry}
    {served : BackfillTarget} (h : served ∈ registry.targets) :
    (nextOrder cursor registry served).Perm registry.keys := by
  have hperm := rotation_perm cursor registry
  have hmem := hperm.mem_iff.mpr (List.mem_map_of_mem h)
  exact (List.perm_append_singleton _ _).trans ((List.perm_cons_erase hmem).symm.trans hperm)

lemma nextOrder_nodup (cursor : Option TickCursor) (registry : TickRegistry)
    (served : BackfillTarget) : (nextOrder cursor registry served).Nodup := by
  have hnodup := (rotation_perm cursor registry).nodup_iff.mpr registry.keys_nodup
  rw [nextOrder, List.nodup_append]
  refine ⟨hnodup.erase _, List.nodup_singleton _, fun a ha b hb => ?_⟩
  obtain rfl := List.mem_singleton.mp hb
  rintro rfl
  exact hnodup.not_mem_erase ha

/-- `saveTickCursor`: dense ranks in the next order, under the next revision. -/
def saveTickCursor (cursor : Option TickCursor) (registry : TickRegistry)
    (served : BackfillTarget) : TickCursor where
  served := (nextOrder cursor registry served).zipIdx
  keys_nodup := by
    rw [List.zipIdx_map_fst]
    exact nextOrder_nodup cursor registry served
  revision := some ((cursor.bind TickCursor.revision).getD 0 + 1)

end Walk

section Wakes

/-- What a wake finds: the registry, which rows could run, whether each mirror answers a read, and
whether it accepts a write. -/
structure TickWake where
  registry : TickRegistry
  runnable : BackfillTarget → Bool
  localReads : Bool
  sessionReads : Bool
  localAccepts : Bool
  sessionAccepts : Bool

inductive TickEvent
  | wake (w : TickWake)
  | reclaimWorker
  | restartBrowser

/-- The worker's own cursor and the two mirrors; and, for what is stated of them, the cursor that was
saved last. -/
structure TickState where
  servedThisWorker : Option TickCursor
  localMirror : Option StoredCursor
  sessionMirror : Option StoredCursor
  saved : Option TickCursor

/-- `loadTickCursor`: the worker's own cursor, or else the newer mirror. -/
def TickState.loadTickCursor (s : TickState) (w : TickWake) : Option TickCursor :=
  match s.servedThisWorker with
  | some cursor => some cursor
  | none => newerMirror (if w.localReads then readTickCursor s.localMirror else none)
      (if w.sessionReads then readTickCursor s.sessionMirror else none)

def TickState.serves (s : TickState) (w : TickWake) : Option BackfillTarget :=
  servedRow w.registry (s.loadTickCursor w) w.runnable

def tickStep (s : TickState) : TickEvent → TickState
  | .reclaimWorker => { s with servedThisWorker := none }
  | .restartBrowser => { s with servedThisWorker := none, sessionMirror := none }
  | .wake w =>
    let cursor := s.loadTickCursor w
    match s.serves w with
    | none => { s with servedThisWorker := cursor }
    | some target =>
      let next := saveTickCursor cursor w.registry target
      { servedThisWorker := some next
        localMirror := if w.localAccepts then some next.stored else s.localMirror
        sessionMirror := if w.sessionAccepts then some next.stored else s.sessionMirror
        saved := some next }

/-- What the wakes of a run serve, in order. -/
def servings : TickState → List TickEvent → List (Option BackfillTarget)
  | _, [] => []
  | s, .wake w :: events => s.serves w :: servings (tickStep s (.wake w)) events
  | s, event :: events => servings (tickStep s event) events

def TickState.fresh (localMirror sessionMirror : Option StoredCursor) : TickState :=
  ⟨none, localMirror, sessionMirror, none⟩

end Wakes

end ChatStasher
