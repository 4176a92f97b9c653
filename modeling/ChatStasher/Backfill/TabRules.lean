import Mathlib.Algebra.Order.Group.Nat
import Mathlib.Data.List.Dedup
import Mathlib.Data.List.Perm.Subperm
import ChatStasher.Backfill.TabRegistry

/-! What the log of a tab registry says of one tab: the pings that it missed in a row, the tabs that
registered after it, and when its hello no longer keeps it in the registry. -/
namespace ChatStasher.TabRegistry

variable {Origin : Type*}

/-- The failing pings of the tab since it last answered one or said hello. -/
def strikes (log : List Fact) (tabId : ℤ) : ℕ :=
  log.foldl (fun n fact =>
    match fact with
    | .registered t => if t = tabId then 0 else n
    | .pinged t alive => if t = tabId then if alive then 0 else n + 1 else n
    | .listed _ _ => n) 0

/-- The other tabs that registered. -/
def newcomers (log : List Fact) (tabId : ℤ) : List ℤ :=
  (log.filterMap fun
    | .registered t => if t = tabId then none else some t
    | _ => none).dedup

/-- The hello at place `p` of the log no longer keeps its tab in the registry: twelve other tabs
registered since, two pings of the tab in a row failed with no answer or hello between them, or a list
of the open tabs that was asked for after it is without the tab. -/
inductive Released (log : List Fact) (p : ℕ) (tabId : ℤ) : Prop
  | crowded : maxTabEntries ≤ (newcomers (log.drop (p + 1)) tabId).length → Released log p tabId
  | struck (n : ℕ) :
      n ≤ (log.drop (p + 1)).length →
      tabPingMissesBeforeForget ≤ strikes ((log.drop (p + 1)).take n) tabId → Released log p tabId
  | unlisted (since : ℕ) (liveIds : List ℤ) :
      .listed since liveIds ∈ log → p < since → tabId ∉ liveIds → Released log p tabId

def Fact.resets (tabId : ℤ) : Fact → Bool
  | .registered t => t = tabId
  | .pinged t alive => t = tabId && alive
  | .listed _ _ => false

/-- A tab that has registered has neither answered a ping nor said hello since. -/
def Unshaken (log : List Fact) (since : ℕ) (tabId : ℤ) : Prop :=
  .registered tabId ∈ log → ∀ fact ∈ log.drop since, ¬ fact.resets tabId

instance (log : List Fact) (since : ℕ) (tabId : ℤ) : Decidable (Unshaken log since tabId) :=
  inferInstanceAs (Decidable (_ → _))

/-- As long as the tab is left alone, the log counts the misses that were known at the place. -/
def Counted (log : List Fact) (since : ℕ) (tabId : ℤ) (misses : ℕ) : Prop :=
  since ≤ log.length ∧
    (.registered tabId ∈ log → Unshaken log since tabId → misses ≤ strikes log tabId)

/-- The tab has its row among the rows, and the rows before it are of tabs that registered after its
hello at place `p`. -/
def Placed (log : List Fact) (p : ℕ) (tabId : ℤ) (rows : List (TabEntry Origin)) : Prop :=
  ∃ pre row post, rows = pre ++ row :: post ∧ row.tabId = tabId ∧
    ∀ x ∈ pre, .registered x.tabId ∈ log.drop (p + 1)

section Strikes

@[simp] lemma strikes_registered (log : List Fact) (t tabId : ℤ) :
    strikes (log ++ [.registered t]) tabId = if t = tabId then 0 else strikes log tabId := by
  simp [strikes]

@[simp] lemma strikes_pinged (log : List Fact) (t tabId : ℤ) (alive : Bool) :
    strikes (log ++ [.pinged t alive]) tabId =
      if t = tabId then if alive then 0 else strikes log tabId + 1 else strikes log tabId := by
  simp [strikes]

@[simp] lemma strikes_listed (log : List Fact) (since : ℕ) (liveIds : List ℤ) (tabId : ℤ) :
    strikes (log ++ [.listed since liveIds]) tabId = strikes log tabId := by
  simp [strikes]

lemma strikes_after_hello (before after : List Fact) (tabId : ℤ) :
    strikes (before ++ .registered tabId :: after) tabId = strikes after tabId := by
  simp [strikes]

lemma strikes_le_note {fact : Fact} {tabId : ℤ} (h : ¬ fact.resets tabId) (log : List Fact) :
    strikes log tabId ≤ strikes (log ++ [fact]) tabId := by
  cases fact with
  | registered t =>
    have hne : t ≠ tabId := by simpa [Fact.resets] using h
    simp [hne]
  | pinged t alive =>
    by_cases ht : t = tabId
    · have hdead : alive = false := by simpa [Fact.resets, ht] using h
      simp [ht, hdead]
    · simp [ht]
  | listed since liveIds => simp

end Strikes

section Notes

variable {log : List Fact} {p since : ℕ} {tabId : ℤ} {misses : ℕ} {rows : List (TabEntry Origin)}

lemma mem_newcomers {x : ℤ} : x ∈ newcomers log tabId ↔ .registered x ∈ log ∧ x ≠ tabId := by
  rw [newcomers, List.mem_dedup, List.mem_filterMap]
  constructor
  · rintro ⟨fact, hmem, hfact⟩
    cases fact with
    | registered t =>
      by_cases ht : t = tabId
      · simp [ht] at hfact
      · obtain rfl : t = x := by simpa [ht] using hfact
        exact ⟨hmem, ht⟩
    | pinged t alive => cases hfact
    | listed since liveIds => cases hfact
  · rintro ⟨hmem, hne⟩
    exact ⟨_, hmem, by simp [hne]⟩

lemma drop_note (h : p ≤ log.length) (fact : Fact) :
    (log ++ [fact]).drop p = log.drop p ++ [fact] := by
  rw [List.drop_append_of_le_length h]

lemma lt_length_of_getElem? {fact : Fact} (h : log[p]? = some fact) : p + 1 ≤ log.length :=
  (List.getElem?_eq_some_iff.mp h).1

lemma Released.note (hp : p + 1 ≤ log.length) (h : Released log p tabId) (fact : Fact) :
    Released (log ++ [fact]) p tabId := by
  have hdrop := drop_note hp fact
  cases h with
  | crowded h =>
    refine .crowded (h.trans ?_)
    have hsub : newcomers (log.drop (p + 1)) tabId ⊆
        newcomers ((log ++ [fact]).drop (p + 1)) tabId := by
      intro x hx
      rw [mem_newcomers] at hx ⊢
      rw [hdrop]
      exact ⟨List.mem_append_left _ hx.1, hx.2⟩
    exact (List.subperm_of_subset (List.nodup_dedup _) hsub).length_le
  | struck n hn h =>
    refine .struck n ?_ ?_
    · rw [hdrop, List.length_append]
      omega
    · rwa [hdrop, List.take_append_of_le_length hn]
  | unlisted since liveIds hmem hlt hnot =>
    exact .unlisted since liveIds (List.mem_append_left _ hmem) hlt hnot

lemma Placed.note (hp : p + 1 ≤ log.length) (h : Placed log p tabId rows) (fact : Fact) :
    Placed (log ++ [fact]) p tabId rows := by
  obtain ⟨pre, row, post, hrows, hid, hpre⟩ := h
  refine ⟨pre, row, post, hrows, hid, fun x hx => ?_⟩
  rw [drop_note hp]
  exact List.mem_append_left _ (hpre x hx)

lemma Unshaken.of_note {fact : Fact} (hs : since ≤ log.length)
    (h : Unshaken (log ++ [fact]) since tabId) (hreg : .registered tabId ∈ log) :
    Unshaken log since tabId ∧ ¬ fact.resets tabId := by
  have hall := h (List.mem_append_left _ hreg)
  rw [drop_note hs] at hall
  exact ⟨fun _ x hx => hall x (List.mem_append_left _ hx), hall fact (by simp)⟩

lemma registered_of_unshaken {fact : Fact} (hs : since ≤ log.length)
    (h : Unshaken (log ++ [fact]) since tabId) (hreg : .registered tabId ∈ log ++ [fact]) :
    .registered tabId ∈ log := by
  rcases List.mem_append.mp hreg with hlog | hfact
  · exact hlog
  · have hall := h hreg fact (by rw [drop_note hs]; simp)
    rw [← List.mem_singleton.mp hfact] at hall
    simp [Fact.resets] at hall

lemma Counted.note (h : Counted log since tabId misses) (fact : Fact) :
    Counted (log ++ [fact]) since tabId misses := by
  refine ⟨by rw [List.length_append]; exact h.1.trans (Nat.le_add_right _ _), fun hreg hun => ?_⟩
  have hlog := registered_of_unshaken h.1 hun hreg
  obtain ⟨hun', hfact⟩ := hun.of_note h.1 hlog
  exact (h.2 hlog hun').trans (strikes_le_note hfact log)

lemma Counted.missed (h : Counted log since tabId misses) :
    Counted (log ++ [.pinged tabId false]) since tabId (misses + 1) := by
  refine ⟨(h.note _).1, fun hreg hun => ?_⟩
  have hlog := registered_of_unshaken h.1 hun hreg
  have hle := h.2 hlog (hun.of_note h.1 hlog).1
  simpa using hle

lemma released_of_strikes (hp : log[p]? = some (.registered tabId))
    (h : tabPingMissesBeforeForget ≤ strikes log tabId) : Released log p tabId := by
  obtain ⟨hlt, hget⟩ := List.getElem?_eq_some_iff.mp hp
  have hsplit : log = log.take p ++ .registered tabId :: log.drop (p + 1) := by
    rw [← hget, List.getElem_cons_drop, List.take_append_drop]
  refine .struck (log.drop (p + 1)).length le_rfl ?_
  rw [List.take_length]
  rwa [hsplit, strikes_after_hello] at h

end Notes

section Places

variable {log : List Fact} {p : ℕ} {tabId : ℤ} {rows : List (TabEntry Origin)}

lemma Placed.exists_row (h : Placed log p tabId rows) : ∃ row ∈ rows, row.tabId = tabId := by
  obtain ⟨pre, row, post, rfl, hid, -⟩ := h
  exact ⟨row, by simp, hid⟩

lemma placed_cons_self (entry : TabEntry Origin) : Placed log p entry.tabId (entry :: rows) :=
  ⟨[], entry, rows, rfl, rfl, by simp⟩

lemma Placed.cons {entry : TabEntry Origin} (h : Placed log p tabId rows)
    (hentry : .registered entry.tabId ∈ log.drop (p + 1)) : Placed log p tabId (entry :: rows) := by
  obtain ⟨pre, row, post, rfl, hid, hpre⟩ := h
  exact ⟨entry :: pre, row, post, rfl, hid, List.forall_mem_cons.mpr ⟨hentry, hpre⟩⟩

lemma Placed.filter {q : TabEntry Origin → Bool} (h : Placed log p tabId rows)
    (hq : ∀ row, row.tabId = tabId → row ∈ rows → q row) :
    Placed log p tabId (rows.filter q) := by
  obtain ⟨pre, row, post, rfl, hid, hpre⟩ := h
  refine ⟨pre.filter q, row, post.filter q, ?_, hid, fun x hx => hpre x (List.mem_filter.mp hx).1⟩
  rw [List.filter_append, List.filter_cons_of_pos (hq row hid (by simp))]

lemma Placed.map {f : TabEntry Origin → TabEntry Origin} (hf : ∀ t, (f t).tabId = t.tabId)
    (h : Placed log p tabId rows) : Placed log p tabId (rows.map f) := by
  obtain ⟨pre, row, post, rfl, hid, hpre⟩ := h
  refine ⟨pre.map f, f row, post.map f, by simp, (hf row).trans hid, fun x hx => ?_⟩
  obtain ⟨y, hy, rfl⟩ := List.mem_map.mp hx
  rw [hf]
  exact hpre y hy

lemma Placed.take (hnodup : (rows.map TabEntry.tabId).Nodup) (h : Placed log p tabId rows) (n : ℕ) :
    Placed log p tabId (rows.take n) ∨ n ≤ (newcomers (log.drop (p + 1)) tabId).length := by
  obtain ⟨pre, row, post, rfl, hid, hpre⟩ := h
  by_cases hn : n ≤ pre.length
  · right
    rw [List.map_append, List.map_cons, List.nodup_append] at hnodup
    have hsub : pre.map TabEntry.tabId ⊆ newcomers (log.drop (p + 1)) tabId := by
      intro x hx
      have hne := hnodup.2.2 x hx row.tabId List.mem_cons_self
      obtain ⟨y, hy, rfl⟩ := List.mem_map.mp hx
      exact mem_newcomers.mpr ⟨hpre y hy, hid ▸ hne⟩
    have hle := (List.subperm_of_subset hnodup.1 hsub).length_le
    rw [List.length_map] at hle
    exact hn.trans hle
  · left
    obtain ⟨k, hk⟩ : ∃ k, n - pre.length = k + 1 := ⟨n - pre.length - 1, by omega⟩
    refine ⟨pre, row, post.take k, ?_, hid, hpre⟩
    rw [List.take_append, List.take_of_length_le (by omega), hk, List.take_succ_cons]

end Places

end ChatStasher.TabRegistry

/-! What the tab registry promises, one row for each tab, so many at most, and every tab that said
hello until it is crowded out, struck out or gone; and when a step of a run loses no update. -/
namespace ChatStasher.TabRegistry

variable {Origin : Type*} [DecidableEq Origin] (active : Origin → Bool)

/-- Rows that a registry may hold. -/
structure WellKept (rows : List (TabEntry Origin)) : Prop where
  one_row : (rows.map TabEntry.tabId).Nodup
  few : (served active rows).length ≤ maxTabEntries

/-- What the registry promises, on a store that began with the rows `rows₀`. -/
structure Kept (rows₀ : List (TabEntry Origin)) (s : Site Origin) : Prop where
  rows : ∀ rows ∈ s.disk.versions, WellKept active rows
  others : ∀ rows ∈ s.disk.versions, leftover active rows = leftover active rows₀
  mirror : s.disk.pending = [] → ∀ rows, s.mirror = some rows → rows = s.disk.stored
  stays : ∀ p tabId, s.log[p]? = some (.registered tabId) →
    Released s.log p tabId ∨ ∃ row ∈ served active s.registry, row.tabId = tabId

def Edit.clearing : Edit Origin → Option ℤ
  | .setMisses tabId 0 _ => some tabId
  | _ => none

/-- The tab whose misses the call is to clear, from the answered ping to the write. -/
def Call.clearing : Call Origin → Option ℤ
  | .editing _ (.saving _ _) _ => none
  | .editing e _ _ => e.clearing
  | _ => none

def Site.Unmissed (s : Site Origin) (tabId : ℤ) : Prop :=
  ∀ row ∈ served active s.registry, row.tabId = tabId → row.missCount = 0

/-- The row of the entry stands first and counts no miss. -/
def isFresh (rows : List (TabEntry Origin)) (entry : TabEntry Origin) : Bool :=
  match served active rows with
  | first :: _ => first.tabId = entry.tabId && first.missCount = 0
  | [] => false

/-- What an edit goes by is not overtaken by what the tab has done since. -/
def Edit.Timely (log : List Fact) (known : List (TabEntry Origin)) : Edit Origin → Prop
  | .remember entry => ∀ row ∈ leftover active known, row.tabId ≠ entry.tabId
  | .forget tabId since => Unshaken log since tabId
  | .setMisses tabId misses since => misses ≠ 0 → Unshaken log since tabId
  | .prune liveIds since => ∀ row ∈ served active known,
      row.tabId ∉ liveIds → .registered row.tabId ∉ log.drop since
  | .look => True

/-- A hello that is left as a repeat finds its row in the mirror, first and with no miss. -/
def Edit.leavesFresh (s : Site Origin) (rows : List (TabEntry Origin)) :
    Edit Origin → Then Origin → Bool
  | .remember entry, .answer =>
    !isRepeat (served active rows) entry || (s.mirror = some rows && isFresh active rows entry)
  | _, _ => true

/-- A read brings the registry as it stands, and a write finds the mirror as its edit read it. -/
def Phase.Sound (s : Site Origin) (e : Edit Origin) (next : Then Origin) : Phase Origin → Prop
  | .loading _ | .saving _ _ => True
  | .loaded _ rows => rows = s.registry
  | .read none rows => e.leavesFresh active s rows next
  | .read (some w) _ => s.mirror = some w.known ∧ e.Timely active s.log w.known

def Call.GoesOn (s : Site Origin) : Call Origin → Prop
  | .editing e phase next => phase.Sound active s e next
  | _ => True

/-- A pass of pings begins from the registry as it stands, with no miss still to be cleared. -/
def Call.Loads (s : Site Origin) : Call Origin → Prop
  | .taking _ => s.disk.stored = s.registry ∧ ∀ call ∈ s.calls, call.clearing = none
  | _ => True

/-- A pass that is answered by a tab without misses finds none in the registry. -/
def Call.Answered (s : Site Origin) : Call Origin → Prop
  | .pinging _ entry _ => entry.missCount = 0 → s.Unmissed active entry.tabId
  | _ => True

/-- A sweep that is answered by a tab finds no miss of it in the registry. -/
def Call.SweepAnswered (s : Site Origin) (i : ℕ) : Call Origin → Prop
  | .sweeping _ replies => ∀ x ∈ replies[i]?, x.2 = none → s.Unmissed active x.1
  | _ => True

/-- The step of a run loses no update: a read brings the registry as it stands, a write finds the
mirror as its call read it, and what a call goes by is not overtaken meanwhile. -/
def Site.Sound (s : Site Origin) : Event Origin → Prop
  | .begin_ (.rememberTab _ origin _) => active origin
  | .resume c => ∀ call ∈ s.calls[c]?, call.GoesOn active s
  | .load c => ∀ call ∈ s.calls[c]?, call.Loads s
  | .pong c reply => reply.alive → ∀ call ∈ s.calls[c]?, call.Answered active s
  | .sweepPong c i reply => reply.alive → ∀ call ∈ s.calls[c]?, call.SweepAnswered active s i
  | .restart => ∀ call ∈ s.calls, call.clearing = none
  | _ => True

section Decidable

variable (s : Site Origin)

instance (tabId : ℤ) : Decidable (s.Unmissed active tabId) :=
  inferInstanceAs (Decidable (∀ _ ∈ _, _ → _))

instance (log : List Fact) (known : List (TabEntry Origin)) :
    DecidablePred (Edit.Timely active log known)
  | .remember _ => inferInstanceAs (Decidable (∀ _ ∈ _, _))
  | .forget _ _ => inferInstanceAs (Decidable (Unshaken _ _ _))
  | .setMisses _ _ _ => inferInstanceAs (Decidable (_ → Unshaken _ _ _))
  | .prune _ _ => inferInstanceAs (Decidable (∀ _ ∈ _, _ → _))
  | .look => isTrue trivial

instance (e : Edit Origin) (next : Then Origin) : DecidablePred (Phase.Sound active s e next)
  | .loading _ | .saving _ _ => isTrue trivial
  | .loaded _ _ => inferInstanceAs (Decidable (_ = _))
  | .read none _ => inferInstanceAs (Decidable (_ = true))
  | .read (some w) _ => inferInstanceAs (Decidable (_ ∧ e.Timely active s.log w.known))

instance : DecidablePred (Call.GoesOn active s) := fun call => by
  cases call with
  | editing e phase next => exact inferInstanceAs (Decidable (phase.Sound active s e next))
  | _ => exact isTrue trivial

instance : DecidablePred (Call.Loads s) := fun call => by
  cases call with
  | taking origin => exact inferInstanceAs (Decidable (_ ∧ _))
  | _ => exact isTrue trivial

instance : DecidablePred (Call.Answered active s) := fun call => by
  cases call with
  | pinging since entry rest => exact inferInstanceAs (Decidable (_ → s.Unmissed active _))
  | _ => exact isTrue trivial

instance (i : ℕ) : DecidablePred (Call.SweepAnswered active s i) := fun call => by
  cases call with
  | sweeping sweep replies => exact inferInstanceAs (Decidable (∀ x ∈ replies[i]?, _))
  | _ => exact isTrue trivial

instance : DecidablePred (s.Sound active) := fun event => by
  cases event with
  | begin_ op =>
    cases op with
    | rememberTab tabId origin seenAt => exact inferInstanceAs (Decidable (active origin = true))
    | _ => exact isTrue trivial
  | resume c => exact inferInstanceAs (Decidable (∀ call ∈ s.calls[c]?, call.GoesOn active s))
  | load c => exact inferInstanceAs (Decidable (∀ call ∈ s.calls[c]?, call.Loads s))
  | pong c reply =>
    exact inferInstanceAs (Decidable (_ → ∀ _ ∈ s.calls[c]?, Call.Answered active s _))
  | sweepPong c i reply =>
    exact inferInstanceAs (Decidable (_ → ∀ _ ∈ s.calls[c]?, Call.SweepAnswered active s i _))
  | restart => exact inferInstanceAs (Decidable (∀ _ ∈ _, _))
  | _ => exact isTrue trivial

end Decidable

section Rows

variable {active} {rows next : List (TabEntry Origin)} {row x : TabEntry Origin}

omit [DecidableEq Origin] in
@[simp] lemma mem_served : row ∈ served active rows ↔ row ∈ rows ∧ active row.origin := by
  simp [served]

omit [DecidableEq Origin] in
@[simp] lemma mem_leftover :
    row ∈ leftover active rows ↔ row ∈ rows ∧ active row.origin = false := by
  simp [leftover]

omit [DecidableEq Origin] in
lemma WellKept.eq_of_tabId (h : WellKept active rows) (hrow : row ∈ rows) (hx : x ∈ rows)
    (hid : row.tabId = x.tabId) : row = x :=
  List.inj_on_of_nodup_map h.one_row hrow hx hid

omit [DecidableEq Origin] in
lemma WellKept.nodup_served (h : WellKept active rows) :
    ((served active rows).map TabEntry.tabId).Nodup :=
  h.one_row.sublist (List.filter_sublist.map _)

omit [DecidableEq Origin] in
lemma WellKept.tabId_ne (h : WellKept active rows) (hrow : row ∈ served active rows)
    (hx : x ∈ leftover active rows) : row.tabId ≠ x.tabId := by
  intro hid
  rw [mem_served] at hrow
  rw [mem_leftover] at hx
  rw [← h.eq_of_tabId hrow.1 hx.1 hid, hrow.2] at hx
  exact Bool.noConfusion hx.2

lemma next_remember {entry : TabEntry Origin}
    (h : (Edit.remember entry).next rows = some next) :
    (entry :: rows.filter fun t => t.tabId ≠ entry.tabId).take maxTabEntries = next := by
  rw [Edit.next] at h
  split at h
  · cases h
  · exact Option.some.inj h

lemma next_prune {liveIds : List ℤ} {since : ℕ}
    (h : (Edit.prune liveIds since).next rows = some next) :
    (rows.filter fun t => t.tabId ∈ liveIds) = next := by
  rw [Edit.next] at h
  split at h
  · cases h
  · exact Option.some.inj h

/-- Rows of the channel that can be written over the registry. -/
structure Fits (active : Origin → Bool) (rows next : List (TabEntry Origin)) : Prop where
  mine : ∀ row ∈ next, active row.origin
  one_row : (next.map TabEntry.tabId).Nodup
  few : next.length ≤ maxTabEntries
  apart : ∀ row ∈ next, ∀ x ∈ leftover active rows, row.tabId ≠ x.tabId

namespace Fits

omit [DecidableEq Origin]

lemma served_append (h : Fits active rows next) :
    served active (next ++ leftover active rows) = next := by
  rw [served, List.filter_append, List.filter_eq_self.mpr h.mine, List.filter_eq_nil_iff.mpr,
    List.append_nil]
  intro x hx
  simp [(mem_leftover.mp hx).2]

lemma leftover_append (h : Fits active rows next) :
    leftover active (next ++ leftover active rows) = leftover active rows := by
  rw [leftover, List.filter_append, List.filter_eq_nil_iff.mpr, List.nil_append,
    List.filter_eq_self.mpr]
  · intro x hx
    simp [(mem_leftover.mp hx).2]
  · intro x hx
    simp [h.mine x hx]

lemma wellKept (h : Fits active rows next) (hrows : WellKept active rows) :
    WellKept active (next ++ leftover active rows) where
  one_row := by
    rw [List.map_append, List.nodup_append]
    refine ⟨h.one_row, hrows.one_row.sublist (List.filter_sublist.map _), ?_⟩
    intro a ha b hb
    obtain ⟨row, hrow, rfl⟩ := List.mem_map.mp ha
    obtain ⟨x, hx, rfl⟩ := List.mem_map.mp hb
    exact h.apart row hrow x hx
  few := by
    rw [h.served_append]
    exact h.few

lemma of_sublist (hrows : WellKept active rows) (hsub : next.Sublist (served active rows)) :
    Fits active rows next where
  mine _ hrow := (mem_served.mp (hsub.subset hrow)).2
  one_row := hrows.nodup_served.sublist (hsub.map _)
  few := hsub.length_le.trans hrows.few
  apart _ hrow _ hx := hrows.tabId_ne (hsub.subset hrow) hx

lemma of_cons (hrows : WellKept active rows) {entry : TabEntry Origin}
    (hentry : active entry.origin)
    (hapart : ∀ x ∈ leftover active rows, x.tabId ≠ entry.tabId) :
    Fits active rows ((entry :: (served active rows).filter fun t =>
      t.tabId ≠ entry.tabId).take maxTabEntries) where
  mine row hrow := by
    rcases List.mem_cons.mp (List.mem_of_mem_take hrow) with rfl | hrow
    · exact hentry
    · exact (mem_served.mp (List.mem_of_mem_filter hrow)).2
  one_row := by
    refine List.Nodup.sublist ((List.take_sublist _ _).map _) ?_
    rw [List.map_cons, List.nodup_cons]
    refine ⟨?_, hrows.nodup_served.sublist (List.filter_sublist.map _)⟩
    simp
  few := List.length_take_le _ _
  apart row hrow x hx := by
    rcases List.mem_cons.mp (List.mem_of_mem_take hrow) with rfl | hrow
    · exact (hapart x hx).symm
    · exact hrows.tabId_ne (List.mem_of_mem_filter hrow) hx

lemma of_map (hrows : WellKept active rows) {f : TabEntry Origin → TabEntry Origin}
    (hid : ∀ t, (f t).tabId = t.tabId) (horigin : ∀ t, (f t).origin = t.origin) :
    Fits active rows ((served active rows).map f) where
  mine row hrow := by
    obtain ⟨t, ht, rfl⟩ := List.mem_map.mp hrow
    rw [horigin]
    exact (mem_served.mp ht).2
  one_row := by
    have hcomp : TabEntry.tabId ∘ f = TabEntry.tabId := funext hid
    rw [List.map_map, hcomp]
    exact hrows.nodup_served
  few := by
    rw [List.length_map]
    exact hrows.few
  apart row hrow x hx := by
    obtain ⟨t, ht, rfl⟩ := List.mem_map.mp hrow
    rw [hid]
    exact hrows.tabId_ne ht hx

end Fits

end Rows

end ChatStasher.TabRegistry
