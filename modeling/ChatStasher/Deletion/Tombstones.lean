import ChatStasher.Deletion.Control

/-! What a policy owes to its records: the order of the streams, other identities, tombstones. -/
namespace ChatStasher.Deletion
open Inbox (Text)
open KeyedList

variable {instant : ReadInstant} {events : List ControlEvent}

def Conflicting (events : List ControlEvent) : Prop :=
  ∃ a ∈ events, ∃ b ∈ events, a.operationId = b.operationId ∧ a ≠ b

def AllValid (instant : ReadInstant) (events : List ControlEvent) : Prop :=
  ∀ e ∈ events, e.validate instant = .ok ()

structure Ordered (instant : ReadInstant) (events l : List ControlEvent) : Prop where
  sorted : l.Pairwise fun a b => a.orderKey instant < b.orderKey instant
  mem : ∀ e, e ∈ l ↔ e ∈ events

/-- What the map of operation ids holds. -/
structure OnceEach (events : List ControlEvent) (unique : List (Text × ControlEvent)) : Prop where
  nodup : (unique.map Prod.fst).Nodup
  keyed : ∀ x ∈ unique, x.1 = x.2.operationId
  mem : ∀ e, (e.operationId, e) ∈ unique ↔ e ∈ events

lemma OnceEach.empty : OnceEach [] [] := ⟨by simp, by simp, by simp⟩

lemma OnceEach.not_conflicting {unique : List (Text × ControlEvent)} (h : OnceEach events unique) :
    ¬ Conflicting events := by
  rintro ⟨a, ha, b, hb, hid, hne⟩
  have hpair := List.inj_on_of_nodup_map h.nodup ((h.mem a).mpr ha) ((h.mem b).mpr hb) hid
  exact hne (Prod.mk.inj hpair).2

lemma OnceEach.put {unique : List (Text × ControlEvent)} (h : OnceEach events unique)
    {e : ControlEvent} (hnew : unique.lookup e.operationId = none) :
    OnceEach (events ++ [e]) (KeyedList.put unique (e.operationId, e)) where
  nodup := put_nodup h.nodup
  keyed x hx := by
    rcases mem_put.mp hx with rfl | ⟨hx, -⟩
    · rfl
    · exact h.keyed x hx
  mem e' := by
    have hfree : (e'.operationId, e') ∈ unique → e'.operationId ≠ e.operationId := by
      intro hmem heq
      have := List.lookup_eq_none_iff.mp hnew _ hmem
      simp [heq] at this
    rw [mem_put, List.mem_append, List.mem_singleton, ← h.mem]
    constructor
    · rintro (heq | ⟨hmem, -⟩)
      · exact Or.inr (Prod.mk.inj heq).2
      · exact Or.inl hmem
    · rintro (hmem | rfl)
      · exact Or.inr ⟨hmem, hfree hmem⟩
      · exact Or.inl rfl

lemma uniqueEvents_spec (rest : List ControlEvent) (hvalid : AllValid instant rest)
    {unique : List (Text × ControlEvent)} (h : OnceEach events unique) :
    (∃ u, uniqueEvents instant unique rest = .ok u ∧ OnceEach (events ++ rest) u) ∨
      (∃ id, uniqueEvents instant unique rest = .error (.conflict id)) ∧
        Conflicting (events ++ rest) := by
  induction rest generalizing events unique with
  | nil => exact Or.inl ⟨unique, rfl, by simpa using h⟩
  | cons e rest ih =>
    have hhead : e.validate instant = .ok () := hvalid e List.mem_cons_self
    have htail : AllValid instant rest := fun e he => hvalid e (List.mem_cons_of_mem _ he)
    rw [uniqueEvents, hhead]
    dsimp only
    cases hlookup : unique.lookup e.operationId with
    | none =>
      have := ih htail (h.put hlookup)
      rwa [List.append_assoc, List.singleton_append] at this
    | some prior =>
      have hprior : (e.operationId, prior) ∈ unique := (lookup_eq_some_iff_mem h.nodup).mp hlookup
      have hid : e.operationId = prior.operationId := h.keyed _ hprior
      dsimp only
      by_cases heq : prior = e
      · -- a replay adds nothing
        subst heq
        have hmem : prior ∈ events := (h.mem prior).mp hprior
        have hsame : OnceEach (events ++ [prior]) unique :=
          ⟨h.nodup, h.keyed, fun e => by
            rw [h.mem, List.mem_append, List.mem_singleton]
            exact ⟨Or.inl, fun he => he.elim id fun he => he ▸ hmem⟩⟩
        have := ih htail hsame
        rw [List.append_assoc, List.singleton_append] at this
        simpa using this
      · refine Or.inr ⟨⟨e.operationId, by rw [if_neg heq]⟩, prior, ?_, e, by simp, hid.symm, heq⟩
        have hmem : prior ∈ events := (h.mem prior).mp (hid ▸ hprior)
        exact List.mem_append_left _ hmem

lemma OnceEach.ordered {unique : List (Text × ControlEvent)} (h : OnceEach events unique) :
    Ordered instant events (inOrder instant ((inKeyOrder unique).map Prod.snd)) := by
  have hmem : ∀ e, e ∈ (inKeyOrder unique).map Prod.snd ↔ e ∈ events := by
    intro e
    rw [List.mem_map, ← h.mem]
    constructor
    · rintro ⟨x, hx, rfl⟩
      have hx := mem_inKeyOrder.mp hx
      rwa [← h.keyed x hx]
    · exact fun he => ⟨_, mem_inKeyOrder.mpr he, rfl⟩
  have hids : (((inKeyOrder unique).map Prod.snd).map ControlEvent.operationId).Nodup := by
    have hkeys : ((inKeyOrder unique).map Prod.snd).map ControlEvent.operationId =
        (inKeyOrder unique).map Prod.fst := by
      rw [List.map_map]
      exact List.map_congr_left fun x hx => (h.keyed x (mem_inKeyOrder.mp hx)).symm
    rw [hkeys]
    exact ((inKeyOrder_perm unique).map Prod.fst).nodup_iff.mpr h.nodup
  refine ⟨?_, fun e => by rw [inOrder, List.mem_insertionSort, hmem]⟩
  have htotal : Std.Total fun a b : ControlEvent => a.orderKey instant ≤ b.orderKey instant :=
    ⟨fun a b => le_total _ _⟩
  have htrans : IsTrans ControlEvent fun a b => a.orderKey instant ≤ b.orderKey instant :=
    ⟨fun a b c hab hbc => le_trans hab hbc⟩
  have hle := List.pairwise_insertionSort
    (fun a b : ControlEvent => a.orderKey instant ≤ b.orderKey instant)
    ((inKeyOrder unique).map Prod.snd)
  have hne : (inOrder instant ((inKeyOrder unique).map Prod.snd)).Pairwise
      fun a b => a.operationId ≠ b.operationId :=
    List.pairwise_map.mp (((List.perm_insertionSort _ _).map _).nodup_iff.mpr hids)
  refine (hle.and hne).imp fun hab => lt_of_le_of_ne hab.1 fun heq => hab.2 ?_
  exact (Prod.mk.inj (toLex.injective heq)).2

lemma Ordered.eq {events' l l' : List ControlEvent} (h : Ordered instant events l)
    (h' : Ordered instant events' l') (hsame : ∀ e, e ∈ events ↔ e ∈ events') : l = l' := by
  have : Std.Irrefl fun a b : ControlEvent => a.orderKey instant < b.orderKey instant :=
    ⟨fun a => lt_irrefl _⟩
  exact h.sorted.eq_of_mem_iff h'.sorted fun e => by rw [h.mem, h'.mem, hsame]

lemma Ordered.filter {l : List ControlEvent} (h : Ordered instant events l)
    (p : ControlEvent → Bool) : Ordered instant (events.filter p) (l.filter p) :=
  ⟨h.sorted.filter p, fun e => by rw [List.mem_filter, List.mem_filter, h.mem]⟩

theorem foldEvents_spec (hvalid : AllValid instant events) :
    (∃ l, Ordered instant events l ∧ foldEvents instant events = .ok (policyOf l)) ∧
        ¬ Conflicting events ∨
      (∃ id, foldEvents instant events = .error (.conflict id)) ∧ Conflicting events := by
  rcases uniqueEvents_spec events hvalid OnceEach.empty with ⟨u, hok, hu⟩ | ⟨⟨id, herr⟩, hconflict⟩
  · rw [List.nil_append] at hu
    exact Or.inl ⟨⟨_, hu.ordered, by rw [foldEvents, hok]⟩, hu.not_conflicting⟩
  · exact Or.inr ⟨⟨id, by rw [foldEvents, herr]⟩, hconflict⟩

namespace ControlEvent

/-- Where a record leads an identity that was not purged. -/
def outcome (e : ControlEvent) : Visibility :=
  match e.action, e.scope with
  | .purge, _ => .purged
  | .redact, .contentThroughCutoff recordedCutoff => .redactedThroughCutoff recordedCutoff
  | .redact, _ => .visible
  | .unhide, _ => .visible
  | .hide, _ => .hidden

def Tombstone (e : ControlEvent) : Prop := e.action = .purge ∨ e.action = .redact

lemma checkScope_of_validate {e : ControlEvent} (h : e.validate instant = .ok ()) :
    e.checkScope = .ok () := by
  unfold validate at h
  split_ifs at h
  exact h

lemma scope_of_redact {e : ControlEvent} (h : e.validate instant = .ok ())
    (hredact : e.action = .redact) : ∃ cutoff, e.scope = .contentThroughCutoff cutoff := by
  have hscope := checkScope_of_validate h
  rw [checkScope, hredact] at hscope
  cases hs : e.scope with
  | contentThroughCutoff cutoff => exact ⟨cutoff, rfl⟩
  | session => simp [hs] at hscope
  | sessionForever => simp [hs] at hscope

lemma outcome_eq_visible {e : ControlEvent} (h : e.validate instant = .ok ()) :
    e.outcome = .visible ↔ e.action = .unhide := by
  cases haction : e.action with
  | hide => simp [outcome, haction]
  | unhide => simp [outcome, haction]
  | purge => simp [outcome, haction]
  | redact =>
    obtain ⟨cutoff, hscope⟩ := scope_of_redact h haction
    simp [outcome, haction, hscope]

lemma outcome_eq_purged {e : ControlEvent} : e.outcome = .purged ↔ e.action = .purge := by
  cases haction : e.action with
  | hide => simp [outcome, haction]
  | unhide => simp [outcome, haction]
  | purge => simp [outcome, haction]
  | redact => cases hscope : e.scope <;> simp [outcome, haction, hscope]

end ControlEvent

@[simp] lemma unlessPurged_purged (v : Option Visibility) : unlessPurged .purged v = .purged := by
  unfold unlessPurged
  split <;> rfl

lemma applyEvent_eq {e : ControlEvent} (h : e.validate instant = .ok ())
    (state : List (Identity × Visibility)) :
    applyEvent state e = upsert state e.identity (unlessPurged e.outcome) := by
  cases haction : e.action with
  | hide => simp [applyEvent, ControlEvent.outcome, haction]
  | unhide => simp [applyEvent, ControlEvent.outcome, haction]
  | purge => simp [applyEvent, ControlEvent.outcome, haction, upsert]
  | redact =>
    obtain ⟨cutoff, hscope⟩ := ControlEvent.scope_of_redact h haction
    simp [applyEvent, ControlEvent.outcome, haction, hscope]

def settle (l : List ControlEvent) : Option Visibility :=
  l.foldl (fun state e => some (unlessPurged e.outcome state)) none

lemma visibility_policyOf {l : List ControlEvent} (hvalid : AllValid instant l)
    (identity : Identity) : (policyOf l).visibility identity =
      (settle (l.filter fun e => e.identity = identity)).getD .visible := by
  have hfold : l.foldl applyEvent [] = l.foldl
      (fun m e => upsert m e.identity (unlessPurged e.outcome)) [] :=
    List.foldl_ext _ _ _ fun state e he => applyEvent_eq (hvalid e he) state
  rw [ControlPolicy.visibility, policyOf, hfold, settle,
    lookup_foldl_upsert ControlEvent.identity (fun v e => unlessPurged e.outcome v)]
  rfl

lemma settle_eq_purged (l : List ControlEvent) :
    settle l = some .purged ↔ ∃ e ∈ l, e.action = .purge := by
  induction l using List.reverseRecOn with
  | nil => simp [settle]
  | append_singleton l e ih =>
    have hsplit : settle (l ++ [e]) = some (unlessPurged e.outcome (settle l)) := by
      simp [settle]
    rw [hsplit]
    constructor
    · intro hpurged
      by_cases hbefore : settle l = some .purged
      · obtain ⟨e', he', haction⟩ := ih.mp hbefore
        exact ⟨e', List.mem_append_left _ he', haction⟩
      · have hout : e.outcome = .purged := by
          unfold unlessPurged at hpurged
          split at hpurged
          next heq => exact absurd heq hbefore
          next => exact Option.some.inj hpurged
        exact ⟨e, by simp, ControlEvent.outcome_eq_purged.mp hout⟩
    · rintro ⟨e', he', haction⟩
      rcases List.mem_append.mp he' with hl | hlast
      · rw [ih.mpr ⟨e', hl, haction⟩]
        rfl
      · obtain rfl := List.mem_singleton.mp hlast
        rw [ControlEvent.outcome_eq_purged.mpr haction, unlessPurged_purged]

lemma settle_append {l : List ControlEvent} {e : ControlEvent}
    (h : ∀ e' ∈ l, e'.action ≠ .purge) : settle (l ++ [e]) = some e.outcome := by
  have hsplit : settle (l ++ [e]) = some (unlessPurged e.outcome (settle l)) := by
    simp [settle]
  have hbefore : settle l ≠ some .purged := fun hp => by
    obtain ⟨e', he', haction⟩ := (settle_eq_purged l).mp hp
    exact h e' he' haction
  rw [hsplit]
  unfold unlessPurged
  split
  next heq => exact absurd heq hbefore
  next => rfl

/-- A policy is a function of the records alone, per identity, and keeps every tombstone. -/
structure Kept (instant : ReadInstant) (streams : List (List ControlEvent)) : Prop where
  same : ∀ streams' : List (List ControlEvent),
    (∀ e, e ∈ streams'.flatten ↔ e ∈ streams.flatten) →
      (foldEvents instant streams'.flatten).toOption = (foldEvents instant streams.flatten).toOption
  refused : (foldEvents instant streams.flatten).toOption = none ↔ Conflicting streams.flatten
  own : ∀ (identity : Identity) (events : List ControlEvent), AllValid instant events →
    (∀ e, e.identity = identity → (e ∈ events ↔ e ∈ streams.flatten)) →
      ∀ policy policy', foldEvents instant streams.flatten = .ok policy →
        foldEvents instant events = .ok policy' →
          policy.visibility identity = policy'.visibility identity
  omitted : ∀ policy, foldEvents instant streams.flatten = .ok policy →
    ∀ e ∈ streams.flatten, e.Tombstone → policy.omittedFromReaders e.identity = true

/-- An unhide of a session that was redacted and never purged is not its last record. -/
def UnhideSuperseded (instant : ReadInstant) (events : List ControlEvent) : Prop :=
  ∀ r ∈ events, r.action = .redact →
    (∀ p ∈ events, p.identity = r.identity → p.action ≠ .purge) →
      ∀ u ∈ events, u.identity = r.identity → u.action = .unhide →
        ∃ e ∈ events, e.identity = r.identity ∧ u.orderKey instant < e.orderKey instant ∧
          e.action ≠ .unhide

lemma Ordered.valid {l : List ControlEvent} (h : Ordered instant events l)
    (hvalid : AllValid instant events) : AllValid instant l := fun e he =>
  hvalid e ((h.mem e).mp he)

lemma Ordered.last {l : List ControlEvent} (h : Ordered instant events l) {t : ControlEvent}
    (ht : t ∈ events) : ∃ l' e, l.filter (fun e => e.identity = t.identity) = l' ++ [e] ∧
      e ∈ events ∧ e.identity = t.identity ∧
      ∀ e' ∈ events, e'.identity = t.identity → e' = e ∨ e'.orderKey instant < e.orderKey instant
        ∧ e' ∈ l' := by
  have hmem : ∀ e', e' ∈ l.filter (fun e => e.identity = t.identity) ↔
      e' ∈ events ∧ e'.identity = t.identity := fun e' => by simp [h.mem]
  have hsorted := h.sorted.filter fun e => e.identity = t.identity
  generalize l.filter (fun e => e.identity = t.identity) = l₀ at hmem hsorted
  have hne : l₀ ≠ [] := List.ne_nil_of_mem ((hmem t).mpr ⟨ht, rfl⟩)
  obtain ⟨l', e, rfl⟩ : ∃ l' e, l₀ = l' ++ [e] :=
    ⟨l₀.dropLast, l₀.getLast hne, (List.dropLast_append_getLast hne).symm⟩
  have he := (hmem e).mp (by simp)
  refine ⟨l', e, rfl, he.1, he.2, fun e' he' hid => ?_⟩
  rcases List.mem_append.mp ((hmem e').mpr ⟨he', hid⟩) with hl | hlast
  · exact Or.inr ⟨(List.pairwise_append.mp hsorted).2.2 e' hl e (by simp), hl⟩
  · exact Or.inl (List.mem_singleton.mp hlast)

lemma omitted_of_last {l l' : List ControlEvent} (hvalid : AllValid instant l) {e : ControlEvent}
    {identity : Identity} (hlast : l.filter (fun e => e.identity = identity) = l' ++ [e])
    (he : e.validate instant = .ok ()) (hpurge : ∀ p ∈ l', p.action ≠ .purge) :
    (policyOf l).omittedFromReaders identity = true ↔ e.action ≠ .unhide := by
  rw [ControlPolicy.omittedFromReaders, visibility_policyOf hvalid, hlast, settle_append hpurge,
    Option.getD_some, ne_eq, ← ControlEvent.outcome_eq_visible he]
  cases e.outcome <;> simp [Visibility.omittedFromReaders]

lemma conflicting_congr {events events' : List ControlEvent}
    (hsame : ∀ e, e ∈ events' ↔ e ∈ events) : Conflicting events' ↔ Conflicting events := by
  simp only [Conflicting, hsame]

lemma foldEvents_same {events' : List ControlEvent} (hvalid : AllValid instant events)
    (hsame : ∀ e, e ∈ events' ↔ e ∈ events) :
    (foldEvents instant events').toOption = (foldEvents instant events).toOption := by
  have hvalid' : AllValid instant events' := fun e he => hvalid e ((hsame e).mp he)
  have hconf := conflicting_congr hsame
  rcases foldEvents_spec hvalid with ⟨⟨l, hl, hok⟩, hfree⟩ | ⟨⟨id, herr⟩, hconflict⟩
  · rcases foldEvents_spec hvalid' with ⟨⟨l', hl', hok'⟩, -⟩ | ⟨-, hconflict'⟩
    · rw [hok, hok', hl'.eq hl hsame]
    · exact absurd (hconf.mp hconflict') hfree
  · rcases foldEvents_spec hvalid' with ⟨-, hfree'⟩ | ⟨⟨id', herr'⟩, -⟩
    · exact absurd (hconf.mpr hconflict) hfree'
    · rw [herr, herr']
      rfl

lemma foldEvents_refused (hvalid : AllValid instant events) :
    (foldEvents instant events).toOption = none ↔ Conflicting events := by
  rcases foldEvents_spec hvalid with ⟨⟨l, -, hok⟩, hfree⟩ | ⟨⟨id, herr⟩, hconflict⟩
  · simp [hok, hfree, Except.toOption]
  · simp [herr, hconflict, Except.toOption]

lemma ordered_of_ok (hvalid : AllValid instant events) {policy : ControlPolicy}
    (hok : foldEvents instant events = .ok policy) :
    ∃ l, Ordered instant events l ∧ policy = policyOf l ∧ ¬ Conflicting events := by
  rcases foldEvents_spec hvalid with ⟨⟨l, hl, hl₀⟩, hfree⟩ | ⟨⟨id, herr⟩, -⟩
  · exact ⟨l, hl, (Except.ok.inj (hl₀.symm.trans hok)).symm, hfree⟩
  · rw [herr] at hok
    cases hok

lemma foldEvents_own {events' : List ControlEvent} (hvalid : AllValid instant events)
    (hvalid' : AllValid instant events') {identity : Identity}
    (hsame : ∀ e, e.identity = identity → (e ∈ events' ↔ e ∈ events))
    {policy policy' : ControlPolicy} (hok : foldEvents instant events = .ok policy)
    (hok' : foldEvents instant events' = .ok policy') :
    policy.visibility identity = policy'.visibility identity := by
  obtain ⟨l, hl, rfl, -⟩ := ordered_of_ok hvalid hok
  obtain ⟨l', hl', rfl, -⟩ := ordered_of_ok hvalid' hok'
  have hfilter := (hl.filter fun e => e.identity = identity).eq
    (hl'.filter fun e => e.identity = identity) fun e => by
      simp only [List.mem_filter, decide_eq_true_eq]
      exact and_congr_left fun hid => (hsame e hid).symm
  rw [visibility_policyOf (hl.valid hvalid), visibility_policyOf (hl'.valid hvalid'), hfilter]

lemma foldEvents_omitted (hvalid : AllValid instant events)
    (hlast : UnhideSuperseded instant events) {policy : ControlPolicy}
    (hok : foldEvents instant events = .ok policy) {t : ControlEvent} (ht : t ∈ events)
    (htomb : t.Tombstone) : policy.omittedFromReaders t.identity = true := by
  obtain ⟨l, hl, rfl, -⟩ := ordered_of_ok hvalid hok
  obtain ⟨l', e, hsplit, he, heid, hrest⟩ := hl.last ht
  have hmem : ∀ p, p ∈ l' ++ [e] ↔ p ∈ events ∧ p.identity = t.identity := fun p => by
    rw [← hsplit, List.mem_filter, hl.mem, decide_eq_true_iff]
  by_cases hpurge : ∃ p ∈ l' ++ [e], p.action = .purge
  · rw [ControlPolicy.omittedFromReaders, visibility_policyOf (hl.valid hvalid), hsplit,
      (settle_eq_purged _).mpr hpurge]
    rfl
  · push Not at hpurge
    have hredact : t.action = .redact := htomb.resolve_left (hpurge t ((hmem t).mpr ⟨ht, rfl⟩))
    have hbefore : ∀ p ∈ l', p.action ≠ .purge := fun p hp => hpurge p (List.mem_append_left _ hp)
    refine (omitted_of_last (hl.valid hvalid) hsplit (hvalid e he) hbefore).mpr fun hunhide => ?_
    obtain ⟨e', he', hid', hlater, -⟩ := hlast t ht hredact
      (fun p hp hid => hpurge p ((hmem p).mpr ⟨hp, hid⟩)) e he heid hunhide
    rcases hrest e' he' hid' with rfl | ⟨hlt, -⟩
    · exact lt_irrefl _ hlater
    · exact lt_asymm hlt hlater

lemma unhideSuperseded_of_omitted (hvalid : AllValid instant events) {policy : ControlPolicy}
    (hok : foldEvents instant events = .ok policy)
    (homitted : ∀ e ∈ events, e.Tombstone → policy.omittedFromReaders e.identity = true) :
    UnhideSuperseded instant events := by
  intro r hr hredact hpurge u hu hid hunhide
  obtain ⟨l, hl, rfl, -⟩ := ordered_of_ok hvalid hok
  obtain ⟨l', e, hsplit, he, heid, hrest⟩ := hl.last hr
  have hbefore : ∀ p ∈ l', p.action ≠ .purge := fun p hp => by
    have hmem : p ∈ l.filter fun e => e.identity = r.identity := by simp [hsplit, hp]
    rw [List.mem_filter, hl.mem, decide_eq_true_iff] at hmem
    exact hpurge p hmem.1 hmem.2
  have hnot : e.action ≠ .unhide :=
    (omitted_of_last (hl.valid hvalid) hsplit (hvalid e he) hbefore).mp
      (homitted r hr (Or.inr hredact))
  refine ⟨e, he, heid, ?_, hnot⟩
  rcases hrest u hu hid with rfl | ⟨hlt, -⟩
  · exact absurd hunhide hnot
  · exact hlt

/-- For valid records a policy does what it owes, except that an unhide after a redaction shows the
session again. -/
theorem policy_kept_iff (streams : List (List ControlEvent))
    (hvalid : AllValid instant streams.flatten) : Kept instant streams ↔
      (¬ Conflicting streams.flatten → UnhideSuperseded instant streams.flatten) := by
  constructor
  · intro hkept hfree
    rcases foldEvents_spec hvalid with ⟨⟨l, -, hok⟩, -⟩ | ⟨-, hconflict⟩
    · exact unhideSuperseded_of_omitted hvalid hok (hkept.omitted (policyOf l) hok)
    · exact absurd hconflict hfree
  · intro hlast
    refine ⟨fun streams' hsame => foldEvents_same hvalid hsame, foldEvents_refused hvalid, ?_, ?_⟩
    · exact fun identity events' hvalid' hsame policy policy' hok hok' =>
        foldEvents_own hvalid hvalid' hsame hok hok'
    · intro policy hok t ht htomb
      obtain ⟨l, -, -, hfree⟩ := ordered_of_ok hvalid hok
      exact foldEvents_omitted hvalid (hlast hfree) hok ht htomb

def twoDays : ReadInstant := fun text =>
  [("2026-01-01T00:00:00Z".toList, (1767225600 : ℤ)),
    ("2026-01-02T00:00:00Z".toList, 1767312000)].lookup text

def redactFirst : ControlEvent where
  schema := controlSchema
  operationId := "op-1".toList
  recordedAt := "2026-01-01T00:00:00Z".toList
  action := .redact
  targetMachine := "laptop".toList
  sessionId := "claude-0001".toList
  actorMachine := "laptop".toList
  scope := .contentThroughCutoff "2025-12-31".toList
  reason := none

def unhideLater : ControlEvent :=
  { redactFirst with
    operationId := "op-2".toList
    recordedAt := "2026-01-02T00:00:00Z".toList
    action := .unhide
    actorMachine := "desktop".toList
    scope := .session }

def hideLater : ControlEvent :=
  { unhideLater with action := .hide }

/-- A hide after the redaction leaves every tombstone in force. -/
theorem policy_kept_hide : Kept twoDays [[redactFirst], [hideLater]] := by
  have hnone : ∀ u ∈ [[redactFirst], [hideLater]].flatten, u.action ≠ .unhide := by decide +kernel
  exact (policy_kept_iff [[redactFirst], [hideLater]] (by unfold AllValid; decide +kernel)).mpr
    fun _ _ _ _ _ u hu _ hunhide => absurd hunhide (hnone u hu)

/-- An unhide after the redaction shows the redacted session again. -/
theorem redacted_shown_again : (∀ e ∈ [[redactFirst], [unhideLater]].flatten,
    e.validate twoDays = .ok ()) ∧ ¬ Kept twoDays [[redactFirst], [unhideLater]] := by
  refine ⟨by decide +kernel, fun hkept => ?_⟩
  have hok : foldEvents twoDays [redactFirst, unhideLater] =
      .ok (policyOf [redactFirst, unhideLater]) := by decide +kernel
  have homitted := hkept.omitted _ hok redactFirst (by simp) (Or.inr rfl)
  revert homitted
  decide +kernel

end ChatStasher.Deletion
