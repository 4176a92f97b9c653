import ChatStasher.Backfill.TabRules

/-! Every run of the tab registry whose steps lose no update keeps what the registry promises: what
holds of the worker, its calls and its store between any two steps. -/
namespace ChatStasher.TabRegistry

variable {Origin : Type*} [DecidableEq Origin] (active : Origin → Bool)

section Calls

variable {active} (rows₀ : List (TabEntry Origin)) (log : List Fact)

def CountedRows (since : ℕ) (rows : List (TabEntry Origin)) : Prop :=
  ∀ row ∈ rows, Counted log since row.tabId row.missCount

def Edit.Holds (active : Origin → Bool) : Edit Origin → Prop
  | .remember entry => active entry.origin ∧ entry.missCount = 0
  | .forget tabId since => Counted log since tabId tabPingMissesBeforeForget
  | .setMisses tabId misses since => misses ≠ 0 → Counted log since tabId misses
  | .prune liveIds since => since ≤ log.length ∧ .listed since liveIds ∈ log
  | .look => True

def Edit.Writes (active : Origin → Bool) (e : Edit Origin) (write : Option (Write Origin)) : Prop :=
  ∀ w, write = some w → e.next (served active w.known) = some w.next

/-- What an edit has read keeps the other channels' rows. -/
def Phase.Holds (active : Origin → Bool) (e : Edit Origin) : Phase Origin → Prop
  | .loading write => e.Writes active write
  | .loaded write rows | .read write rows =>
    e.Writes active write ∧ leftover active rows = leftover active rows₀
  | .saving _ _ => True

/-- What a call is to go on with. -/
def Then.Holds (active : Origin → Bool) : Then Origin → Prop
  | .pass since rest => CountedRows log since rest
  | .room _ _ origin _ => active origin
  | _ => True

def Call.Holds (active : Origin → Bool) : Call Origin → Prop
  | .editing e phase next =>
    e.Holds log active ∧ phase.Holds rows₀ active e ∧ next.Holds log active
  | .turnedAway _ _ => False
  | .taken _ since rows => CountedRows log since rows
  | .pinging since entry rest => CountedRows log since (entry :: rest)
  | .querying _ since => since ≤ log.length
  | _ => True

variable {rows₀ log}

omit [DecidableEq Origin] in
lemma CountedRows.note {since : ℕ} {rows : List (TabEntry Origin)}
    (h : CountedRows log since rows) (fact : Fact) : CountedRows (log ++ [fact]) since rows :=
  fun row hrow => (h row hrow).note fact

omit [DecidableEq Origin] in
lemma Edit.Holds.note {e : Edit Origin} (h : e.Holds log active) (fact : Fact) :
    e.Holds (log ++ [fact]) active := by
  cases e with
  | remember entry => exact h
  | forget tabId since => exact Counted.note h fact
  | setMisses tabId misses since => exact fun hne => (h hne).note fact
  | prune liveIds since =>
    exact ⟨by rw [List.length_append]; exact h.1.trans (Nat.le_add_right _ _),
      List.mem_append_left _ h.2⟩
  | look => trivial

omit [DecidableEq Origin] in
lemma Then.Holds.note {next : Then Origin} (h : next.Holds log active) (fact : Fact) :
    next.Holds (log ++ [fact]) active := by
  cases next with
  | pass since rest => exact CountedRows.note h fact
  | _ => exact h

lemma Call.Holds.note {call : Call Origin} (h : call.Holds rows₀ log active) (fact : Fact) :
    call.Holds rows₀ (log ++ [fact]) active := by
  cases call with
  | editing e phase next => exact ⟨h.1.note fact, h.2.1, h.2.2.note fact⟩
  | taken origin since rows => exact CountedRows.note h fact
  | pinging since entry rest => exact CountedRows.note h fact
  | querying now since =>
    have hle : since ≤ log.length := h
    rw [Call.Holds, List.length_append]
    omega
  | turnedAway tabId loaded => exact h
  | taking origin => trivial
  | sweeping sweep replies => trivial
  | ended => trivial

end Calls

/-- Where one element gives way to another, what one of them has can still be found, unless the one
that goes had it and the new one has not. -/
lemma exists_mem_set {α : Type*} {P : α → Prop} {l : List α} {c : ℕ} {new : α}
    (h : ∃ x ∈ l, P x) (hc : ∀ old, l[c]? = some old → P old → P new) :
    ∃ x ∈ l.set c new, P x := by
  obtain ⟨old, hold, hP⟩ := h
  obtain ⟨i, hi⟩ := List.mem_iff_getElem?.mp hold
  by_cases hic : c = i
  · subst hic
    exact ⟨new, List.mem_set (List.getElem?_eq_some_iff.mp hi).1 new, hc old hi hP⟩
  · exact ⟨old, List.mem_iff_getElem?.mpr ⟨i, by rw [List.getElem?_set_ne hic, hi]⟩, hP⟩

/-- What holds of the worker and its store between any two steps. -/
structure Inv (rows₀ : List (TabEntry Origin)) (s : Site Origin) : Prop where
  rows : ∀ rows ∈ s.disk.versions, WellKept active rows
  others : ∀ rows ∈ s.disk.versions, leftover active rows = leftover active rows₀
  mirror : ∀ rows, s.mirror = some rows → rows = s.registry
  calls : ∀ call ∈ s.calls, call.Holds rows₀ s.log active
  misses : ∀ row ∈ served active s.registry, .registered row.tabId ∈ s.log →
    row.missCount ≤ strikes s.log row.tabId ∨ ∃ call ∈ s.calls, call.clearing = some row.tabId
  places : ∀ p tabId, s.log[p]? = some (.registered tabId) →
    Released s.log p tabId ∨ Placed s.log p tabId (served active s.registry)

variable {active} {rows₀ : List (TabEntry Origin)} {s : Site Origin}

lemma Inv.kept (h : Inv active rows₀ s) : Kept active rows₀ s where
  rows := h.rows
  others := h.others
  mirror hpending rows hrows := (h.mirror rows hrows).trans (s.disk.latest_eq_stored hpending)
  stays p tabId hp := (h.places p tabId hp).imp_right Placed.exists_row

lemma inv_start (h : WellKept active rows₀) : Inv active rows₀ (Site.start rows₀) where
  rows := by simpa [Site.start] using h
  others := by simp [Site.start]
  mirror := by simp [Site.start]
  calls := by simp [Site.start]
  misses := by simp [Site.start]
  places := by simp [Site.start]

namespace Inv

lemma registry (h : Inv active rows₀ s) : WellKept active s.registry :=
  h.rows _ s.disk.latest_mem_versions

lemma leftover_registry (h : Inv active rows₀ s) :
    leftover active s.registry = leftover active rows₀ :=
  h.others _ s.disk.latest_mem_versions

lemma move (h : Inv active rows₀ s) {c : ℕ} {call : Call Origin}
    (hcall : call.Holds rows₀ s.log active)
    (hclears : ∀ old, s.calls[c]? = some old → old.clearing = none ∨ old.clearing = call.clearing) :
    Inv active rows₀ (s.move c call) where
  rows := h.rows
  others := h.others
  mirror := h.mirror
  calls x hx := by
    rcases List.mem_or_eq_of_mem_set hx with hx | rfl
    · exact h.calls x hx
    · exact hcall
  misses row hrow hreg := by
    refine (h.misses row hrow hreg).imp_right fun hclear => exists_mem_set hclear ?_
    intro old hold hsome
    rcases hclears old hold with hnone | hsame
    · rw [hnone] at hsome
      cases hsome
    · rw [← hsame, hsome]
  places := h.places

lemma append (h : Inv active rows₀ s) {call : Call Origin}
    (hcall : call.Holds rows₀ s.log active) :
    Inv active rows₀ { s with calls := s.calls ++ [call] } where
  rows := h.rows
  others := h.others
  mirror := h.mirror
  calls x hx := by
    rcases List.mem_append.mp hx with hx | hx
    · exact h.calls x hx
    · rwa [List.mem_singleton.mp hx]
  misses row hrow hreg := (h.misses row hrow hreg).imp_right fun ⟨x, hx, hclear⟩ =>
    ⟨x, List.mem_append_left _ hx, hclear⟩
  places := h.places

lemma note (h : Inv active rows₀ s) {fact : Fact} (hfact : ∀ t, fact ≠ .registered t)
    (hresets : ∀ row ∈ served active s.registry, fact.resets row.tabId →
      row.missCount = 0 ∨ ∃ call ∈ s.calls, call.clearing = some row.tabId) :
    Inv active rows₀ (s.note fact) where
  rows := h.rows
  others := h.others
  mirror := h.mirror
  calls call hcall := (h.calls call hcall).note fact
  misses row hrow hreg := by
    have hreg' : .registered row.tabId ∈ s.log := by
      rcases List.mem_append.mp hreg with hlog | hnew
      · exact hlog
      · exact absurd (List.mem_singleton.mp hnew).symm (hfact _)
    by_cases hres : fact.resets row.tabId
    · exact (hresets row hrow hres).imp_left fun hzero => by simp [hzero]
    · exact (h.misses row hrow hreg').imp_left fun hle => hle.trans (strikes_le_note hres s.log)
  places p tabId hp := by
    have hp' : s.log[p]? = some (.registered tabId) := by
      rw [Site.note, List.getElem?_append] at hp
      split at hp
      · exact hp
      · have hmem := List.mem_of_getElem? hp
        exact absurd (List.mem_singleton.mp hmem).symm (hfact _)
    have hlen := lt_length_of_getElem? hp'
    exact (h.places p tabId hp').imp (·.note hlen fact) (·.note hlen fact)

lemma leave (h : Inv active rows₀ s) {entry first : TabEntry Origin} {rest : List (TabEntry Origin)}
    (hrows : served active s.registry = first :: rest) (hid : first.tabId = entry.tabId)
    (hmisses : first.missCount = 0) :
    Inv active rows₀ (s.note (.registered entry.tabId)) where
  rows := h.rows
  others := h.others
  mirror := h.mirror
  calls call hcall := (h.calls call hcall).note _
  misses row hrow hreg := by
    change row.missCount ≤ strikes (s.log ++ [.registered entry.tabId]) row.tabId ∨ _
    by_cases heq : entry.tabId = row.tabId
    · left
      have hfirst : first ∈ served active s.registry := hrows ▸ List.mem_cons_self
      have hone := h.registry.eq_of_tabId (mem_served.mp hrow).1 (mem_served.mp hfirst).1
        (heq.symm.trans hid.symm)
      simp [hone, hmisses]
    · have hreg' : .registered row.tabId ∈ s.log := by
        rcases List.mem_append.mp hreg with hlog | hnew
        · exact hlog
        · injection List.mem_singleton.mp hnew with hnew
          exact absurd hnew.symm heq
      rw [strikes_registered, if_neg heq]
      exact h.misses row hrow hreg'
  places p tabId hp := by
    by_cases hlt : p < s.log.length
    · have hp' : s.log[p]? = some (.registered tabId) := by
        rwa [Site.note, List.getElem?_append_left hlt] at hp
      exact (h.places p tabId hp').imp (·.note hlt _) (·.note hlt _)
    · have hmem : Fact.registered tabId = .registered entry.tabId := by
        rw [Site.note, List.getElem?_append_right (by omega)] at hp
        exact List.mem_singleton.mp (List.mem_of_getElem? hp)
      injection hmem with hmem
      right
      change Placed _ p tabId (served active s.registry)
      rw [hrows, hmem, ← hid]
      exact placed_cons_self first

variable {c : ℕ} {w : Write Origin} {rows : List (TabEntry Origin)} {next : Then Origin}

lemma fits (h : Inv active rows₀ s) {e : Edit Origin} {written : List (TabEntry Origin)}
    (he : e.Holds s.log active) (htimely : e.Timely active s.log s.registry)
    (hnext : e.next (served active s.registry) = some written) :
    Fits active s.registry written := by
  cases e with
  | remember entry =>
    rw [← next_remember hnext]
    exact .of_cons h.registry he.1 htimely
  | forget tabId since =>
    obtain rfl := Option.some.inj hnext
    exact .of_sublist h.registry List.filter_sublist
  | setMisses tabId misses since =>
    obtain rfl := Option.some.inj hnext
    refine .of_map h.registry (fun t => ?_) fun t => ?_
    · split <;> rfl
    · split <;> rfl
  | prune liveIds since =>
    rw [← next_prune hnext]
    exact .of_sublist h.registry List.filter_sublist
  | look => cases hnext

lemma misses_put (h : Inv active rows₀ s) {e : Edit Origin} (he : e.Holds s.log active)
    (htimely : e.Timely active s.log s.registry)
    (hwritten : e.next (served active s.registry) = some w.next)
    (hcall : s.calls[c]? = some (.editing e (.read (some w) rows) next)) :
    ∀ row ∈ w.next, .registered row.tabId ∈ (s.put active c e w rows next).log →
      row.missCount ≤ strikes (s.put active c e w rows next).log row.tabId ∨
        ∃ call ∈ (s.put active c e w rows next).calls, call.clearing = some row.tabId := by
  -- a call that is to clear the misses of a tab is still there unless this was it
  have hkeep : ∀ tabId, (∃ call ∈ s.calls, call.clearing = some tabId) →
      (∀ misses since, e = .setMisses tabId misses since → misses ≠ 0) →
      ∃ call ∈ (s.put active c e w rows next).calls, call.clearing = some tabId := by
    intro tabId hclear hne
    refine exists_mem_set hclear fun old hold hsome => ?_
    rw [hcall] at hold
    obtain rfl := Option.some.inj hold
    cases e with
    | setMisses t misses since =>
      cases misses with
      | zero =>
        obtain rfl : t = tabId := by simpa [Call.clearing, Edit.clearing] using hsome
        exact absurd rfl (hne 0 since rfl)
      | succ n => cases hsome
    | _ => cases hsome
  intro row hrow hreg
  cases e with
  | remember entry =>
    have hnext := next_remember hwritten
    rw [← hnext] at hrow
    change _ ≤ strikes (s.log ++ [_]) _ ∨ _
    rcases List.mem_cons.mp (List.mem_of_mem_take hrow) with rfl | hrow
    · simp [he.2]
    · have hold := List.mem_filter.mp hrow
      have hne : entry.tabId ≠ row.tabId := fun heq => by simp [heq] at hold
      have hreg' : .registered row.tabId ∈ s.log := by
        rcases List.mem_append.mp hreg with hlog | hnew
        · exact hlog
        · injection List.mem_singleton.mp hnew with hnew
          exact absurd hnew.symm hne
      rw [strikes_registered, if_neg hne]
      exact (h.misses row hold.1 hreg').imp_right fun hclear =>
        hkeep _ hclear fun _ _ heq => by cases heq
  | forget tabId since =>
    obtain hnext := Option.some.inj hwritten
    have hold : row ∈ served active s.registry := List.mem_of_mem_filter (hnext ▸ hrow)
    exact (h.misses row hold hreg).imp_right fun hclear =>
      hkeep _ hclear fun _ _ heq => by cases heq
  | setMisses tabId misses since =>
    obtain hnext := Option.some.inj hwritten
    rw [← hnext] at hrow
    obtain ⟨t, ht, rfl⟩ := List.mem_map.mp hrow
    by_cases hid : t.tabId = tabId
    · left
      rw [if_pos hid] at hreg ⊢
      by_cases hzero : misses = 0
      · simp [TabEntry.missCount, hzero]
      · have hcount := (he hzero).2
        rw [← hid] at hcount
        exact hcount hreg (hid ▸ htimely hzero)
    · rw [if_neg hid] at hreg ⊢
      refine (h.misses t ht hreg).imp_right fun hclear => hkeep _ hclear fun _ _ heq => ?_
      injection heq with heq
      exact absurd heq.symm hid
  | prune liveIds since =>
    have hnext := next_prune hwritten
    have hold : row ∈ served active s.registry := List.mem_of_mem_filter (hnext ▸ hrow)
    exact (h.misses row hold hreg).imp_right fun hclear =>
      hkeep _ hclear fun _ _ heq => by cases heq
  | look => cases hwritten

lemma places_put (h : Inv active rows₀ s) {e : Edit Origin} (he : e.Holds s.log active)
    (htimely : e.Timely active s.log s.registry)
    (hwritten : e.next (served active s.registry) = some w.next) (p : ℕ) (tabId : ℤ)
    (hp : (s.put active c e w rows next).log[p]? = some (.registered tabId)) :
    Released (s.put active c e w rows next).log p tabId ∨
      Placed (s.put active c e w rows next).log p tabId w.next := by
  cases e with
  | remember entry =>
    have hnext := next_remember hwritten
    rw [← hnext]
    change (s.log ++ [_])[p]? = _ at hp
    change Released (s.log ++ [_]) p tabId ∨ Placed (s.log ++ [_]) p tabId _
    by_cases heq : tabId = entry.tabId
    · right
      rw [heq]
      exact placed_cons_self entry
    · have hlt : p < s.log.length := by
        by_contra hnot
        rw [List.getElem?_append_right (by omega)] at hp
        injection List.mem_singleton.mp (List.mem_of_getElem? hp) with hid
        exact heq hid
      rw [List.getElem?_append_left hlt] at hp
      rcases h.places p tabId hp with hrel | hplaced
      · exact .inl (hrel.note hlt _)
      · have hrest := (hplaced.filter (q := fun t => t.tabId ≠ entry.tabId) fun row hid _ => by
          simpa [hid] using heq).note hlt (.registered entry.tabId)
        have hnew : Fact.registered entry.tabId ∈
            (s.log ++ [Fact.registered entry.tabId]).drop (p + 1) := by
          rw [drop_note hlt]
          simp
        have hcons := hrest.cons hnew
        refine (hcons.take ?_ maxTabEntries).symm.imp_left .crowded
        rw [List.map_cons, List.nodup_cons]
        exact ⟨by simp, h.registry.nodup_served.sublist (List.filter_sublist.map _)⟩
  | forget t since =>
    obtain hnext := Option.some.inj hwritten
    rw [← hnext]
    by_cases heq : tabId = t
    · subst heq
      exact .inl (released_of_strikes hp (he.2 (List.mem_of_getElem? hp) htimely))
    · exact (h.places p tabId hp).imp_right fun hplaced =>
        hplaced.filter fun row hid _ => by simpa [hid] using heq
  | setMisses t misses since =>
    obtain hnext := Option.some.inj hwritten
    rw [← hnext]
    exact (h.places p tabId hp).imp_right (Placed.map fun x => by split <;> rfl)
  | prune liveIds since =>
    have hnext := next_prune hwritten
    rw [← hnext]
    rcases h.places p tabId hp with hrel | hplaced
    · exact .inl hrel
    · by_cases hlive : tabId ∈ liveIds
      · exact .inr (hplaced.filter fun row hid _ => by simpa [hid] using hlive)
      · left
        obtain ⟨row, hrow, hid⟩ := hplaced.exists_row
        have hnot := htimely row hrow (hid ▸ hlive)
        refine .unlisted since liveIds he.2 ?_ hlive
        by_contra hge
        rw [hid] at hnot
        refine hnot (List.mem_iff_getElem?.mpr ⟨p - since, ?_⟩)
        rw [List.getElem?_drop, Nat.add_sub_cancel' (by omega)]
        exact hp
  | look => cases hwritten

lemma put (h : Inv active rows₀ s) {e : Edit Origin}
    (hcall : s.calls[c]? = some (.editing e (.read (some w) rows) next))
    (hmirror : s.mirror = some w.known) (htimely : e.Timely active s.log w.known) :
    Inv active rows₀ (s.put active c e w rows next) := by
  have hknown := h.mirror _ hmirror
  obtain ⟨he, ⟨hwrites, hleft⟩, hnext⟩ := h.calls _ (List.mem_of_getElem? hcall)
  have hwritten := hwrites w rfl
  rw [hknown] at htimely hwritten
  have hfits := h.fits he htimely hwritten
  have hfull : w.next ++ leftover active rows = w.next ++ leftover active s.registry := by
    rw [hleft, h.leftover_registry]
  have hregistry : (s.put active c e w rows next).registry =
      w.next ++ leftover active s.registry := by
    rw [← hfull]
    exact s.disk.latest_save _
  refine ⟨fun v hv => ?_, fun v hv => ?_, fun v hv => ?_, fun call hmem => ?_, ?_, ?_⟩
  · change v ∈ (s.disk.save _).versions at hv
    rw [hfull, WriteBehind.versions_save, List.mem_append, List.mem_singleton] at hv
    rcases hv with hv | rfl
    · exact h.rows v hv
    · exact hfits.wellKept h.registry
  · change v ∈ (s.disk.save _).versions at hv
    rw [hfull, WriteBehind.versions_save, List.mem_append, List.mem_singleton] at hv
    rcases hv with hv | rfl
    · exact h.others v hv
    · rw [hfits.leftover_append, h.leftover_registry]
  · rw [hregistry, ← hfull]
    exact (Option.some.inj hv).symm
  · have hlog : ∀ call : Call Origin, call.Holds rows₀ s.log active →
        call.Holds rows₀ (s.put active c e w rows next).log active := by
      intro call hholds
      cases e with
      | remember entry => exact hholds.note _
      | _ => exact hholds
    rcases List.mem_or_eq_of_mem_set hmem with hold | rfl
    · exact hlog call (h.calls call hold)
    · exact hlog _ ⟨he, trivial, hnext⟩
  · rw [hregistry, hfits.served_append]
    exact h.misses_put he htimely hwritten hcall
  · rw [hregistry, hfits.served_append]
    exact h.places_put he htimely hwritten

section Going

variable {e : Edit Origin} {rows : List (TabEntry Origin)}

lemma readRawRegistry_holds (h : Inv active rows₀ s) {write : Option (Write Origin)}
    (hw : e.Writes active write) : (s.readRawRegistry write).Holds rows₀ active e := by
  rw [Site.readRawRegistry]
  cases hmirror : s.mirror with
  | none => exact hw
  | some rows => exact ⟨hw, by rw [h.mirror rows hmirror, h.leftover_registry]⟩

lemma edit_holds (h : Inv active rows₀ s) (he : e.Holds s.log active)
    (hnext : next.Holds s.log active) : (s.edit e next).Holds rows₀ s.log active :=
  ⟨he, h.readRawRegistry_holds (fun _ hw => nomatch hw), hnext⟩

lemma nextRow_holds {log : List Fact} {since : ℕ} {rows : List (TabEntry Origin)}
    (h : CountedRows log since rows) : (Site.nextRow since rows).Holds rows₀ log active := by
  cases rows with
  | nil => trivial
  | cons entry rest => exact h

lemma nextFound_holds (h : Inv active rows₀ s) (sweep : Sweep) (found : List (ℤ × Origin)) :
    (s.nextFound active sweep found).Holds rows₀ s.log active := by
  induction found with
  | nil => trivial
  | cons x rest ih =>
    rw [Site.nextFound]
    split
    · next hactive => exact h.edit_holds trivial hactive
    · exact ih

lemma goOn_holds (h : Inv active rows₀ s) (known : List (TabEntry Origin))
    (hnext : next.Holds s.log active) :
    (s.goOn active known next).Holds rows₀ s.log active := by
  cases next with
  | answer => trivial
  | ended => trivial
  | pass since rest => exact nextRow_holds hnext
  | known sweep => exact h.edit_holds trivial trivial
  | candidates sweep => trivial
  | room sweep tabId origin rest =>
    rw [Site.goOn]
    split
    · exact h.nextFound_holds sweep rest
    · exact h.edit_holds ⟨hnext, rfl⟩ trivial
  | recovered sweep rest => exact h.nextFound_holds sweep rest

omit [DecidableEq Origin] in
lemma clearing_edit : (s.edit e next).clearing = e.clearing := by
  rw [Site.edit, Site.readRawRegistry]
  cases s.mirror <;> rfl

lemma pass (h : Inv active rows₀ s) {old call : Call Origin} (hold : s.calls[c]? = some old)
    (hclear : old.clearing = none) (hcall : call.Holds rows₀ s.log active) :
    Inv active rows₀ (s.move c call) :=
  h.move hcall fun x hx => by
    rw [hold] at hx
    exact .inl (Option.some.inj hx ▸ hclear)

lemma resume_leave (h : Inv active rows₀ s)
    (hcall : s.calls[c]? = some (.editing e (.read none rows) next))
    (hwritten : e.next (served active rows) = none) (hs : s.Sound active (.resume c)) :
    Inv active rows₀ ((s.leave e next).move c (s.goOn active (served active rows) next)) := by
  obtain ⟨he, -, hnext⟩ := h.calls _ (List.mem_of_getElem? hcall)
  have hgo := h.goOn_holds (served active rows) hnext
  cases e with
  | remember entry =>
    cases next with
    | answer =>
      have hrepeat : isRepeat (served active rows) entry := by
        rw [Edit.next] at hwritten
        split at hwritten
        · assumption
        · cases hwritten
      obtain ⟨hmirror, hfresh⟩ : s.mirror = some rows ∧ isFresh active rows entry := by
        simpa [Call.GoesOn, Phase.Sound, Edit.leavesFresh, hrepeat] using hs _ hcall
      rw [h.mirror rows hmirror, isFresh] at hfresh
      cases hfirst : served active s.registry with
      | nil =>
        rw [hfirst] at hfresh
        cases hfresh
      | cons first rest =>
        rw [hfirst] at hfresh
        have hboth : first.tabId = entry.tabId ∧ first.missCount = 0 := by simpa using hfresh
        exact (h.leave hfirst hboth.1 hboth.2).pass hcall rfl trivial
    | _ => exact h.pass hcall rfl hgo
  | setMisses tabId misses since => cases hwritten
  | _ => exact h.pass hcall rfl hgo

lemma resume (h : Inv active rows₀ s) (hs : s.Sound active (.resume c)) :
    Inv active rows₀ (s.resume active c) := by
  rw [Site.resume]
  cases hcall : s.calls[c]? with
  | none => exact h
  | some call =>
    have hholds := h.calls _ (List.mem_of_getElem? hcall)
    have hsound := hs call hcall
    cases call with
    | editing e phase next =>
      obtain ⟨he, hphase, hnext⟩ := hholds
      cases phase with
      | loading write => exact h
      | loaded write rows =>
        have hloaded : Inv active rows₀ { s with mirror := some rows } :=
          { h with mirror := fun v hv => (Option.some.inj hv).symm.trans hsound }
        refine hloaded.move ⟨he, hphase, hnext⟩ fun old hold => .inr ?_
        rw [← Option.some.inj (hcall.symm.trans hold)]
        rfl
      | read write rows =>
        cases write with
        | none =>
          cases hwritten : e.next (served active rows) with
          | none =>
            simp only [hwritten]
            exact h.resume_leave hcall hwritten hs
          | some written =>
            simp only [hwritten]
            have hread : (s.readRawRegistry (some ⟨rows, written⟩)).Holds rows₀ active e :=
              h.readRawRegistry_holds fun w hw => by
                rw [← Option.some.inj hw]
                exact hwritten
            refine h.move ⟨he, hread, hnext⟩ fun old hold => .inr ?_
            rw [← Option.some.inj (hcall.symm.trans hold), Site.readRawRegistry]
            cases s.mirror <;> rfl
        | some w => exact h.put hcall hsound.1 hsound.2
      | saving n known =>
        dsimp only
        split
        · exact h.pass hcall rfl (h.goOn_holds known hnext)
        · exact h
    | turnedAway tabId loaded => exact hholds.elim
    | taking origin => exact h
    | taken origin since rows =>
      refine h.pass hcall rfl (nextRow_holds fun row hrow => ?_)
      exact hholds row (List.mem_of_mem_filter hrow)
    | pinging since entry rest => exact h
    | querying now since => exact h
    | sweeping sweep replies =>
      dsimp only
      split
      · exact h.pass hcall rfl (h.nextFound_holds sweep _)
      · exact h
    | ended => exact h

lemma load (h : Inv active rows₀ s) (hs : s.Sound active (.load c)) :
    Inv active rows₀ (s.load active c) := by
  rw [Site.load]
  cases hcall : s.calls[c]? with
  | none => exact h
  | some call =>
    have hholds := h.calls _ (List.mem_of_getElem? hcall)
    have hsound := hs call hcall
    cases call with
    | editing e phase next =>
      cases phase with
      | loading write =>
        obtain ⟨he, hwrites, hnext⟩ := hholds
        have hstored := h.others _ s.disk.stored_mem_versions
        refine h.move ⟨he, ⟨hwrites, hstored⟩, hnext⟩ fun old hold => .inr ?_
        rw [← Option.some.inj (hcall.symm.trans hold)]
        rfl
      | loaded write rows => exact h
      | read write rows => exact h
      | saving n known => exact h
    | turnedAway tabId loaded => exact hholds.elim
    | taking origin =>
      refine h.pass hcall rfl fun row hrow => ⟨le_rfl, fun hreg _ => ?_⟩
      rw [hsound.1] at hrow
      refine (h.misses row hrow hreg).resolve_right ?_
      rintro ⟨call, hmem, hclear⟩
      rw [hsound.2 call hmem] at hclear
      cases hclear
    | taken origin since rows => exact h
    | pinging since entry rest => exact h
    | querying now since => exact h
    | sweeping sweep replies => exact h
    | ended => exact h

lemma note_missed (h : Inv active rows₀ s) (tabId : ℤ) :
    Inv active rows₀ (s.note (.pinged tabId false)) :=
  h.note (fun _ => by simp) fun row _ hres => by simp [Fact.resets] at hres

lemma note_alive (h : Inv active rows₀ s) {tabId : ℤ} (hun : s.Unmissed active tabId) :
    Inv active rows₀ (s.note (.pinged tabId true)) :=
  h.note (fun _ => by simp) fun row hrow hres =>
    .inl (hun row hrow (by simpa [Fact.resets, eq_comm] using hres))

lemma pong_clear (h : Inv active rows₀ s) {since : ℕ} {entry : TabEntry Origin}
    {rest : List (TabEntry Origin)} (hcall : s.calls[c]? = some (.pinging since entry rest)) :
    Inv active rows₀ ((s.note (.pinged entry.tabId true)).move c
      (s.edit (.setMisses entry.tabId 0 since) .ended)) := by
  have hedit : (s.edit (.setMisses entry.tabId 0 since) .ended).Holds rows₀ s.log active :=
    h.edit_holds (fun hne => absurd rfl hne) trivial
  refine (h.pass hcall rfl hedit).note (fun _ => by simp) fun row _ hres => .inr ?_
  have hid : entry.tabId = row.tabId := by simpa [Fact.resets] using hres
  refine ⟨_, List.mem_set (List.getElem?_eq_some_iff.mp hcall).1 _, ?_⟩
  rw [clearing_edit, ← hid]
  rfl

lemma pong (h : Inv active rows₀ s) {reply : PingReply Origin}
    (hs : s.Sound active (.pong c reply)) : Inv active rows₀ (s.pong c reply) := by
  rw [Site.pong]
  cases hcall : s.calls[c]? with
  | none => exact h
  | some call =>
    have hholds := h.calls _ (List.mem_of_getElem? hcall)
    cases call with
    | pinging since entry rest =>
      have hcount := List.forall_mem_cons.mp hholds
      cases hreply : reply.alive with
      | true =>
        by_cases hzero : entry.missCount = 0
        · simp only [if_true, hzero, ne_eq, not_true_eq_false, if_false]
          exact (h.note_alive (hs hreply _ hcall hzero)).pass hcall rfl trivial
        · simp only [if_true, hzero, ne_eq, not_false_eq_true]
          exact h.pong_clear hcall
      | false =>
        have hmissed := h.note_missed entry.tabId
        have hrest : CountedRows (s.log ++ [.pinged entry.tabId false]) since rest :=
          CountedRows.note hcount.2 _
        have hone := hcount.1.missed
        simp only [Bool.false_eq_true, if_false]
        split
        · next htwo =>
          refine hmissed.pass hcall rfl (hmissed.edit_holds ?_ hrest)
          exact ⟨hone.1, fun hreg hun => htwo.trans (hone.2 hreg hun)⟩
        · exact hmissed.pass hcall rfl (hmissed.edit_holds (fun _ => hone) hrest)
    | _ => exact h

lemma sweepPong (h : Inv active rows₀ s) {i : ℕ} {reply : PingReply Origin}
    (hs : s.Sound active (.sweepPong c i reply)) :
    Inv active rows₀ (s.sweepPong c i reply) := by
  rw [Site.sweepPong]
  cases hcall : s.calls[c]? with
  | none => exact h
  | some call =>
    cases call with
    | sweeping sweep replies =>
      dsimp only
      split
      · next tabId hreply =>
        have hnoted : Inv active rows₀ (s.note (.pinged tabId reply.alive)) := by
          cases halive : reply.alive with
          | true => exact h.note_alive (hs halive _ hcall _ hreply rfl)
          | false => exact h.note_missed tabId
        exact hnoted.pass hcall rfl trivial
      · exact h
    | _ => exact h

lemma listed (h : Inv active rows₀ s) (since : ℕ) (liveIds : List ℤ) :
    Inv active rows₀ (s.note (.listed since liveIds)) :=
  h.note (fun _ => by simp) fun _ _ hres => by cases hres

omit [DecidableEq Origin] in
lemma prune_holds {log : List Fact} {since : ℕ} (hsince : since ≤ log.length) (liveIds : List ℤ) :
    (Edit.prune liveIds since).Holds (log ++ [.listed since liveIds]) active :=
  ⟨by rw [List.length_append]; omega, by simp⟩

lemma queried (h : Inv active rows₀ s) (answer : Option (List TabQueryRow)) :
    Inv active rows₀ (s.queried c answer) := by
  unfold Site.queried
  split
  · next now since rows hcall =>
    have hholds := h.calls _ (List.mem_of_getElem? hcall)
    have hlisted := h.listed since (liveIds rows)
    have hedit : ((s.note (.listed since (liveIds rows))).edit (.prune (liveIds rows) since)
        (.known ⟨now, rows⟩)).Holds rows₀ (s.log ++ [.listed since (liveIds rows)]) active :=
      hlisted.edit_holds (prune_holds hholds _) trivial
    exact hlisted.pass hcall rfl hedit
  · next hcall => exact h.pass hcall rfl trivial
  · exact h

lemma begin_ (h : Inv active rows₀ s) {op : Op Origin} (hs : s.Sound active (.begin_ op)) :
    Inv active rows₀ (s.begin_ active op) := by
  cases op with
  | rememberTab tabId origin seenAt =>
    have hactive : active origin = true := hs
    rw [Site.begin_, if_pos hactive]
    exact h.append (h.edit_holds ⟨hactive, rfl⟩ trivial)
  | forgetTab tabId =>
    refine h.append (h.edit_holds ⟨Nat.zero_le _, fun hreg hun => ?_⟩ trivial)
    -- nothing is known of the tab, so the call goes through for one that never registered
    have hnot := hun hreg (.registered tabId) (by simpa using hreg)
    simp [Fact.resets] at hnot
  | pickLiveTab origin => exact h.append trivial
  | forgetMissingTabs liveIds since =>
    have hlisted := h.listed (min since s.log.length) liveIds
    exact hlisted.append (hlisted.edit_holds (prune_holds (Nat.min_le_right _ _) _) trivial)
  | sweepUnregisteredTabs now => exact h.append le_rfl

lemma settle (h : Inv active rows₀ s) : Inv active rows₀ { s with disk := s.disk.settle } := by
  have hreg : s.disk.settle.latest = s.registry := s.disk.latest_settle
  refine ⟨fun v hv => h.rows v (s.disk.versions_settle_subset hv),
    fun v hv => h.others v (s.disk.versions_settle_subset hv), fun v hv => ?_, h.calls, ?_, ?_⟩
  · rw [Site.registry, hreg]
    exact h.mirror v hv
  · rw [Site.registry, hreg]
    exact h.misses
  · rw [Site.registry, hreg]
    exact h.places

lemma restart (h : Inv active rows₀ s) (hs : s.Sound active .restart) :
    Inv active rows₀ { s with mirror := none, calls := [] } where
  rows := h.rows
  others := h.others
  mirror _ hv := by cases hv
  calls _ hv := by cases hv
  misses row hrow hreg := by
    refine .inl ((h.misses row hrow hreg).resolve_right ?_)
    rintro ⟨call, hmem, hclear⟩
    rw [hs call hmem] at hclear
    cases hclear
  places := h.places

end Going

lemma step (h : Inv active rows₀ s) {event : Event Origin} (hs : s.Sound active event) :
    Inv active rows₀ (s.step active event) := by
  cases event with
  | begin_ op => exact h.begin_ hs
  | resume c => exact h.resume hs
  | load c => exact h.load hs
  | settle => exact h.settle
  | pong c reply => exact h.pong hs
  | sweepPong c i reply => exact h.sweepPong hs
  | queried c answer => exact h.queried answer
  | restart => exact h.restart hs

end Inv

/-- Over any run whose steps lose no update the registry keeps what it promises. -/
theorem registry_kept (hrows : WellKept active rows₀) (events : List (Event Origin))
    (hsound : StepRun.Along (Site.step active) (Site.Sound active) (Site.start rows₀) events) :
    Kept active rows₀ (StepRun.exec (Site.step active) (Site.start rows₀) events) := by
  have hinv : Inv active rows₀ (StepRun.exec (Site.step active) (Site.start rows₀) events) :=
    StepRun.invariant (fun _ _ h hs => h.step hs) (inv_start hrows) hsound
  exact hinv.kept

/-- A hello, a missed ping, a hello after the skip window, and a missed ping of the next worker. -/
def helloAfterMiss : List (Event Bool) :=
  [.begin_ (.rememberTab 5 true 0), .load 0, .resume 0, .resume 0, .resume 0, .settle, .resume 0,
    .begin_ (.pickLiveTab none), .load 1, .resume 1, .pong 1 .failed, .resume 1, .resume 1, .settle,
    .resume 1, .begin_ (.rememberTab 5 true 300000), .resume 2, .resume 2, .settle, .resume 2,
    .restart, .begin_ (.pickLiveTab none), .load 0, .resume 0, .pong 0 .failed, .load 0, .resume 0,
    .resume 0, .resume 0, .settle, .resume 0]

/-- The run keeps the other channel's row of tab 9 and the row of tab 5. -/
theorem hello_after_miss_kept :
    Kept id [⟨9, false, 0, none⟩]
      (StepRun.exec (Site.step id) (Site.start [⟨9, false, 0, none⟩]) helloAfterMiss) :=
  registry_kept ⟨by decide, by decide⟩ helloAfterMiss (by decide +kernel)

/-- A hello, a missed ping, a hello within the skip window and a missed ping, each in its turn. -/
def helloWithinWindow : List (Event Unit) :=
  [.begin_ (.rememberTab 5 () 0), .load 0, .resume 0, .resume 0, .resume 0, .settle, .resume 0,
    .begin_ (.pickLiveTab none), .load 1, .resume 1, .pong 1 .failed, .resume 1, .resume 1, .settle,
    .resume 1, .begin_ (.rememberTab 5 () 60000), .resume 2,
    .begin_ (.pickLiveTab none), .load 3, .resume 3, .pong 3 .failed, .resume 3, .resume 3, .settle,
    .resume 3]

/-- The second hello is answered as registered and leaves the miss, so that one more strikes the tab
out though a hello was between the two. -/
theorem struck_out_after_one_miss :
    ¬ Kept (fun _ => true) []
      (StepRun.exec (Site.step fun _ => true) (Site.start []) helloWithinWindow) := by
  intro h
  have hend : StepRun.exec (Site.step fun _ => true) (Site.start []) helloWithinWindow =
      ⟨⟨[], [], 3⟩, some [], [.ended, .ended, .ended, .ended],
        [.registered 5, .pinged 5 false, .registered 5, .pinged 5 false]⟩ := by
    decide +kernel
  rw [hend] at h
  rcases h.stays 2 5 rfl with hreleased | ⟨row, hrow, -⟩
  · cases hreleased with
    | crowded hle => exact absurd hle (by decide)
    | struck n hn hle =>
      have hnone : ∀ k ≤ 1, ¬ tabPingMissesBeforeForget ≤
          strikes ([.pinged 5 false].take k) 5 := by decide
      exact hnone n hn hle
    | unlisted since liveIds hmem => simp at hmem
  · cases hrow

end ChatStasher.TabRegistry
