import Mathlib.Tactic.Ring
import ChatStasher.Library.StepRun

/-! One lease of a platform and account shared by the callers of one extension instance: the first
creates it, later ones join it, and the last release gives it back to the host. -/
namespace ChatStasher.Lease

/-- What the creation of a lease has come to. -/
inductive Ready
  | pending
  | lease
  | null
  | rejected
  deriving DecidableEq, Repr

/-- The host's release of a lease: called, ended, and past the `finally` that frees the key. -/
inductive Releasing
  | started
  | ended (ok : Bool)
  | settled (ok : Bool)
  deriving DecidableEq, Repr

/-- One `SharedLeaseState`, with the number of times the host's release was called for it. -/
structure SharedLeaseState where
  holders : ℤ
  ready : Ready
  releasing : Option Releasing
  hostReleases : ℕ
  deriving DecidableEq, Repr

/-- Where one call of `acquireSharedLease` stands, with the state object that it has got hold of. -/
inductive Caller
  | calling
  | waiting (id : ℕ)
  | creating (id : ℕ)
  | joined (id : ℕ)
  | holding (id : ℕ) (released : Bool)
  | returned
  deriving DecidableEq, Repr

def Caller.attachedTo (id : ℕ) : Caller → Bool
  | .creating i | .joined i | .holding i false => i = id
  | _ => false

def Caller.known : Caller → Option ℕ
  | .waiting id | .creating id | .joined id | .holding id _ => some id
  | .calling | .returned => none

/-- The map's entry under the key, the state objects made for the key so far, and its callers. -/
structure Site where
  entry : Option ℕ
  next : ℕ
  shared : ℕ → SharedLeaseState
  callers : List Caller

def Site.empty : Site := ⟨none, 0, fun _ => ⟨0, .null, none, 0⟩, []⟩

namespace Site

def put (s : Site) (id : ℕ) (o : SharedLeaseState) : Site :=
  { s with shared := Function.update s.shared id o }

def move (s : Site) (c : ℕ) (caller : Caller) : Site :=
  { s with callers := s.callers.set c caller }

def attached (s : Site) (id : ℕ) : ℕ := s.callers.countP (Caller.attachedTo id)

/-- A caller sets a new entry and begins to create its lease. -/
def create (s : Site) (c : ℕ) : Site where
  entry := some s.next
  next := s.next + 1
  shared := (s.put s.next ⟨1, .pending, none, 0⟩).shared
  callers := (s.move c (.creating s.next)).callers

/-- `acquireSharedLease` up to its first wait. -/
def acquireSharedLease (s : Site) (c : ℕ) : Site :=
  match s.entry with
  | some id =>
    if (s.shared id).releasing.isSome then s.move c (.waiting id)
    else (s.put id { s.shared id with holders := (s.shared id).holders + 1 }).move c (.joined id)
  | none => s.create c

def delete (s : Site) (id : ℕ) : Site :=
  { s with entry := if s.entry = some id then none else s.entry }

/-- A caller goes on, if what it waits for has come. -/
def resume (s : Site) (c : ℕ) : Site :=
  match s.callers[c]? with
  | some .calling => s.acquireSharedLease c
  | some (.waiting id) =>
    match (s.shared id).releasing with
    | some (.settled _) => s.move c .calling
    | _ => s
  | some (.creating id) =>
    match (s.shared id).ready with
    | .pending => s
    | .lease => s.move c (.holding id false)
    | .null | .rejected => (s.move c .returned).delete id
  | some (.joined id) =>
    match (s.shared id).ready with
    | .pending => s
    | .lease => s.move c (.holding id false)
    | .null | .rejected => s.move c .returned
  | _ => s

/-- A caller calls the release of its handle: `releaseOnce`. -/
def releaseOnce (s : Site) (c : ℕ) : Site :=
  match s.callers[c]? with
  | some (.holding id false) =>
    let o := s.shared id
    let s := s.move c (.holding id true)
    if o.holders - 1 = 0 then
      s.put id { o with
        holders := o.holders - 1
        releasing := some .started
        hostReleases := o.hostReleases + 1 }
    else s.put id { o with holders := o.holders - 1 }
  | _ => s

/-- The creation of an object's lease settles. -/
def created (s : Site) (id : ℕ) (ready : Ready) : Site :=
  match (s.shared id).ready with
  | .pending => s.put id { s.shared id with ready }
  | _ => s

def hostReleased (s : Site) (id : ℕ) (ok : Bool) : Site :=
  match (s.shared id).releasing with
  | some .started => s.put id { s.shared id with releasing := some (.ended ok) }
  | _ => s

/-- The `finally` of the host's release. -/
def finally_ (s : Site) (id : ℕ) : Site :=
  match (s.shared id).releasing with
  | some (.ended ok) =>
    (s.put id { s.shared id with releasing := some (.settled ok) }).delete id
  | _ => s

end Site

/-- What may happen next. -/
inductive Event
  | acquire
  | resume (c : ℕ)
  | release (c : ℕ)
  | created (id : ℕ) (ready : Ready)
  | hostReleased (id : ℕ) (ok : Bool)
  | finally_ (id : ℕ)
  deriving DecidableEq, Repr

def step (s : Site) : Event → Site
  | .acquire => { s with callers := s.callers ++ [.calling] }
  | .resume c => s.resume c
  | .release c => s.releaseOnce c
  | .created id ready => s.created id ready
  | .hostReleased id ok => s.hostReleased id ok
  | .finally_ id => s.finally_ id

section Callers

variable {s : Site} {c : ℕ} {a b x : Caller}

lemma shared_put (id i : ℕ) (o : SharedLeaseState) :
    (s.put id o).shared i = if i = id then o else s.shared i := Function.update_apply _ _ _ _

lemma mem_move (hx : x ∈ (s.move c b).callers) : x ∈ s.callers ∨ x = b :=
  List.mem_or_eq_of_mem_set hx

lemma mem_move_of_ne (hc : s.callers[c]? = some a) (hx : x ∈ s.callers) (hne : x ≠ a) :
    x ∈ (s.move c b).callers := by
  obtain ⟨i, hi⟩ := List.mem_iff_getElem?.mp hx
  have hic : c ≠ i := by
    rintro rfl
    exact hne (Option.some.inj (hi.symm.trans hc))
  exact List.mem_iff_getElem?.mpr ⟨i, (List.getElem?_set_ne hic).trans hi⟩

lemma attached_move (hc : s.callers[c]? = some a) (id : ℕ) :
    (s.move c b).attached id + (a.attachedTo id).toNat =
      s.attached id + (b.attachedTo id).toNat := by
  obtain ⟨hlt, rfl⟩ := List.getElem?_eq_some_iff.mp hc
  have hle : (Caller.attachedTo id s.callers[c]).toNat ≤ s.attached id := by
    cases h : Caller.attachedTo id s.callers[c] with
    | false => exact Nat.zero_le _
    | true => exact List.countP_pos_iff.mpr ⟨_, List.getElem_mem hlt, h⟩
  have hset : (s.move c b).attached id =
      s.attached id - (Caller.attachedTo id s.callers[c]).toNat + (b.attachedTo id).toNat := by
    rw [Site.attached, Site.move, List.countP_set hlt]
    cases Caller.attachedTo id s.callers[c] <;> cases b.attachedTo id <;> rfl
  omega

lemma attached_pos (hc : a ∈ s.callers) {id : ℕ} (ha : a.attachedTo id) : 0 < s.attached id :=
  List.countP_pos_iff.mpr ⟨a, hc, ha⟩

lemma known_of_attachedTo {id : ℕ} (h : a.attachedTo id) : a.known = some id := by
  cases a with
  | holding i released => cases released <;> simp_all [Caller.attachedTo, Caller.known]
  | _ => simp_all [Caller.attachedTo, Caller.known]

end Callers

/-- What an object's record says, given whether it is the map's entry, how many callers count among
its holders and whether its creator is still to go on. -/
structure ObjectSound (o : SharedLeaseState) (entered : Prop) (attached : ℕ) (creator : Prop) :
    Prop where
  counted : o.ready = .pending ∨ o.ready = .lease → o.holders = attached
  occupied : o.ready = .lease → o.releasing = none → 0 < o.holders
  released : o.releasing.isSome → o.ready = .lease ∧ o.holders = 0
  called : o.hostReleases = if o.releasing.isSome then 1 else 0
  creating : entered → o.ready ≠ .lease → creator
  unsettled : entered → ∀ ok, o.releasing ≠ some (.settled ok)
  closed : ¬ entered →
    o.ready = .null ∨ o.ready = .rejected ∨ ∃ ok, o.releasing = some (.settled ok)

/-- The invariant of every run. -/
structure Sound (s : Site) : Prop where
  entry_lt : ∀ id ∈ s.entry, id < s.next
  known_lt : ∀ c ∈ s.callers, ∀ id ∈ c.known, id < s.next
  held : ∀ id released, .holding id released ∈ s.callers → (s.shared id).ready = .lease
  object : ∀ id, ObjectSound (s.shared id) (s.entry = some id) (s.attached id)
    (.creating id ∈ s.callers)

namespace Sound

variable {s : Site} {c : ℕ} {a b : Caller}

lemma empty : Sound Site.empty where
  entry_lt := by simp [Site.empty]
  known_lt := by simp [Site.empty]
  held := by simp [Site.empty]
  object id := by constructor <;> simp [Site.empty]

lemma attached_next (h : Sound s) : s.attached s.next = 0 := by
  refine List.countP_eq_zero.mpr fun c hc hatt => ?_
  exact lt_irrefl _ (h.known_lt c hc _ (known_of_attachedTo hatt))

lemma move (h : Sound s) (hc : s.callers[c]? = some a)
    (hsame : ∀ id, (s.shared id).ready = .pending ∨ (s.shared id).ready = .lease →
      b.attachedTo id = a.attachedTo id)
    (hknown : ∀ id ∈ b.known, id < s.next)
    (hheld : ∀ id released, b = .holding id released → (s.shared id).ready = .lease)
    (hcreating : ∀ id ∈ s.entry, a = .creating id → (s.shared id).ready = .lease) :
    Sound (s.move c b) where
  entry_lt := h.entry_lt
  known_lt x hx := by
    rcases mem_move hx with hx | rfl
    · exact h.known_lt x hx
    · exact hknown
  held id released hx := by
    rcases mem_move hx with hx | hx
    · exact h.held id released hx
    · exact hheld id released hx.symm
  object id :=
    { h.object id with
      counted := by
        intro hready
        have hmove := attached_move (b := b) hc id
        rw [hsame id hready] at hmove
        rw [show (s.move c b).attached id = s.attached id by omega]
        exact (h.object id).counted hready
      creating := by
        intro hentry hready
        refine mem_move_of_ne hc ((h.object id).creating hentry hready) ?_
        rintro rfl
        exact hready (hcreating id hentry rfl) }

lemma leave (h : Sound s) {id : ℕ}
    (hend : (s.shared id).ready = .null ∨ (s.shared id).ready = .rejected)
    (hc : s.callers[c]? = some a) (ha : a = .creating id ∨ a = .joined id)
    (hfreed : s.entry = some id → a ≠ .creating id) : Sound (s.move c .returned) := by
  refine h.move hc ?_ nofun nofun ?_
  · intro i hi
    have hne : id ≠ i := by
      rintro rfl
      rcases hend with hend | hend <;> simp [hend] at hi
    rcases ha with rfl | rfl <;> simp [Caller.attachedTo, hne]
  · rintro i hentry rfl
    rcases ha with ha | ha
    · obtain rfl := Caller.creating.inj ha
      exact absurd rfl (hfreed hentry)
    · exact nomatch ha

lemma acquire (h : Sound s) : Sound { s with callers := s.callers ++ [.calling] } where
  entry_lt := h.entry_lt
  known_lt x hx := by
    rcases List.mem_append.mp hx with hx | hx
    · exact h.known_lt x hx
    · simp [List.mem_singleton.mp hx, Caller.known]
  held id released hx := h.held id released (by simpa using hx)
  object id := by
    have hattached : ({ s with callers := s.callers ++ [.calling] } : Site).attached id =
        s.attached id := by simp [Site.attached, Caller.attachedTo]
    rw [hattached]
    exact { h.object id with
      creating := fun hentry hready =>
        List.mem_append_left _ ((h.object id).creating hentry hready) }

lemma put (h : Sound s) {id : ℕ} {o : SharedLeaseState}
    (hheld : (s.shared id).ready = .lease → o.ready = .lease)
    (ho : ObjectSound o (s.entry = some id) (s.attached id) (.creating id ∈ s.callers)) :
    Sound (s.put id o) where
  entry_lt := h.entry_lt
  known_lt := h.known_lt
  held i released hx := by
    have hready := h.held i released hx
    rw [shared_put]
    split
    next heq => exact hheld (heq ▸ hready)
    next => exact hready
  object i := by
    rw [shared_put]
    split
    next heq => exact heq ▸ ho
    next => exact h.object i

lemma close (h : Sound s) {id : ℕ} {o : SharedLeaseState} (hentry : s.entry = some id)
    (hheld : (s.shared id).ready = .lease → o.ready = .lease)
    (ho : ObjectSound o False (s.attached id) (.creating id ∈ s.callers)) :
    Sound { s.put id o with entry := none } where
  entry_lt := nofun
  known_lt := h.known_lt
  held i released hx := by
    have hready := h.held i released hx
    have hshared := shared_put (s := s) id i o
    simp only [hshared]
    split
    next heq => exact hheld (heq ▸ hready)
    next => exact hready
  object i := by
    have hshared := shared_put (s := s) id i o
    simp only [hshared]
    split
    next heq => simpa using heq ▸ ho
    next hne =>
      have hclosed : ¬ s.entry = some i := fun heq => hne (Option.some.inj (heq.symm.trans hentry))
      exact { h.object i with
        creating := nofun
        unsettled := nofun
        closed := fun _ => (h.object i).closed hclosed }

lemma delete (h : Sound s) {id : ℕ}
    (hend : (s.shared id).ready = .null ∨ (s.shared id).ready = .rejected) :
    Sound (s.delete id) := by
  by_cases hentry : s.entry = some id
  · have hsame : s.put id (s.shared id) = s := by rw [Site.put, Function.update_eq_self]
    have hclose := h.close (o := s.shared id) hentry (fun hready => hready)
      { h.object id with
        creating := nofun
        unsettled := nofun
        closed := fun _ => hend.imp_right .inl }
    rw [Site.delete, if_pos hentry]
    exact hsame ▸ hclose
  · rw [Site.delete, if_neg hentry]
    exact h

lemma movePut (h : Sound s) {id : ℕ} {o : SharedLeaseState} (hc : s.callers[c]? = some a)
    (hsame : ∀ i ≠ id, b.attachedTo i = a.attachedTo i)
    (hcreator : ∀ i, a ≠ .creating i)
    (hknown : ∀ i ∈ b.known, i < s.next)
    (hheld : ∀ i released, b = .holding i released → i = id ∧ o.ready = .lease)
    (hready : (s.shared id).ready = .lease → o.ready = .lease)
    (ho : ObjectSound o (s.entry = some id) ((s.move c b).attached id)
      (.creating id ∈ (s.move c b).callers)) : Sound ((s.move c b).put id o) where
  entry_lt := h.entry_lt
  known_lt x hx := by
    rcases mem_move hx with hx | rfl
    · exact h.known_lt x hx
    · exact hknown
  held i released hx := by
    rw [shared_put]
    rcases mem_move hx with hx | hx
    · have hlease := h.held i released hx
      split
      next heq => exact hready (heq ▸ hlease)
      next => exact hlease
    · obtain ⟨rfl, hlease⟩ := hheld i released hx.symm
      rw [if_pos rfl]
      exact hlease
  object i := by
    rw [shared_put]
    split
    next heq => exact heq ▸ ho
    next hne =>
      have hattached : ((s.move c b).put id o).attached i = s.attached i := by
        have hmove := attached_move (b := b) hc i
        rw [hsame i hne] at hmove
        exact Nat.add_right_cancel hmove
      rw [hattached]
      exact { h.object i with
        creating := fun hentry hready =>
          mem_move_of_ne hc ((h.object i).creating hentry hready) (hcreator i).symm }

lemma join (h : Sound s) {id : ℕ} (hc : s.callers[c]? = some .calling) (hentry : s.entry = some id)
    (hreleasing : (s.shared id).releasing = none) :
    Sound ((s.put id { s.shared id with holders := (s.shared id).holders + 1 }).move c
      (.joined id)) := by
  have hobject := h.object id
  have hattached : (s.move c (.joined id)).attached id = s.attached id + 1 := by
    simpa [Caller.attachedTo] using attached_move (b := .joined id) hc id
  refine h.movePut (b := .joined id) hc ?_ nofun ?_ nofun (fun hready => hready) ?_
  · intro i hne
    simp [Caller.attachedTo, hne.symm]
  · simpa [Caller.known] using h.entry_lt id hentry
  · refine { hobject with counted := ?_, occupied := ?_, released := ?_, creating := ?_ }
    · intro hready
      rw [hattached, Nat.cast_add_one, ← hobject.counted hready]
    · intro hready _
      exact (hobject.occupied hready hreleasing).trans (Int.lt_add_one_iff.mpr le_rfl)
    · intro hsome
      simp [hreleasing] at hsome
    · intro hopen hready
      exact mem_move_of_ne hc (hobject.creating hopen hready) nofun

lemma create (h : Sound s) (hc : s.callers[c]? = some .calling) (hentry : s.entry = none) :
    Sound (s.create c) := by
  have hshared : ∀ i, (s.create c).shared i =
      if i = s.next then ⟨1, .pending, none, 0⟩ else s.shared i := fun i => shared_put _ _ _
  refine ⟨by simp [Site.create], ?_, ?_, fun i => ?_⟩
  · intro x hx id hid
    rcases mem_move hx with hx | rfl
    · exact (h.known_lt x hx id hid).trans (Nat.lt_succ_self _)
    · obtain rfl := Option.some.inj hid
      exact Nat.lt_succ_self _
  · intro id released hx
    have hx : .holding id released ∈ s.callers := (mem_move hx).resolve_right nofun
    rw [hshared, if_neg (h.known_lt _ hx id rfl).ne]
    exact h.held id released hx
  · have hmove : (s.create c).attached i + 0 = s.attached i + (decide (s.next = i)).toNat :=
      attached_move (b := .creating s.next) hc i
    rw [hshared]
    split
    next heq =>
      subst heq
      have hattached : (s.create c).attached s.next = 1 := by
        simpa [h.attached_next] using hmove
      rw [hattached]
      have hcreator : .creating s.next ∈ (s.create c).callers :=
        List.mem_set (List.getElem?_eq_some_iff.mp hc).1 _
      exact ⟨fun _ => by simp, nofun, by simp, by simp, fun _ _ => hcreator, nofun,
        fun hclosed => absurd rfl hclosed⟩
    next hne =>
      have hattached : (s.create c).attached i = s.attached i := by
        simpa [Ne.symm hne] using hmove
      rw [hattached]
      refine { h.object i with creating := ?_, unsettled := ?_, closed := ?_ }
      · exact fun hopen => absurd (Option.some.inj hopen).symm hne
      · exact fun hopen => absurd (Option.some.inj hopen).symm hne
      · exact fun _ => (h.object i).closed (by simp [hentry])

lemma acquireSharedLease (h : Sound s) (hc : s.callers[c]? = some .calling) :
    Sound (s.acquireSharedLease c) := by
  unfold Site.acquireSharedLease
  split
  next id hentry =>
    split
    · exact h.move hc (fun i _ => rfl) (by simpa [Caller.known] using h.entry_lt id hentry)
        nofun nofun
    next hreleasing => exact h.join hc hentry (by simpa using hreleasing)
  next hentry => exact h.create hc hentry

lemma resume (h : Sound s) (c : ℕ) : Sound (s.resume c) := by
  unfold Site.resume
  split
  next hc => exact h.acquireSharedLease hc
  next id hc =>
    split
    · exact h.move hc (fun i _ => rfl) nofun nofun nofun
    · exact h
  next id hc =>
    split
    · exact h
    next hready =>
      refine h.move hc (fun i _ => rfl) (fun i hi => ?_) ?_ ?_
      · exact h.known_lt (.creating id) (List.mem_of_getElem? hc) i hi
      · rintro i released heq
        obtain ⟨rfl, -⟩ := Caller.holding.inj heq
        exact hready
      · rintro i - heq
        obtain rfl := Caller.creating.inj heq
        exact hready
    all_goals
      next hready =>
        refine (h.delete (by simp [hready])).leave (by simp [Site.delete, hready]) hc (.inl rfl) ?_
        intro hopen
        simp only [Site.delete] at hopen
        split at hopen
        next => exact nomatch hopen
        next hne => exact absurd hopen hne
  next id hc =>
    split
    · exact h
    next hready =>
      refine h.move hc (fun i _ => rfl) (fun i hi => ?_) ?_ nofun
      · exact h.known_lt (.joined id) (List.mem_of_getElem? hc) i hi
      · rintro i released heq
        obtain ⟨rfl, -⟩ := Caller.holding.inj heq
        exact hready
    all_goals
      next hready => exact h.leave (by simp [hready]) hc (.inr rfl) nofun
  · exact h

lemma releaseOnce (h : Sound s) (c : ℕ) : Sound (s.releaseOnce c) := by
  unfold Site.releaseOnce
  split
  next id hc =>
    have hheld := h.held id false (List.mem_of_getElem? hc)
    have hobject := h.object id
    have hattached : (s.move c (.holding id true)).attached id + 1 = s.attached id := by
      simpa [Caller.attachedTo] using attached_move (b := .holding id true) hc id
    have hholders := hobject.counted (.inr hheld)
    have hreleasing : (s.shared id).releasing = none := by
      by_contra hsome
      have hzero := (hobject.released (Option.isSome_iff_ne_none.mpr hsome)).2
      omega
    have hentry : s.entry = some id := by
      by_contra hclosed
      rcases hobject.closed hclosed with hready | hready | ⟨ok, hsettled⟩
      · exact nomatch hheld.symm.trans hready
      · exact nomatch hheld.symm.trans hready
      · exact nomatch hreleasing.symm.trans hsettled
    have hknown : ∀ i ∈ (Caller.holding id true).known, i < s.next := fun i hi =>
      h.known_lt (.holding id false) (List.mem_of_getElem? hc) i hi
    have hothers : ∀ i ≠ id,
        (Caller.holding id true).attachedTo i = (Caller.holding id false).attachedTo i := by
      intro i hne
      simp [Caller.attachedTo, hne.symm]
    have hhandle : ∀ i released, Caller.holding id true = .holding i released →
        i = id ∧ (s.shared id).ready = .lease := by
      rintro i released heq
      exact ⟨(Caller.holding.inj heq).1.symm, hheld⟩
    dsimp only
    split
    next hlast =>
      refine h.movePut (b := .holding id true) hc hothers nofun hknown hhandle
        (fun hready => hready) ?_
      refine {
        counted := ?_
        occupied := nofun
        released := fun _ => ⟨hheld, hlast⟩
        called := ?_
        creating := fun _ hne => absurd hheld hne
        unsettled := nofun
        closed := fun hclosed => absurd hentry hclosed }
      · intro _
        change (s.shared id).holders - 1 = _
        omega
      · change (s.shared id).hostReleases + 1 = _
        rw [hobject.called, hreleasing]
        rfl
    next hmore =>
      refine h.movePut (b := .holding id true) hc hothers nofun hknown hhandle
        (fun hready => hready) ?_
      refine { hobject with
        counted := ?_
        occupied := ?_
        released := fun hsome => by simp [hreleasing] at hsome
        creating := fun _ hne => absurd hheld hne }
      · intro _
        change (s.shared id).holders - 1 = _
        omega
      · intro _ _
        change 0 < (s.shared id).holders - 1
        omega
  · exact h

lemma created (h : Sound s) (id : ℕ) (ready : Ready) : Sound (s.created id ready) := by
  unfold Site.created
  split
  next hpending =>
    have hobject := h.object id
    have hreleasing : (s.shared id).releasing = none := by
      by_contra hsome
      have hlease := (hobject.released (Option.isSome_iff_ne_none.mpr hsome)).1
      exact nomatch hpending.symm.trans hlease
    have hentry : s.entry = some id := by
      by_contra hclosed
      have hends := hobject.closed hclosed
      simp [hpending, hreleasing] at hends
    have hcreator := hobject.creating hentry (by simp [hpending])
    have hcount := hobject.counted (.inl hpending)
    refine h.put (fun hready => nomatch hpending.symm.trans hready) { hobject with
      counted := fun _ => hcount
      occupied := ?_
      released := fun hsome => by simp [hreleasing] at hsome
      creating := fun _ _ => hcreator
      closed := fun hclosed => absurd hentry hclosed }
    intro _ _
    have hatt : (Caller.creating id).attachedTo id := by simp [Caller.attachedTo]
    have hpos := attached_pos hcreator hatt
    change 0 < (s.shared id).holders
    omega
  · exact h

lemma hostReleased (h : Sound s) (id : ℕ) (ok : Bool) : Sound (s.hostReleased id ok) := by
  unfold Site.hostReleased
  split
  next hstarted =>
    have hobject := h.object id
    refine h.put (fun hready => hready) { hobject with
      occupied := nofun
      released := fun _ => hobject.released (by simp [hstarted])
      called := ?_
      unsettled := nofun
      closed := ?_ }
    · simpa [hstarted] using hobject.called
    · intro hclosed
      simpa [hstarted] using hobject.closed hclosed
  · exact h

lemma finally_ (h : Sound s) (id : ℕ) : Sound (s.finally_ id) := by
  unfold Site.finally_
  split
  next ok hended =>
    have hobject := h.object id
    have hreleased := hobject.released (by simp [hended])
    have hentry : s.entry = some id := by
      by_contra hclosed
      have hends := hobject.closed hclosed
      simp [hreleased.1, hended] at hends
    rw [Site.delete, if_pos (show (s.put id _).entry = some id from hentry)]
    refine h.close hentry (fun hready => hready) { hobject with
      occupied := nofun
      released := fun _ => hreleased
      called := by simpa [hended] using hobject.called
      creating := nofun
      unsettled := nofun
      closed := fun _ => .inr (.inr ⟨ok, rfl⟩) }
  · exact h

lemma step (h : Sound s) (e : Event) : Sound (Lease.step s e) := by
  cases e with
  | acquire => exact h.acquire
  | resume c => exact h.resume c
  | release c => exact h.releaseOnce c
  | created id ready => exact h.created id ready
  | hostReleased id ok => exact h.hostReleased id ok
  | finally_ id => exact h.finally_ id

end Sound

end ChatStasher.Lease
