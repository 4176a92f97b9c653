import ChatStasher.Backfill.Pace
import Mathlib.Data.Int.ConditionallyCompleteOrder

/-! The brake of a platform that answered too many requests: armed until the next local midnight, kept
beside those of the other platforms in one stored record. -/
namespace ChatStasher.DaySlow

/-- The days of a local calendar: each begins at its midnight, and they follow one another. -/
structure LocalCalendar where
  dayOf : ℚ → ℤ
  startOf : ℤ → ℚ
  dayOf_lt_iff : ∀ t n, dayOf t < n ↔ t < startOf n

namespace LocalCalendar
variable (C : LocalCalendar)

def localMidnightAfter (now : ℚ) : ℚ := C.startOf (C.dayOf now + 1)

lemma lt_localMidnightAfter (now : ℚ) : now < C.localMidnightAfter now :=
  (C.dayOf_lt_iff _ _).mp (Int.lt_succ _)

lemma startOf_mono : Monotone C.startOf := by
  intro m n hmn
  by_contra hlt
  rw [not_le, ← C.dayOf_lt_iff] at hlt
  exact lt_irrefl _ ((C.dayOf_lt_iff _ _).mp (hlt.trans_le hmn))

lemma localMidnightAfter_isLeast (now : ℚ) :
    IsLeast {t | now < t ∧ ∃ n, t = C.startOf n} (C.localMidnightAfter now) := by
  refine ⟨⟨C.lt_localMidnightAfter now, _, rfl⟩, ?_⟩
  rintro t ⟨hlt, n, rfl⟩
  exact C.startOf_mono ((C.dayOf_lt_iff _ _).mpr hlt)

lemma localMidnightAfter_mono : Monotone C.localMidnightAfter := by
  intro t u htu
  refine (C.localMidnightAfter_isLeast t).2 ⟨htu.trans_lt (C.lt_localMidnightAfter u), _, rfl⟩

end LocalCalendar

/-- One call, with the moment that it was made. -/
structure RateLimitCall (P : Type*) where
  platform : P
  now : ℚ≥0
  deriving DecidableEq

/-- The stored record, none where there is no value or one of another shape, and the writers' chain. -/
structure Site (P : Type*) where
  now : ℚ≥0
  stored : Option (DaySlowRecord P)
  /-- The calls behind on the chain. -/
  waiting : List (RateLimitCall P)
  /-- The call whose turn it is, with the record it has read. -/
  writing : Option (RateLimitCall P × DaySlowRecord P)
  /-- The calls that returned. -/
  returned : List (RateLimitCall P)

/-- A call is made, the next call of the chain reads, the one that has read writes, or time passes. -/
inductive Event (P : Type*)
  | call (platform : P)
  | load (readable : Bool)
  | save (writable : Bool)
  | advance (by_ : ℚ≥0)

variable {P : Type*} [DecidableEq P] (C : LocalCalendar)

omit [DecidableEq P] in
/-- When the brake of a platform ends, or 0; a value that cannot be read is no brake. -/
def readDaySlowUntil (readable : Bool) (stored : Option (DaySlowRecord P)) (platform : P)
    (now : ℚ) : ℚ :=
  if !readable then 0
  else
    match stored.bind fun record => record platform with
    | none => 0
    | some entry => if now < entry.endsAt then entry.endsAt else 0

def step (s : Site P) : Event P → Site P
  | .call platform => { s with waiting := s.waiting ++ [⟨platform, s.now⟩] }
  | .load readable =>
    match s.writing, s.waiting with
    | none, call :: rest =>
      -- A record that cannot be read is not written either.
      if readable then
        { s with waiting := rest, writing := some (call, s.stored.getD fun _ => none) }
      else { s with waiting := rest }
    | _, _ => s
  | .save writable =>
    match s.writing with
    | none => s
    | some (call, existing) =>
      if writable then
        { s with
          stored := some (recordPlatformRateLimit C.localMidnightAfter existing call.platform
            call.now)
          writing := none
          returned := call :: s.returned }
      else { s with writing := none }
  | .advance by_ => { s with now := s.now + by_ }

def Site.fresh (now : ℚ≥0) (stored : Option (DaySlowRecord P)) : Site P := ⟨now, stored, [], none, []⟩

section Sound

def Site.chain (s : Site P) : List (RateLimitCall P) := (s.writing.map Prod.fst).toList ++ s.waiting

/-- What the chain keeps. -/
structure Sound (s : Site P) : Prop where
  inOrder : s.chain.Pairwise fun a b => a.now ≤ b.now
  made : ∀ call ∈ s.chain, call.now ≤ s.now
  after : ∀ done ∈ s.returned, ∀ call ∈ s.chain, done.now ≤ call.now
  read : ∀ x ∈ s.writing, x.2 = s.stored.getD fun _ => none
  armed : ∀ done ∈ s.returned, s.now < C.localMidnightAfter done.now →
    ∃ entry, s.stored.bind (fun record => record done.platform) = some entry ∧
      C.localMidnightAfter done.now ≤ entry.endsAt
  past : ∀ done ∈ s.returned, done.now ≤ s.now

variable {C} {s : Site P}

omit [DecidableEq P] in
lemma Sound.fresh (now : ℚ≥0) (stored : Option (DaySlowRecord P)) :
    Sound C (Site.fresh now stored) := by
  constructor <;> simp [Site.fresh, Site.chain]

omit [DecidableEq P] in
lemma lt_of_readDaySlowUntil {stored : Option (DaySlowRecord P)} {platform : P} {now : ℚ}
    (h : readDaySlowUntil true stored platform now ≠ 0) :
    ∃ entry, stored.bind (fun record => record platform) = some entry ∧ now < entry.endsAt := by
  unfold readDaySlowUntil at h
  cases hentry : stored.bind fun record => record platform with
  | none => simp [hentry] at h
  | some entry =>
    refine ⟨entry, rfl, ?_⟩
    by_contra hlt
    simp [hentry, hlt] at h

omit [DecidableEq P] in
lemma bind_getD_none (stored : Option (DaySlowRecord P)) (platform : P) :
    stored.getD (fun _ => none) platform = stored.bind fun record => record platform := by
  cases stored <;> rfl

lemma recorded_of_ne {existing : DaySlowRecord P} {platform other : P} {now : ℚ}
    {entry : DaySlowEntry} (hne : other ≠ platform) (hentry : existing other = some entry)
    (hlt : now < entry.endsAt) :
    recordPlatformRateLimit C.localMidnightAfter existing platform now other = some entry := by
  rw [recordPlatformRateLimit, if_neg hne, hentry, Option.filter_some, if_pos (by simpa using hlt)]

lemma Sound.save (h : Sound C s) {call : RateLimitCall P} {existing : DaySlowRecord P}
    (hwriting : s.writing = some (call, existing)) :
    Sound C { s with
      stored := some (recordPlatformRateLimit C.localMidnightAfter existing call.platform call.now)
      writing := none
      returned := call :: s.returned } := by
  have hchain : s.chain = call :: s.waiting := by simp [Site.chain, hwriting]
  obtain ⟨hfirst, hrest⟩ := List.pairwise_cons.mp (hchain ▸ h.inOrder)
  have hcall : call ∈ s.chain := hchain ▸ List.mem_cons_self
  have hread : existing = s.stored.getD fun _ => none := h.read _ hwriting
  refine ⟨hrest, fun c hc => h.made c (hchain ▸ List.mem_cons_of_mem _ hc), ?_, by simp, ?_, ?_⟩
  · rintro done hdone c hc
    rcases List.mem_cons.mp hdone with rfl | hdone
    · exact hfirst c hc
    · exact h.after done hdone c (hchain ▸ List.mem_cons_of_mem _ hc)
  · intro done hdone hlt
    rcases List.mem_cons.mp hdone with rfl | hdone
    · exact ⟨⟨C.localMidnightAfter done.now, done.now⟩, if_pos rfl, le_rfl⟩
    · have hlater := h.after done hdone call hcall
      by_cases hsame : done.platform = call.platform
      · refine ⟨⟨C.localMidnightAfter call.now, call.now⟩, if_pos hsame, ?_⟩
        exact C.localMidnightAfter_mono (by exact_mod_cast hlater)
      · obtain ⟨entry, hentry, hends⟩ := h.armed done hdone hlt
        rw [← bind_getD_none, ← hread] at hentry
        have hmade : (call.now : ℚ) ≤ s.now := by exact_mod_cast h.made call hcall
        exact ⟨entry, recorded_of_ne hsame hentry (hmade.trans_lt (hlt.trans_le hends)), hends⟩
  · rintro done hdone
    rcases List.mem_cons.mp hdone with rfl | hdone
    · exact h.made _ hcall
    · exact h.past done hdone

lemma Sound.step (h : Sound C s) (e : Event P) : Sound C (DaySlow.step C s e) := by
  cases e with
  | call platform =>
    have hchain : (DaySlow.step C s (.call platform)).chain = s.chain ++ [⟨platform, s.now⟩] := by
      simp [DaySlow.step, Site.chain]
    refine ⟨?_, ?_, ?_, h.read, h.armed, h.past⟩
    · rw [hchain, List.pairwise_append]
      refine ⟨h.inOrder, List.pairwise_singleton _ _, fun a ha b hb => ?_⟩
      obtain rfl := List.mem_singleton.mp hb
      exact h.made a ha
    · intro call hcall
      rw [hchain, List.mem_append] at hcall
      rcases hcall with hcall | hcall
      · exact h.made call hcall
      · obtain rfl := List.mem_singleton.mp hcall
        exact le_refl _
    · intro done hdone call hcall
      rw [hchain, List.mem_append] at hcall
      rcases hcall with hcall | hcall
      · exact h.after done hdone call hcall
      · obtain rfl := List.mem_singleton.mp hcall
        exact h.past done hdone
  | load readable =>
    unfold DaySlow.step
    dsimp only
    split
    next call rest hwriting hwaiting =>
      have hchain : s.chain = call :: rest := by simp [Site.chain, hwriting, hwaiting]
      have hinOrder := hchain ▸ h.inOrder
      have hmade := hchain ▸ h.made
      have hafter := hchain ▸ h.after
      split
      · have hnext : Site.chain { s with
            waiting := rest
            writing := some (call, s.stored.getD fun _ => none) } = call :: rest := rfl
        refine ⟨hnext ▸ hinOrder, hnext ▸ hmade, hnext ▸ hafter, ?_, h.armed, h.past⟩
        rintro x hx
        obtain rfl := Option.some.inj hx
        rfl
      · have hnext : Site.chain { s with waiting := rest } = rest := by
          simp [Site.chain, hwriting]
        refine ⟨?_, ?_, ?_, h.read, h.armed, h.past⟩
        · rw [hnext]
          exact (List.pairwise_cons.mp hinOrder).2
        · intro c hc
          rw [hnext] at hc
          exact hmade c (List.mem_cons_of_mem _ hc)
        · intro done hdone c hc
          rw [hnext] at hc
          exact hafter done hdone c (List.mem_cons_of_mem _ hc)
    · exact h
  | save writable =>
    unfold DaySlow.step
    dsimp only
    split
    · exact h
    next call existing hwriting =>
      have hchain : s.chain = call :: s.waiting := by simp [Site.chain, hwriting]
      have hnext : Site.chain { s with writing := none } = s.waiting := rfl
      split
      · exact h.save hwriting
      · refine ⟨?_, ?_, ?_, by simp, h.armed, h.past⟩
        · exact hnext ▸ (List.pairwise_cons.mp (hchain ▸ h.inOrder)).2
        · exact hnext ▸ fun c hc => h.made c (hchain ▸ List.mem_cons_of_mem _ hc)
        · exact hnext ▸ fun done hdone c hc =>
            h.after done hdone c (hchain ▸ List.mem_cons_of_mem _ hc)
  | advance by_ =>
    have hle : s.now ≤ s.now + by_ := by
      rw [← NNRat.coe_le_coe, NNRat.coe_add]
      exact le_add_of_nonneg_right by_.coe_nonneg
    refine ⟨h.inOrder, fun c hc => (h.made c hc).trans hle, h.after, h.read, ?_,
      fun done hdone => (h.past done hdone).trans hle⟩
    intro done hdone hlt
    have hnow : (s.now : ℚ) ≤ ((s.now + by_ : ℚ≥0) : ℚ) := by exact_mod_cast hle
    exact h.armed done hdone (hnow.trans_lt hlt)

lemma Sound.brake_kept (h : Sound C s) (e : Event P) {platform : P}
    (hother : ∀ x ∈ s.writing, e = .save true → x.1.platform ≠ platform)
    (hforce : 0 < readDaySlowUntil true s.stored platform s.now) :
    readDaySlowUntil true (DaySlow.step C s e).stored platform s.now =
      readDaySlowUntil true s.stored platform s.now := by
  cases e with
  | call | advance => rfl
  | load readable =>
    unfold DaySlow.step
    dsimp only
    split
    · split <;> rfl
    · rfl
  | save writable =>
    unfold DaySlow.step
    dsimp only
    split
    · rfl
    next call existing hwriting =>
      cases writable with
      | false => rfl
      | true =>
        have hread : existing = s.stored.getD fun _ => none := h.read _ hwriting
        have hmade : (call.now : ℚ) ≤ s.now := by
          exact_mod_cast h.made call (by simp [Site.chain, hwriting])
        obtain ⟨entry, hentry, hlt⟩ := lt_of_readDaySlowUntil hforce.ne'
        have hkept : recordPlatformRateLimit C.localMidnightAfter existing call.platform call.now
            platform = some entry := by
          refine recorded_of_ne (hother _ hwriting rfl).symm ?_ (hmade.trans_lt hlt)
          rw [hread, bind_getD_none, hentry]
        simp [readDaySlowUntil, hkept, hentry]

/-- After every run, a call that returned is answered by a read that succeeds with an end that is no
earlier than the first local midnight after the call, as long as that has not come; and no step but a
write for the platform itself changes a brake in force, whether calls fail or not. -/
theorem brake_in_force (C : LocalCalendar) (now : ℚ≥0) (stored : Option (DaySlowRecord P))
    (es : List (Event P)) :
    let s := StepRun.exec (DaySlow.step C) (Site.fresh now stored) es
    (∀ call ∈ s.returned, s.now < C.localMidnightAfter call.now →
      0 < readDaySlowUntil true s.stored call.platform s.now ∧
        C.localMidnightAfter call.now ≤ readDaySlowUntil true s.stored call.platform s.now) ∧
      ∀ (e : Event P) (platform : P),
        (∀ x ∈ s.writing, e = .save true → x.1.platform ≠ platform) →
        0 < readDaySlowUntil true s.stored platform s.now →
          readDaySlowUntil true (DaySlow.step C s e).stored platform s.now =
            readDaySlowUntil true s.stored platform s.now := by
  intro s
  have hsound : Sound C s :=
    @StepRun.invariant_all _ _ (DaySlow.step C) (Sound C) (fun _ e hs => hs.step e) _
      (Sound.fresh now stored) es
  refine ⟨fun call hcall hlt => ?_, fun e platform hother hforce => ?_⟩
  · obtain ⟨entry, hentry, hends⟩ := hsound.armed call hcall hlt
    have hread : readDaySlowUntil true s.stored call.platform s.now = entry.endsAt := by
      have hforce : (s.now : ℚ) < entry.endsAt := hlt.trans_le hends
      simp [readDaySlowUntil, hentry, hforce]
    rw [hread]
    exact ⟨(s.now.coe_nonneg.trans_lt hlt).trans_le hends, hends⟩
  · exact hsound.brake_kept e hother hforce

end Sound

section Sample

/-- Days of 86400000 ms from the epoch. -/
def utcCalendar : LocalCalendar where
  dayOf t := ⌊t / 86400000⌋
  startOf n := n * 86400000
  dayOf_lt_iff t n := by rw [Int.floor_lt, div_lt_iff₀ (by norm_num)]

def braked : List (Event String) := [.call "chatgpt", .load true, .save true]

/-- A read of the store that fails says there is no brake, right after the call returned. -/
theorem failed_read_says_unbraked :
    let s := StepRun.exec (DaySlow.step utcCalendar) (Site.fresh 1000 none) braked
    (∃ call ∈ s.returned, call.platform = "chatgpt" ∧
      s.now < utcCalendar.localMidnightAfter call.now) ∧
      ¬ 0 < readDaySlowUntil false s.stored "chatgpt" s.now := by
  refine ⟨⟨⟨"chatgpt", 1000⟩, List.mem_singleton_self _, rfl, ?_⟩, lt_irrefl _⟩
  exact utcCalendar.lt_localMidnightAfter _

end Sample

end ChatStasher.DaySlow
