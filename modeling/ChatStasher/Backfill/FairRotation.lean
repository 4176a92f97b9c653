import ChatStasher.Backfill.TickRotation

/-! Fair rotation: however the registry changes, a row that stays registered and runnable is served
within as many wakes as there are rows. -/
namespace ChatStasher

section Walk
variable {registry : TickRegistry} {cursor : Option TickCursor} {runnable : BackfillTarget → Bool}
  {row t : BackfillTarget}

lemma servedRow_spec (h : servedRow registry cursor runnable = some t) :
    t ∈ registry.targets ∧ runnable t = true ∧ ∃ i, registry.targets[i]? = some t ∧
      ∀ j, ∀ other, registry.targets[j]? = some other → runnable other = true →
        tickRank registry cursor i ≤ tickRank registry cursor j := by
  obtain ⟨i, hfind, hi⟩ := Option.bind_eq_some_iff.mp h
  obtain ⟨hrun, before, after, horder, hbefore⟩ := List.find?_eq_some_iff_append.mp hfind
  rw [hi, Option.any_some] at hrun
  refine ⟨List.mem_of_getElem? hi, hrun, i, hi, fun j other hj hother => ?_⟩
  have hsorted := List.pairwise_insertionSort
    (fun i j => tickRank registry cursor i ≤ tickRank registry cursor j)
    (List.range registry.targets.length)
  change (tickWalkOrder registry cursor).Pairwise _ at hsorted
  have hmem : j ∈ tickWalkOrder registry cursor := by
    rw [tickWalkOrder, List.mem_insertionSort, List.mem_range]
    exact (List.getElem?_eq_some_iff.mp hj).1
  rw [horder] at hsorted hmem
  rcases List.mem_append.mp hmem with hj' | hj'
  · have := hbefore j hj'
    simp [hj, hother] at this
  · rcases List.mem_cons.mp hj' with rfl | hj'
    · exact le_rfl
    · exact (List.pairwise_cons.mp (List.pairwise_append.mp hsorted).2.1).1 j hj'

lemma servedRow_isSome (cursor : Option TickCursor) (hrow : row ∈ registry.targets)
    (hrun : runnable row = true) : ∃ t, servedRow registry cursor runnable = some t := by
  obtain ⟨j, hj⟩ := List.mem_iff_getElem?.mp hrow
  have hmem : j ∈ tickWalkOrder registry cursor := by
    rw [tickWalkOrder, List.mem_insertionSort, List.mem_range]
    exact (List.getElem?_eq_some_iff.mp hj).1
  cases hserved : (tickWalkOrder registry cursor).find? fun index =>
      (registry.targets[index]?).any runnable with
  | none =>
    have := List.find?_eq_none.mp hserved j hmem
    simp [hj, hrun] at this
  | some i =>
    have hany := List.find?_some hserved
    obtain ⟨t, ht, -⟩ := (Option.any_eq_true _ _).mp hany
    exact ⟨t, by rw [servedRow, hserved, Option.bind_some, ht]⟩

end Walk

section Ranks
variable {registry : TickRegistry} {cursor : TickCursor} {order : List TargetKey}
  {row t : BackfillTarget}

lemma lookup_zipIdx (h : order.Nodup) {key : TargetKey} {n : ℕ} :
    order.zipIdx.lookup key = some n ↔ order[n]? = some key := by
  have hkeys : (order.zipIdx.map Prod.fst).Nodup := by rwa [List.zipIdx_map_fst]
  rw [KeyedList.lookup_eq_some_iff_mem hkeys, List.mk_mem_zipIdx_iff_getElem?]

lemma tickRank_of_getElem? {i : ℕ} (hi : registry.targets[i]? = some row) :
    tickRank registry (some cursor) i = toLex
      ((cursor.served.lookup (targetIdentityKey row)).elim ⊤ fun stamp => (stamp : WithTop ℕ), i) := by
  simp [tickRank, hi]

lemma served_before (hserved : cursor.served = order.zipIdx) (hnodup : order.Nodup)
    {before after : List TargetKey} (horder : order = before ++ targetIdentityKey row :: after)
    {i j : ℕ} (hi : registry.targets[i]? = some t) (hj : registry.targets[j]? = some row)
    (hle : tickRank registry (some cursor) i ≤ tickRank registry (some cursor) j)
    (hne : t ≠ row) : targetIdentityKey t ∈ before := by
  have hrow : cursor.served.lookup (targetIdentityKey row) = some before.length := by
    rw [hserved, lookup_zipIdx hnodup, horder]
    simp
  rw [tickRank_of_getElem? hi, tickRank_of_getElem? hj, hrow, Prod.Lex.le_iff] at hle
  cases hstamp : cursor.served.lookup (targetIdentityKey t) with
  | none =>
    simp [hstamp] at hle
  | some n =>
    have hn : n ≤ before.length := by
      simp only [hstamp, Option.elim_some, ofLex_toLex, Nat.cast_lt, Nat.cast_inj] at hle
      omega
    rw [hserved, lookup_zipIdx hnodup, horder] at hstamp
    rcases Nat.lt_or_eq_of_le hn with hlt | rfl
    · rw [List.getElem?_append_left hlt] at hstamp
      exact List.mem_of_getElem? hstamp
    · have hkey : targetIdentityKey row = targetIdentityKey t := by simpa using hstamp
      refine absurd (targetIdentityKey_inj ?_ ?_ hkey.symm) hne
      · exact registry.platforms t (List.mem_of_getElem? hi)
      · exact registry.platforms row (List.mem_of_getElem? hj)

lemma stamped_of_dense (hserved : cursor.served = order.zipIdx) :
    ((pruneToRegistry (some cursor) registry).insertionSort fun a b => a.2 ≤ b.2).map Prod.fst =
      order.filter fun key => key ∈ registry.keys := by
  have hincreasing : order.zipIdx.Pairwise fun a b => a.2 ≤ b.2 := by
    have hmap : (order.zipIdx.map Prod.snd).Pairwise (· ≤ ·) := by
      rw [List.zipIdx_map_snd]
      exact List.pairwise_le_range'
    exact List.pairwise_map.mp hmap
  have hsorted : (pruneToRegistry (some cursor) registry).Pairwise fun a b => a.2 ≤ b.2 := by
    rw [pruneToRegistry, Option.elim_some, hserved]
    exact hincreasing.filter _
  rw [hsorted.insertionSort_eq, pruneToRegistry, Option.elim_some, hserved]
  conv_rhs => rw [← List.zipIdx_map_fst 0 order, List.filter_map]
  rfl

lemma nextOrder_before (hserved : cursor.served = order.zipIdx) {before after : List TargetKey}
    (horder : order = before ++ targetIdentityKey row :: after) (hrow : row ∈ registry.targets)
    (ht : t ∈ registry.targets) (hbefore : targetIdentityKey t ∈ before) :
    ∃ before' after', nextOrder (some cursor) registry t =
        before' ++ targetIdentityKey row :: after' ∧ before'.length < before.length := by
  have hreg : ∀ u ∈ registry.targets, targetIdentityKey u ∈ registry.keys := fun u hu =>
    List.mem_map_of_mem hu
  have hmem : targetIdentityKey t ∈ before.filter fun key => key ∈ registry.keys :=
    List.mem_filter.mpr ⟨hbefore, decide_eq_true (hreg t ht)⟩
  refine ⟨(before.filter fun key => key ∈ registry.keys).erase (targetIdentityKey t),
    (after.filter fun key => key ∈ registry.keys) ++ (registry.keys.filter fun key =>
      key ∉ (pruneToRegistry (some cursor) registry).map Prod.fst) ++ [targetIdentityKey t], ?_, ?_⟩
  · rw [nextOrder]
    rw [stamped_of_dense hserved, horder, List.filter_append, List.filter_cons,
      if_pos (decide_eq_true (hreg row hrow)), List.append_assoc, List.erase_append_left _ hmem]
    simp
  · have hle := List.length_filter_le (fun key => decide (key ∈ registry.keys)) before
    have hpos := List.length_pos_of_mem hmem
    rw [List.length_erase_of_mem hmem]
    omega

/-- After any wake, a registered row that was not served has at least two places behind its own
rank. -/
lemma nextOrder_first (cursor : Option TickCursor) (hrow : row ∈ registry.targets)
    (ht : t ∈ registry.targets) (hne : t ≠ row) :
    ∃ before after, nextOrder cursor registry t = before ++ targetIdentityKey row :: after ∧
      before.length + 2 ≤ registry.targets.length := by
  have hperm := nextOrder_perm cursor ht
  have hmem := hperm.mem_iff.mpr (List.mem_map_of_mem (f := targetIdentityKey) hrow)
  have hlength := hperm.length_eq
  have hkey : targetIdentityKey row ≠ targetIdentityKey t := fun heq => hne
    (targetIdentityKey_inj (registry.platforms row hrow) (registry.platforms t ht) heq).symm
  rw [nextOrder] at hmem
  rcases List.mem_append.mp hmem with hmem | hmem
  · obtain ⟨before, after, heq⟩ := List.append_of_mem hmem
    refine ⟨before, after ++ [targetIdentityKey t], ?_, ?_⟩
    · rw [nextOrder, heq]
      simp
    · rw [nextOrder, heq, TickRegistry.keys] at hlength
      simp at hlength
      omega
  · exact absurd (List.mem_singleton.mp hmem) hkey

end Ranks

section Mirrors

def TickCursor.generation (cursor : TickCursor) : ℕ := cursor.revision.getD 0

def OlderMirror (mirror : Option StoredCursor) (cursor : TickCursor) : Prop :=
  ∀ c, readTickCursor mirror = some c → c.generation < cursor.generation

/-- The cursor saved last is kept: the wake finds it in the worker's memory or reads it from a mirror.
Before the first save a mirror that holds anything answers. -/
def TickCursorKept (s : TickState) : TickEvent → Prop
  | .wake w =>
    match s.saved with
    | some cursor => s.servedThisWorker = some cursor ∨
        (w.localReads = true ∧ readTickCursor s.localMirror = some cursor) ∨
        (w.sessionReads = true ∧ readTickCursor s.sessionMirror = some cursor)
    | none => s.servedThisWorker ≠ none ∨
        ((w.localReads = true ∨ s.localMirror = none) ∧
          (w.sessionReads = true ∨ s.sessionMirror = none))
  | .reclaimWorker => True
  | .restartBrowser => True

lemma newerMirror_some (l m : TickCursor) :
    newerMirror (some l) (some m) = some (if l.generation < m.generation then m else l) := by
  by_cases hlt : l.generation < m.generation
  · simp only [newerMirror, TickCursor.generation] at hlt ⊢
    simp [hlt]
  · simp only [newerMirror, TickCursor.generation] at hlt ⊢
    simp [hlt]

lemma newerMirror_ge {x y : Option TickCursor} {c : TickCursor} (h : x = some c ∨ y = some c) :
    ∃ n, newerMirror x y = some n ∧ c.generation ≤ n.generation := by
  cases x with
  | none =>
    cases y with
    | none => simp at h
    | some m =>
      obtain rfl : m = c := by simpa using h
      exact ⟨m, rfl, le_rfl⟩
  | some l =>
    cases y with
    | none =>
      obtain rfl : l = c := by simpa using h
      exact ⟨l, rfl, le_rfl⟩
    | some m =>
      by_cases hlt : l.generation < m.generation
      · refine ⟨m, by simp [newerMirror, ← TickCursor.generation.eq_1, hlt], ?_⟩
        rcases h with h | h
        · obtain rfl := Option.some.inj h
          exact hlt.le
        · obtain rfl := Option.some.inj h
          exact le_rfl
      · refine ⟨l, by simp [newerMirror, ← TickCursor.generation.eq_1, hlt], ?_⟩
        rcases h with h | h
        · obtain rfl := Option.some.inj h
          exact le_rfl
        · obtain rfl := Option.some.inj h
          exact not_lt.mp hlt

lemma generation_stored_le {cursor c : TickCursor}
    (h : readTickCursor (some cursor.stored) = some c) : c.generation ≤ cursor.generation := by
  simp only [readTickCursor, TickCursor.stored, Option.map_some, Option.some.injEq] at h
  subst h
  unfold TickCursor.generation
  dsimp only
  cases hrev : cursor.revision with
  | none => simp [StoredNumber.stamp]
  | some n =>
    simp only [Option.elim_some, StoredNumber.stamp]
    split
    · simp
    · simp

/-- What the mirrors hold is the cursor saved last or older; and before the first save the worker's
own cursor is as new as either. -/
def Newest (s : TickState) : Prop :=
  match s.saved with
  | some cursor =>
    (s.servedThisWorker = none ∨ s.servedThisWorker = some cursor) ∧ 0 < cursor.generation ∧
      ∀ mirror ∈ [s.localMirror, s.sessionMirror],
        mirror = some cursor.stored ∨ OlderMirror mirror cursor
  | none => ∀ cursor, s.servedThisWorker = some cursor →
      ∀ mirror ∈ [s.localMirror, s.sessionMirror], ∀ c, readTickCursor mirror = some c →
        c.generation ≤ cursor.generation

lemma load_saved {s : TickState} {w : TickWake} {cursor : TickCursor} (h : Newest s)
    (hkept : TickCursorKept s (.wake w)) (hsaved : s.saved = some cursor) :
    s.loadTickCursor w = some cursor := by
  simp only [Newest, hsaved, List.forall_mem_cons] at h
  obtain ⟨hmemory, -, hlocal, hsession, -⟩ := h
  simp only [TickCursorKept, hsaved] at hkept
  have hpick : ∀ {x y : Option StoredCursor}, (x = some cursor.stored ∨ OlderMirror x cursor) →
      readTickCursor y = some cursor → ∀ c, readTickCursor x = some c →
        y = some cursor.stored ∨ OlderMirror y cursor →
          c = cursor ∨ c.generation < cursor.generation := by
    intro x y hx hy c hc hy'
    have hstored : readTickCursor (some cursor.stored) = some cursor := by
      rcases hy' with rfl | hold
      · exact hy
      · exact absurd (hold cursor hy) (lt_irrefl _)
    rcases hx with rfl | hold
    · exact .inl (Option.some.inj (hc.symm.trans hstored))
    · exact .inr (hold c hc)
  unfold TickState.loadTickCursor
  rcases hmemory with hnone | hsome
  · rw [hnone]
    dsimp only
    rcases hkept with hm | ⟨hreads, hread⟩ | ⟨hreads, hread⟩
    · simp [hnone] at hm
    · rw [if_pos hreads, hread]
      cases hother : (if w.sessionReads then readTickCursor s.sessionMirror else none) with
      | none => rfl
      | some c =>
        have hc : readTickCursor s.sessionMirror = some c := by
          split at hother
          · exact hother
          · cases hother
        rcases hpick hsession hread c hc hlocal with rfl | hlt
        · simp [newerMirror]
        · have := not_lt.mpr hlt.le
          simp [newerMirror, ← TickCursor.generation.eq_1, this]
    · rw [if_pos hreads, hread]
      cases hother : (if w.localReads then readTickCursor s.localMirror else none) with
      | none => rfl
      | some c =>
        have hc : readTickCursor s.localMirror = some c := by
          split at hother
          · exact hother
          · cases hother
        rcases hpick hlocal hread c hc hsession with rfl | hlt
        · simp [newerMirror]
        · simp [newerMirror, ← TickCursor.generation.eq_1, hlt]
  · rw [hsome]

lemma load_unsaved {s : TickState} {w : TickWake} (h : Newest s) (hkept : TickCursorKept s (.wake w))
    (hsaved : s.saved = none) {mirror : Option StoredCursor} {c : TickCursor}
    (hmirror : mirror ∈ [s.localMirror, s.sessionMirror]) (hread : readTickCursor mirror = some c) :
    ∃ cursor, s.loadTickCursor w = some cursor ∧ c.generation ≤ cursor.generation := by
  simp only [Newest, hsaved] at h
  simp only [TickCursorKept, hsaved] at hkept
  unfold TickState.loadTickCursor
  cases hmemory : s.servedThisWorker with
  | some cursor => exact ⟨cursor, rfl, h cursor hmemory mirror hmirror c hread⟩
  | none =>
    obtain ⟨hl, hs⟩ := hkept.resolve_left fun hne => hne hmemory
    have hreads : ∀ {reads : Bool} {m : Option StoredCursor}, reads = true ∨ m = none →
        (if reads then readTickCursor m else none) = readTickCursor m := by
      intro reads m hm
      rcases hm with rfl | rfl
      · rfl
      · simp [readTickCursor]
    dsimp only
    rw [hreads hl, hreads hs]
    refine newerMirror_ge ?_
    simpa [eq_comm] using (List.mem_cons.mp hmirror).imp (fun heq => heq ▸ hread)
      fun hmem => List.mem_singleton.mp hmem ▸ hread

lemma readTickCursor_stored {cursor : TickCursor} {n : ℕ} (hrevision : cursor.revision = some n)
    (hn : (n : ℤ) ≤ maxSafeInteger)
    (hstamps : ∀ e ∈ cursor.served, keySeparator ∈ e.1 ∧ (e.2 : ℤ) ≤ maxSafeInteger) :
    readTickCursor (some cursor.stored) = some cursor := by
  have hserved : ∀ {l : List (TargetKey × ℕ)},
      (∀ e ∈ l, keySeparator ∈ e.1 ∧ (e.2 : ℤ) ≤ maxSafeInteger) →
        (l.map fun e => (e.1, StoredNumber.integer e.2)).filterMap readStamp = l := by
    intro l
    induction l with
    | nil => intro _; rfl
    | cons e l ih =>
      intro h
      obtain ⟨hkey, hle⟩ := h e List.mem_cons_self
      have he : readStamp (e.1, StoredNumber.integer e.2) = some e := by
        simp [readStamp, StoredNumber.stamp, hkey, hle]
      rw [List.map_cons, List.filterMap_cons_some he, ih fun x hx => h x (List.mem_cons_of_mem _ hx)]
  obtain ⟨served, hnodup, revision⟩ := cursor
  dsimp only at hrevision hstamps
  subst hrevision
  simp only [readTickCursor, TickCursor.stored, Option.map_some, Option.elim_some,
    hserved hstamps, StoredNumber.stamp, Int.natCast_nonneg, hn, and_self, if_true, Int.toNat_natCast]

lemma saveTickCursor_stored (cursor : Option TickCursor) {registry : TickRegistry}
    {t : BackfillTarget} (ht : t ∈ registry.targets)
    (hlength : (registry.targets.length : ℤ) ≤ maxSafeInteger)
    (hgeneration : (((cursor.bind TickCursor.revision).getD 0 + 1 : ℕ) : ℤ) ≤ maxSafeInteger) :
    readTickCursor (some (saveTickCursor cursor registry t).stored) =
      some (saveTickCursor cursor registry t) := by
  refine readTickCursor_stored rfl hgeneration fun e he => ?_
  obtain ⟨key, n⟩ := e
  have hn := List.mk_mem_zipIdx_iff_getElem?.mp he
  have hmem := (nextOrder_perm cursor ht).mem_iff.mp (List.mem_of_getElem? hn)
  have hlt := (List.getElem?_eq_some_iff.mp hn).1
  rw [(nextOrder_perm cursor ht).length_eq, TickRegistry.keys, List.length_map] at hlt
  obtain ⟨target, -, rfl⟩ := List.mem_map.mp hmem
  exact ⟨by simp [targetIdentityKey], by dsimp only; omega⟩

lemma newest_step {s : TickState} {event : TickEvent} (h : Newest s) (hkept : TickCursorKept s event) :
    Newest (tickStep s event) := by
  cases event with
  | reclaimWorker =>
    cases hsaved : s.saved with
    | some cursor =>
      simp only [Newest, hsaved] at h
      simpa [Newest, tickStep, hsaved] using h.2
    | none => simp [Newest, tickStep, hsaved]
  | restartBrowser =>
    cases hsaved : s.saved with
    | some cursor =>
      simp only [Newest, hsaved, List.forall_mem_cons] at h
      obtain ⟨-, hpos, hlocal, -⟩ := h
      simp only [Newest, tickStep, hsaved, List.forall_mem_cons]
      exact ⟨.inl trivial, hpos, hlocal, .inr nofun, nofun⟩
    | none => simp [Newest, tickStep, hsaved]
  | wake w =>
    cases hserves : s.serves w with
    | none =>
      simp only [tickStep, hserves]
      cases hsaved : s.saved with
      | some cursor =>
        have hload := load_saved h hkept hsaved
        simp only [Newest, hsaved] at h
        simp only [Newest]
        exact ⟨.inr hload, h.2⟩
      | none =>
        simp only [Newest]
        intro cursor hcursor mirror hmirror c hread
        obtain ⟨cursor', hload, hle⟩ := load_unsaved h hkept hsaved hmirror hread
        obtain rfl := Option.some.inj (hload.symm.trans hcursor)
        exact hle
    | some target =>
      have hbound : ∀ mirror ∈ [s.localMirror, s.sessionMirror],
          OlderMirror mirror (saveTickCursor (s.loadTickCursor w) w.registry target) := by
        intro mirror hmirror c hread
        obtain ⟨cursor, hload, hle⟩ : ∃ cursor, s.loadTickCursor w = some cursor ∧
            c.generation ≤ cursor.generation := by
          cases hsaved : s.saved with
          | some cursor =>
            refine ⟨cursor, load_saved h hkept hsaved, ?_⟩
            simp only [Newest, hsaved] at h
            rcases h.2.2 mirror hmirror with rfl | hold
            · exact generation_stored_le hread
            · exact (hold c hread).le
          | none => exact load_unsaved h hkept hsaved hmirror hread
        rw [hload]
        exact Nat.lt_succ_of_le hle
      simp only [tickStep, hserves, Newest, List.forall_mem_cons]
      refine ⟨.inr trivial, Nat.succ_pos _, ?_, ?_, nofun⟩
      · split
        · exact .inl rfl
        · exact .inr (hbound _ List.mem_cons_self)
      · split
        · exact .inl rfl
        · exact .inr (hbound _ (List.mem_cons_of_mem _ List.mem_cons_self))

lemma newest_exec {s : TickState} {events : List TickEvent} (h : Newest s)
    (hkept : StepRun.Along tickStep TickCursorKept s events) :
    Newest (StepRun.exec tickStep s events) := by
  induction events generalizing s with
  | nil => exact h
  | cons event events ih => exact ih (newest_step h hkept.1) hkept.2

lemma newest_fresh (localMirror sessionMirror : Option StoredCursor) :
    Newest (.fresh localMirror sessionMirror) := by
  simp [Newest, TickState.fresh]

end Mirrors

section Turns
variable {s : TickState} {w : TickWake} {row : BackfillTarget}

def Waiting (s : TickState) (row : BackfillTarget) (n : ℕ) : Prop :=
  ∃ cursor order before after, s.saved = some cursor ∧ cursor.served = order.zipIdx ∧
    order.Nodup ∧ order = before ++ targetIdentityKey row :: after ∧ before.length = n

lemma step_serves {t : BackfillTarget} (h : s.serves w = some t) :
    tickStep s (.wake w) =
      let next := saveTickCursor (s.loadTickCursor w) w.registry t
      { servedThisWorker := some next
        localMirror := if w.localAccepts then some next.stored else s.localMirror
        sessionMirror := if w.sessionAccepts then some next.stored else s.sessionMirror
        saved := some next } := by
  simp only [tickStep, h]

lemma first_turn (hrow : row ∈ w.registry.targets) (hrun : w.runnable row = true) :
    s.serves w = some row ∨
      ∃ n, Waiting (tickStep s (.wake w)) row n ∧ n + 2 ≤ w.registry.targets.length := by
  obtain ⟨t, ht⟩ := servedRow_isSome (s.loadTickCursor w) hrow hrun
  by_cases hne : t = row
  · exact .inl (hne ▸ ht)
  · obtain ⟨htarget, -, -⟩ := servedRow_spec ht
    obtain ⟨before, after, horder, hle⟩ := nextOrder_first (s.loadTickCursor w) hrow htarget hne
    refine .inr ⟨before.length, ⟨saveTickCursor (s.loadTickCursor w) w.registry t,
      nextOrder (s.loadTickCursor w) w.registry t, before, after, ?_, ?_, nextOrder_nodup _ _ _,
      horder, rfl⟩, hle⟩
    · rw [step_serves ht]
    · rfl

lemma next_turn (hnewest : Newest s) (hkept : TickCursorKept s (.wake w)) {n : ℕ}
    (hwait : Waiting s row n) (hrow : row ∈ w.registry.targets) (hrun : w.runnable row = true) :
    s.serves w = some row ∨ ∃ k, Waiting (tickStep s (.wake w)) row k ∧ k < n := by
  obtain ⟨cursor, order, before, after, hsaved, hserved, hnodup, horder, rfl⟩ := hwait
  obtain ⟨t, ht⟩ := servedRow_isSome (s.loadTickCursor w) hrow hrun
  by_cases hne : t = row
  · exact .inl (hne ▸ ht)
  · have hload := load_saved hnewest hkept hsaved
    obtain ⟨htarget, -, i, hi, hfirst⟩ := servedRow_spec ht
    obtain ⟨j, hj⟩ := List.mem_iff_getElem?.mp hrow
    have hle := hfirst j row hj hrun
    rw [hload] at hle
    have hbefore := served_before hserved hnodup horder hi hj hle hne
    obtain ⟨before', after', horder', hlt⟩ :=
      nextOrder_before hserved horder hrow htarget hbefore
    refine .inr ⟨before'.length, ⟨saveTickCursor (s.loadTickCursor w) w.registry t,
      nextOrder (s.loadTickCursor w) w.registry t, before', after', ?_, ?_, nextOrder_nodup _ _ _,
      ?_, rfl⟩, hlt⟩
    · rw [step_serves ht]
    · rfl
    · rw [hload]
      exact horder'

lemma served_within {events : List TickEvent} (hnewest : Newest s)
    (hkept : StepRun.Along tickStep TickCursorKept s events) {n : ℕ} (hwait : Waiting s row n)
    (hrow : ∀ w, .wake w ∈ events → row ∈ w.registry.targets ∧ w.runnable row = true)
    (hlength : n < (servings s events).length) : some row ∈ (servings s events).take (n + 1) := by
  induction events generalizing s n with
  | nil => exact absurd hlength (Nat.not_lt_zero _)
  | cons event events ih =>
    have hnext := newest_step hnewest hkept.1
    have hrest : ∀ w, .wake w ∈ events → row ∈ w.registry.targets ∧ w.runnable row = true :=
      fun w hw => hrow w (List.mem_cons_of_mem _ hw)
    cases event with
    | reclaimWorker => exact ih hnext hkept.2 hwait hrest hlength
    | restartBrowser => exact ih hnext hkept.2 hwait hrest hlength
    | wake w =>
      obtain ⟨hreg, hrun⟩ := hrow w List.mem_cons_self
      rw [servings, List.take_succ_cons]
      rcases next_turn hnewest hkept.1 hwait hreg hrun with hserved | ⟨k, hwait', hlt⟩
      · rw [hserved]
        exact List.mem_cons_self
      · rw [servings, List.length_cons] at hlength
        have hk := ih hnext hkept.2 hwait' hrest (by omega)
        exact List.mem_cons_of_mem _ ((List.take_sublist_take_left (by omega)).mem hk)

def DenseOver (cursor : TickCursor) (registry : TickRegistry) : Prop :=
  cursor.served.map Prod.snd = List.range registry.targets.length ∧
    (cursor.served.map Prod.fst).Perm registry.keys

lemma saveTickCursor_dense (cursor : Option TickCursor) {registry : TickRegistry}
    {t : BackfillTarget} (ht : t ∈ registry.targets) :
    DenseOver (saveTickCursor cursor registry t) registry := by
  have hperm := nextOrder_perm cursor ht
  have hlength : (nextOrder cursor registry t).length = registry.targets.length := by
    rw [hperm.length_eq, TickRegistry.keys, List.length_map]
  refine ⟨?_, ?_⟩
  · rw [saveTickCursor, List.zipIdx_map_snd, hlength, List.range_eq_range']
  · rw [saveTickCursor, List.zipIdx_map_fst]
    exact hperm

lemma saved_of_idle {events : List TickEvent} (h : ∀ served ∈ servings s events, served = none) :
    (StepRun.exec tickStep s events).saved = s.saved := by
  induction events generalizing s with
  | nil => rfl
  | cons event events ih =>
    cases event with
    | reclaimWorker => exact ih h
    | restartBrowser => exact ih h
    | wake w =>
      rw [servings, List.forall_mem_cons] at h
      rw [StepRun.exec_cons, ih h.2]
      simp only [tickStep, h.1]

/-- Along every run that keeps the cursor: a row that stays registered and runnable is served within
as many wakes as there are rows at the first of them; what was saved last stamps the rows of that
wake's registry densely, and no mirror holds anything newer; and a wake that reads two mirrors goes
on from the newer one. -/
theorem fair_rotation (localMirror sessionMirror : Option StoredCursor) (events : List TickEvent)
    (hkept : StepRun.Along tickStep TickCursorKept (.fresh localMirror sessionMirror) events) :
    (∀ history w window row, events = history ++ .wake w :: window →
      (∀ v, .wake v ∈ TickEvent.wake w :: window → row ∈ v.registry.targets ∧
        v.runnable row = true) →
      let wakes := servings (StepRun.exec tickStep (.fresh localMirror sessionMirror) history)
        (.wake w :: window)
      w.registry.targets.length ≤ wakes.length →
        some row ∈ wakes.take w.registry.targets.length) ∧
    (∀ history w window t, events = history ++ .wake w :: window →
      (StepRun.exec tickStep (.fresh localMirror sessionMirror) history).serves w = some t →
      (∀ served ∈ servings (StepRun.exec tickStep (.fresh localMirror sessionMirror)
        (history ++ [.wake w])) window, served = none) →
      let s := StepRun.exec tickStep (.fresh localMirror sessionMirror) events
      ∃ cursor, s.saved = some cursor ∧ DenseOver cursor w.registry ∧
        ∀ mirror ∈ [s.localMirror, s.sessionMirror],
          mirror = some cursor.stored ∨ OlderMirror mirror cursor) ∧
    (∀ history w window x y, events = history ++ .wake w :: window →
      let s := StepRun.exec tickStep (.fresh localMirror sessionMirror) history
      s.servedThisWorker = none → w.localReads = true → w.sessionReads = true →
      readTickCursor s.localMirror = some x → readTickCursor s.sessionMirror = some y →
        s.loadTickCursor w = some (if x.generation < y.generation then y else x)) := by
  refine ⟨?_, ?_, ?_⟩
  · rintro history w window row rfl hrow wakes hlength
    obtain ⟨hhistory, hwindow⟩ := (StepRun.along_append tickStep _ _ _ _).mp hkept
    have hnewest := newest_exec (newest_fresh localMirror sessionMirror) hhistory
    obtain ⟨hreg, hrun⟩ := hrow w List.mem_cons_self
    have hpos := List.length_pos_of_mem hreg
    obtain ⟨m, hm⟩ : ∃ m, w.registry.targets.length = m + 1 :=
      ⟨_, (Nat.succ_pred_eq_of_pos hpos).symm⟩
    rw [hm] at hlength ⊢
    simp only [wakes, servings, List.take_succ_cons, List.length_cons] at hlength ⊢
    rcases first_turn hreg hrun with hserved | ⟨n, hwait, hle⟩
    · rw [hserved]
      exact List.mem_cons_self
    · have hmem := served_within (newest_step hnewest hwindow.1) hwindow.2 hwait
        (fun v hv => hrow v (List.mem_cons_of_mem _ hv)) (by omega)
      exact List.mem_cons_of_mem _ ((List.take_sublist_take_left (by omega)).mem hmem)
  · rintro history w window t rfl hserves hidle s
    have hnewest := newest_exec (newest_fresh localMirror sessionMirror) hkept
    have hsaved : s.saved = (StepRun.exec tickStep (.fresh localMirror sessionMirror)
        (history ++ [.wake w])).saved := by
      have hsplit : history ++ .wake w :: window = (history ++ [.wake w]) ++ window := by simp
      simp only [s, hsplit, StepRun.exec_append tickStep _ (history ++ [.wake w]) window]
      exact saved_of_idle hidle
    rw [StepRun.exec_concat, step_serves hserves] at hsaved
    dsimp only at hsaved
    have hmirrors : Newest s := hnewest
    simp only [Newest, hsaved] at hmirrors
    exact ⟨_, hsaved, saveTickCursor_dense _ (servedRow_spec hserves).1, hmirrors.2.2⟩
  · rintro history w window x y rfl s hmemory hlocal hsession hx hy
    simp only [TickState.loadTickCursor, hmemory, hlocal, hsession, if_true, hx, hy]
    exact newerMirror_some x y

def twoRows : TickRegistry where
  targets := [⟨"chatgpt", "a"⟩, ⟨"claude", "b"⟩]
  nodup := by decide
  platforms := by decide

/-- The first row is gone, and a newcomer stands before the second. -/
def newcomerRows : TickRegistry where
  targets := [⟨"grok", "n"⟩, ⟨"claude", "b"⟩]
  nodup := by decide
  platforms := by decide

def twoRowsWake : TickWake := ⟨twoRows, fun _ => true, true, true, true, false⟩

def newcomerWake : TickWake := ⟨newcomerRows, fun _ => true, true, true, true, true⟩

theorem fair_rotation_newcomer :
    some ⟨"claude", "b"⟩ ∈ (servings (.fresh none none)
      [.wake twoRowsWake, .reclaimWorker, .wake newcomerWake]).take 2 := by
  have hkept : StepRun.Along tickStep TickCursorKept (.fresh none none)
      [.wake twoRowsWake, .reclaimWorker, .wake newcomerWake] := by
    refine ⟨.inr ⟨.inr rfl, .inr rfl⟩, trivial, ?_, trivial⟩
    have hb : (⟨"claude", "b"⟩ : BackfillTarget) ∈ twoRowsWake.registry.targets := by decide
    have hrun : twoRowsWake.runnable ⟨"claude", "b"⟩ = true := rfl
    obtain ⟨t, ht⟩ := servedRow_isSome ((TickState.fresh none none).loadTickCursor twoRowsWake)
      hb hrun
    have hstep := step_serves (s := .fresh none none) (w := twoRowsWake) ht
    rw [hstep]
    refine .inr (.inl ⟨rfl, ?_⟩)
    exact saveTickCursor_stored _ (servedRow_spec ht).1 (by decide) (by decide)
  refine (fair_rotation none none _ hkept).1 [] twoRowsWake
    [.reclaimWorker, .wake newcomerWake] ⟨"claude", "b"⟩ rfl ?_ le_rfl
  intro v hv
  have hv' : v = twoRowsWake ∨ v = newcomerWake := by simpa using hv
  rcases hv' with rfl | rfl
  · exact ⟨by decide, rfl⟩
  · exact ⟨by decide, rfl⟩

end Turns

end ChatStasher
