import ChatStasher.Backfill.LedgerSpec
import ChatStasher.Library.StepRun

/-! What a backfill finds when it is opened again, however its saves were cut. -/
namespace ChatStasher

/-- What the committed transactions of a scope amount to. -/
structure DebtBook where
  pending : List Ident
  archived : List Ident
  /-- Every id that a committed transaction has taken on. -/
  seen : List Ident
  /-- Ids that a committed transaction has let go and none has taken on since. -/
  dropped : List Ident
  /-- How many ids were added and removed since a header was last written. -/
  added : ℕ
  removed : ℕ
  deriving DecidableEq

namespace DebtBook

def held (book : DebtBook) : List Ident := book.pending ++ book.archived

/-- A transaction from what a run has in memory: an id that stays pending keeps its place, and a
new one comes last. -/
def commit (book : DebtBook) (state : BackfillState) (enqueued dropped : List Ident) :
    DebtBook where
  pending := book.pending.filter (fun id => id ∈ state.pending) ++
    state.pending.filter fun id => id ∉ book.pending
  archived := state.archived
  seen := book.seen ++ enqueued
  dropped := book.dropped.filter (fun id => id ∉ enqueued) ++ dropped
  added := book.added + (state.held.filter fun id => id ∉ book.held).length
  removed := book.removed + (book.held.filter fun id => id ∉ state.held).length

def headed (book : DebtBook) : DebtBook := { book with added := 0, removed := 0 }

end DebtBook

/-- A scope with its book, and what the open run has enqueued and dropped since it last
committed. -/
structure BookedSite where
  site : BackfillSite
  book : DebtBook
  enqueued : List Ident
  dropped : List Ident
  deriving DecidableEq

def BookedSite.fresh : BookedSite := ⟨.fresh, ⟨[], [], [], [], 0, 0⟩, [], []⟩

def bookedStep (key : ScopeKey) (s : BookedSite) (a : BackfillAction) : BookedSite :=
  let site := backfillStep key s.site a
  match a, s.site.session with
  | .enqueueDebts ids, some _ =>
    let ids := ids.filter fun id => id ≠ []
    ⟨site, s.book, s.enqueued ++ ids, s.dropped.filter fun id => id ∉ ids⟩
  | .settleDebt _, some _ => { s with site }
  | .dropDebt id, some (_, state) =>
    { s with site, dropped := if id ∈ state.pending then s.dropped ++ [id] else s.dropped }
  | .save .diesBetween, some (_, state) =>
    ⟨site, s.book.commit state s.enqueued s.dropped, [], []⟩
  | .save .completes, some (_, state) =>
    ⟨site, (s.book.commit state s.enqueued s.dropped).headed, [], []⟩
  | _, _ => ⟨site, s.book, [], []⟩

/-- The worker does not die in a save that has debts to write while the scope has no header. -/
def FirstHeaderUncut (s : BookedSite) : BackfillAction → Prop
  | .save .diesBetween => s.site.storage.header ≠ none ∨
      ∀ opened ∈ s.site.session, (opened.1.diffAgainst opened.2).isEmpty
  | _ => True

instance FirstHeaderUncut.decidable (s : BookedSite) :
    ∀ a, Decidable (FirstHeaderUncut s a)
  | .save .diesBetween => inferInstanceAs (Decidable (_ ∨ _))
  | .save .refused | .save .completes | .openLedger _ | .migrateOneLegacyKey _ | .enqueueDebts _
  | .settleDebt _ | .dropDebt _ | .kill => inferInstanceAs (Decidable True)

section Book
variable {book : DebtBook} {state : BackfillState}

lemma length_add_filter_not_mem {l l' : List Ident} (h : l.Nodup) (h' : l'.Nodup) :
    l'.length + (l.filter fun id => id ∉ l').length =
      l.length + (l'.filter fun id => id ∉ l).length := by
  have hcommon : (l.filter fun id => id ∈ l').length = (l'.filter fun id => id ∈ l).length := by
    refine List.Perm.length_eq ((List.perm_ext_iff_of_nodup (h.filter _) (h'.filter _)).mpr fun id => ?_)
    simp [and_comm]
  have hl : l.length = (l.filter fun id => id ∈ l').length + (l.filter fun id => id ∉ l').length := by
    simpa using List.length_eq_length_filter_add (l := l) fun id => decide (id ∈ l')
  have hl' : l'.length = (l'.filter fun id => id ∈ l).length + (l'.filter fun id => id ∉ l).length := by
    simpa using List.length_eq_length_filter_add (l := l') fun id => decide (id ∈ l)
  omega

lemma DebtBook.commit_pending_perm (hbook : book.pending.Nodup) (hstate : state.pending.Nodup)
    (enqueued dropped : List Ident) :
    (book.commit state enqueued dropped).pending.Perm state.pending :=
  filter_mem_append_perm hbook hstate

lemma DebtBook.commit_held_perm (hbook : book.pending.Nodup) (hstate : state.pending.Nodup)
    (enqueued dropped : List Ident) :
    (book.commit state enqueued dropped).held.Perm state.held :=
  (commit_pending_perm hbook hstate enqueued dropped).append_right _

lemma DebtBook.commit_balance (hbook : book.pending.Nodup) (hheld : book.held.Nodup)
    (hstate : state.Sound) (enqueued dropped : List Ident) :
    let next := book.commit state enqueued dropped
    next.held.length + next.removed + book.added = book.held.length + book.removed + next.added := by
  intro next
  have hnodup : state.held.Nodup := List.Nodup.append hstate.pending hstate.archived
    fun id hp ha => hstate.apart id hp ha
  have hlength := length_add_filter_not_mem hheld hnodup
  have hnext := (commit_held_perm hbook hstate.pending enqueued dropped).length_eq
  simp only [next, hnext]
  simp only [commit]
  omega

end Book

section Invariant

/-- What the open run has taken on or let go since it last committed is in its memory. -/
structure RunAccounted (s : BookedSite) (state : BackfillState) : Prop where
  enqueued : ∀ id ∈ s.enqueued, id ∈ state.held ∨ id ∈ s.dropped
  held : ∀ id ∈ s.book.held, id ∈ state.held ∨ id ∈ s.dropped

/-- The store holds what the book says, and the header lags it by the book's balance. -/
structure Booked (s : BookedSite) : Prop where
  legacy : s.site.storage.legacy = none
  rows : RowsOrdered s.site.storage.rows
  pending : idsIn .pending s.site.storage.rows = s.book.pending
  archived : idsIn .archived s.site.storage.rows = s.book.archived
  unheaded : s.site.storage.header = none →
    s.site.storage.rows = [] ∧ s.book.added = 0 ∧ s.book.removed = 0
  header : ∀ h ∈ s.site.storage.header,
    h.pendingCount + h.archivedCount + s.book.added = s.book.held.length + s.book.removed
  session : ∀ opened ∈ s.site.session,
    Tracks s.site.storage.rows opened.1 opened.2 ∧ RunAccounted s opened.2
  seen : ∀ id ∈ s.book.seen, id ∉ s.book.dropped → id ∈ s.book.held

variable {s : BookedSite}

lemma Booked.fresh : Booked .fresh :=
  ⟨rfl, ⟨List.Pairwise.nil, List.nodup_nil⟩, rfl, rfl, fun _ => ⟨rfl, rfl, rfl⟩,
    by simp [BookedSite.fresh, BackfillSite.fresh], by simp [BookedSite.fresh, BackfillSite.fresh], by simp [BookedSite.fresh]⟩

lemma Booked.ended (h : Booked s) : Booked ⟨{ s.site with session := none }, s.book, [], []⟩ :=
  { h with session := by simp }

lemma Booked.begun (h : Booked s) {ledger : Ledger} {state : BackfillState}
    (htracks : Tracks s.site.storage.rows ledger state)
    (hpending : state.pending = s.book.pending) (harchived : state.archived = s.book.archived) :
    Booked ⟨{ s.site with session := some (ledger, state) }, s.book, [], []⟩ where
  __ := h
  session := by
    rintro opened ⟨⟩
    refine ⟨htracks, by simp, fun id hid => Or.inl ?_⟩
    rwa [BackfillState.held, hpending, harchived]

lemma Booked.readDebtSet_eq (h : Booked s) : (readDebtSet s.site.storage.rows).pending = s.book.pending ∧
    (readDebtSet s.site.storage.rows).archived = s.book.archived := by
  rw [readDebtSet_sorted h.rows.sorted]
  exact ⟨h.pending, h.archived⟩

lemma Booked.openLedger_spec (h : Booked s) (key : ScopeKey) (cut : Option Interrupt) :
    (openLedger key cut s.site.storage).1 = s.site.storage ∧
      ∀ ledger state, (openLedger key cut s.site.storage).2 = .opened ledger state →
        Tracks s.site.storage.rows ledger state ∧
          state.pending = s.book.pending ∧ state.archived = s.book.archived := by
  have hsnapshot := h.readDebtSet_eq
  unfold openLedger
  split
  · exact ⟨rfl, by simp⟩
  · split
    next header hheader =>
      refine ⟨rfl, fun ledger state hopened => ?_⟩
      dsimp only [openHeaderLedger] at hopened
      split at hopened
      · cases hopened
      · split at hopened
        · cases hopened
        · cases hopened
          exact ⟨tracks_of_readDebtSet h.rows, hsnapshot⟩
    next hheader =>
      have hnil := (h.unheaded hheader).1
      rw [openFromLegacy, h.legacy]
      split
      · exact ⟨rfl, by simp⟩
      · refine ⟨rfl, fun ledger state hopened => ?_⟩
        cases hopened
        rw [← h.pending, ← h.archived, hnil]
        exact ⟨tracks_nil, rfl, rfl⟩

/-- With storage that answers, opening fails exactly when more was removed than added since the
header was written, and says how many ids are missing. -/
lemma Booked.openLedger_eq (h : Booked s) (key : ScopeKey) :
    (s.book.removed ≤ s.book.added → ∃ ledger, openLedger key none s.site.storage =
      (s.site.storage, .opened ledger ⟨s.book.pending, s.book.archived⟩)) ∧
    (s.book.added < s.book.removed → ∃ header loss, s.site.storage.header = some header ∧
      loss.missing = s.book.removed - s.book.added ∧
      openLedger key none s.site.storage = (s.site.storage, .refused ⟨.ledgerMismatch,
        debtLossDetail key header (readDebtSet s.site.storage.rows) loss⟩)) := by
  obtain ⟨hpending, harchived⟩ := h.readDebtSet_eq
  cases hheader : s.site.storage.header with
  | none =>
    obtain ⟨hnil, hadded, hremoved⟩ := h.unheaded hheader
    refine ⟨fun _ => ⟨⟨[], [], 1⟩, ?_⟩, fun hlt => by omega⟩
    rw [openLedger, hheader, ← h.pending, ← h.archived, hnil]
    simp only [openFromLegacy, h.legacy]
    rfl
  | some header =>
    have hcounts := h.header header hheader
    have hheld : s.book.held.length = s.book.pending.length + s.book.archived.length :=
      List.length_append
    have hopen : openLedger key none s.site.storage =
        (s.site.storage, openHeaderLedger key none s.site.storage header) := by
      rw [openLedger, hheader]
      rfl
    have hstops : stopsAt none .readDebts = false := rfl
    rw [hopen]
    simp only [openHeaderLedger, hstops, debtLossBetween, hpending, harchived,
      Bool.false_eq_true, if_false]
    constructor
    · intro hle
      rw [if_pos (by omega)]
      exact ⟨_, rfl⟩
    · intro hlt
      rw [if_neg (by omega)]
      refine ⟨header, _, rfl, ?_, rfl⟩
      dsimp only
      omega

lemma Booked.committed (h : Booked s) {ledger : Ledger} {state : BackfillState}
    (hsession : s.site.session = some (ledger, state)) :
    let rows := savedRows s.site.storage.rows ledger state
    let book := s.book.commit state s.enqueued s.dropped
    RowsOrdered rows ∧ Tracks rows (savedLedger ledger state) state ∧
      idsIn .pending rows = book.pending ∧ idsIn .archived rows = book.archived ∧
      (book.held.length + book.removed + s.book.added =
        s.book.held.length + s.book.removed + book.added) ∧
      book.held.Perm state.held ∧ ∀ id ∈ book.seen, id ∉ book.dropped → id ∈ book.held := by
  intro rows book
  obtain ⟨htracks, haccounted⟩ := h.session _ hsession
  have hpending : s.book.pending.Nodup := h.pending ▸ h.rows.idsIn_nodup _
  have harchived : s.book.archived.Nodup := h.archived ▸ h.rows.idsIn_nodup _
  have hapart : s.book.pending.Disjoint s.book.archived := by
    rw [← h.pending, ← h.archived]
    exact fun id hp ha => h.rows.apart hp ha
  have hperm : book.held.Perm state.held :=
    DebtBook.commit_held_perm hpending htracks.sound.pending _ _
  refine ⟨(savedRows_ordered h.rows htracks).1, savedLedger_tracks h.rows htracks, ?_,
    savedRows_archived h.rows htracks, ?_, hperm, fun id hseen hkept => ?_⟩
  · rw [savedRows_pending h.rows htracks, h.pending]
    rfl
  · exact DebtBook.commit_balance hpending (hpending.append harchived hapart) htracks.sound _ _
  · rw [hperm.mem_iff]
    simp only [book, DebtBook.commit, List.mem_append, List.mem_filter, decide_eq_true_eq,
      not_or, not_and, not_not] at hseen hkept
    by_cases hnew : id ∈ s.enqueued
    · exact (haccounted.enqueued id hnew).resolve_right hkept.2
    · have hheld := h.seen id (hseen.resolve_right hnew) fun hdropped => hnew (hkept.1 hdropped)
      exact (haccounted.held id hheld).resolve_right hkept.2

lemma bookedStep_save (h : Booked s) (key : ScopeKey) (fate : SaveFate)
    (hok : FirstHeaderUncut s (.save fate)) : Booked (bookedStep key s (.save fate)) := by
  obtain ⟨⟨storage, session⟩, book, enqueued, dropped⟩ := s
  cases session with
  | none => cases fate <;> exact h.ended
  | some opened =>
    obtain ⟨ledger, state⟩ := opened
    obtain ⟨hrows, htracks, hpending, harchived, hbalance, hperm, hseen⟩ := h.committed rfl
    dsimp only at hrows htracks hpending harchived hbalance hperm hseen
    simp only [bookedStep, backfillStep, saveLedger_eq]
    cases fate with
    | refused => exact h.ended
    | completes =>
      exact
        { legacy := h.legacy
          rows := hrows
          pending := hpending
          archived := harchived
          unheaded := by simp
          header := by
            rintro header ⟨⟩
            have hlength := hperm.length_eq
            simp only [headerOf, DebtBook.headed, DebtBook.held, BackfillState.held,
              List.length_append] at hlength ⊢
            omega
          session := by
            rintro opened ⟨⟩
            exact ⟨htracks, by simp, fun id hid => Or.inl (hperm.mem_iff.mp hid)⟩
          seen := hseen }
    | diesBetween =>
      exact
        { legacy := h.legacy
          rows := hrows
          pending := hpending
          archived := harchived
          unheaded := by
            intro hheader
            obtain ⟨hnil, hadded, hremoved⟩ := h.unheaded hheader
            have hempty : (ledger.diffAgainst state).isEmpty :=
              hok.resolve_left (not_not.mpr hheader) _ rfl
            have hsaved : savedRows storage.rows ledger state = [] := (if_pos hempty).trans hnil
            have hcommitted : (book.commit state enqueued dropped).held = [] := by
              rw [DebtBook.held, ← hpending, ← harchived, hsaved]
              rfl
            have hstate : state.held = [] := (hcommitted ▸ hperm).symm.eq_nil
            have hbook : book.held = [] := by
              rw [DebtBook.held, ← h.pending, ← h.archived, hnil]
              rfl
            exact ⟨hsaved, by simp [DebtBook.commit, hstate, show book.added = 0 from hadded],
              by simp [DebtBook.commit, hbook, show book.removed = 0 from hremoved]⟩
          header := by
            intro header hheader
            have hlag := h.header header hheader
            dsimp only at hlag ⊢
            omega
          session := by simp
          seen := hseen }

lemma Booked.remembered (h : Booked s) {ledger : Ledger} {state : BackfillState}
    {enqueued dropped : List Ident} (htracks : Tracks s.site.storage.rows ledger state)
    (haccounted : RunAccounted { s with enqueued, dropped } state) :
    Booked ⟨{ s.site with session := some (ledger, state) }, s.book, enqueued, dropped⟩ where
  __ := h
  session := by
    rintro opened ⟨⟩
    exact ⟨htracks, haccounted.enqueued, haccounted.held⟩

theorem bookedStep_booked (h : Booked s) (key : ScopeKey) (a : BackfillAction)
    (hok : FirstHeaderUncut s a) : Booked (bookedStep key s a) := by
  cases a with
  | save fate => exact bookedStep_save h key fate hok
  | openLedger cut =>
    obtain ⟨hstorage, hopened⟩ := h.openLedger_spec key cut
    simp only [bookedStep, backfillStep]
    split
    next storage ledger state heq =>
      rw [heq] at hstorage hopened
      obtain rfl : storage = s.site.storage := hstorage
      obtain ⟨htracks, hpending, harchived⟩ := hopened ledger state rfl
      exact h.begun htracks hpending harchived
    next storage outcome _ heq =>
      rw [heq] at hstorage
      obtain rfl : storage = s.site.storage := hstorage
      exact h.ended
  | migrateOneLegacyKey cut =>
    have hsame : migrateOneLegacyKey key cut s.site.storage = s.site.storage := by
      rw [migrateOneLegacyKey, h.legacy]
    simp only [bookedStep, backfillStep, hsame]
    exact h.ended
  | kill => exact h.ended
  | enqueueDebts ids =>
    obtain ⟨⟨storage, session⟩, book, enqueued, dropped⟩ := s
    cases session with
    | none => exact h.ended
    | some opened =>
      obtain ⟨htracks, haccounted⟩ := h.session _ rfl
      have hkept : ∀ x, x ∈ opened.2.held ∨ x ∈ dropped → x ∈ (enqueueDebts opened.2 ids).1.held ∨
          x ∈ dropped.filter fun id => id ∉ ids.filter fun id => id ≠ [] := by
        intro x hx
        by_cases hnew : x ∈ ids.filter fun id => id ≠ []
        · exact Or.inl ((held_enqueueDebts _ _).mpr (Or.inr hnew))
        · exact hx.imp (fun hin => (held_enqueueDebts _ _).mpr (Or.inl hin))
            fun hin => List.mem_filter.mpr ⟨hin, decide_eq_true hnew⟩
      refine h.remembered (htracks.enqueueDebts ids)
        ⟨fun x hx => ?_, fun x hx => hkept x (haccounted.held x hx)⟩
      rcases List.mem_append.mp hx with hx | hx
      · exact hkept x (haccounted.enqueued x hx)
      · exact Or.inl ((held_enqueueDebts _ _).mpr (Or.inr hx))
  | settleDebt id =>
    obtain ⟨⟨storage, session⟩, book, enqueued, dropped⟩ := s
    cases session with
    | none => exact h.ended
    | some opened =>
      obtain ⟨htracks, haccounted⟩ := h.session _ rfl
      exact h.remembered (htracks.settleDebt id)
        ⟨fun id hid => (haccounted.enqueued id hid).imp_left held_settleDebt,
          fun id hid => (haccounted.held id hid).imp_left held_settleDebt⟩
  | dropDebt id =>
    obtain ⟨⟨storage, session⟩, book, enqueued, dropped⟩ := s
    cases session with
    | none => exact h.ended
    | some opened =>
      obtain ⟨htracks, haccounted⟩ := h.session _ rfl
      have hkept : ∀ x, x ∈ opened.2.held ∨ x ∈ dropped → x ∈ (dropDebt opened.2 id).held ∨
          x ∈ if id ∈ opened.2.pending then dropped ++ [id] else dropped := by
        rintro x (hx | hx)
        · refine (held_dropDebt hx).imp_right fun ⟨heq, hin⟩ => ?_
          rw [if_pos hin, heq]
          exact List.mem_append_right _ List.mem_cons_self
        · right
          split
          · exact List.mem_append_left _ hx
          · exact hx
      exact h.remembered (htracks.dropDebt id)
        ⟨fun x hx => hkept x (haccounted.enqueued x hx), fun x hx => hkept x (haccounted.held x hx)⟩

lemma bookedStep_archived (h : Booked s) (key : ScopeKey) (a : BackfillAction) :
    s.book.archived <+: (bookedStep key s a).book.archived := by
  obtain ⟨⟨storage, session⟩, book, enqueued, dropped⟩ := s
  cases session with
  | none =>
    cases a with
    | save fate => cases fate <;> exact List.prefix_refl _
    | _ => exact List.prefix_refl _
  | some opened =>
    have hkept : book.archived <+: opened.2.archived := by
      obtain ⟨htracks, -⟩ := h.session _ rfl
      have hstore : opened.1.archived = book.archived := htracks.archived.trans h.archived
      exact hstore ▸ htracks.kept
    cases a with
    | save fate =>
      cases fate with
      | refused => exact List.prefix_refl _
      | completes => exact hkept
      | diesBetween => exact hkept
    | _ => exact List.prefix_refl _

end Invariant

section Runs

/-- While no save dies before the scope's first header, opening again gives what the committed
transactions amount to, unless they removed more ids than they added since a header was written. -/
theorem resumes_from_last_transaction (key : ScopeKey) (actions more : List BackfillAction)
    (h : StepRun.Along (bookedStep key) FirstHeaderUncut .fresh (actions ++ more)) :
    let s := StepRun.exec (bookedStep key) .fresh actions
    let t := StepRun.exec (bookedStep key) .fresh (actions ++ more)
    (s.book.removed ≤ s.book.added → ∃ ledger, openLedger key none s.site.storage =
      (s.site.storage, .opened ledger ⟨s.book.pending, s.book.archived⟩)) ∧
    (s.book.added < s.book.removed → ∃ header loss, s.site.storage.header = some header ∧
      loss.missing = s.book.removed - s.book.added ∧
      openLedger key none s.site.storage = (s.site.storage, .refused ⟨.ledgerMismatch,
        debtLossDetail key header (readDebtSet s.site.storage.rows) loss⟩)) ∧
    (∀ id ∈ s.book.seen, id ∉ s.book.dropped →
      Xor (id ∈ s.book.pending) (id ∈ s.book.archived)) ∧
    ∀ id ∈ s.book.archived, id ∈ t.book.archived ∧ id ∉ t.book.pending ∧
      ∀ opened ∈ t.site.session, id ∉ opened.2.pending := by
  intro s t
  obtain ⟨hfirst, hrest⟩ := (StepRun.along_append ..).mp h
  have hkeep : ∀ u a, Booked u → FirstHeaderUncut u a → Booked (bookedStep key u a) :=
    fun u a hu hok => bookedStep_booked hu key a hok
  have hs : Booked s := StepRun.invariant hkeep .fresh hfirst
  have ht : Booked t := StepRun.invariant hkeep .fresh h
  have happart : ∀ {u : BookedSite}, Booked u → ∀ id ∈ u.book.archived, id ∉ u.book.pending := by
    intro u hu id harchived hpending
    rw [← hu.archived] at harchived
    rw [← hu.pending] at hpending
    exact hu.rows.apart hpending harchived
  obtain ⟨hopen, hrefused⟩ := hs.openLedger_eq key
  refine ⟨hopen, hrefused, fun id hseen hkept => ?_, fun id hid => ?_⟩
  · rcases List.mem_append.mp (hs.seen id hseen hkept) with hpending | harchived
    · exact Or.inl ⟨hpending, fun harchived => happart hs id harchived hpending⟩
    · exact Or.inr ⟨harchived, happart hs id harchived⟩
  · have hgrows : s.book.archived <+: t.book.archived := by
      have hstep : ∀ u a, Booked u → FirstHeaderUncut u a →
          Booked (bookedStep key u a) ∧ u.book.archived <+: (bookedStep key u a).book.archived :=
        fun u a hu hok => ⟨hkeep u a hu hok, bookedStep_archived hu key a⟩
      have hrun := StepRun.relates (R := fun u v : BookedSite => u.book.archived <+: v.book.archived)
        (fun _ => List.prefix_refl _) (fun _ _ _ h h' => h.trans h') hstep hs hrest
      rwa [← StepRun.exec_append] at hrun
    have hin := hgrows.subset hid
    refine ⟨hin, happart ht id hin, fun opened hopened hpending => ?_⟩
    obtain ⟨htracks, -⟩ := ht.session opened hopened
    refine htracks.sound.apart id hpending (htracks.kept.subset ?_)
    rwa [htracks.archived, ht.archived]

/-- A run cut between a settle's transaction and its header. -/
theorem resumes_after_cut_settle :
    let key : ScopeKey := ⟨"chatgpt", "default"⟩
    let actions : List BackfillAction := [.openLedger none, .enqueueDebts [['a'], ['b']],
      .save .completes, .settleDebt ['a'], .save .diesBetween]
    let more : List BackfillAction := [.openLedger none, .enqueueDebts [['a'], ['c']],
      .save .completes]
    let s := StepRun.exec (bookedStep key) .fresh actions
    (∃ ledger, openLedger key none s.site.storage =
      (s.site.storage, .opened ledger ⟨[['b']], [['a']]⟩)) ∧
      ['a'] ∉ (StepRun.exec (bookedStep key) .fresh (actions ++ more)).book.pending := by
  intro key actions more s
  obtain ⟨hopen, -, -, harchived⟩ := resumes_from_last_transaction key actions more
    (by decide +kernel)
  have hpending : s.book.pending = [['b']] := by decide +kernel
  have hsettled : s.book.archived = [['a']] := by decide +kernel
  have hle : s.book.removed ≤ s.book.added := by decide +kernel
  have hin : ['a'] ∈ s.book.archived := by decide +kernel
  obtain ⟨ledger, hledger⟩ := hopen hle
  rw [hpending, hsettled] at hledger
  exact ⟨⟨ledger, hledger⟩, (harchived _ hin).2.1⟩

/-- A first save that dies is forgotten, though its debts are in the store; an id dropped and
enqueued again within one save keeps its place, and between two it does not; and ids that an
earlier transaction added hide those a cut save removed. -/
theorem resume_departs_from_last_transaction :
    let key : ScopeKey := ⟨"chatgpt", "default"⟩
    let run (actions : List BackfillAction) := (StepRun.exec (bookedStep key) .fresh actions).site
    let reopened (actions : List BackfillAction) :=
      match (openLedger key none (run actions).storage).2 with
      | .opened _ state => some state
      | _ => none
    let begun : List BackfillAction := [.openLedger none, .enqueueDebts [['a'], ['b']]]
    let again := begun ++ [.save .completes, .dropDebt ['a'], .enqueueDebts [['a']], .save .completes]
    let later := begun ++
      [.save .completes, .dropDebt ['a'], .save .completes, .enqueueDebts [['a']], .save .completes]
    let hidden := [.openLedger none, .save .completes] ++ begun ++
      [.save .diesBetween, .openLedger none, .dropDebt ['a'], .save .diesBetween]
    (reopened (begun ++ [.save .diesBetween]) = some ⟨[], []⟩ ∧
      idsIn .pending (run (begun ++ [.save .diesBetween])).storage.rows = [['a'], ['b']]) ∧
    ((run again).session.map (fun opened => opened.2.pending) = some [['b'], ['a']] ∧
      reopened again = some ⟨[['a'], ['b']], []⟩) ∧
    reopened later = some ⟨[['b'], ['a']], []⟩ ∧
    reopened hidden = some ⟨[['b']], []⟩ := by
  decide +kernel

end Runs

end ChatStasher
