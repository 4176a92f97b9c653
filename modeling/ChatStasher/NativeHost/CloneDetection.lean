import ChatStasher.Library.Sorting
import ChatStasher.Library.StepRun
import ChatStasher.NativeHost.Coordination

/-! The fold of a report's sequence and nonce into the identity of its install. -/
namespace ChatStasher.NativeHost

/-- What one `(report_seq, report_nonce)` observation did to the record. -/
inductive SeqObservation
  | unknown
  | retry (seq : ℕ)
  | recorded (seq : ℕ) (first : Bool)
  | unjudged (seq : ℕ)
  | conflict (seq : ℕ)
  deriving DecidableEq

structure IdentityRecord where
  lastReportSeq : Option ℕ
  identityConflict : Bool
  deriving DecidableEq

abbrev SeqRows := List ((IdentityKey × ℕ) × SeqRow)

def identitySeqWindow : ℕ := 64

def seqsOf (seqs : SeqRows) (key : IdentityKey) : List ℕ :=
  (seqs.filter fun e => e.1.1 = key).map fun e => e.1.2

/-- A sequence against the recorded ones: what is recorded after it, and what it showed. `first` says
that no sequence was known before. -/
def observeSeq (seqs : SeqRows) (key : IdentityKey) (seq : Option ℕ) (nonce : Option Ident)
    (now : ℤ) (first : Bool) : SeqRows × SeqObservation :=
  match seq with
  | none => (seqs, .unknown)
  | some value =>
    match seqs.lookup (key, value) with
    | some stored =>
      match stored.nonce, nonce with
      | some recorded, some arriving =>
        if recorded ≠ arriving then (seqs, .conflict value) else (seqs, .retry value)
      -- The sequence is known but its nonce was never sent: it is learned rather than judged.
      | none, some arriving =>
        (KeyedList.put seqs ((key, value), ⟨some arriving, now⟩), .retry value)
      | _, none => (seqs, .retry value)
    | none =>
      if (seqsOf seqs key).min?.any fun floor => decide (value < floor) then
        (seqs, .unjudged value)
      else (KeyedList.put seqs ((key, value), ⟨nonce, now⟩), .recorded value first)

def pruneWindow (seqs : SeqRows) (key : IdentityKey) : SeqRows :=
  let window := TopN.topN identitySeqWindow (seqsOf seqs key)
  seqs.filter fun e => decide (e.1.1 ≠ key) || decide (e.1.2 ∈ window)

def identityAfter (existing : Option IdentityRow) (observation : SeqObservation) (now : ℤ) :
    IdentityRow :=
  let previous := existing.bind fun row => row.lastReportSeq
  let wasConflicted := existing.any fun row => row.identityConflict
  let (next, conflicted, evidence) :=
    match observation with
    | .unknown | .retry _ | .unjudged _ => (previous, wasConflicted, none)
    | .recorded seq _ => (some ((previous.map fun previous => max previous seq).getD seq),
        wasConflicted, none)
    | .conflict value => (previous, true, some value)
  let firstConflictAt := existing.bind fun row => row.conflictAt
  { lastReportSeq := next <|> previous
    identityConflict := conflicted
    conflictAt := if conflicted then firstConflictAt <|> some now else none
    conflictEvidence := evidence <|> existing.bind fun row => row.conflictEvidence
    seenAt := now }

def recordReportSeq (db : StateDb) (key : IdentityKey) (seq : Option ℕ) (nonce : Option Ident)
    (now : ℤ) : StateDb × IdentityRecord × SeqObservation :=
  let existing := db.identities.lookup key
  let (seqs, observation) := observeSeq db.seqs key seq nonce now
    (existing.bind fun row => row.lastReportSeq).isNone
  let row := identityAfter existing observation now
  let identities := (KeyedList.put db.identities (key, row)).filter fun e =>
    e.2.identityConflict || decide (now - 30 * dayMs < e.2.seenAt)
  let seqs := (pruneWindow seqs key).filter fun e => (identities.lookup e.1.1).isSome
  ({ db with identities, seqs }, ⟨row.lastReportSeq, row.identityConflict⟩, observation)

end ChatStasher.NativeHost

/-! Clone detection: only two nonces under one sequence accuse an install, a sequence still in the
window never escapes, and a flag stays. -/
namespace ChatStasher.NativeHost

structure ReportCall where
  key : IdentityKey
  seq : Option ℕ
  nonce : Option Ident
  now : ℤ

def reportStep (db : StateDb) (call : ReportCall) : StateDb :=
  (recordReportSeq db call.key call.seq call.nonce call.now).1

section Tables
variable {db : StateDb} {call : ReportCall} {key : IdentityKey}

/-- The primary keys of the identity tables. -/
structure Keyed (db : StateDb) : Prop where
  identities : (db.identities.map Prod.fst).Nodup
  seqs : (db.seqs.map Prod.fst).Nodup

lemma keyed_empty : Keyed StateDb.empty := ⟨List.nodup_nil, List.nodup_nil⟩

def observed (db : StateDb) (call : ReportCall) : SeqRows × SeqObservation :=
  observeSeq db.seqs call.key call.seq call.nonce call.now
    ((db.identities.lookup call.key).bind fun row => row.lastReportSeq).isNone

lemma observed_cases (db : StateDb) (call : ReportCall) :
    (observed db call).1 = db.seqs ∨ ∃ value, call.seq = some value ∧
      (observed db call).1 = KeyedList.put db.seqs ((call.key, value), ⟨call.nonce, call.now⟩) := by
  unfold observed observeSeq
  cases call.seq with
  | none => exact Or.inl rfl
  | some value =>
    dsimp only
    split
    · split
      · split <;> exact Or.inl rfl
      next arriving _ hnonce => exact Or.inr ⟨value, rfl, by rw [hnonce]⟩
      · exact Or.inl rfl
    · split
      · exact Or.inl rfl
      · exact Or.inr ⟨value, rfl, rfl⟩

lemma observed_nodup (h : Keyed db) (call : ReportCall) :
    ((observed db call).1.map Prod.fst).Nodup := by
  rcases observed_cases db call with heq | ⟨value, -, heq⟩
  · rw [heq]
    exact h.seqs
  · rw [heq]
    exact KeyedList.put_nodup h.seqs

lemma Keyed.step (h : Keyed db) (call : ReportCall) : Keyed (reportStep db call) where
  identities := (KeyedList.put_nodup h.identities).sublist (List.filter_sublist.map _)
  seqs := (observed_nodup h call).sublist
    ((List.filter_sublist.trans List.filter_sublist).map Prod.fst)

lemma Keyed.run (h : Keyed db) (calls : List ReportCall) :
    Keyed (StepRun.exec reportStep db calls) := by
  have hstep : ∀ (db : StateDb) (call : ReportCall), Keyed db → Keyed (reportStep db call) :=
    fun _ call h => h.step call
  exact StepRun.invariant_all hstep h calls

lemma reportStep_identities (h : Keyed db) (call : ReportCall) (key : IdentityKey) :
    (reportStep db call).identities.lookup key =
      (if key = call.key then some (identityAfter (db.identities.lookup call.key)
        (observed db call).2 call.now) else db.identities.lookup key).filter fun row =>
          row.identityConflict || decide (call.now - 30 * dayMs < row.seenAt) := by
  change List.lookup key (List.filter _ (KeyedList.put db.identities _)) = _
  rw [KeyedList.lookup_filter (KeyedList.put_nodup h.identities), KeyedList.lookup_put]
  rfl

lemma reportStep_identity_self (h : Keyed db) (call : ReportCall) :
    (reportStep db call).identities.lookup call.key = some (identityAfter
      (db.identities.lookup call.key) (observed db call).2 call.now) := by
  rw [reportStep_identities h, if_pos rfl, Option.filter_some, if_pos]
  have hrecent : call.now - 30 * dayMs < call.now := by
    rw [dayMs]
    omega
  simp [identityAfter, hrecent]

lemma reportStep_identity_other (h : Keyed db) (hkey : key ≠ call.key) :
    (reportStep db call).identities.lookup key = (db.identities.lookup key).filter fun row =>
      row.identityConflict || decide (call.now - 30 * dayMs < row.seenAt) := by
  rw [reportStep_identities h, if_neg hkey]

lemma mem_reportStep_seqs {e : (IdentityKey × ℕ) × SeqRow} (he : e ∈ (reportStep db call).seqs) :
    e ∈ (observed db call).1 :=
  List.mem_of_mem_filter (List.mem_of_mem_filter he)

lemma reportStep_seqs (h : Keyed db) (call : ReportCall) {key : IdentityKey}
    (hkey : ((reportStep db call).identities.lookup key).isSome) (value : ℕ) :
    (reportStep db call).seqs.lookup (key, value) =
      (pruneWindow (observed db call).1 call.key).lookup (key, value) := by
  have hnodup : ((pruneWindow (observed db call).1 call.key).map Prod.fst).Nodup :=
    (observed_nodup h call).sublist (List.filter_sublist.map _)
  change List.lookup (key, value) (List.filter (fun e => ((reportStep db call).identities.lookup
    e.1.1).isSome) (pruneWindow (observed db call).1 call.key)) = _
  rw [KeyedList.lookup_filter hnodup]
  simp only [hkey]
  cases (pruneWindow (observed db call).1 call.key).lookup (key, value) <;> rfl

lemma reportStep_seqsOf (call : ReportCall) {key : IdentityKey}
    (hkey : ((reportStep db call).identities.lookup key).isSome) :
    seqsOf (reportStep db call).seqs key = seqsOf (pruneWindow (observed db call).1 call.key) key := by
  change seqsOf (List.filter (fun e => ((reportStep db call).identities.lookup e.1.1).isSome) _) key = _
  rw [seqsOf, List.filter_filter, seqsOf]
  congr 1
  refine List.filter_congr fun e _ => ?_
  by_cases he : e.1.1 = key
  · simp [he, hkey]
  · simp [he]

end Tables

section Flags
variable {db : StateDb} {call : ReportCall} {key : IdentityKey}

lemma identityAfter_identityConflict (existing : Option IdentityRow) (observation : SeqObservation)
    (now : ℤ) : (identityAfter existing observation now).identityConflict = true ↔
      (existing.any fun row => row.identityConflict) = true ∨
        ∃ value, observation = .conflict value := by
  cases observation <;> simp [identityAfter]

lemma Keyed.identityConflict_step (h : Keyed db) (call : ReportCall)
    (hflag : db.identityConflict key = true) :
    (reportStep db call).identityConflict key = true := by
  rw [StateDb.identityConflict] at hflag ⊢
  by_cases hkey : key = call.key
  · subst hkey
    rw [reportStep_identity_self h, Option.any_some, identityAfter_identityConflict]
    exact Or.inl hflag
  · rw [reportStep_identity_other h hkey]
    cases hrow : db.identities.lookup key with
    | none => simp [hrow] at hflag
    | some row =>
      rw [hrow, Option.any_some] at hflag
      simp [hflag]

lemma Keyed.identityConflict_run (h : Keyed db) (calls : List ReportCall)
    (hflag : db.identityConflict key = true) :
    (StepRun.exec reportStep db calls).identityConflict key = true := by
  have hstep : ∀ (db : StateDb) (call : ReportCall),
      (Keyed db ∧ db.identityConflict key = true) →
        Keyed (reportStep db call) ∧ (reportStep db call).identityConflict key = true :=
    fun _ call h => ⟨h.1.step call, h.1.identityConflict_step call h.2⟩
  exact (StepRun.invariant_all hstep ⟨h, hflag⟩ calls).2

lemma Keyed.identityConflict_of_step (h : Keyed db)
    (hflag : (reportStep db call).identityConflict key = true) :
    db.identityConflict key = true ∨ key = call.key ∧ ∃ value recorded arriving seenAt,
      call.seq = some value ∧ call.nonce = some arriving ∧ recorded ≠ arriving ∧
        ((key, value), ⟨some recorded, seenAt⟩) ∈ db.seqs := by
  rw [StateDb.identityConflict] at hflag ⊢
  by_cases hkey : key = call.key
  · subst hkey
    rw [reportStep_identity_self h, Option.any_some, identityAfter_identityConflict] at hflag
    refine hflag.imp_right ?_
    rintro ⟨value, hconflict⟩
    refine ⟨rfl, ?_⟩
    unfold observed observeSeq at hconflict
    cases hseq : call.seq with
    | none => simp [hseq] at hconflict
    | some sent =>
      rw [hseq] at hconflict
      dsimp only at hconflict
      split at hconflict
      next stored hstored =>
        split at hconflict
        next recorded arriving hrecorded hnonce =>
          split at hconflict
          next hne =>
            refine ⟨sent, recorded, arriving, stored.seenAt, rfl, hnonce, hne, ?_⟩
            rw [← hrecorded]
            exact (KeyedList.lookup_eq_some_iff_mem h.seqs).mp hstored
          next => cases hconflict
        next => cases hconflict
        next => cases hconflict
      next => split at hconflict <;> cases hconflict
  · left
    rw [reportStep_identity_other h hkey] at hflag
    cases hrow : db.identities.lookup key with
    | none => simp [hrow] at hflag
    | some row =>
      rw [hrow, Option.filter_some] at hflag
      split at hflag
      · exact hflag
      · cases hflag

def NoncesSent (db : StateDb) (sent : List ReportCall) : Prop :=
  ∀ key value nonce seenAt, ((key, value), (⟨some nonce, seenAt⟩ : SeqRow)) ∈ db.seqs →
    ∃ c ∈ sent, c.key = key ∧ c.seq = some value ∧ c.nonce = some nonce

lemma NoncesSent.step {sent : List ReportCall} (h : NoncesSent db sent) (call : ReportCall) :
    NoncesSent (reportStep db call) (sent ++ [call]) := by
  intro key value nonce seenAt hrow
  have hrow := mem_reportStep_seqs hrow
  rcases observed_cases db call with heq | ⟨sentValue, hseq, heq⟩
  · rw [heq] at hrow
    obtain ⟨c, hc, hsame⟩ := h key value nonce seenAt hrow
    exact ⟨c, List.mem_append_left _ hc, hsame⟩
  · rw [heq] at hrow
    rcases KeyedList.mem_put.mp hrow with hnew | ⟨hold, -⟩
    · obtain ⟨hkey, hnonce⟩ := Prod.mk.inj hnew
      obtain ⟨rfl, rfl⟩ := Prod.mk.inj hkey
      exact ⟨call, by simp, rfl, hseq, (SeqRow.mk.inj hnonce).1.symm⟩
    · obtain ⟨c, hc, hsame⟩ := h key value nonce seenAt hold
      exact ⟨c, List.mem_append_left _ hc, hsame⟩

def NeverPairs (key : IdentityKey) (calls : List ReportCall) : Prop :=
  ∀ c ∈ calls, ∀ c' ∈ calls, c.key = key → c'.key = key → ∀ value a b,
    c.seq = some value → c'.seq = some value → c.nonce = some a → c'.nonce = some b → a = b

theorem not_flagged_of_neverPairs {key : IdentityKey} {sent calls : List ReportCall} {db : StateDb}
    (h : Keyed db) (hsent : NoncesSent db sent) (hflag : db.identityConflict key = false)
    (hnever : NeverPairs key (sent ++ calls)) :
    (StepRun.exec reportStep db calls).identityConflict key = false := by
  induction calls generalizing db sent with
  | nil => exact hflag
  | cons call calls ih =>
    rw [StepRun.exec_cons]
    refine ih (h.step call) (hsent.step call) ?_ (by simpa using hnever)
    by_contra hset
    rcases h.identityConflict_of_step (by simpa using hset) with hbefore |
      ⟨rfl, value, recorded, arriving, seenAt, hseq, hnonce, hne, hrow⟩
    · simp [hflag] at hbefore
    · obtain ⟨c, hc, hkey, hcseq, hcnonce⟩ := hsent _ _ _ _ hrow
      exact hne (hnever c (List.mem_append_left _ hc) call (by simp) hkey rfl value recorded arriving
        hcseq hseq hcnonce hnonce)

lemma Keyed.lastReportSeq_step (h : Keyed db) (call : ReportCall) {row after : IdentityRow}
    (hrow : db.identities.lookup key = some row)
    (hafter : (reportStep db call).identities.lookup key = some after) {value : ℕ}
    (hvalue : row.lastReportSeq = some value) :
    ∃ later, after.lastReportSeq = some later ∧ value ≤ later := by
  by_cases hkey : key = call.key
  · subst hkey
    rw [reportStep_identity_self h, hrow, Option.some.injEq] at hafter
    rw [← hafter]
    cases (observed db call).2 <;> simp [identityAfter, hvalue]
  · rw [reportStep_identity_other h hkey, hrow] at hafter
    obtain ⟨hsame, -⟩ := Option.filter_eq_some_iff.mp hafter
    obtain rfl := Option.some.inj hsame
    exact ⟨value, hvalue, le_refl _⟩

end Flags

section Window
variable {db : StateDb} {call : ReportCall} {key : IdentityKey} {value : ℕ} {nonce : Ident}

def windowLow (db : StateDb) (key : IdentityKey) : Option ℕ :=
  (TopN.topN identitySeqWindow (seqsOf db.seqs key)).min?

/-- An install's row is not idle for thirty days when a report arrives. -/
def NotIdle (key : IdentityKey) (db : StateDb) (call : ReportCall) : Prop :=
  ∀ row ∈ db.identities.lookup key, call.now < row.seenAt + 30 * dayMs

instance NotIdle.decidable (key : IdentityKey) (db : StateDb) (call : ReportCall) :
    Decidable (NotIdle key db call) :=
  inferInstanceAs (Decidable (∀ row ∈ db.identities.lookup key, _))

/-- A sequence that arrived under a nonce: the install is flagged, or the pair is recorded, or a full
window has passed the sequence. -/
structure Held (db : StateDb) (key : IdentityKey) (value : ℕ) (nonce : Ident) : Prop where
  row : (db.identities.lookup key).isSome = true
  pair : db.identityConflict key = true ∨
    (∃ row, db.seqs.lookup (key, value) = some row ∧ row.nonce = some nonce) ∨
      identitySeqWindow ≤ (seqsOf db.seqs key).countP (value < ·)

lemma mem_seqsOf {seqs : SeqRows} : value ∈ seqsOf seqs key ↔ ∃ row, ((key, value), row) ∈ seqs := by
  simp only [seqsOf, List.mem_map, List.mem_filter, decide_eq_true_eq]
  constructor
  · rintro ⟨⟨⟨k, v⟩, row⟩, ⟨hmem, rfl⟩, rfl⟩
    exact ⟨row, hmem⟩
  · rintro ⟨row, hmem⟩
    exact ⟨_, ⟨hmem, rfl⟩, rfl⟩

lemma seqsOf_nodup {seqs : SeqRows} (h : (seqs.map Prod.fst).Nodup) (key : IdentityKey) :
    (seqsOf seqs key).Nodup := by
  have hkept : ((seqs.filter fun e => e.1.1 = key).map Prod.fst).Nodup :=
    h.sublist (List.filter_sublist.map _)
  have hvalues : (((seqs.filter fun e => e.1.1 = key).map Prod.fst).map Prod.snd).Nodup := by
    refine hkept.map_on ?_
    intro a ha b hb hab
    simp only [List.mem_map, List.mem_filter, decide_eq_true_eq] at ha hb
    obtain ⟨e, ⟨-, he⟩, rfl⟩ := ha
    obtain ⟨e', ⟨-, he'⟩, rfl⟩ := hb
    exact Prod.ext (he.trans he'.symm) hab
  rw [List.map_map] at hvalues
  exact hvalues

lemma seqsOf_pruneWindow (seqs : SeqRows) (key : IdentityKey) :
    seqsOf (pruneWindow seqs key) key =
      (seqsOf seqs key).filter (· ∈ TopN.topN identitySeqWindow (seqsOf seqs key)) := by
  generalize hwindow : TopN.topN identitySeqWindow (seqsOf seqs key) = window
  unfold seqsOf pruneWindow
  rw [hwindow, List.filter_map, List.filter_filter, List.filter_filter]
  congr 1
  refine List.filter_congr fun e _ => ?_
  by_cases he : e.1.1 = key <;> simp [he]

lemma seqsOf_pruneWindow_perm {seqs : SeqRows} (h : (seqs.map Prod.fst).Nodup)
    (key : IdentityKey) : (seqsOf (pruneWindow seqs key) key).Perm
      (TopN.topN identitySeqWindow (seqsOf seqs key)) := by
  rw [seqsOf_pruneWindow]
  exact TopN.filter_mem_topN_perm (seqsOf_nodup h key) _

lemma seqsOf_pruneWindow_of_ne {seqs : SeqRows} {other : IdentityKey} (h : key ≠ other) :
    seqsOf (pruneWindow seqs other) key = seqsOf seqs key := by
  rw [seqsOf, pruneWindow, List.filter_filter, seqsOf]
  congr 1
  refine List.filter_congr fun e _ => ?_
  by_cases he : e.1.1 = key
  · simp [he, h]
  · simp [he]

lemma pruneWindow_lookup {seqs : SeqRows} (h : (seqs.map Prod.fst).Nodup) (other : IdentityKey) :
    (pruneWindow seqs other).lookup (key, value) = (seqs.lookup (key, value)).filter fun _ =>
      decide (key ≠ other) || decide (value ∈ TopN.topN identitySeqWindow (seqsOf seqs other)) := by
  rw [pruneWindow, KeyedList.lookup_filter h]

lemma held_of_recorded (h : Keyed db) (row : SeqRow)
    (hrow : (observed db call).1.lookup (call.key, value) = some row)
    (hnonce : row.nonce = some nonce) : Held (reportStep db call) call.key value nonce := by
  have hself : ((reportStep db call).identities.lookup call.key).isSome = true := by
    rw [reportStep_identity_self h]
    rfl
  refine ⟨hself, Or.inr ?_⟩
  have hnodup := observed_nodup h call
  by_cases hin : value ∈ TopN.topN identitySeqWindow (seqsOf (observed db call).1 call.key)
  · refine Or.inl ⟨row, ?_, hnonce⟩
    rw [reportStep_seqs h call hself, pruneWindow_lookup hnodup, hrow]
    simp [hin]
  · right
    have hmem : value ∈ seqsOf (observed db call).1 call.key :=
      mem_seqsOf.mpr ⟨row, (KeyedList.lookup_eq_some_iff_mem hnodup).mp hrow⟩
    rw [reportStep_seqsOf call hself, (seqsOf_pruneWindow_perm hnodup call.key).countP_eq]
    exact (TopN.countP_topN_of_not_mem hmem hin).ge

lemma countP_observed_le (h : Keyed db) (call : ReportCall) (key : IdentityKey) (value : ℕ) :
    (seqsOf db.seqs key).countP (value < ·) ≤
      (seqsOf (observed db call).1 key).countP (value < ·) := by
  have hsub : seqsOf db.seqs key ⊆ seqsOf (observed db call).1 key := by
    intro v hv
    obtain ⟨row, hrow⟩ := mem_seqsOf.mp hv
    rcases observed_cases db call with heq | ⟨sent, -, heq⟩
    · rw [heq]
      exact hv
    · rw [heq, mem_seqsOf]
      by_cases hsame : (key, v) = (call.key, sent)
      · exact ⟨⟨call.nonce, call.now⟩, KeyedList.mem_put.mpr (Or.inl (by rw [hsame]))⟩
      · exact ⟨row, KeyedList.mem_put.mpr (Or.inr ⟨hrow, hsame⟩)⟩
  exact (List.subperm_of_subset (seqsOf_nodup h.seqs key) hsub).countP_le _

lemma observed_lookup (call : ReportCall) {row : SeqRow}
    (hrow : db.seqs.lookup (key, value) = some row) (hnonce : row.nonce = some nonce) :
    (observed db call).1.lookup (key, value) = some row := by
  unfold observed observeSeq
  cases hseq : call.seq with
  | none => exact hrow
  | some sent =>
    dsimp only
    by_cases hsame : (key, value) = (call.key, sent)
    · rw [← hsame, hrow]
      dsimp only
      rw [hnonce]
      cases call.nonce with
      | none => exact hrow
      | some arriving =>
        dsimp only
        split <;> exact hrow
    · have hput : ∀ after : SeqRow,
          (KeyedList.put db.seqs ((call.key, sent), after)).lookup (key, value) = some row :=
        fun after => by rw [KeyedList.lookup_put, if_neg hsame, hrow]
      split
      · split
        · split <;> exact hrow
        · exact hput _
        · exact hrow
      · split
        · exact hrow
        · exact hput _

lemma Held.step (hheld : Held db key value nonce) (h : Keyed db) (hidle : NotIdle key db call) :
    Held (reportStep db call) key value nonce := by
  have hnodup := observed_nodup h call
  by_cases hkey : key = call.key
  · subst hkey
    have hself : ((reportStep db call).identities.lookup call.key).isSome = true := by
      rw [reportStep_identity_self h]
      rfl
    rcases hheld.pair with hflag | ⟨row, hrow, hnonce⟩ | hpassed
    · exact ⟨hself, Or.inl (h.identityConflict_step call hflag)⟩
    · exact held_of_recorded h _ (observed_lookup call hrow hnonce) hnonce
    · refine ⟨hself, Or.inr (Or.inr ?_)⟩
      rw [reportStep_seqsOf call hself, (seqsOf_pruneWindow_perm hnodup call.key).countP_eq]
      exact TopN.le_countP_topN (hpassed.trans (countP_observed_le h call call.key value))
  · obtain ⟨row, hrow⟩ := Option.isSome_iff_exists.mp hheld.row
    have hlives : ((reportStep db call).identities.lookup key).isSome = true := by
      have hrecent := hidle row hrow
      have hkept : decide (call.now - 30 * dayMs < row.seenAt) = true := by
        rw [decide_eq_true_eq]
        omega
      rw [reportStep_identity_other h hkey, hrow, Option.filter_some, if_pos (by simp [hkept])]
      rfl
    refine ⟨hlives, ?_⟩
    rcases hheld.pair with hflag | ⟨row, hrow, hnonce⟩ | hpassed
    · exact Or.inl (h.identityConflict_step call hflag)
    · refine Or.inr (Or.inl ⟨row, ?_, hnonce⟩)
      rw [reportStep_seqs h call hlives, pruneWindow_lookup hnodup,
        observed_lookup call hrow hnonce]
      simp [hkey]
    · refine Or.inr (Or.inr ?_)
      rw [reportStep_seqsOf call hlives, seqsOf_pruneWindow_of_ne hkey]
      exact hpassed.trans (countP_observed_le h call key value)

lemma windowLow_spec {low : ℕ} (hlow : low ∈ windowLow db key) :
    low ∈ TopN.topN identitySeqWindow (seqsOf db.seqs key) :=
  (List.min?_eq_some_iff.mp hlow).1

lemma flagged_of_conflict (h : Keyed db) {row : SeqRow} {other : Ident}
    (hrow : db.seqs.lookup (call.key, value) = some row) (hrecorded : row.nonce = some nonce)
    (hseq : call.seq = some value) (hnonce : call.nonce = some other) (hne : nonce ≠ other) :
    (reportStep db call).identityConflict call.key = true := by
  have hconflict : (observed db call).2 = .conflict value := by
    unfold observed observeSeq
    rw [hseq]
    dsimp only
    rw [hrow]
    dsimp only
    rw [hrecorded, hnonce]
    dsimp only
    rw [if_pos hne]
  rw [StateDb.identityConflict, reportStep_identity_self h, Option.any_some,
    identityAfter_identityConflict]
  exact Or.inr ⟨value, hconflict⟩

lemma not_unjudged (hreach : ∀ low ∈ windowLow db key, low ≤ value) :
    ((seqsOf db.seqs key).min?.any fun floor => decide (value < floor)) = false := by
  cases hfloor : (seqsOf db.seqs key).min? with
  | none => rfl
  | some floor =>
    have hmem := (List.min?_eq_some_iff.mp hfloor).1
    have hle := (List.min?_eq_some_iff.mp hfloor).2
    have hlength : 0 < (TopN.topN identitySeqWindow (seqsOf db.seqs key)).length := by
      have := List.length_pos_of_mem hmem
      rw [TopN.length_topN, identitySeqWindow]
      omega
    have hsome : (windowLow db key).isSome = true := by
      rw [windowLow, List.isSome_min?_iff]
      exact List.length_pos_iff.mp hlength
    obtain ⟨low, hlow⟩ := Option.isSome_iff_exists.mp hsome
    have hfl := hle low (TopN.topN_subset _ _ (windowLow_spec hlow))
    simpa using hfl.trans (hreach low hlow)

lemma held_of_arrival (h : Keyed db) (hseq : call.seq = some value)
    (hnonce : call.nonce = some nonce) (hreach : ∀ low ∈ windowLow db call.key, low ≤ value) :
    Held (reportStep db call) call.key value nonce := by
  have hput : (observed db call).1 =
      KeyedList.put db.seqs ((call.key, value), ⟨some nonce, call.now⟩) →
        Held (reportStep db call) call.key value nonce := fun heq =>
    held_of_recorded h ⟨some nonce, call.now⟩
      (by rw [heq, KeyedList.lookup_put, if_pos rfl]) rfl
  cases hrow : db.seqs.lookup (call.key, value) with
  | some row =>
    cases hrecorded : row.nonce with
    | some recorded =>
      by_cases hne : recorded = nonce
      · exact held_of_recorded h _ (observed_lookup call hrow (hne ▸ hrecorded)) (hne ▸ hrecorded)
      · refine ⟨?_, Or.inl (flagged_of_conflict h hrow hrecorded hseq hnonce hne)⟩
        rw [reportStep_identity_self h]
        rfl
    | none =>
      refine hput ?_
      unfold observed observeSeq
      rw [hseq]
      dsimp only
      rw [hrow]
      dsimp only
      rw [hrecorded, hnonce]
  | none =>
    refine hput ?_
    unfold observed observeSeq
    rw [hseq]
    dsimp only
    rw [hrow]
    dsimp only
    rw [not_unjudged hreach, hnonce]
    rfl

lemma flagged_of_arrival (h : Keyed db) {other : Ident} (hheld : Held db call.key value nonce)
    (hseq : call.seq = some value) (hnonce : call.nonce = some other) (hne : nonce ≠ other)
    (hreach : ∀ low ∈ windowLow db call.key, low ≤ value) :
    (reportStep db call).identityConflict call.key = true := by
  rcases hheld.pair with hflag | ⟨row, hrow, hrecorded⟩ | hpassed
  · exact h.identityConflict_step call hflag
  · exact flagged_of_conflict h hrow hrecorded hseq hnonce hne
  · -- The window would lie above the sequence.
    exfalso
    have hwindow := TopN.le_countP_topN hpassed
    have hlength := TopN.length_topN identitySeqWindow (seqsOf db.seqs call.key)
    have hall : (TopN.topN identitySeqWindow (seqsOf db.seqs call.key)).countP (value < ·) =
        (TopN.topN identitySeqWindow (seqsOf db.seqs call.key)).length :=
      le_antisymm List.countP_le_length (by omega)
    have hsome : (windowLow db call.key).isSome = true := by
      rw [windowLow, List.isSome_min?_iff, ne_eq, ← List.length_eq_zero_iff]
      have : 0 < identitySeqWindow := by decide
      omega
    obtain ⟨low, hlow⟩ := Option.isSome_iff_exists.mp hsome
    have habove := List.countP_eq_length.mp hall low (windowLow_spec hlow)
    have hle := hreach low hlow
    simp only [decide_eq_true_eq] at habove
    omega

/-- Two arrivals of one sequence under two nonces, each reaching the window, flag an install that is
not idle between them, from the second on. -/
theorem flagged_of_two_nonces {calls mid later : List ReportCall} {first second : ReportCall}
    {other : Ident} (hkey : second.key = first.key) (hfirst : first.seq = some value)
    (hsecond : second.seq = some value) (hnonce : first.nonce = some nonce)
    (hother : second.nonce = some other) (hne : nonce ≠ other)
    (hreach : ∀ low ∈ windowLow (StepRun.exec reportStep db calls) first.key, low ≤ value)
    (hreach' : ∀ low ∈ windowLow (StepRun.exec reportStep db (calls ++ first :: mid)) first.key,
      low ≤ value)
    (hidle : StepRun.Along reportStep (NotIdle first.key)
      (StepRun.exec reportStep db (calls ++ [first])) mid) (h : Keyed db) :
    (StepRun.exec reportStep db (calls ++ first :: mid ++ second :: later)).identityConflict
      first.key = true := by
  have hcalls := h.run calls
  have hstep : ∀ (db : StateDb) (call : ReportCall),
      (Keyed db ∧ Held db first.key value nonce) → NotIdle first.key db call →
        Keyed (reportStep db call) ∧ Held (reportStep db call) first.key value nonce :=
    fun _ call hinv hidle => ⟨hinv.1.step call, hinv.2.step hinv.1 hidle⟩
  rw [StepRun.exec_append] at hreach' ⊢
  rw [StepRun.exec_cons] at hreach'
  rw [StepRun.exec_concat] at hidle
  have hmid := StepRun.invariant hstep
    ⟨hcalls.step first, held_of_arrival hcalls hfirst hnonce hreach⟩ hidle
  rw [StepRun.exec_append, StepRun.exec_cons, StepRun.exec_cons]
  refine (hmid.1.step second).identityConflict_run later ?_
  rw [← hkey] at hmid hreach' ⊢
  exact flagged_of_arrival hmid.1 hmid.2 hsecond hother hne hreach'

end Window

end ChatStasher.NativeHost
