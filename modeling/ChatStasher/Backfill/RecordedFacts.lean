import ChatStasher.Backfill.DebtRecords
import ChatStasher.Library.StepRun

/-! A recorder's call beside the differences committed meanwhile: it reads the rows in one
transaction and writes them whole in another. -/
namespace ChatStasher.DebtRecords

abbrev Table := { rows : Rows // (rows.map Prod.fst).Nodup }

/-- A row is left as the debt that it is, with the time and the listing that it has. -/
structure SameDebt (row row' : DebtRecord) : Prop where
  state : row'.state = row.state
  seq : row'.seq = row.seq
  provenance : row'.chatgptProvenance = row.chatgptProvenance
  time : (timeInRow row).isSome → row'.at_ = row.at_ ∧ row'.atFrom = row.atFrom
  listing : (listingInRow row).isSome → row'.listing = row.listing

/-- The same ids, and each row the debt that it was. -/
def KeepsDebts (rows rows' : Rows) : Prop :=
  ∀ id, match rows.lookup id with
    | none => rows'.lookup id = none
    | some row => ∃ row', rows'.lookup id = some row' ∧ SameDebt row row'

/-- What the recorder itself does in this step leaves the debts as they are. -/
def OnlyFacts (recorder : Recorder) (s : Site) (e : Event) : Prop :=
  match e with
  | .diff _ => True
  | .turn _ => KeepsDebts s.rows (step recorder s e).rows

/-- When the recorder writes, every row that it writes is the debt that it read. -/
def StandsAsRead (recorder : Recorder) (s : Site) (e : Event) : Prop :=
  match s.phase, e with
  | .read read, .turn true => ∀ x ∈ read, (recorder.write x.1 x.2).isSome →
    ∃ row, s.rows.lookup x.1 = some row ∧ row.state = x.2.state ∧ row.seq = x.2.seq ∧
      row.chatgptProvenance = x.2.chatgptProvenance
  | _, _ => True

/-- Where a row has a time or a listing, it has it from the row that there was. -/
structure FactsFrom (had : Option DebtRecord) (row : DebtRecord) : Prop where
  time : (timeInRow row).isSome →
    ∃ h, had = some h ∧ h.at_ = row.at_ ∧ h.atFrom = row.atFrom
  listing : (listingInRow row).isSome → ∃ h, had = some h ∧ h.listing = row.listing

def Inherits (old rows : Rows) : Prop :=
  ∀ id row, rows.lookup id = some row → FactsFrom (old.lookup id) row

section Readings

lemma timeInRow_congr {row row' : DebtRecord} (hat : row.at_ = row'.at_)
    (hfrom : row.atFrom = row'.atFrom) : timeInRow row = timeInRow row' := by
  rw [timeInRow, timeInRow, hat, hfrom]

lemma listingInRow_congr {row row' : DebtRecord} (h : row.listing = row'.listing) :
    listingInRow row = listingInRow row' := by
  rw [listingInRow, listingInRow, h]

lemma eq_of_debtTimeSource {member : Option Scalar} {source : DebtTimeSource}
    (h : debtTimeSource member = some source) : member = some (.text source.name) := by
  unfold debtTimeSource at h
  split at h
  · split at h
    next heq =>
      obtain rfl := Option.some.inj h
      rw [heq]
    · split at h
      next heq =>
        obtain rfl := Option.some.inj h
        rw [heq]
      · exact nomatch h
  · exact nomatch h

lemma members_of_timeInRow {row : DebtRecord} {time : DebtTime} (h : timeInRow row = some time) :
    row.at_ = some (.number time.at_) ∧ row.atFrom = some (.text time.source.name) := by
  unfold timeInRow at h
  split at h
  next n hat =>
    split at h
    · exact nomatch h
    · obtain ⟨source, hsource, rfl⟩ := Option.map_eq_some_iff.mp h
      exact ⟨hat, eq_of_debtTimeSource hsource⟩
  · exact nomatch h

lemma member_of_listingInRow {row : DebtRecord} {listing : ConversationListing}
    (h : listingInRow row = some listing) : row.listing = some (.object listing) := by
  unfold listingInRow at h
  split at h
  next l hl =>
    split at h
    · obtain rfl := Option.some.inj h
      exact hl
    · exact nomatch h
  · exact nomatch h

end Readings

section Diffs

variable {old rows : Rows}

lemma FactsFrom.self (row : DebtRecord) : FactsFrom (some row) row :=
  ⟨fun _ => ⟨row, rfl, rfl, rfl⟩, fun _ => ⟨row, rfl, rfl⟩⟩

lemma FactsFrom.trans {had : Option DebtRecord} {mid row : DebtRecord} (h : FactsFrom had mid)
    (h' : FactsFrom (some mid) row) : FactsFrom had row := by
  refine ⟨fun htime => ?_, fun hlisting => ?_⟩
  · obtain ⟨x, hx, hat, hfrom⟩ := h'.time htime
    obtain rfl := Option.some.inj hx
    rw [← timeInRow_congr hat hfrom] at htime
    obtain ⟨x, hx, hat', hfrom'⟩ := h.time htime
    exact ⟨x, hx, hat'.trans hat, hfrom'.trans hfrom⟩
  · obtain ⟨x, hx, heq⟩ := h'.listing hlisting
    obtain rfl := Option.some.inj hx
    rw [← listingInRow_congr heq] at hlisting
    obtain ⟨x, hx, heq'⟩ := h.listing hlisting
    exact ⟨x, hx, heq'.trans heq⟩

lemma factsFrom_settledRow (call : DiffCall) (had : Option DebtRecord) (e : Ident × ℕ) :
    FactsFrom had (settledRow call had e) := by
  refine ⟨fun htime => ?_, fun hlisting => ?_⟩
  · cases hhad : had.bind timeInRow with
    | none => simp [settledRow, hhad, timeInRow] at htime
    | some time =>
      obtain ⟨row, rfl, hrow⟩ := Option.bind_eq_some_iff.mp hhad
      obtain ⟨hat, hfrom⟩ := members_of_timeInRow hrow
      exact ⟨row, rfl, by simp [settledRow, hhad, hat], by simp [settledRow, hhad, hfrom]⟩
  · cases hhad : had.bind listingInRow with
    | none => simp [settledRow, hhad, listingInRow] at hlisting
    | some listing =>
      obtain ⟨row, rfl, hrow⟩ := Option.bind_eq_some_iff.mp hhad
      exact ⟨row, rfl, by simp [settledRow, hhad, member_of_listingInRow hrow]⟩

lemma Inherits.refl (rows : Rows) : Inherits rows rows :=
  fun _ row hrow => hrow ▸ FactsFrom.self row

lemma Inherits.put (h : Inherits old rows) {e : Ident × DebtRecord}
    (he : FactsFrom (old.lookup e.1) e.2) : Inherits old (KeyedList.put rows e) := by
  intro id row hrow
  rw [KeyedList.lookup_put] at hrow
  split at hrow
  next heq =>
    obtain rfl := Option.some.inj hrow
    exact heq ▸ he
  next => exact h id row hrow

lemma Inherits.foldl {α : Type*} {f : Rows → α → Rows} (h : Inherits old rows)
    (hf : ∀ rows x, Inherits old rows → Inherits old (f rows x)) (l : List α) :
    Inherits old (l.foldl f rows) :=
  List.foldlRecOn l f h fun rows hrows x _ => hf rows x hrows

lemma Inherits.settleRow (h : Inherits old rows) (call : DiffCall) (e : Ident × ℕ) :
    Inherits old (settleRow call rows e) := by
  refine h.put ?_
  have hsettled := factsFrom_settledRow call (rows.lookup e.1) e
  cases hrow : rows.lookup e.1 with
  | none =>
    rw [hrow] at hsettled
    refine ⟨fun htime => ?_, fun hlisting => ?_⟩
    · obtain ⟨_, hnone, -⟩ := hsettled.time htime
      exact nomatch hnone
    · obtain ⟨_, hnone, -⟩ := hsettled.listing hlisting
      exact nomatch hnone
  | some row => exact (h e.1 row hrow).trans (hrow ▸ hsettled)

lemma Inherits.provenanceRow (h : Inherits old rows) (call : DiffCall) (id : Ident) :
    Inherits old (provenanceRow call rows id) := by
  unfold DebtRecords.provenanceRow
  split
  next had hhad =>
    split
    · exact h.put ⟨(h id had hhad).time, (h id had hhad).listing⟩
    · exact h
  · exact h

lemma Inherits.applyDebtDiff (h : Inherits old rows) (call : DiffCall) :
    Inherits old (applyDebtDiff rows call) := by
  have howed : Inherits old (((call.diff.enqueue.zipIdx call.nextSeq).map (owedRow call)).foldl
      KeyedList.put rows) := by
    rw [List.foldl_map]
    refine h.foldl (fun rows x hrows => hrows.put ?_) _
    exact ⟨by simp [owedRow, timeInRow], by simp [owedRow, listingInRow]⟩
  refine Inherits.foldl (Inherits.foldl ?_ (fun rows x hrows => hrows.settleRow call x) _)
    (fun rows x hrows => hrows.provenanceRow call x) _
  intro id row hrow
  have hfilter := KeyedList.lookup_filter_key
    (((call.diff.enqueue.zipIdx call.nextSeq).map (owedRow call)).foldl KeyedList.put rows)
    (fun id => decide (id ∉ call.diff.drop.filter fun id => id ∉ call.diff.enqueue)) id
  rw [hfilter] at hrow
  split at hrow
  · exact howed id row hrow
  · exact nomatch hrow

lemma nodup_applyDebtDiff (h : (rows.map Prod.fst).Nodup) (call : DiffCall) :
    ((applyDebtDiff rows call).map Prod.fst).Nodup := by
  refine List.foldlRecOn (motive := fun rows : Rows => (rows.map Prod.fst).Nodup) _ _
    (List.foldlRecOn (motive := fun rows : Rows => (rows.map Prod.fst).Nodup) _ _ ?_ ?_) ?_
  · exact (KeyedList.foldl_put_nodup h).sublist (List.filter_sublist.map _)
  · exact fun rows hrows x _ => KeyedList.put_nodup hrows
  · intro rows hrows id _
    unfold provenanceRow
    split
    · split
      · exact KeyedList.put_nodup hrows
      · exact hrows
    · exact hrows

end Diffs

section Writes

variable {recorder : Recorder} {id : Ident} {had written : DebtRecord}

lemma debt_of_write (h : recorder.write id had = some written) :
    written.state = had.state ∧ written.seq = had.seq ∧
      written.chatgptProvenance = had.chatgptProvenance := by
  cases recorder with
  | times found =>
    simp only [Recorder.write, Option.ite_none_left_eq_some] at h
    obtain ⟨time, -, rfl⟩ := Option.map_eq_some_iff.mp h.2
    exact ⟨rfl, rfl, rfl⟩
  | listings found =>
    simp only [Recorder.write, Option.ite_none_left_eq_some] at h
    obtain ⟨listing, -, rfl⟩ := Option.map_eq_some_iff.mp h.2
    exact ⟨rfl, rfl, rfl⟩

lemma time_of_write (h : recorder.write id had = some written) (htime : (timeInRow had).isSome) :
    written.at_ = had.at_ ∧ written.atFrom = had.atFrom := by
  cases recorder with
  | times found => simp [Recorder.write, htime] at h
  | listings found =>
    simp only [Recorder.write, Option.ite_none_left_eq_some] at h
    obtain ⟨listing, -, rfl⟩ := Option.map_eq_some_iff.mp h.2
    exact ⟨rfl, rfl⟩

lemma listing_of_write (h : recorder.write id had = some written)
    (hlisting : (listingInRow had).isSome) : written.listing = had.listing := by
  cases recorder with
  | times found =>
    simp only [Recorder.write, Option.ite_none_left_eq_some] at h
    obtain ⟨time, -, rfl⟩ := Option.map_eq_some_iff.mp h.2
    rfl
  | listings found => simp [Recorder.write, hlisting] at h

lemma puts_keys_nodup {read : Rows} (h : (read.map Prod.fst).Nodup) :
    ((recorder.puts read).map Prod.fst).Nodup := by
  refine h.sublist ?_
  induction read with
  | nil => exact List.Sublist.slnil
  | cons e read ih =>
    have hrest := ih (List.nodup_cons.mp h).2
    cases hwrite : recorder.write e.1 e.2 with
    | none => simpa [Recorder.puts, hwrite] using hrest.cons e.1
    | some record => simpa [Recorder.puts, hwrite] using hrest.cons_cons e.1

lemma lookup_puts_eq_some {read : Rows} (h : (read.map Prod.fst).Nodup) :
    (recorder.puts read).lookup id = some written ↔
      ∃ had, read.lookup id = some had ∧ recorder.write id had = some written := by
  rw [KeyedList.lookup_eq_some_iff_mem (puts_keys_nodup h), Recorder.puts, List.mem_filterMap]
  constructor
  · rintro ⟨e, he, hwrite⟩
    obtain ⟨record, hrecord, heq⟩ := Option.map_eq_some_iff.mp hwrite
    obtain ⟨rfl, rfl⟩ := Prod.mk.inj heq
    exact ⟨e.2, (KeyedList.lookup_eq_some_iff_mem h).mpr he, hrecord⟩
  · rintro ⟨had, hhad, hwrite⟩
    exact ⟨(id, had), (KeyedList.lookup_eq_some_iff_mem h).mp hhad, by simp [hwrite]⟩

lemma keepsDebts_write_iff {read rows : Rows} (hread : (read.map Prod.fst).Nodup)
    (h : Inherits read rows) :
    KeepsDebts rows ((recorder.puts read).foldl KeyedList.put rows) ↔
      ∀ x ∈ read, (recorder.write x.1 x.2).isSome →
        ∃ row, rows.lookup x.1 = some row ∧ row.state = x.2.state ∧ row.seq = x.2.seq ∧
          row.chatgptProvenance = x.2.chatgptProvenance := by
  have hlookup := KeyedList.lookup_foldl_put (@puts_keys_nodup recorder read hread) rows
  constructor
  · intro hkeeps x hx hwrite
    obtain ⟨written, hwritten⟩ := Option.isSome_iff_exists.mp hwrite
    have hput : (recorder.puts read).lookup x.1 = some written :=
      (lookup_puts_eq_some hread).mpr
        ⟨x.2, (KeyedList.lookup_eq_some_iff_mem hread).mpr hx, hwritten⟩
    obtain ⟨hstate, hseq, hprovenance⟩ := debt_of_write hwritten
    have hsame := hkeeps x.1
    rw [hlookup, hput, Option.some_or] at hsame
    split at hsame
    · exact nomatch hsame
    next row hrow =>
      obtain ⟨row', heq, hdebt⟩ := hsame
      obtain rfl := Option.some.inj heq
      exact ⟨row, hrow, hdebt.state.symm.trans hstate, hdebt.seq.symm.trans hseq,
        hdebt.provenance.symm.trans hprovenance⟩
  · intro hstands id
    rw [hlookup]
    cases hput : (recorder.puts read).lookup id with
    | none =>
      split
      next hrow => exact hrow
      next row hrow =>
        exact ⟨row, hrow, rfl, rfl, rfl, fun _ => ⟨rfl, rfl⟩, fun _ => rfl⟩
    | some written =>
      obtain ⟨had, hhad, hwritten⟩ := (lookup_puts_eq_some hread).mp hput
      obtain ⟨row, hrow, hstate, hseq, hprovenance⟩ := hstands (id, had)
        ((KeyedList.lookup_eq_some_iff_mem hread).mp hhad) (by simp [hwritten])
      obtain ⟨hstate', hseq', hprovenance'⟩ := debt_of_write hwritten
      have hfacts := h id row hrow
      rw [hhad] at hfacts
      rw [hrow]
      refine ⟨written, rfl, hstate'.trans hstate.symm, hseq'.trans hseq.symm,
        hprovenance'.trans hprovenance.symm, fun htime => ?_, fun hlisting => ?_⟩
      · obtain ⟨x, hx, hat, hfrom⟩ := hfacts.time htime
        obtain rfl := Option.some.inj hx
        rw [← timeInRow_congr hat hfrom] at htime
        obtain ⟨hat', hfrom'⟩ := time_of_write hwritten htime
        exact ⟨hat'.trans hat, hfrom'.trans hfrom⟩
      · obtain ⟨x, hx, heq⟩ := hfacts.listing hlisting
        obtain rfl := Option.some.inj hx
        rw [← listingInRow_congr heq] at hlisting
        exact (listing_of_write hwritten hlisting).trans heq

end Writes

/-- The invariant of a run: the ids stay apart, and what a row says of its conversation it said when
the call read it. -/
structure Sound (s : Site) : Prop where
  nodup : (s.rows.map Prod.fst).Nodup
  read : ∀ read, s.phase = .read read → (read.map Prod.fst).Nodup ∧ Inherits read s.rows

section Run

variable {recorder : Recorder} {s : Site}

lemma KeepsDebts.refl (rows : Rows) : KeepsDebts rows rows := by
  intro id
  split
  next hrow => exact hrow
  next row hrow => exact ⟨row, hrow, rfl, rfl, rfl, fun _ => ⟨rfl, rfl⟩, fun _ => rfl⟩

lemma Sound.step (h : Sound s) (e : Event) : Sound (step recorder s e) := by
  cases e with
  | diff call =>
    refine ⟨nodup_applyDebtDiff h.nodup call, fun read hread => ?_⟩
    exact ⟨(h.read read hread).1, (h.read read hread).2.applyDebtDiff call⟩
  | turn ok =>
    unfold DebtRecords.step
    dsimp only
    split
    · split
      · split
        · exact ⟨h.nodup, nofun⟩
        · refine ⟨h.nodup, fun read hread => ?_⟩
          obtain rfl := Phase.read.inj hread
          exact ⟨h.nodup, Inherits.refl _⟩
      · exact ⟨h.nodup, nofun⟩
    · split
      · exact ⟨KeyedList.foldl_put_nodup h.nodup, nofun⟩
      · exact ⟨h.nodup, nofun⟩
    · exact h

lemma Sound.onlyFacts_iff (h : Sound s) (e : Event) :
    OnlyFacts recorder s e ↔ StandsAsRead recorder s e := by
  cases e with
  | diff call =>
    unfold StandsAsRead
    split
    next heq => exact nomatch heq
    next => exact Iff.rfl
  | turn ok =>
    unfold OnlyFacts StandsAsRead DebtRecords.step
    dsimp only
    cases hphase : s.phase with
    | called =>
      simp only [iff_true]
      split
      · split <;> exact KeepsDebts.refl _
      · exact KeepsDebts.refl _
    | returned written => simpa only [iff_true] using KeepsDebts.refl s.rows
    | read read =>
      cases ok with
      | false => simpa using KeepsDebts.refl s.rows
      | true =>
        obtain ⟨hread, hinherits⟩ := h.read read hphase
        exact keepsDebts_write_iff hread hinherits

end Run

/-- From any rows and with any differences committed meanwhile, a recorder's call leaves every debt
as it is exactly if each row that it writes is still the debt that it read. -/
theorem recorder_only_facts_iff (recorder : Recorder) (stored : Table) (es : List Event) :
    StepRun.Along (step recorder) (OnlyFacts recorder) ⟨stored.1, .called⟩ es ↔
      StepRun.Along (step recorder) (StandsAsRead recorder) ⟨stored.1, .called⟩ es := by
  have hsound : Sound ⟨stored.1, .called⟩ := ⟨stored.2, nofun⟩
  generalize (⟨stored.1, .called⟩ : Site) = s at hsound
  induction es generalizing s with
  | nil => exact Iff.rfl
  | cons e es ih =>
    rw [StepRun.along_cons, StepRun.along_cons]
    exact and_congr (hsound.onlyFacts_iff e) (ih _ (hsound.step e))

section Sample

def oneDebt : Table := ⟨[(['a'], ⟨.pending, 1, none, none, none, none⟩)], by decide⟩

def listTimes : Recorder := .times fun _ => some ⟨1000, .listUpdate⟩

/-- The conversation is stored and settled between the two transactions of the call. -/
def settledMeanwhile : List Event :=
  [.turn true, .diff ⟨⟨[], [['a']], []⟩, 2, fun _ => none, []⟩, .turn true]

/-- The call owes the conversation again that was settled meanwhile. -/
theorem settled_debt_owed_again :
    ¬ StepRun.Along (step listTimes) (OnlyFacts listTimes) ⟨oneDebt.1, .called⟩
        settledMeanwhile ∧
      ((StepRun.exec (step listTimes) ⟨oneDebt.1, .called⟩ settledMeanwhile).rows.lookup
        ['a']).map DebtRecord.state = some .pending := by
  refine ⟨?_, by decide⟩
  rintro ⟨-, -, hwrite, -⟩
  obtain ⟨row, hrow, hsame⟩ := hwrite ['a']
  obtain rfl := Option.some.inj (hrow.symm.trans (by rfl))
  exact absurd hsame.state (by decide)

end Sample

end ChatStasher.DebtRecords
