import ChatStasher.Fulltext.Index
import ChatStasher.Library.StepRun

/-! Coverage over a sequence of builds: the rows and the reasons of every source, and what the summary
says of them. -/
namespace ChatStasher.Fulltext
open Inbox (Text)
open KeyedList

variable {H : Sha256}

def rowAfter (load : Load) (documents : List (Text × Row H)) : SourceDoc → Option (Row H)
  | .unreadable id _ => documents.lookup id
  | .fingerprinted id sourceSha256 =>
    if (documents.lookup id).map Row.sourceSha256 = some sourceSha256 then documents.lookup id
    else
      match load id with
      | .error _ => documents.lookup id
      | .ok loaded => some (rowOf H sourceSha256 loaded.text)

/-- The reason a source has after a build took it on. -/
def reasonAfter (load : Load) (documents : List (Text × Row H)) (reasons : List (Text × Text)) :
    SourceDoc → Option Text
  | .unreadable _ reason => some reason
  | .fingerprinted id sourceSha256 =>
    if (documents.lookup id).map Row.sourceSha256 = some sourceSha256 then reasons.lookup id
    else
      match load id with
      | .error failure => some failure.error
      | .ok loaded => loaded.text.notIndexable

section After
variable {load : Load} {documents : List (Text × Row H)} (reasons : List (Text × Text)) {id sha : Text}

lemma after_unchanged (h : (documents.lookup id).map Row.sourceSha256 = some sha) :
    rowAfter load documents (.fingerprinted id sha) = documents.lookup id ∧
      reasonAfter load documents reasons (.fingerprinted id sha) = reasons.lookup id := by
  rw [rowAfter, reasonAfter, if_pos h, if_pos h]
  exact ⟨rfl, rfl⟩

lemma after_failed (h : ¬ (documents.lookup id).map Row.sourceSha256 = some sha)
    {failure : LoadFailure} (hload : load id = .error failure) :
    rowAfter load documents (.fingerprinted id sha) = documents.lookup id ∧
      reasonAfter load documents reasons (.fingerprinted id sha) = some failure.error := by
  rw [rowAfter, reasonAfter, if_neg h, if_neg h, hload]
  exact ⟨rfl, rfl⟩

lemma after_loaded (h : ¬ (documents.lookup id).map Row.sourceSha256 = some sha)
    {loaded : LoadedDoc} (hload : load id = .ok loaded) :
    rowAfter load documents (.fingerprinted id sha) = some (rowOf H sha loaded.text) ∧
      reasonAfter load documents reasons (.fingerprinted id sha) = loaded.text.notIndexable := by
  rw [rowAfter, reasonAfter, if_neg h, if_neg h, hload]
  exact ⟨rfl, rfl⟩

end After

lemma rowAfter_congr {load : Load} {documents documents' : List (Text × Row H)} {src : SourceDoc}
    (h : documents.lookup src.id = documents'.lookup src.id) :
    rowAfter load documents src = rowAfter load documents' src := by
  cases src with
  | unreadable id reason => exact h
  | fingerprinted id sha =>
    have hid : documents.lookup id = documents'.lookup id := h
    rw [rowAfter, rowAfter, hid]

lemma reasonAfter_congr {load : Load} {documents documents' : List (Text × Row H)}
    {reasons reasons' : List (Text × Text)} {src : SourceDoc}
    (h : documents.lookup src.id = documents'.lookup src.id)
    (h' : reasons.lookup src.id = reasons'.lookup src.id) :
    reasonAfter load documents reasons src = reasonAfter load documents' reasons' src := by
  cases src with
  | unreadable id reason => rfl
  | fingerprinted id sha =>
    have hid : documents.lookup id = documents'.lookup id := h
    have hid' : reasons.lookup id = reasons'.lookup id := h'
    rw [reasonAfter, reasonAfter, hid, hid']

/-- What a build has done to the rows and the reasons after some sources. -/
structure Passed (load : Load) (b : Building H) (sources : List SourceDoc) (b' : Building H) :
    Prop where
  present : ∀ id, id ∈ b'.present ↔ id ∈ b.present ∨ id ∈ sources.map SourceDoc.id
  row : ∀ src ∈ sources, b'.documents.lookup src.id = rowAfter load b.documents src
  reason : ∀ src ∈ sources,
    b'.unreadable.lookup src.id = reasonAfter load b.documents b.unreadable src
  otherRow : ∀ id, id ∉ sources.map SourceDoc.id → b'.documents.lookup id = b.documents.lookup id
  otherReason : ∀ id, id ∉ sources.map SourceDoc.id →
    b'.unreadable.lookup id = b.unreadable.lookup id
  rowsNodup : (b.documents.map Prod.fst).Nodup → (b'.documents.map Prod.fst).Nodup
  reasonsNodup : (b.unreadable.map Prod.fst).Nodup → (b'.unreadable.map Prod.fst).Nodup

lemma recordLoaded_documents (b : Building H) (id : Text) (loaded : LoadedDoc) :
    (recordLoaded b id loaded).documents = b.documents := by
  unfold recordLoaded
  split <;> rfl

lemma recordLoaded_present (b : Building H) (id : Text) (loaded : LoadedDoc) :
    (recordLoaded b id loaded).present = b.present := by
  unfold recordLoaded
  split <;> rfl

lemma recordLoaded_lookup (b : Building H) (id : Text) (loaded : LoadedDoc) (k : Text) :
    (recordLoaded b id loaded).unreadable.lookup k =
      if k = id then loaded.text.notIndexable else b.unreadable.lookup k := by
  unfold recordLoaded
  cases hformat : loaded.text.notIndexable with
  | some reason => simp only [lookup_put]
  | none => simp only [lookup_filter_ne]

lemma recordLoaded_nodup {b : Building H} (h : (b.unreadable.map Prod.fst).Nodup) (id : Text)
    (loaded : LoadedDoc) : ((recordLoaded b id loaded).unreadable.map Prod.fst).Nodup := by
  unfold recordLoaded
  split
  · exact put_nodup h
  · exact h.sublist (List.filter_sublist.map _)

lemma readSource_passed {old : List (Text × Text)} {load : Load} {b : Building H} {src : SourceDoc}
    (hnew : src.id ∉ b.present)
    (hold : old.lookup src.id = (b.documents.lookup src.id).map Row.sourceSha256) :
    ∃ b', readSource old load b src = .ok b' ∧ Passed load b [src] b' := by
  have hpresent : ∀ k, k ∈ src.id :: b.present ↔ k ∈ b.present ∨ k ∈ [src].map SourceDoc.id :=
    fun k => by rw [List.mem_cons, or_comm, List.map_singleton, List.mem_singleton]
  have hother : ∀ k, k ∉ [src].map SourceDoc.id → k ≠ src.id := fun k hk heq =>
    hk (by simp [heq])
  rw [readSource, if_neg hnew]
  cases src with
  | unreadable id reason =>
    refine ⟨_, rfl, {
      present := hpresent
      row := by simp [rowAfter, SourceDoc.id]
      reason := by simp [reasonAfter, SourceDoc.id, lookup_put]
      otherRow := fun _ _ => rfl
      otherReason := fun k hk => (lookup_put _ _ _).trans (if_neg (hother k hk))
      rowsNodup := fun h => h
      reasonsNodup := put_nodup }⟩
  | fingerprinted id sha =>
    have hold : old.lookup id = (b.documents.lookup id).map Row.sourceSha256 := hold
    dsimp only
    rw [hold]
    by_cases hsame : (b.documents.lookup id).map Row.sourceSha256 = some sha
    · obtain ⟨hrow, hreason⟩ := after_unchanged b.unreadable hsame
      rw [if_pos hsame]
      exact ⟨_, rfl, {
        present := hpresent
        row := by rw [List.forall_mem_singleton]; exact hrow.symm
        reason := by rw [List.forall_mem_singleton]; exact hreason.symm
        otherRow := fun _ _ => rfl
        otherReason := fun _ _ => rfl
        rowsNodup := fun h => h
        reasonsNodup := fun h => h }⟩
    · rw [if_neg hsame]
      cases hload : load id with
      | error failure =>
        obtain ⟨hrow, hreason⟩ := after_failed b.unreadable hsame hload
        exact ⟨_, rfl, {
          present := hpresent
          row := by rw [List.forall_mem_singleton]; exact hrow.symm
          reason := by
            rw [List.forall_mem_singleton, hreason]
            simp [SourceDoc.id, lookup_put]
          otherRow := fun _ _ => rfl
          otherReason := fun k hk => (lookup_put _ _ _).trans (if_neg (hother k hk))
          rowsNodup := fun h => h
          reasonsNodup := put_nodup }⟩
      | ok loaded =>
        obtain ⟨hrow, hreason⟩ := after_loaded b.unreadable hsame hload
        exact ⟨_, rfl, {
          present := by rw [recordLoaded_present]; exact hpresent
          row := by
            rw [List.forall_mem_singleton, hrow, recordLoaded_documents]
            simp [SourceDoc.id, storeDocument, lookup_put]
          reason := by
            rw [List.forall_mem_singleton, hreason, recordLoaded_lookup]
            simp [SourceDoc.id]
          otherRow := fun k hk => by
            rw [recordLoaded_documents]
            exact (lookup_put _ _ _).trans (if_neg (hother k hk))
          otherReason := fun k hk => (recordLoaded_lookup _ _ _ k).trans (if_neg (hother k hk))
          rowsNodup := fun h => by rw [recordLoaded_documents]; exact put_nodup h
          reasonsNodup := fun h => by
            refine recordLoaded_nodup ?_ id loaded
            exact h }⟩

lemma Passed.nil (load : Load) (b : Building H) : Passed load b [] b where
  present := by simp
  row := by simp
  reason := by simp
  otherRow _ _ := rfl
  otherReason _ _ := rfl
  rowsNodup h := h
  reasonsNodup h := h

lemma Passed.cons {load : Load} {b b' b'' : Building H} {src : SourceDoc} {sources : List SourceDoc}
    (h : Passed load b [src] b') (h' : Passed load b' sources b'')
    (hdistinct : ((src :: sources).map SourceDoc.id).Nodup) :
    Passed load b (src :: sources) b'' := by
  rw [List.map_cons, List.nodup_cons] at hdistinct
  have hapart : ∀ s ∈ sources, s.id ∉ [src].map SourceDoc.id := fun s hs hmem => by
    have heq : s.id = src.id := by simpa using hmem
    exact hdistinct.1 (heq ▸ List.mem_map_of_mem hs)
  have hsplit : ∀ {k : Text}, k ∉ (src :: sources).map SourceDoc.id →
      k ∉ [src].map SourceDoc.id ∧ k ∉ sources.map SourceDoc.id := fun hk => by
    rw [List.map_cons, List.mem_cons, not_or] at hk
    exact ⟨by simpa using hk.1, hk.2⟩
  exact {
    present := fun k => by
      rw [h'.present, h.present]
      simp [or_assoc]
    row := fun s hs => by
      rcases List.mem_cons.mp hs with rfl | hs
      · rw [h'.otherRow _ hdistinct.1]
        exact h.row s (List.mem_singleton_self s)
      · rw [h'.row s hs]
        exact rowAfter_congr (h.otherRow _ (hapart s hs))
    reason := fun s hs => by
      rcases List.mem_cons.mp hs with rfl | hs
      · rw [h'.otherReason _ hdistinct.1]
        exact h.reason s (List.mem_singleton_self s)
      · rw [h'.reason s hs]
        exact reasonAfter_congr (h.otherRow _ (hapart s hs)) (h.otherReason _ (hapart s hs))
    otherRow := fun k hk => by
      rw [h'.otherRow k (hsplit hk).2, h.otherRow k (hsplit hk).1]
    otherReason := fun k hk => by
      rw [h'.otherReason k (hsplit hk).2, h.otherReason k (hsplit hk).1]
    rowsNodup := fun hb => h'.rowsNodup (h.rowsNodup hb)
    reasonsNodup := fun hb => h'.reasonsNodup (h.reasonsNodup hb) }

lemma readSources_passed {old : List (Text × Text)} {load : Load} (sources : List SourceDoc)
    (hdistinct : (sources.map SourceDoc.id).Nodup) (b : Building H)
    (hnew : ∀ src ∈ sources, src.id ∉ b.present)
    (hold : ∀ src ∈ sources,
      old.lookup src.id = (b.documents.lookup src.id).map Row.sourceSha256) :
    ∃ b', sources.foldlM (readSource old load) b = .ok b' ∧ Passed load b sources b' := by
  induction sources generalizing b with
  | nil => exact ⟨b, rfl, Passed.nil load b⟩
  | cons src sources ih =>
    obtain ⟨b', hread, hpassed⟩ : ∃ b', readSource old load b src = .ok b' ∧
        Passed load b [src] b' :=
      readSource_passed (hnew src List.mem_cons_self) (hold src List.mem_cons_self)
    have hrest := List.nodup_cons.mp hdistinct
    have hapart : ∀ s ∈ sources, s.id ∉ [src].map SourceDoc.id := fun s hs hmem => by
      have heq : s.id = src.id := by simpa using hmem
      exact hrest.1 (heq ▸ List.mem_map_of_mem hs)
    obtain ⟨b'', hfold, hpassed'⟩ := ih hrest.2 b'
      (fun s hs => by
        rw [hpassed.present, not_or]
        exact ⟨hnew s (List.mem_cons_of_mem _ hs), hapart s hs⟩)
      (fun s hs => by
        rw [hpassed.otherRow _ (hapart s hs)]
        exact hold s (List.mem_cons_of_mem _ hs))
    refine ⟨b'', ?_, hpassed.cons hpassed' hdistinct⟩
    rw [List.foldlM_cons, hread]
    exact hfold

/-- The maps of an index hold one entry for each key. -/
structure Wellformed (index : Index H) : Prop where
  rowsNodup : (index.documents.map Prod.fst).Nodup
  reasonsNodup : (index.readMetaReasonsIfPresent.map Prod.fst).Nodup
  unreadRow : ∀ id row, index.documents.lookup id = some row → row.readable = false →
    (index.readMetaReasonsIfPresent.lookup id).isSome

lemma wellformed_created : Wellformed (Index.created : Index H) where
  rowsNodup := List.nodup_nil
  reasonsNodup := List.nodup_nil
  unreadRow id row h := by cases h

lemma lookup_inKeyOrder {m : List (Text × Text)} (h : (m.map Prod.fst).Nodup) (k : Text) :
    (inKeyOrder m).lookup k = m.lookup k := by
  have hordered : ((inKeyOrder m).map Prod.fst).Nodup :=
    ((inKeyOrder_perm m).map Prod.fst).nodup_iff.mpr h
  ext v
  rw [lookup_eq_some_iff_mem hordered, lookup_eq_some_iff_mem h, mem_inKeyOrder]

lemma lookup_map_snd {V W : Type*} (m : List (Text × V)) (f : V → W) (k : Text) :
    (m.map fun x => (x.1, f x.2)).lookup k = (m.lookup k).map f := by
  induction m with
  | nil => rfl
  | cons x m ih =>
    rw [List.map_cons, List.lookup_cons, List.lookup_cons, ih]
    cases k == x.1 <;> rfl

/-- What a build over distinct ids leaves: each source's row and reason, and nothing else. -/
structure Built (load : Load) (index : Index H) (sources : List SourceDoc) (index' : Index H) :
    Prop where
  recorded : index'.lastBuild.isSome
  row : ∀ src ∈ sources, index'.documents.lookup src.id = rowAfter load index.documents src
  reason : ∀ src ∈ sources, index'.readMetaReasonsIfPresent.lookup src.id =
    reasonAfter load index.documents index.readMetaReasonsIfPresent src
  noRow : ∀ id, id ∉ sources.map SourceDoc.id → index'.documents.lookup id = none
  noReason : ∀ id, id ∉ sources.map SourceDoc.id →
    index'.readMetaReasonsIfPresent.lookup id = none
  wellformed : Wellformed index'

lemma unread_after {load : Load} {index : Index H} (hw : Wellformed index) {src : SourceDoc}
    {row : Row H} (hrow : rowAfter load index.documents src = some row)
    (hread : row.readable = false) :
    (reasonAfter load index.documents index.readMetaReasonsIfPresent src).isSome := by
  cases src with
  | unreadable id reason => rfl
  | fingerprinted id sha =>
    by_cases hsame : (index.documents.lookup id).map Row.sourceSha256 = some sha
    · obtain ⟨hrow', hreason'⟩ := after_unchanged index.readMetaReasonsIfPresent hsame
      rw [hrow'] at hrow
      rw [hreason']
      exact hw.unreadRow id row hrow hread
    · cases hload : load id with
      | error failure =>
        rw [(after_failed index.readMetaReasonsIfPresent hsame hload).2]
        rfl
      | ok loaded =>
        obtain ⟨hrow', hreason'⟩ := after_loaded index.readMetaReasonsIfPresent hsame hload
        rw [hrow'] at hrow
        rw [hreason']
        obtain rfl := Option.some.inj hrow
        rw [rowOf, DocText.isIndexable, Option.isNone_eq_false_iff] at hread
        exact hread

theorem build_built {load : Load} {index : Index H} (hw : Wellformed index)
    {sources : List SourceDoc} (hdistinct : (sources.map SourceDoc.id).Nodup) :
    ∃ index' stats, index.build sources load = .ok (index', stats) ∧
      Built load index sources index' := by
  let start : Building H :=
    ⟨index.documents, index.documentsFts, index.readMetaReasonsIfPresent, .zero, []⟩
  obtain ⟨b, hfold, hpassed⟩ : ∃ b, sources.foldlM
      (readSource (index.documents.map fun x => (x.1, x.2.sourceSha256)) load) start = .ok b ∧
        Passed load start sources b :=
    readSources_passed sources hdistinct start (by simp [start]) fun src _ => lookup_map_snd _ _ _
  have hpresent : ∀ k, k ∈ b.present ↔ k ∈ sources.map SourceDoc.id := fun k => by
    rw [hpassed.present]
    simp [start]
  have hrows := hpassed.rowsNodup hw.rowsNodup
  have hreasons : ((b.unreadable.filter fun x => x.1 ∈ b.present).map Prod.fst).Nodup :=
    (hpassed.reasonsNodup hw.reasonsNodup).sublist (List.filter_sublist.map _)
  rw [Index.build, hfold]
  refine ⟨_, _, rfl, ?_⟩
  have hstale : ∀ k, k ∈ ((index.documents.map fun x => (x.1, x.2.sourceSha256)).map
      Prod.fst).filter (fun id => id ∉ b.present) ↔
        k ∈ index.documents.map Prod.fst ∧ k ∉ sources.map SourceDoc.id := fun k => by
    rw [List.mem_filter, decide_eq_true_iff, hpresent, List.map_map]
    rfl
  have hrow : ∀ src ∈ sources, (b.documents.filter fun x => x.1 ∉
      ((index.documents.map fun x => (x.1, x.2.sourceSha256)).map Prod.fst).filter
        fun id => id ∉ b.present).lookup src.id = rowAfter load index.documents src := by
    intro src hsrc
    have hkept := List.mem_map_of_mem (f := SourceDoc.id) hsrc
    rw [← hpassed.row src hsrc]
    refine lookup_filter_of_pos hrows fun row => ?_
    rw [decide_eq_true_iff, hstale]
    exact fun h => h.2 hkept
  have hreason : ∀ src ∈ sources,
      (inKeyOrder (b.unreadable.filter fun x => x.1 ∈ b.present)).lookup src.id =
        reasonAfter load index.documents index.readMetaReasonsIfPresent src := by
    intro src hsrc
    rw [lookup_inKeyOrder hreasons, ← hpassed.reason src hsrc]
    refine lookup_filter_of_pos (hpassed.reasonsNodup hw.reasonsNodup) fun reason => ?_
    rw [decide_eq_true_iff, hpresent]
    exact List.mem_map_of_mem hsrc
  have hnoRow : ∀ id, id ∉ sources.map SourceDoc.id → (b.documents.filter fun x => x.1 ∉
      ((index.documents.map fun x => (x.1, x.2.sourceSha256)).map Prod.fst).filter
        fun id => id ∉ b.present).lookup id = none := by
    intro id hid
    rw [lookup_filter hrows, hpassed.otherRow id hid, Option.filter_eq_none_iff]
    intro row hlookup hkept
    rw [decide_eq_true_iff, hstale] at hkept
    exact hkept ⟨List.mem_map.mpr ⟨(id, row), (lookup_eq_some_iff_mem hw.rowsNodup).mp hlookup, rfl⟩,
      hid⟩
  exact {
    recorded := rfl
    row := hrow
    reason := hreason
    noRow := hnoRow
    noReason := fun id hid => by
      change (inKeyOrder (b.unreadable.filter fun x => x.1 ∈ b.present)).lookup id = none
      rw [lookup_inKeyOrder hreasons, lookup_filter (hpassed.reasonsNodup hw.reasonsNodup),
        Option.filter_eq_none_iff]
      intro reason _ hkept
      exact hid ((hpresent id).mp (decide_eq_true_iff.mp hkept))
    wellformed := {
      rowsNodup := hrows.sublist (List.filter_sublist.map _)
      reasonsNodup := ((inKeyOrder_perm _).map Prod.fst).nodup_iff.mpr hreasons
      unreadRow := fun id row hlookup hread => by
        by_cases hid : id ∈ sources.map SourceDoc.id
        · obtain ⟨src, hsrc, rfl⟩ := List.mem_map.mp hid
          have hafter := unread_after hw ((hrow src hsrc).symm.trans hlookup) hread
          rw [← hreason src hsrc] at hafter
          exact hafter
        · rw [hnoRow id hid] at hlookup
          cases hlookup } }

/-- One call of the build; without its commit the transaction leaves the index as it was. -/
structure Build where
  sources : List SourceDoc
  distinct : (sources.map SourceDoc.id).Nodup
  load : Load
  commits : Bool

def buildStep (index : Index H) (call : Build) : Index H :=
  if call.commits then
    match index.build call.sources call.load with
    | .ok (index', _) => index'
    | .error _ => index
  else index

structure Exact (sources : List SourceDoc) (index : Index H) (summary : IndexSummary) : Prop where
  fingerprinted : ∀ id sha, .fingerprinted id sha ∈ sources → (summary.covers id = true ↔
    ∃ row, index.documents.lookup id = some row ∧ row.readable = true ∧ row.sourceSha256 = sha)
  unreadable : ∀ id reason, .unreadable id reason ∈ sources → summary.covers id = false
  noRow : ∀ id, id ∉ sources.map SourceDoc.id → index.documents.lookup id = none
  noReason : ∀ id, id ∉ sources.map SourceDoc.id → summary.notIndexable.lookup id = none
  indexable : summary.indexable = (summary.ids.filter fun id => summary.covers id).card

/-- A source that the build cannot read: one the archive cannot describe, or a changed one whose load
fails. -/
def Unread (load : Load) (index : Index H) : SourceDoc → Prop
  | .unreadable _ _ => True
  | .fingerprinted id sha => (index.documents.lookup id).map Row.sourceSha256 ≠ some sha ∧
      ∃ failure, load id = .error failure

/-- A source that the build leaves covered: an unchanged one without a reason, or a changed one whose
load reads it. -/
def Answered (load : Load) (index : Index H) : SourceDoc → Prop
  | .unreadable _ _ => False
  | .fingerprinted id sha =>
    ((index.documents.lookup id).map Row.sourceSha256 = some sha ∧
      index.readMetaReasonsIfPresent.lookup id = none) ∨
    ((index.documents.lookup id).map Row.sourceSha256 ≠ some sha ∧
      ∃ loaded, load id = .ok loaded ∧ loaded.text.isIndexable = true)

/-- No source comes with the fingerprint of its readable row while a reason is recorded for it. -/
def NoneCameBack (index : Index H) (sources : List SourceDoc) : Prop :=
  ∀ id sha, .fingerprinted id sha ∈ sources → ∀ row, index.documents.lookup id = some row →
    row.sourceSha256 = sha → row.readable = true →
      index.readMetaReasonsIfPresent.lookup id = none

/-- The calls after which the summary is exact: no source comes back to its row under a reason, and
what cannot be read has a row, unless nothing is covered at all. -/
def Accounted (index : Index H) (call : Build) : Prop :=
  call.commits = true → NoneCameBack index call.sources ∧
    ((∀ src ∈ call.sources, Unread call.load index src →
      (index.documents.lookup src.id).isSome) ∨
        ∀ src ∈ call.sources, ¬ Answered call.load index src)

section Step
variable {load : Load} {index index' : Index H} {sources : List SourceDoc}

lemma row_after_eq_none (src : SourceDoc) : rowAfter load index.documents src = none ↔
    Unread load index src ∧ index.documents.lookup src.id = none := by
  cases src with
  | unreadable id reason => simp [rowAfter, Unread, SourceDoc.id]
  | fingerprinted id sha =>
    by_cases hsame : (index.documents.lookup id).map Row.sourceSha256 = some sha
    · have hrow : index.documents.lookup id ≠ none := fun h => by simp [h] at hsame
      simp [rowAfter, Unread, SourceDoc.id, hsame, hrow]
    · cases hload : load id with
      | error failure => simp [rowAfter, Unread, SourceDoc.id, hsame, hload]
      | ok loaded => simp [rowAfter, Unread, hsame, hload]

lemma covered_after_iff (src : SourceDoc) : ((rowAfter load index.documents src).isSome ∧
    reasonAfter load index.documents index.readMetaReasonsIfPresent src = none) ↔
      Answered load index src := by
  cases src with
  | unreadable id reason => simp [reasonAfter, Answered]
  | fingerprinted id sha =>
    by_cases hsame : (index.documents.lookup id).map Row.sourceSha256 = some sha
    · have hrow : (index.documents.lookup id).isSome := by
        obtain ⟨row, hrow, -⟩ := Option.map_eq_some_iff.mp hsame
        rw [hrow]
        rfl
      simp [rowAfter, reasonAfter, Answered, hsame, hrow]
    · cases hload : load id with
      | error failure => simp [rowAfter, reasonAfter, Answered, hsame, hload]
      | ok loaded =>
        simp [rowAfter, reasonAfter, Answered, hsame, hload, DocText.isIndexable]

lemma reason_after_of_unread {src : SourceDoc} (h : Unread load index src) :
    (reasonAfter load index.documents index.readMetaReasonsIfPresent src).isSome := by
  cases src with
  | unreadable id reason => rfl
  | fingerprinted id sha =>
    obtain ⟨hsame, failure, hload⟩ := h
    rw [(after_failed index.readMetaReasonsIfPresent hsame hload).2]
    rfl

lemma card_sub_eq_card_sdiff {α : Type*} [DecidableEq α] (A K : Finset α) :
    A.card - K.card = (A \ K).card ↔ K ⊆ A ∨ A ⊆ K := by
  have hA := Finset.card_sdiff_add_card_inter A K
  have hK := Finset.card_sdiff_add_card_inter K A
  rw [Finset.inter_comm] at hK
  rw [← Finset.sdiff_eq_empty_iff_subset, ← Finset.sdiff_eq_empty_iff_subset (s := A),
    ← Finset.card_eq_zero, ← Finset.card_eq_zero (s := A \ K)]
  omega

namespace Built

variable (hb : Built load index sources index') {summary : IndexSummary}
  (hs : index'.summary = some summary)
include hb hs

lemma summary_eq : summary.ids = (index'.documents.map Prod.fst).toFinset ∧
    summary.notIndexable = index'.readMetaReasonsIfPresent := by
  obtain ⟨record, hrecord⟩ := Option.isSome_iff_exists.mp hb.recorded
  rw [Index.summary, hrecord, Option.map_some] at hs
  obtain rfl := Option.some.inj hs
  refine ⟨rfl, ?_⟩
  rw [Index.readMetaReasonsIfPresent, hrecord]
  rfl

lemma mem_ids (id : Text) : id ∈ summary.ids ↔ (index'.documents.lookup id).isSome := by
  rw [(hb.summary_eq hs).1, List.mem_toFinset, List.mem_map, Option.isSome_iff_exists]
  constructor
  · rintro ⟨x, hx, rfl⟩
    exact ⟨x.2, (lookup_eq_some_iff_mem hb.wellformed.rowsNodup).mpr hx⟩
  · rintro ⟨row, hrow⟩
    exact ⟨(id, row), (lookup_eq_some_iff_mem hb.wellformed.rowsNodup).mp hrow, rfl⟩

lemma covers_iff (id : Text) : summary.covers id = true ↔
    (index'.documents.lookup id).isSome ∧ index'.readMetaReasonsIfPresent.lookup id = none := by
  rw [IndexSummary.covers, Bool.and_eq_true, decide_eq_true_iff, hb.mem_ids hs,
    (hb.summary_eq hs).2, Option.isNone_iff_eq_none]

lemma covers_source {src : SourceDoc} (hsrc : src ∈ sources) :
    summary.covers src.id = true ↔ Answered load index src := by
  rw [hb.covers_iff hs, hb.row src hsrc, hb.reason src hsrc, covered_after_iff]

lemma mem_reasons (id : Text) : id ∈ (summary.notIndexable.map Prod.fst).toFinset ↔
    (index'.readMetaReasonsIfPresent.lookup id).isSome := by
  rw [(hb.summary_eq hs).2, List.mem_toFinset, List.mem_map, Option.isSome_iff_exists]
  constructor
  · rintro ⟨x, hx, rfl⟩
    exact ⟨x.2, (lookup_eq_some_iff_mem hb.wellformed.reasonsNodup).mpr hx⟩
  · rintro ⟨reason, hreason⟩
    exact ⟨(id, reason), (lookup_eq_some_iff_mem hb.wellformed.reasonsNodup).mp hreason, rfl⟩

lemma reasons_subset_iff : (summary.notIndexable.map Prod.fst).toFinset ⊆ summary.ids ↔
    ∀ src ∈ sources, Unread load index src → (index.documents.lookup src.id).isSome := by
  constructor
  · intro hsub src hsrc hunread
    by_contra hnone
    rw [Bool.not_eq_true, Option.isSome_eq_false_iff, Option.isNone_iff_eq_none] at hnone
    have hreason : src.id ∈ (summary.notIndexable.map Prod.fst).toFinset := by
      rw [hb.mem_reasons hs, hb.reason src hsrc]
      exact reason_after_of_unread hunread
    have hrow := (hb.mem_ids hs src.id).mp (hsub hreason)
    rw [hb.row src hsrc, (row_after_eq_none src).mpr ⟨hunread, hnone⟩] at hrow
    cases hrow
  · intro hrows id hid
    have hreason := (hb.mem_reasons hs id).mp hid
    by_cases hsource : id ∈ sources.map SourceDoc.id
    · obtain ⟨src, hsrc, rfl⟩ := List.mem_map.mp hsource
      rw [hb.mem_ids hs, hb.row src hsrc, Option.isSome_iff_ne_none, ne_eq, row_after_eq_none]
      rintro ⟨hunread, hnone⟩
      have := hrows src hsrc hunread
      rw [hnone] at this
      cases this
    · rw [hb.noReason id hsource] at hreason
      cases hreason

lemma subset_reasons_iff : summary.ids ⊆ (summary.notIndexable.map Prod.fst).toFinset ↔
    ∀ src ∈ sources, ¬ Answered load index src := by
  constructor
  · intro hsub src hsrc hanswered
    obtain ⟨hrow, hnone⟩ := (hb.covers_iff hs src.id).mp ((hb.covers_source hs hsrc).mpr hanswered)
    have hreason := (hb.mem_reasons hs src.id).mp (hsub ((hb.mem_ids hs src.id).mpr hrow))
    rw [hnone] at hreason
    cases hreason
  · intro hnone id hid
    have hrow := (hb.mem_ids hs id).mp hid
    by_cases hsource : id ∈ sources.map SourceDoc.id
    · obtain ⟨src, hsrc, rfl⟩ := List.mem_map.mp hsource
      rw [hb.mem_reasons hs, Option.isSome_iff_ne_none]
      exact fun hreason => hnone src hsrc ((hb.covers_source hs hsrc).mp
        ((hb.covers_iff hs src.id).mpr ⟨hrow, hreason⟩))
    · rw [hb.noRow id hsource] at hrow
      cases hrow

/-- The number that `indexable` reports is that of the covered ids exactly when every reason has a row
or nothing is covered. -/
lemma indexable_iff : summary.indexable = (summary.ids.filter fun id => summary.covers id).card ↔
    (∀ src ∈ sources, Unread load index src → (index.documents.lookup src.id).isSome) ∨
      ∀ src ∈ sources, ¬ Answered load index src := by
  have hcovered : (summary.ids.filter fun id => summary.covers id) =
      summary.ids \ (summary.notIndexable.map Prod.fst).toFinset := by
    ext id
    rw [Finset.mem_filter, Finset.mem_sdiff, hb.covers_iff hs, hb.mem_reasons hs, hb.mem_ids hs,
      Bool.not_eq_true, Option.isSome_eq_false_iff, Option.isNone_iff_eq_none]
    exact ⟨fun h => ⟨h.1, h.2.2⟩, fun h => ⟨h.1, h.1, h.2⟩⟩
  have hnodup : (summary.notIndexable.map Prod.fst).Nodup := by
    rw [(hb.summary_eq hs).2]
    exact hb.wellformed.reasonsNodup
  have hlength : summary.notIndexable.length =
      (summary.notIndexable.map Prod.fst).toFinset.card := by
    rw [List.toFinset_card_of_nodup hnodup, List.length_map]
  rw [IndexSummary.indexable, hcovered, hlength, card_sub_eq_card_sdiff,
    hb.reasons_subset_iff hs, hb.subset_reasons_iff hs]

lemma fingerprinted_iff (hw : Wellformed index) :
    (∀ id sha, .fingerprinted id sha ∈ sources → (summary.covers id = true ↔
      ∃ row, index'.documents.lookup id = some row ∧ row.readable = true ∧
        row.sourceSha256 = sha)) ↔ NoneCameBack index sources := by
  refine forall_congr' fun id => forall_congr' fun sha => forall_congr' fun hsrc => ?_
  have hcovers : summary.covers id = true ↔ Answered load index (.fingerprinted id sha) :=
    hb.covers_source hs hsrc
  have hrow : index'.documents.lookup id =
      rowAfter load index.documents (.fingerprinted id sha) := hb.row _ hsrc
  rw [hcovers, hrow]
  by_cases hsame : (index.documents.lookup id).map Row.sourceSha256 = some sha
  · obtain ⟨row, hlookup, rfl⟩ := Option.map_eq_some_iff.mp hsame
    rw [(after_unchanged index.readMetaReasonsIfPresent hsame).1, hlookup]
    have hanswered : Answered load index (.fingerprinted id row.sourceSha256) ↔
        index.readMetaReasonsIfPresent.lookup id = none := by
      simp [Answered, hlookup]
    have hunread : row.readable = false →
        index.readMetaReasonsIfPresent.lookup id ≠ none := fun hread =>
      Option.isSome_iff_ne_none.mp (hw.unreadRow id row hlookup hread)
    rw [hanswered]
    cases hread : row.readable with
    | true => simp [hread]
    | false => simp [hread, hunread hread]
  · have hother : ∀ row, index.documents.lookup id = some row → row.sourceSha256 ≠ sha :=
      fun row hlookup heq => hsame (by rw [hlookup, Option.map_some, heq])
    refine iff_of_true ?_ fun row hlookup heq => absurd heq (hother row hlookup)
    cases hload : load id with
    | error failure =>
      rw [(after_failed index.readMetaReasonsIfPresent hsame hload).1]
      simp only [Answered, hload, hsame, false_and, reduceCtorEq, exists_false, and_false, or_self,
        false_iff, not_exists, not_and]
      exact fun row hlookup _ => hother row hlookup
    | ok loaded =>
      rw [(after_loaded index.readMetaReasonsIfPresent hsame hload).1]
      simp [Answered, hload, hsame, rowOf]

theorem exact_iff (hw : Wellformed index) : Exact sources index' summary ↔
    NoneCameBack index sources ∧
      ((∀ src ∈ sources, Unread load index src → (index.documents.lookup src.id).isSome) ∨
        ∀ src ∈ sources, ¬ Answered load index src) := by
  rw [← hb.fingerprinted_iff hs hw, ← hb.indexable_iff hs]
  constructor
  · exact fun h => ⟨h.fingerprinted, h.indexable⟩
  · rintro ⟨hfingerprinted, hindexable⟩
    refine ⟨hfingerprinted, fun id reason hsrc => ?_, hb.noRow, fun id hid => ?_, hindexable⟩
    · rw [← Bool.not_eq_true]
      exact fun hcovers => (hb.covers_source hs hsrc).mp hcovers
    · rw [(hb.summary_eq hs).2]
      exact hb.noReason id hid

end Built

end Step

lemma wellformed_buildStep {index : Index H} (hw : Wellformed index) (call : Build) :
    Wellformed (buildStep index call) := by
  rw [buildStep]
  split
  next =>
    obtain ⟨index', stats, hbuild, hb⟩ := build_built hw call.distinct
    rw [hbuild]
    exact hb.wellformed
  next => exact hw

/-- What a call owes: exact coverage once it commits, no change without. -/
def CallExact (index : Index H) (call : Build) : Prop :=
  (call.commits = true → ∃ summary, (buildStep index call).summary = some summary ∧
    Exact call.sources (buildStep index call) summary) ∧
  (call.commits = false → buildStep index call = index)

lemma callExact_iff {index : Index H} (hw : Wellformed index) (call : Build) :
    CallExact index call ↔ Accounted index call := by
  cases hcommits : call.commits with
  | false => simp [CallExact, Accounted, buildStep, hcommits]
  | true =>
    obtain ⟨index', stats, hbuild, hb⟩ := build_built hw call.distinct
    have hstep : buildStep index call = index' := by rw [buildStep, if_pos hcommits, hbuild]
    obtain ⟨summary, hs⟩ : ∃ summary, index'.summary = some summary := by
      obtain ⟨record, hrecord⟩ := Option.isSome_iff_exists.mp hb.recorded
      exact ⟨_, by rw [Index.summary, hrecord, Option.map_some]⟩
    rw [Accounted, CallExact, hstep, hs, ← hb.exact_iff hs hw]
    simp [hcommits]

/-- In a sequence of builds the coverage is exact after every one of them exactly when every one
accounts for its sources. -/
theorem coverage_exact_iff (calls : List Build) :
    StepRun.Along buildStep CallExact (Index.created : Index H) calls ↔
      StepRun.Along buildStep Accounted (Index.created : Index H) calls := by
  suffices h : ∀ index : Index H, Wellformed index →
      (StepRun.Along buildStep CallExact index calls ↔
        StepRun.Along buildStep Accounted index calls) from h _ wellformed_created
  induction calls with
  | nil => simp
  | cons call calls ih =>
    intro index hw
    rw [StepRun.along_cons, StepRun.along_cons, callExact_iff hw,
      ih _ (wellformed_buildStep hw call)]

def loadAllButB : Load := fun id =>
  if id = "m/b".toList then .error ⟨0, "unreadable shard".toList⟩
  else .ok ⟨⟨"title".toList, "synthetic body".toList, [0], none, 0⟩, 14⟩

def callOf (sources : List SourceDoc) (h : (sources.map SourceDoc.id).Nodup) : Build :=
  ⟨sources, h, loadAllButB, true⟩

/-- A session that is read, cannot be described once and then comes back unchanged stays uncovered;
beside a session that was never read, a covered one is not counted. -/
theorem coverage_not_exact :
    ¬ StepRun.Along buildStep CallExact (Index.created : Index Sha256.verbatim)
        [callOf [.fingerprinted "m/a".toList "f1".toList] (by decide),
          callOf [.unreadable "m/a".toList "no content ids".toList] (by decide),
          callOf [.fingerprinted "m/a".toList "f1".toList] (by decide)] ∧
      ¬ StepRun.Along buildStep CallExact (Index.created : Index Sha256.verbatim)
        [callOf [.fingerprinted "m/a".toList "f1".toList,
          .fingerprinted "m/b".toList "f2".toList] (by decide)] := by
  constructor
  · rintro ⟨-, -, hexact, -⟩
    obtain ⟨summary, hs, hexact⟩ := hexact.1 rfl
    have hrow : ∃ row, (buildStep (buildStep (buildStep (Index.created : Index Sha256.verbatim)
        (callOf [.fingerprinted "m/a".toList "f1".toList] (by decide)))
        (callOf [.unreadable "m/a".toList "no content ids".toList] (by decide)))
        (callOf [.fingerprinted "m/a".toList "f1".toList] (by decide))).documents.lookup
          "m/a".toList = some row ∧ row.readable = true ∧ row.sourceSha256 = "f1".toList :=
      ⟨_, rfl, rfl, rfl⟩
    have hcovers := (hexact.fingerprinted _ _ (List.mem_singleton_self _)).mpr hrow
    obtain rfl := Option.some.inj hs
    revert hcovers
    decide +kernel
  · rintro ⟨hexact, -⟩
    obtain ⟨summary, hs, hexact⟩ := hexact.1 rfl
    have hcount := hexact.indexable
    obtain rfl := Option.some.inj hs
    revert hcount
    decide +kernel

end ChatStasher.Fulltext
