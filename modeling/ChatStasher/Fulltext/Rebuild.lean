import ChatStasher.Fulltext.Coverage

/-! An index brought up to date build after build, against one that is built anew. -/
namespace ChatStasher.Fulltext
open Inbox (Text)
open KeyedList StepRun

variable {H : Sha256}

def textsOf (documents : List (Text × Row H)) : List (Text × Text × Text) :=
  documents.map fun x => (x.1, x.2.title, x.2.body)

lemma textsOf_filter (documents : List (Text × Row H)) (p : Text → Bool) :
    textsOf (documents.filter fun x => p x.1) = (textsOf documents).filter fun x => p x.1 := by
  rw [textsOf, textsOf, List.filter_map]
  rfl

lemma textsOf_put (documents : List (Text × Row H)) (id : Text) (row : Row H) :
    textsOf (put documents (id, row)) = put (textsOf documents) (id, row.title, row.body) := by
  rw [put, put, textsOf, List.map_append, ← textsOf, textsOf_filter documents fun k => k ≠ id]
  rfl

lemma recordLoaded_fts (b : Building H) (id : Text) (loaded : LoadedDoc) :
    (recordLoaded b id loaded).documentsFts = b.documentsFts := by
  unfold recordLoaded
  split <;> rfl

lemma readSource_texts {old : List (Text × Text)} {load : Load} {b b' : Building H}
    {src : SourceDoc} (h : b.documentsFts = textsOf b.documents)
    (hread : readSource old load b src = .ok b') : b'.documentsFts = textsOf b'.documents := by
  unfold readSource at hread
  split at hread
  · cases hread
  · cases src with
    | unreadable id reason =>
      obtain rfl := Except.ok.inj hread
      exact h
    | fingerprinted id sha =>
      dsimp only at hread
      split at hread
      · obtain rfl := Except.ok.inj hread
        exact h
      · cases hload : load id with
        | error failure =>
          rw [hload] at hread
          obtain rfl := Except.ok.inj hread
          exact h
        | ok loaded =>
          rw [hload] at hread
          obtain rfl := Except.ok.inj hread
          rw [recordLoaded_fts, recordLoaded_documents]
          exact (congrArg (put · _) h).trans
            (textsOf_put b.documents id (rowOf H sha loaded.text)).symm

lemma readSources_texts {old : List (Text × Text)} {load : Load} {sources : List SourceDoc}
    {b b' : Building H} (h : b.documentsFts = textsOf b.documents)
    (hread : sources.foldlM (readSource old load) b = .ok b') :
    b'.documentsFts = textsOf b'.documents := by
  induction sources generalizing b with
  | nil =>
    obtain rfl := Except.ok.inj hread
    exact h
  | cons src sources ih =>
    rw [List.foldlM_cons] at hread
    cases hfirst : readSource old load b src with
    | error e =>
      rw [hfirst] at hread
      cases hread
    | ok next =>
      rw [hfirst] at hread
      exact ih (readSource_texts h hfirst) hread

lemma buildStep_texts {index : Index H} (h : index.documentsFts = textsOf index.documents)
    (call : Build) : (buildStep index call).documentsFts = textsOf (buildStep index call).documents := by
  unfold buildStep
  split
  · unfold Index.build
    dsimp only
    cases hread : call.sources.foldlM (readSource _ call.load) _ with
    | error e => exact h
    | ok b =>
      have hb : b.documentsFts = textsOf b.documents := readSources_texts (by exact h) hread
      dsimp only
      rw [hb]
      exact (textsOf_filter b.documents fun k => decide (k ∉ _)).symm
  · exact h

/-- The load of a build answers every source, and for a fingerprint always alike. -/
def Loads (content : Text → Text → DocText) (call : Build) : Prop :=
  ∀ src ∈ call.sources, ∃ id sha loaded, src = .fingerprinted id sha ∧
    call.load id = .ok loaded ∧ loaded.text = content id sha

/-- Every row is the content at its fingerprint, and so is the reason recorded beside it. -/
def Synced (content : Text → Text → DocText) (index : Index H) : Prop :=
  ∀ id row, index.documents.lookup id = some row →
    row = rowOf H row.sourceSha256 (content id row.sourceSha256) ∧
      index.readMetaReasonsIfPresent.lookup id = (content id row.sourceSha256).notIndexable

/-- What every build leaves of an index that reads its sources. -/
structure Current (content : Text → Text → DocText) (index : Index H) : Prop
    extends Wellformed index where
  synced : Synced content index
  texts : index.documentsFts = textsOf index.documents

lemma current_created (content : Text → Text → DocText) :
    Current content (Index.created : Index H) where
  toWellformed := wellformed_created
  synced id row h := by cases h
  texts := rfl

section Rows
variable {content : Text → Text → DocText} {load : Load} {index index' : Index H}

lemma after_synced (hsynced : Synced content index) {id sha : Text} {loaded : LoadedDoc}
    (hload : load id = .ok loaded) (htext : loaded.text = content id sha) :
    rowAfter load index.documents (.fingerprinted id sha) = some (rowOf H sha (content id sha)) ∧
      reasonAfter load index.documents index.readMetaReasonsIfPresent (.fingerprinted id sha) =
        (content id sha).notIndexable := by
  by_cases hsame : (index.documents.lookup id).map Row.sourceSha256 = some sha
  · obtain ⟨row, hrow, rfl⟩ := Option.map_eq_some_iff.mp hsame
    obtain ⟨hcontent, hreason⟩ := hsynced id row hrow
    obtain ⟨hrow', hreason'⟩ := after_unchanged index.readMetaReasonsIfPresent hsame
    rw [hrow', hreason', hrow, hreason, ← hcontent]
    exact ⟨rfl, rfl⟩
  · obtain ⟨hrow, hreason⟩ := after_loaded index.readMetaReasonsIfPresent hsame hload
    rw [hrow, hreason, htext]
    exact ⟨rfl, rfl⟩

lemma buildStep_content (hw : Wellformed index) (hsynced : Synced content index) {call : Build}
    (hloads : Loads content call) (hcommits : call.commits = true) :
    (∀ id sha, .fingerprinted id sha ∈ call.sources →
      (buildStep index call).documents.lookup id = some (rowOf H sha (content id sha)) ∧
        (buildStep index call).readMetaReasonsIfPresent.lookup id =
          (content id sha).notIndexable) ∧
    ∀ id, id ∉ call.sources.map SourceDoc.id → (buildStep index call).documents.lookup id = none ∧
      (buildStep index call).readMetaReasonsIfPresent.lookup id = none := by
  obtain ⟨index', stats, hbuild, hb⟩ := @build_built H call.load index hw call.sources call.distinct
  have hstep : buildStep index call = index' := by rw [buildStep, if_pos hcommits, hbuild]
  rw [hstep]
  constructor
  · intro id sha hsrc
    obtain ⟨_, _, loaded, heq, hload, htext⟩ := hloads _ hsrc
    cases heq
    obtain ⟨hrow, hreason⟩ := after_synced (H := H) hsynced hload htext
    exact ⟨(hb.row _ hsrc).trans hrow, (hb.reason _ hsrc).trans hreason⟩
  · intro id hid
    exact ⟨hb.noRow id hid, hb.noReason id hid⟩

lemma Current.buildStep (h : Current content index) {call : Build} (hloads : Loads content call) :
    Current content (buildStep index call) where
  toWellformed := wellformed_buildStep h.toWellformed call
  texts := buildStep_texts h.texts call
  synced := by
    cases hcommits : call.commits with
    | false =>
      rw [Fulltext.buildStep, hcommits]
      exact h.synced
    | true =>
      obtain ⟨hsource, hother⟩ := buildStep_content h.toWellformed h.synced hloads hcommits
      intro id row hrow
      by_cases hid : id ∈ call.sources.map SourceDoc.id
      · obtain ⟨src, hsrc, rfl⟩ := List.mem_map.mp hid
        obtain ⟨id, sha, loaded, rfl, -, -⟩ := hloads src hsrc
        obtain ⟨hlookup, hreason⟩ := hsource id sha hsrc
        obtain rfl := Option.some.inj (hlookup.symm.trans hrow)
        exact ⟨rfl, hreason⟩
      · rw [(hother id hid).1] at hrow
        cases hrow

end Rows

lemma perm_of_lookup {K V : Type*} [BEq K] [LawfulBEq K] {m m' : List (K × V)}
    (h : (m.map Prod.fst).Nodup) (h' : (m'.map Prod.fst).Nodup)
    (heq : ∀ k, m.lookup k = m'.lookup k) : m.Perm m' := by
  apply (List.perm_ext_iff_of_nodup h.of_map h'.of_map).mpr
  rintro ⟨k, v⟩
  rw [← lookup_eq_some_iff_mem h, ← lookup_eq_some_iff_mem h', heq]

/-- An index that was brought up to date through any number of builds, some of them aborted, holds the
rows, the searched texts and the reasons of one built anew over the last sources. -/
theorem incremental_eq_rebuild (content : Text → Text → DocText) (calls : List Build) (last : Build)
    (hcalls : ∀ call ∈ calls, Loads content call) (hlast : Loads content last)
    (hcommits : last.commits = true) :
    let updated := exec buildStep (Index.created : Index H) (calls ++ [last])
    let rebuilt := buildStep (Index.created : Index H) last
    updated.documents.Perm rebuilt.documents ∧ updated.documentsFts.Perm rebuilt.documentsFts ∧
      ∀ id, updated.readMetaReasonsIfPresent.lookup id =
        rebuilt.readMetaReasonsIfPresent.lookup id := by
  have hcreated : Current content (Index.created : Index H) := current_created content
  have hrun : Current content (exec buildStep (Index.created : Index H) calls) :=
    invariant (fun _ _ h hloads => h.buildStep hloads) hcreated (along_of_forall hcalls)
  intro updated rebuilt
  have hupdated : updated = buildStep (exec buildStep (Index.created : Index H) calls) last :=
    exec_concat _ _ _ _
  obtain ⟨hsource, hother⟩ := buildStep_content hrun.toWellformed hrun.synced hlast hcommits
  obtain ⟨hsource', hother'⟩ :=
    buildStep_content hcreated.toWellformed hcreated.synced hlast hcommits
  have hlookup : ∀ id, updated.documents.lookup id = rebuilt.documents.lookup id ∧
      updated.readMetaReasonsIfPresent.lookup id = rebuilt.readMetaReasonsIfPresent.lookup id := by
    intro id
    rw [hupdated]
    by_cases hid : id ∈ last.sources.map SourceDoc.id
    · obtain ⟨src, hsrc, rfl⟩ := List.mem_map.mp hid
      obtain ⟨id, sha, loaded, rfl, -, -⟩ := hlast src hsrc
      exact ⟨(hsource id sha hsrc).1.trans (hsource' id sha hsrc).1.symm,
        (hsource id sha hsrc).2.trans (hsource' id sha hsrc).2.symm⟩
    · exact ⟨(hother id hid).1.trans (hother' id hid).1.symm,
        (hother id hid).2.trans (hother' id hid).2.symm⟩
  have hafter : Current content updated := hupdated ▸ hrun.buildStep hlast
  have hanew : Current content rebuilt := hcreated.buildStep hlast
  have hperm : updated.documents.Perm rebuilt.documents :=
    perm_of_lookup hafter.rowsNodup hanew.rowsNodup fun id => (hlookup id).1
  refine ⟨hperm, ?_, fun id => (hlookup id).2⟩
  rw [hafter.texts, hanew.texts]
  exact hperm.map _

/-- A session that changed and one that came in, under a load that reads both. -/
theorem updated_index_is_rebuilt :
    (exec buildStep (Index.created : Index Sha256.verbatim)
      ([callOf [.fingerprinted "m/a".toList "f1".toList] (by decide)] ++
        [callOf [.fingerprinted "m/a".toList "f2".toList, .fingerprinted "m/c".toList "f1".toList]
          (by decide)])).documents.Perm
      (buildStep (Index.created : Index Sha256.verbatim)
        (callOf [.fingerprinted "m/a".toList "f2".toList, .fingerprinted "m/c".toList "f1".toList]
          (by decide))).documents := by
  have hloads : ∀ id sha : Text, id ≠ "m/b".toList → ∃ id' sha' loaded,
      SourceDoc.fingerprinted id sha = .fingerprinted id' sha' ∧ loadAllButB id' = .ok loaded ∧
        loaded.text = ⟨"title".toList, "synthetic body".toList, [0], none, 0⟩ :=
    fun id sha hid => ⟨id, sha, _, rfl, if_neg hid, rfl⟩
  refine (incremental_eq_rebuild (fun _ _ =>
    ⟨"title".toList, "synthetic body".toList, [0], none, 0⟩) _ _ ?_ ?_ rfl).1
  · rintro call hcall src hsrc
    obtain rfl := List.mem_singleton.mp hcall
    obtain rfl := List.mem_singleton.mp hsrc
    exact hloads _ _ (by decide)
  · rintro src hsrc
    rcases List.mem_pair.mp hsrc with rfl | rfl
    · exact hloads _ _ (by decide)
    · exact hloads _ _ (by decide)

end ChatStasher.Fulltext
