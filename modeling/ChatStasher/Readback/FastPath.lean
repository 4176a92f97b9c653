import Mathlib.Data.List.Pairwise
import ChatStasher.Readback.SessionRead
import ChatStasher.Store.UnionOrder

/-! The directories that the read of one session lists, against the full listing of a snapshot that the
writer laid out. -/
namespace ChatStasher.Readback
open Activity (DuplicateShardPolicy)

/-- A snapshot under the writer's own layout: its stage roots lie apart, sessions are held below a
root's `sessions` only, and provenance files below its `meta`, root by root. -/
structure WriterLayout (snap : Snapshot) : Prop where
  names : ∀ e ∈ snap.entries, e.1 ≠ [] ∧ ∀ name ∈ e.1, '/' ∉ name
  apart : snap.paths.Pairwise fun a b => ¬ a <+: b ∧ ¬ b <+: a
  sessions : ∀ e ∈ snap.entries, e.2.isFile = true → ∀ machine session shard,
    bucketShardPath e.1 = some (machine, session, shard) →
      ∃ stage ∈ snap.paths, ∃ rest, rest ≠ [] ∧
        e.1 = stage ++ [sessionsDir, machine, session] ++ rest
  provenance : ∀ machine,
    ((snap.entries.filter fun e => e.2.isFile && isProvenancePath e.1 machine).map Prod.fst).Sublist
      (snap.paths.map fun stage => stage ++ [metaDir, machine, provenanceFile])

section Listing
variable {readable : TreeId → Bool} {snap : Snapshot} {machine session : Ident}

def NodeAt (snap : Snapshot) (at_ : Path) (node : Node) : Prop :=
  (at_ = [] ∧ node = .dir snap.tree) ∨ (at_, node) ∈ snap.entries

lemma NodeAt.subtree_mem {at_ : Path} {node : Node} (h : NodeAt snap at_ node) {subtree : TreeId}
    (hsubtree : node.subtree = some subtree) : subtree ∈ snap.trees := by
  obtain ⟨-, rfl⟩ | hmem := h
  · obtain rfl := Option.some.inj hsubtree
    exact List.mem_cons_self
  · exact List.mem_cons_of_mem _ (List.mem_filterMap.mpr ⟨_, hmem, hsubtree⟩)

lemma mem_of_lookup {path : Path} {node : Node} (h : snap.entries.lookup path = some node) :
    (path, node) ∈ snap.entries :=
  (KeyedList.lookup_eq_some_iff_mem snap.paths_nodup).mp h

variable (hread : ∀ tree ∈ snap.trees, readable tree = true)
include hread

lemma child_eq {at_ : Path} {dir : Node} (h : NodeAt snap at_ dir) (name : FileName) :
    child readable snap at_ dir name =
      .ok (if dir.subtree.isSome then snap.entries.lookup (at_ ++ [name]) else none) := by
  rw [child]
  cases hsubtree : dir.subtree with
  | none => rfl
  | some subtree =>
    dsimp only
    rw [if_pos (hread subtree (h.subtree_mem hsubtree))]
    rfl

lemma stageFrom_cases {at_ rest : Path} {dir : Node} (h : NodeAt snap at_ dir)
    (hdir : dir.subtree.isSome = true) :
    stageFrom readable snap dir at_ rest = .ok none ∨
      ∃ stageDir, stageFrom readable snap dir at_ rest = .ok (some stageDir) ∧
        NodeAt snap (at_ ++ rest) stageDir ∧ stageDir.subtree.isSome = true := by
  induction rest generalizing at_ dir with
  | nil => exact Or.inr ⟨dir, rfl, by rwa [List.append_nil], hdir⟩
  | cons name rest ih =>
    rw [stageFrom, child_eq hread h name, if_pos hdir]
    cases hlookup : snap.entries.lookup (at_ ++ [name]) with
    | none => exact Or.inl rfl
    | some node =>
      cases node with
      | file | other => exact Or.inl rfl
      | dir subtree =>
        have hnode : NodeAt snap (at_ ++ [name]) (.dir subtree) := Or.inr (mem_of_lookup hlookup)
        obtain hnone | ⟨stageDir, hstage, hat, hsome⟩ := ih hnode rfl
        · exact Or.inl hnone
        · exact Or.inr ⟨stageDir, hstage, by simpa using hat, hsome⟩

omit hread

def below (snap : Snapshot) (base : Path) : List (Path × Node) :=
  snap.entries.filter fun e => base <+: e.1 ∧ e.1 ≠ base

lemma mem_below {base : Path} {e : Path × Node} :
    e ∈ below snap base ↔ e ∈ snap.entries ∧ base <+: e.1 ∧ e.1 ≠ base := by
  simp [below]

lemma below_eq_nil {base at_ : Path} (hat : at_ <+: base) (hne : at_ ≠ [])
    (hnot : ∀ subtree, (at_, Node.dir subtree) ∉ snap.entries) : below snap base = [] := by
  rw [List.eq_nil_iff_forall_not_mem]
  intro e he
  obtain ⟨hmem, hstart, hproper⟩ := mem_below.mp he
  obtain ⟨subtree, hsubtree⟩ := snap.within e hmem at_ (hat.trans hstart) hne fun h => hproper
    (hstart.eq_of_length_le (h ▸ hat.length_le)).symm
  exact hnot subtree hsubtree

lemma not_dir_of_lookup {at_ : Path} {found : Option Node}
    (hlookup : snap.entries.lookup at_ = found) (hnot : ∀ subtree, found ≠ some (.dir subtree))
    (subtree : TreeId) : (at_, Node.dir subtree) ∉ snap.entries := fun hmem =>
  hnot subtree (hlookup ▸ Snapshot.lookup_of_mem hmem)

include hread

lemma lsBelow_eq {base : Path} {subtree : TreeId} (h : (base, Node.dir subtree) ∈ snap.entries) :
    lsBelow readable snap base subtree = .ok (below snap base) := by
  have hnone : (subtree :: (below snap base).filterMap fun e => e.2.subtree).find?
      (fun tree => !readable tree) = none := by
    rw [List.find?_eq_none]
    intro tree htree
    suffices htrees : tree ∈ snap.trees by simp [hread tree htrees]
    rw [List.mem_cons] at htree
    obtain rfl | htree := htree
    · exact List.mem_cons_of_mem _ (List.mem_filterMap.mpr ⟨_, h, rfl⟩)
    · obtain ⟨e, he, hsubtree⟩ := List.mem_filterMap.mp htree
      exact List.mem_cons_of_mem _ (List.mem_filterMap.mpr ⟨e, (mem_below.mp he).1, hsubtree⟩)
  unfold below at hnone ⊢
  rw [lsBelow, hnone]

lemma sessionEntriesAt_eq {stage : Path} {sessions : TreeId}
    (h : (stage ++ [sessionsDir], Node.dir sessions) ∈ snap.entries) :
    sessionEntriesAt readable snap stage (.dir sessions) machine session =
      .ok (below snap (stage ++ [sessionsDir, machine, session])) := by
  have hnil : ∀ {at_ : Path} {found : Option Node}, at_ <+: stage ++ [sessionsDir, machine, session] →
      at_ ≠ [] → snap.entries.lookup at_ = found → (∀ subtree, found ≠ some (.dir subtree)) →
      below snap (stage ++ [sessionsDir, machine, session]) = [] := fun hat hne hlookup hnot =>
    below_eq_nil hat hne (not_dir_of_lookup hlookup hnot)
  unfold sessionEntriesAt
  dsimp only
  rw [child_eq hread (Or.inr h)]
  simp only [bind, Except.bind, Node.subtree, Option.isSome_some, if_true, List.append_assoc,
    List.cons_append, List.nil_append]
  cases hmachine : snap.entries.lookup (stage ++ [sessionsDir, machine]) with
  | none =>
    rw [hnil (by simp) (by simp) hmachine (by rintro _ ⟨⟩)]
  | some machineDir =>
    dsimp only
    rw [child_eq hread (Or.inr (mem_of_lookup hmachine))]
    cases machineDir with
    | file | other =>
      rw [hnil (by simp) (by simp) hmachine (by rintro _ ⟨⟩)]
      rfl
    | dir machineTree =>
      simp only [Node.subtree, Option.isSome_some, if_true, List.append_assoc, List.cons_append,
        List.nil_append]
      cases hsession : snap.entries.lookup (stage ++ [sessionsDir, machine, session]) with
      | none => rw [hnil (List.prefix_refl _) (by simp) hsession (by rintro _ ⟨⟩)]
      | some sessionDir =>
        cases sessionDir with
        | file | other => rw [hnil (List.prefix_refl _) (by simp) hsession (by rintro _ ⟨⟩)]
        | dir subtree => exact lsBelow_eq hread (mem_of_lookup hsession)

lemma provenanceEntriesAt_eq {stage : Path} {stageDir : Node} (h : NodeAt snap stage stageDir)
    (hdir : stageDir.subtree.isSome = true) :
    provenanceEntriesAt readable snap stage stageDir machine =
      .ok ((snap.entries.lookup (stage ++ [metaDir, machine, provenanceFile])).map fun file =>
        (stage ++ [metaDir, machine, provenanceFile], file)).toList := by
  have hnone : ∀ {at_ : Path} {found : Option Node},
      at_ <+: stage ++ [metaDir, machine, provenanceFile] → at_ ≠ [] →
      at_ ≠ stage ++ [metaDir, machine, provenanceFile] →
      snap.entries.lookup at_ = found → (∀ subtree, found ≠ some (.dir subtree)) →
      snap.entries.lookup (stage ++ [metaDir, machine, provenanceFile]) = none :=
    fun hat hne hproper hlookup hnot => by
      rw [Option.eq_none_iff_forall_ne_some]
      intro file hfile
      obtain ⟨subtree, hsubtree⟩ := snap.within _ (mem_of_lookup hfile) _ hat hne hproper
      exact not_dir_of_lookup hlookup hnot subtree hsubtree
  unfold provenanceEntriesAt
  rw [child_eq hread h, if_pos hdir]
  simp only [bind, Except.bind]
  cases hmeta : snap.entries.lookup (stage ++ [metaDir]) with
  | none => rw [hnone (by simp) (by simp) (by simp) hmeta nofun]; rfl
  | some metaNode =>
    dsimp only
    rw [child_eq hread (Or.inr (mem_of_lookup hmeta))]
    cases metaNode with
    | file | other => rw [hnone (by simp) (by simp) (by simp) hmeta nofun]; rfl
    | dir metaTree =>
      simp only [Node.subtree, Option.isSome_some, if_true, List.append_assoc, List.cons_append,
        List.nil_append]
      cases hmachine : snap.entries.lookup (stage ++ [metaDir, machine]) with
      | none => rw [hnone (by simp) (by simp) (by simp) hmachine nofun]; rfl
      | some machineNode =>
        dsimp only
        rw [child_eq hread (Or.inr (mem_of_lookup hmachine))]
        cases machineNode with
        | file | other => rw [hnone (by simp) (by simp) (by simp) hmachine nofun]; rfl
        | dir machineTree =>
          simp only [Node.subtree, Option.isSome_some, if_true, List.append_assoc, List.cons_append,
            List.nil_append]
          cases snap.entries.lookup (stage ++ [metaDir, machine, provenanceFile]) with
          | none => rfl
          | some file => rfl

/-- What the fast path reads below one stage root. -/
def stageListing (snap : Snapshot) (machine session : Ident) (wantProvenance : Bool)
    (stage : Path) : List (Path × Node) :=
  below snap (stage ++ [sessionsDir, machine, session]) ++
    if wantProvenance then
      ((snap.entries.lookup (stage ++ [metaDir, machine, provenanceFile])).map fun file =>
        (stage ++ [metaDir, machine, provenanceFile], file)).toList
    else []

lemma fastStageEntries_cases (wantProvenance : Bool) (stage : Path) :
    fastStageEntries readable snap machine session wantProvenance stage = .ok none ∨
      fastStageEntries readable snap machine session wantProvenance stage =
        .ok (some (stageListing snap machine session wantProvenance stage)) := by
  unfold fastStageEntries
  obtain hnone | ⟨stageDir, hstage, hat, hdir⟩ := @stageFrom_cases _ _ hread [] stage
    (.dir snap.tree) (Or.inl ⟨rfl, rfl⟩) rfl
  · rw [hnone]
    exact Or.inl rfl
  · rw [hstage]
    simp only [bind, Except.bind]
    rw [List.nil_append] at hat
    obtain ⟨stageTree, hstageTree⟩ := Option.isSome_iff_exists.mp hdir
    rw [hstageTree]
    dsimp only
    rw [hread stageTree (hat.subtree_mem hstageTree), if_neg (by simp)]
    split
    · exact Or.inl rfl
    · cases hsessions : snap.entries.lookup (stage ++ [sessionsDir]) with
      | none => exact Or.inl rfl
      | some sessions =>
        cases sessions with
        | file | other => exact Or.inl rfl
        | dir sessions =>
          dsimp only
          rw [sessionEntriesAt_eq hread (mem_of_lookup hsessions),
            provenanceEntriesAt_eq hread hat hdir]
          cases wantProvenance with
          | false => exact Or.inr rfl
          | true => exact Or.inr rfl

lemma fastFrom_cases (wantProvenance : Bool) (stages : List Path) :
    fastFrom readable snap machine session wantProvenance stages = .ok none ∨
      fastFrom readable snap machine session wantProvenance stages =
        .ok (some (stages.flatMap (stageListing snap machine session wantProvenance))) := by
  induction stages with
  | nil => exact Or.inr rfl
  | cons stage stages ih =>
    rw [fastFrom]
    obtain hstage | hstage := @fastStageEntries_cases _ _ machine session hread wantProvenance stage
    · rw [hstage]
      exact Or.inl rfl
    · rw [hstage]
      obtain hrest | hrest := ih
      · refine Or.inl ?_
        simp only [bind, Except.bind, hrest]
      · refine Or.inr ?_
        simp only [bind, Except.bind, hrest, List.flatMap_cons]

end Listing

section Compare
variable {snap : Snapshot} {machine session : Ident} {policy : DuplicateShardPolicy}

def fastListing (snap : Snapshot) (machine session : Ident) (wantProvenance : Bool) :
    List (Path × Node) :=
  snap.paths.flatMap (stageListing snap machine session wantProvenance)

lemma snapshotSessionEntries_cases {archive : Archive}
    (hread : ∀ tree ∈ snap.trees, archive.readable tree = true) (wantProvenance : Bool) :
    ∃ listing, snapshotSessionEntries archive machine session wantProvenance snap = .ok listing ∧
      (listing = snap.entries ∨ listing = fastListing snap machine session wantProvenance) := by
  have hfull : fullEntries archive snap = .ok snap.entries := by
    rw [fullEntries, Snapshot.ls_eq_ok hread]
    rfl
  unfold snapshotSessionEntries fastSessionEntries
  split
  · exact ⟨_, hfull, Or.inl rfl⟩
  · obtain hnone | hsome := @fastFrom_cases _ _ machine session hread wantProvenance snap.paths
    · rw [hnone]
      exact ⟨_, hfull, Or.inl rfl⟩
    · rw [hsome]
      exact ⟨_, rfl, Or.inr rfl⟩

lemma stageListing_subset (wantProvenance : Bool) (stage : Path) :
    stageListing snap machine session wantProvenance stage ⊆ snap.entries := by
  intro e he
  rw [stageListing, List.mem_append] at he
  obtain he | he := he
  · exact (mem_below.mp he).1
  · split at he
    · obtain ⟨file, hfile, rfl⟩ := Option.map_eq_some_iff.mp (Option.mem_toList.mp he)
      exact mem_of_lookup hfile
    · cases he

lemma fastListing_subset (wantProvenance : Bool) :
    fastListing snap machine session wantProvenance ⊆ snap.entries := by
  intro e he
  obtain ⟨stage, -, he⟩ := List.mem_flatMap.mp he
  exact stageListing_subset wantProvenance stage he

lemma archiveEntry_eq_some {e : Path × Node} {a : ArchiveEntry}
    (h : archiveEntry machine session policy e = some a) : e.2.isFile = true ∧
      bucketShardPath e.1 = some (machine, session, a.shard) ∧ a.path = pathText e.1 := by
  rw [archiveEntry] at h
  split at h
  · cases h
  next hfile =>
    split at h
    · cases h
    next foundMachine foundSession shard hpath =>
      split at h
      · cases h
      next hsame =>
        obtain rfl := Option.some.inj h
        rw [not_or, not_not, not_not] at hsame
        obtain ⟨rfl, rfl⟩ := hsame
        refine ⟨?_, hpath, rfl⟩
        cases hnode : e.2.isFile with
        | true => rfl
        | false => exact absurd (by simp [hnode]) hfile

lemma fastListing_archiveEntries (h : WriterLayout snap) (wantProvenance : Bool)
    (a : ArchiveEntry) :
    a ∈ (fastListing snap machine session wantProvenance).filterMap
        (archiveEntry machine session policy) ↔
      a ∈ snap.entries.filterMap (archiveEntry machine session policy) := by
  rw [List.mem_filterMap, List.mem_filterMap]
  constructor
  · rintro ⟨e, he, ha⟩
    exact ⟨e, fastListing_subset wantProvenance he, ha⟩
  · rintro ⟨e, he, ha⟩
    obtain ⟨hfile, hpath, -⟩ := archiveEntry_eq_some ha
    obtain ⟨stage, hstage, rest, hrest, heq⟩ := h.sessions e he hfile _ _ _ hpath
    refine ⟨e, List.mem_flatMap.mpr ⟨stage, hstage, List.mem_append_left _ ?_⟩, ha⟩
    exact mem_below.mpr ⟨he, heq ▸ List.prefix_append _ _, fun hsame => hrest (by simpa [hsame] using heq)⟩

lemma below_filter_metadata (h : WriterLayout snap) (hpolicy : policy.collapses = true)
    {stage : Path} (hstage : stage ∈ snap.paths) :
    (below snap (stage ++ [sessionsDir, machine, session])).filter (isMetadata machine policy) =
      [] := by
  rw [List.filter_eq_nil_iff]
  intro e he hmeta
  obtain ⟨hmem, hbelow, -⟩ := mem_below.mp he
  rw [isMetadata, hpolicy, Bool.true_and] at hmeta
  have hfound : e.1 ∈ (snap.entries.filter fun e =>
      e.2.isFile && isProvenancePath e.1 machine).map Prod.fst :=
    List.mem_map_of_mem (List.mem_filter.mpr ⟨hmem, hmeta⟩)
  obtain ⟨other, hother, heq⟩ := List.mem_map.mp ((h.provenance machine).subset hfound)
  have hstart : stage <+: e.1 := (List.prefix_append _ _).trans hbelow
  have hstart' : other <+: e.1 := heq ▸ List.prefix_append _ _
  have hsame : stage = other := by
    by_contra hne
    have : Std.Symm fun a b : Path => ¬ a <+: b ∧ ¬ b <+: a := ⟨fun _ _ hab => hab.symm⟩
    have hapart := h.apart.forall hstage hother hne
    obtain hle | hle := List.prefix_or_prefix_of_prefix hstart hstart'
    · exact hapart.1 hle
    · exact hapart.2 hle
  subst hsame
  rw [← heq, List.prefix_append_right_inj] at hbelow
  have hhead := (List.cons_prefix_cons.mp hbelow).1
  exact absurd hhead (by decide)

lemma fastListing_filter_metadata (h : WriterLayout snap) (hpolicy : policy.collapses = true) :
    (fastListing snap machine session true).filter (isMetadata machine policy) =
      snap.entries.filter (isMetadata machine policy) := by
  let file : Path → Option (Path × Node) := fun path =>
    ((snap.entries.lookup path).map fun node => (path, node)).filter (isMetadata machine policy)
  have hnodup : (snap.paths.map fun stage => stage ++ [metaDir, machine, provenanceFile]).Nodup :=
    List.pairwise_map.mpr (h.apart.imp fun {a b} hab hsame => hab.1 (by
      rw [List.append_cancel_right hsame]))
  have hentries : ((snap.entries.filter (isMetadata machine policy)).map Prod.fst).Sublist
      (snap.paths.map fun stage => stage ++ [metaDir, machine, provenanceFile]) := by
    have hsub := h.provenance machine
    have hsame : isMetadata machine policy = fun e : Path × Node =>
        e.2.isFile && isProvenancePath e.1 machine := by
      funext e
      rw [isMetadata, hpolicy, Bool.true_and]
    rw [hsame]
    exact hsub
  rw [← KeyedList.filterMap_eq_of_sublist (g := file) hnodup hentries, List.filterMap_map,
    fastListing, List.filter_flatMap, List.filterMap_eq_flatMap_toList]
  · refine List.flatMap_congr fun stage hstage => ?_
    rw [stageListing, List.filter_append, below_filter_metadata h hpolicy hstage, List.nil_append,
      if_pos rfl]
    exact Option.toList_filter.symm
  · intro path _ x
    rw [Option.filter_eq_some_iff, Option.map_eq_some_iff, List.mem_filter]
    constructor
    · rintro ⟨⟨node, hnode, rfl⟩, hmeta⟩
      exact ⟨⟨mem_of_lookup hnode, hmeta⟩, rfl⟩
    · rintro ⟨⟨hmem, hmeta⟩, rfl⟩
      exact ⟨⟨x.2, Snapshot.lookup_of_mem hmem, rfl⟩, hmeta⟩

end Compare

end ChatStasher.Readback
