import ChatStasher.Store.Reseal

/-! The cumulative read depends on which entries each snapshot holds, not on the order of a listing. -/
namespace ChatStasher

section Ambiguity

lemma exists_paths_of_ambiguous (entries : List ArchiveEntry) {s : ℕ} :
    (∀ path, (entries.foldl noteSequencePath ([], [])).1.lookup s = some path →
        ∃ e ∈ entries, parseShardSeq e.shard = some s ∧ e.path = path) ∧
      (s ∈ (entries.foldl noteSequencePath ([], [])).2 → ∃ e ∈ entries, ∃ e' ∈ entries,
        parseShardSeq e.shard = some s ∧ parseShardSeq e'.shard = some s ∧ e.path ≠ e'.path) := by
  induction entries using List.reverseRecOn with
  | nil => exact ⟨nofun, nofun⟩
  | append_singleton entries x ih =>
    rw [List.foldl_append, List.foldl_cons, List.foldl_nil]
    obtain ⟨hpaths, hambiguous⟩ := ih
    generalize entries.foldl noteSequencePath ([], []) = seen at hpaths hambiguous ⊢
    have hold : ∀ path, seen.1.lookup s = some path →
        ∃ e ∈ entries ++ [x], parseShardSeq e.shard = some s ∧ e.path = path := fun path hpath => by
      obtain ⟨e, he, hs⟩ := hpaths path hpath
      exact ⟨e, List.mem_append_left _ he, hs⟩
    have hboth : s ∈ seen.2 → ∃ e ∈ entries ++ [x], ∃ e' ∈ entries ++ [x],
        parseShardSeq e.shard = some s ∧ parseShardSeq e'.shard = some s ∧ e.path ≠ e'.path :=
      fun hs => by
        obtain ⟨e, he, e', he', hne⟩ := hambiguous hs
        exact ⟨e, List.mem_append_left _ he, e', List.mem_append_left _ he', hne⟩
    have hx : x ∈ entries ++ [x] := List.mem_append_right _ List.mem_cons_self
    cases hparse : parseShardSeq x.shard with
    | none =>
      simp only [noteSequencePath, hparse]
      exact ⟨hold, hboth⟩
    | some t =>
      simp only [noteSequencePath, hparse]
      by_cases hst : s = t
      · subst hst
        refine ⟨fun path hpath => ?_, fun hs => ?_⟩
        · rw [List.lookup_cons_self, Option.some.injEq] at hpath
          exact ⟨x, hx, hparse, hpath⟩
        · split at hs
          next hany =>
            obtain ⟨path, hpath, hne⟩ := (Option.any_eq_true ..).mp hany
            obtain ⟨e, he, hs, rfl⟩ := hold path hpath
            exact ⟨e, he, x, hx, hs, hparse, of_decide_eq_true hne⟩
          next => exact hboth hs
      · refine ⟨fun path hpath => ?_, fun hs => hboth ?_⟩
        · rw [List.lookup_cons, beq_eq_false_iff_ne.mpr hst] at hpath
          exact hold path hpath
        · split at hs
          next => exact (List.mem_cons.mp hs).resolve_left hst
          next => exact hs

theorem mem_ambiguousSequences_iff {snapshots : List (List ArchiveEntry)} {s : ℕ} :
    s ∈ ambiguousSequences snapshots ↔ ∃ e ∈ snapshots.flatten, ∃ e' ∈ snapshots.flatten,
      parseShardSeq e.shard = some s ∧ parseShardSeq e'.shard = some s ∧ e.path ≠ e'.path := by
  constructor
  · exact (exists_paths_of_ambiguous _).2
  · rintro ⟨e, he, e', he', hs, hs', hne⟩
    exact mem_ambiguousSequences he he' hs hs' hne

end Ambiguity

section Order
variable {snapshots snapshots' : List (List ArchiveEntry)}

/-- Two listings of the same snapshots: each gives the same entries, in whatever order. -/
def SameEntries : List (List ArchiveEntry) → List (List ArchiveEntry) → Prop :=
  List.Forall₂ fun a b => ∀ e, e ∈ a ↔ e ∈ b

lemma SameEntries.mem_flatten (h : SameEntries snapshots snapshots') (e : ArchiveEntry) :
    e ∈ snapshots.flatten ↔ e ∈ snapshots'.flatten := by
  induction h with
  | nil => exact Iff.rfl
  | cons hab _ ih => rw [List.flatten_cons, List.flatten_cons, List.mem_append, List.mem_append,
      hab, ih]

lemma SameEntries.heldEntries_eq (h : SameEntries snapshots snapshots')
    (hapart : ∀ entries ∈ snapshots, IdentitiesApart entries) :
    heldEntries snapshots = heldEntries snapshots' := by
  let keyed : ArchiveEntry → (ℕ ×ₗ FileName) × ArchiveEntry := fun e => (archiveShardIdentity e, e)
  have hbatches : List.Forall₂ (fun a b => ∀ x, x ∈ a ↔ x ∈ b)
      (snapshots.map fun entries => entries.map keyed)
      (snapshots'.map fun entries => entries.map keyed) := by
    rw [List.forall₂_map_left_iff, List.forall₂_map_right_iff]
    exact h.imp fun a b hab x => by simp only [List.mem_map, hab]
  have hfun : ∀ a ∈ snapshots.map fun entries => entries.map keyed, ∀ x ∈ a, ∀ y ∈ a,
      x.1 = y.1 → x = y := by
    intro a ha x hx y hy hkey
    obtain ⟨entries, hentries, rfl⟩ := List.mem_map.mp ha
    obtain ⟨e, he, rfl⟩ := List.mem_map.mp hx
    obtain ⟨e', he', rfl⟩ := List.mem_map.mp hy
    rw [hapart entries hentries e he e' he' hkey]
  have hmem := KeyedList.mem_foldl_orInsert_congr hbatches hfun fun x => Iff.rfl (a := x ∈ [])
  rw [heldEntries, heldEntries, List.map_flatten, List.map_flatten]
  refine congrArg (List.map Prod.snd) (KeyedList.inKeyOrder_eq (KeyedList.firstWins_nodup _)
    (KeyedList.inKeyOrder_sorted (KeyedList.firstWins_nodup _)) fun x => ?_)
  rw [KeyedList.mem_inKeyOrder]
  exact hmem x

theorem SameEntries.dumpCumulativeSession_eq (h : SameEntries snapshots snapshots')
    (hapart : ∀ entries ∈ snapshots, IdentitiesApart entries)
    (observed : List (Option ℕ × Bytes) → List ℕ) (collapses : Bool) :
    dumpCumulativeSession observed collapses snapshots =
      dumpCumulativeSession observed collapses snapshots' := by
  have hambiguous : ∀ s, s ∈ ambiguousSequences snapshots ↔ s ∈ ambiguousSequences snapshots' := by
    intro s
    simp only [mem_ambiguousSequences_iff, h.mem_flatten]
  rw [dumpCumulativeSession, dumpCumulativeSession, h.heldEntries_eq hapart]
  simp only [hambiguous]

end Order

end ChatStasher
