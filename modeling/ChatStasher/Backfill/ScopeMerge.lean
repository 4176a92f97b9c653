import ChatStasher.Backfill.LegacyMove
import ChatStasher.Backfill.ScopeRuns
import Mathlib.Data.Finset.Card

/-! When a move of a scope loses nothing: what was under the scope and under the one that its
fingerprint names is under the latter, wherever the migration died before it came to its end. -/
namespace ChatStasher.ScopeMigration
open DebtRecords

section Facts

/-- What a row says of its conversation is said by another row. -/
structure Carries (row other : DebtRecord) : Prop where
  time : ∀ time, timeInRow other = some time → timeInRow row = some time
  listing : ∀ listing, listingInRow other = some listing → listingInRow row = some listing
  provenance : isChatGptProvenance other.chatgptProvenance →
    row.chatgptProvenance = other.chatgptProvenance

lemma Carries.refl (row : DebtRecord) : Carries row row :=
  ⟨fun _ h => h, fun _ h => h, fun _ => rfl⟩

lemma carries_seq {row other : DebtRecord} {n : ℕ} :
    Carries { row with seq := n } other ↔ Carries row other :=
  ⟨fun h => ⟨h.time, h.listing, h.provenance⟩, fun h => ⟨h.time, h.listing, h.provenance⟩⟩

/-- Of two rows of one id, the one that is kept says what the other one says. -/
def FactsAgree (source destination : Rows) : Prop :=
  ∀ id moved there, source.lookup id = some moved → destination.lookup id = some there →
    if there.state = .pending ∨ moved.state ≠ .pending then Carries there moved
    else Carries moved there

variable {locale : LocaleOrder} {source destination : Rows}
  (hsource : (source.map Prod.fst).Nodup) (hdestination : (destination.map Prod.fst).Nodup)

lemma placedBy_of_both {id : Ident} {moved there : DebtRecord}
    (hmoved : source.lookup id = some moved) (hthere : destination.lookup id = some there) :
    placedBy source destination id =
      if there.state = .pending ∨ moved.state ≠ .pending then some there else some moved := by
  rw [placedBy, hmoved, hthere]

lemma placedBy_cases {id : Ident} {kept : DebtRecord}
    (h : placedBy source destination id = some kept) :
    (source.lookup id = none ∧ destination.lookup id = some kept) ∨
      (source.lookup id = some kept ∧ destination.lookup id = none) ∨
      ∃ moved there, source.lookup id = some moved ∧ destination.lookup id = some there ∧
        kept = if there.state = .pending ∨ moved.state ≠ .pending then there else moved := by
  cases hmoved : source.lookup id with
  | none =>
    rw [placedBy, hmoved] at h
    exact Or.inl ⟨rfl, by cases hthere : destination.lookup id <;> simp_all⟩
  | some moved =>
    cases hthere : destination.lookup id with
    | none =>
      rw [placedBy, hmoved, hthere] at h
      exact Or.inr (Or.inl ⟨h, rfl⟩)
    | some there =>
      rw [placedBy_of_both hmoved hthere, ← apply_ite some] at h
      exact Or.inr (Or.inr ⟨moved, there, rfl, rfl, (Option.some.inj h).symm⟩)

include hsource hdestination

lemma lookup_mergedRows {id : Ident} {row : DebtRecord} :
    (mergedRows locale source destination).lookup id = some row →
      ∃ kept, placedBy source destination id = some kept ∧ ∃ n, row = { kept with seq := n } :=
  fun h => placedBy_of_mem locale hsource hdestination ((KeyedList.lookup_eq_some_iff_mem
    (nodup_mergedRows locale hsource hdestination)).mp h)

lemma exists_lookup_mergedRows {id : Ident} {kept : DebtRecord}
    (h : placedBy source destination id = some kept) :
    ∃ n, (mergedRows locale source destination).lookup id = some { kept with seq := n } := by
  obtain ⟨n, hmem⟩ := mem_of_placedBy locale hsource hdestination h
  exact ⟨n, (KeyedList.lookup_eq_some_iff_mem (nodup_mergedRows locale hsource hdestination)).mpr
    hmem⟩

theorem facts_iff : (∀ id row, (mergedRows locale source destination).lookup id = some row →
      ∀ rows ∈ [source, destination], ∀ row', rows.lookup id = some row' → Carries row row') ↔
    FactsAgree source destination := by
  constructor
  · intro h id moved there hmoved hthere
    have hplaced := placedBy_of_both hmoved hthere
    split
    · next hkept =>
      rw [if_pos hkept] at hplaced
      obtain ⟨n, hrow⟩ := @exists_lookup_mergedRows locale _ _ hsource hdestination _ _ hplaced
      exact carries_seq.mp (h id _ hrow source (by simp) moved hmoved)
    · next hkept =>
      rw [if_neg hkept] at hplaced
      obtain ⟨n, hrow⟩ := @exists_lookup_mergedRows locale _ _ hsource hdestination _ _ hplaced
      exact carries_seq.mp (h id _ hrow destination (by simp) there hthere)
  · intro h id row hrow rows hrows row' hrow'
    obtain ⟨kept, hplaced, n, rfl⟩ := lookup_mergedRows hsource hdestination hrow
    refine carries_seq.mpr ?_
    rw [List.mem_cons, List.mem_singleton] at hrows
    rcases placedBy_cases hplaced with ⟨hnone, hthere⟩ | ⟨hmoved, hnone⟩ |
      ⟨moved, there, hmoved, hthere, rfl⟩
    · rcases hrows with rfl | rfl
      · exact nomatch hnone.symm.trans hrow'
      · obtain rfl := Option.some.inj (hthere.symm.trans hrow')
        exact Carries.refl _
    · rcases hrows with rfl | rfl
      · obtain rfl := Option.some.inj (hmoved.symm.trans hrow')
        exact Carries.refl _
      · exact nomatch hnone.symm.trans hrow'
    · have hagree := h id moved there hmoved hthere
      rcases hrows with rfl | rfl
      · obtain rfl := Option.some.inj (hmoved.symm.trans hrow')
        split at hagree
        · next hkept => rwa [if_pos hkept]
        · next hkept =>
          rw [if_neg hkept]
          exact Carries.refl _
      · obtain rfl := Option.some.inj (hthere.symm.trans hrow')
        split at hagree
        · next hkept =>
          rw [if_pos hkept]
          exact Carries.refl _
        · next hkept => rwa [if_neg hkept]

lemma archived_mergedRows {id : Ident} {row : DebtRecord}
    (h : (mergedRows locale source destination).lookup id = some row)
    (hstate : row.state = .archived) :
    ∀ rows ∈ [source, destination], ∀ row', rows.lookup id = some row' →
      row'.state = .archived := by
  intro rows hrows row' hrow'
  have howed : ¬ row'.state = .pending := by
    intro hpending
    have hrow : id ∈ pendingIds (mergedRows locale source destination) := by
      rw [List.mem_cons, List.mem_singleton] at hrows
      refine (mem_pendingIds_mergedRows locale hsource hdestination).mpr ?_
      rcases hrows with rfl | rfl
      · exact Or.inl ((mem_pendingIds hsource).mpr ⟨row', hrow', hpending⟩)
      · exact Or.inr ((mem_pendingIds hdestination).mpr ⟨row', hrow', hpending⟩)
    obtain ⟨owed, howed, hstate'⟩ :=
      (mem_pendingIds (nodup_mergedRows locale hsource hdestination)).mp hrow
    obtain rfl := Option.some.inj (h.symm.trans howed)
    exact nomatch hstate.symm.trans hstate'
  cases hstate' : row'.state with
  | pending => exact absurd hstate' howed
  | archived => rfl

end Facts

section Opens

variable {s : Store} {scope : Ident}

lemma not_mismatched_openFromLegacy (key : ScopeKey) (rows : DebtRows)
    (legacy : Option LegacyBackfillState) :
    ¬ Mismatched (openFromLegacy key none ⟨rows, none, legacy⟩).2 := by
  cases legacy with
  | none => exact id
  | some record =>
    unfold openFromLegacy migrate
    simp only [stopsAt, Option.any_none, Bool.false_eq_true, if_false]
    split
    · rintro ⟨⟩
    · exact id

lemma mismatched_iff : Mismatched (openScope s scope) ↔
    ∃ header there, s.load (.current, scope) = some (.header header there) ∧
      (s.rows scope).length < header.pendingCount + header.archivedCount := by
  have hheld : (readDebtSet (debtRows (s.rows scope))).pending.length +
      (readDebtSet (debtRows (s.rows scope))).archived.length = (s.rows scope).length := by
    rw [readDebtSet, length_idsIn, (orderedRows_perm _).length_eq, debtRows, List.length_map]
  unfold openScope
  cases hload : s.load (.current, scope) with
  | none =>
    refine iff_of_false ?_ (by rintro ⟨_, _, h, _⟩; cases h)
    dsimp only
    cases s.load (.legacy, scope) with
    | none => exact not_mismatched_openFromLegacy _ _ _
    | some legacy =>
      cases legacy with
      | header header there => rintro ⟨⟩
      | legacyState state there =>
        dsimp only
        split
        · exact not_mismatched_openFromLegacy _ _ _
        · rintro ⟨⟩
      | other => rintro ⟨⟩
  | some value =>
    cases value with
    | header header there =>
      dsimp only
      unfold openHeaderLedger debtLossBetween
      simp only [stopsAt, Option.any_none, Bool.false_eq_true, if_false, hheld]
      by_cases hloss : header.pendingCount + header.archivedCount ≤ (s.rows scope).length
      · rw [if_pos hloss]
        refine iff_of_false id ?_
        rintro ⟨_, _, heq, hlt⟩
        obtain ⟨rfl, -⟩ := StoredState.header.inj (Option.some.inj heq)
        exact absurd hloss (Nat.not_le_of_lt hlt)
      · rw [if_neg hloss]
        exact iff_of_true rfl ⟨header, there, rfl, Nat.lt_of_not_le hloss⟩
    | legacyState state there => exact iff_of_false (by rintro ⟨⟩) (by rintro ⟨_, _, h, _⟩; cases h)
    | other => exact iff_of_false (by rintro ⟨⟩) (by rintro ⟨_, _, h, _⟩; cases h)

end Opens

section Claim

variable (key : AccountKey) (locale : LocaleOrder) (listable : Bool) (s : Store) (scope : Ident)

/-- What was under the scope, and under the one of its fingerprint, is under the latter. -/
structure MovedWhole (after : Store) : Prop where
  ids : ∀ id, id ∈ (after.rows (key.nextScope scope)).map Prod.fst ↔
    id ∈ (s.rows scope).map Prod.fst ∨ id ∈ (s.rows (key.nextScope scope)).map Prod.fst
  archived : ∀ id row, (after.rows (key.nextScope scope)).lookup id = some row →
    row.state = .archived → ∀ rows ∈ [s.rows scope, s.rows (key.nextScope scope)],
      ∀ row', rows.lookup id = some row' → row'.state = .archived
  order : ∀ rows ∈ [s.rows scope, s.rows (key.nextScope scope)],
    (pendingIds rows).Sublist (pendingIds (after.rows (key.nextScope scope)))
  facts : ∀ id row, (after.rows (key.nextScope scope)).lookup id = some row →
    ∀ rows ∈ [s.rows scope, s.rows (key.nextScope scope)],
      ∀ row', rows.lookup id = some row' → Carries row row'
  emptied : after.rows scope = []
  opens : ¬ Mismatched (openScope after (key.nextScope scope))

/-- The header that is under the new scope in the end: the one that is there, or the one of a scope
that is moved. -/
def HeaderKept (header : BackfillHeader) : Prop :=
  (∃ there, s.load (.current, key.nextScope scope) = some (.header header there)) ∨
    ((∀ header' there, s.load (.current, key.nextScope scope) ≠ some (.header header' there)) ∧
      Migrates listable s scope ∧ ∃ here, s.load (.current, scope) = some (.header header here))

/-- The scope has a key to be moved by, unless it has no row; of two rows of one id the kept one
says what the other says; the debts of both scopes are sorted by the numbers that the ids keep; and
the header that is kept records no more ids than there are. -/
structure Movable : Prop where
  named : s.rows scope = [] ∨ Migrates listable s scope
  facts : FactsAgree (s.rows scope) (s.rows (key.nextScope scope))
  order : Migrates listable s scope → ∀ rows ∈ [s.rows scope, s.rows (key.nextScope scope)],
    (pendingIds rows).Pairwise (SortsBefore locale (s.rows scope) (s.rows (key.nextScope scope)))
  counts : ∀ header, HeaderKept key listable s scope header →
    header.pendingCount + header.archivedCount ≤
      (((s.rows scope).map Prod.fst).toFinset ∪
        ((s.rows (key.nextScope scope)).map Prod.fst).toFinset).card

variable {key locale listable s scope}

lemma carried_eq_header {next : Ident} {there moved : Option StoredState}
    {header : BackfillHeader} :
    (∃ place, carried next there moved = some (.header header place)) ↔
      (∃ place, there = some (.header header place)) ∨
        ((∀ header' place, there ≠ some (.header header' place)) ∧
          ∃ place, moved = some (.header header place)) := by
  rcases there with _ | ⟨header', place'⟩ | ⟨state', place'⟩ | _ <;>
    rcases moved with _ | ⟨header'', place''⟩ | ⟨state'', place''⟩ | _ <;> simp [carried]

lemma length_mergedRows {source destination : Rows} (hsource : (source.map Prod.fst).Nodup)
    (hdestination : (destination.map Prod.fst).Nodup) :
    (mergedRows locale source destination).length =
      ((source.map Prod.fst).toFinset ∪ (destination.map Prod.fst).toFinset).card := by
  have hids : ((mergedRows locale source destination).map Prod.fst).toFinset =
      (source.map Prod.fst).toFinset ∪ (destination.map Prod.fst).toFinset := by
    ext id
    rw [List.mem_toFinset, Finset.mem_union, List.mem_toFinset, List.mem_toFinset,
      mem_keys_mergedRows locale hsource hdestination]
  rw [← hids, List.toFinset_card_of_nodup (nodup_mergedRows locale hsource hdestination),
    List.length_map]

lemma opens_iff {after : Store} {n : ℕ} (hlength : (after.rows scope).length = n) :
    ¬ Mismatched (openScope after scope) ↔
      ∀ header, (∃ there, after.load (.current, scope) = some (.header header there)) →
        header.pendingCount + header.archivedCount ≤ n := by
  rw [mismatched_iff, hlength]
  constructor
  · intro h header ⟨there, hthere⟩
    exact Nat.le_of_not_lt fun hlt => h ⟨header, there, hthere, hlt⟩
  · rintro h ⟨header, there, hthere, hlt⟩
    exact absurd (h header ⟨there, hthere⟩) (Nat.not_le_of_lt hlt)

lemma movedWhole_iff_of_not_migrates {after : Store} (h : WellKeyed key scope s)
    (hmigrates : ¬ Migrates listable s scope) (hsource : after.rows scope = s.rows scope)
    (hdestination : after.rows (key.nextScope scope) = s.rows (key.nextScope scope))
    (hrecord : after.load (.current, key.nextScope scope) =
      s.load (.current, key.nextScope scope)) :
    MovedWhole key s scope after ↔ Movable key locale listable s scope := by
  have hopens : s.rows scope = [] → (¬ Mismatched (openScope after (key.nextScope scope)) ↔
      ∀ header, HeaderKept key listable s scope header →
        header.pendingCount + header.archivedCount ≤
          (((s.rows scope).map Prod.fst).toFinset ∪
            ((s.rows (key.nextScope scope)).map Prod.fst).toFinset).card) := by
    intro hempty
    have hlength : (after.rows (key.nextScope scope)).length =
        (((s.rows scope).map Prod.fst).toFinset ∪
          ((s.rows (key.nextScope scope)).map Prod.fst).toFinset).card := by
      rw [hempty, List.map_nil, List.toFinset_nil, Finset.empty_union, hdestination,
        List.toFinset_card_of_nodup (h.rows _), List.length_map]
    rw [opens_iff hlength, hrecord]
    refine forall_congr' fun header => ?_
    simp only [HeaderKept, hmigrates, false_and, and_false, or_false]
  constructor
  · intro hmoved
    have hempty : s.rows scope = [] := hsource.symm.trans hmoved.emptied
    refine ⟨Or.inl hempty, fun id moved there hmem => ?_, fun hin => absurd hin hmigrates,
      (hopens hempty).mp hmoved.opens⟩
    rw [hempty] at hmem
    exact nomatch hmem
  · intro hmovable
    have hempty : s.rows scope = [] := hmovable.named.resolve_right hmigrates
    have hone : ∀ rows ∈ [s.rows scope, s.rows (key.nextScope scope)],
        rows = [] ∨ rows = after.rows (key.nextScope scope) := by
      intro rows hrows
      rw [List.mem_cons, List.mem_singleton] at hrows
      rcases hrows with rfl | rfl
      · exact Or.inl hempty
      · exact Or.inr hdestination.symm
    have hsame : ∀ id row, (after.rows (key.nextScope scope)).lookup id = some row →
        ∀ rows ∈ [s.rows scope, s.rows (key.nextScope scope)],
          ∀ row', rows.lookup id = some row' → row' = row := by
      intro id row hrow rows hrows row' hrow'
      rcases hone rows hrows with rfl | rfl
      · exact nomatch hrow'
      · exact Option.some.inj (hrow'.symm.trans hrow)
    refine ⟨fun id => ?_, fun id row hrow hstate rows hrows row' hrow' => ?_, fun rows hrows => ?_,
      fun id row hrow rows hrows row' hrow' => ?_, hsource.trans hempty,
      (hopens hempty).mpr hmovable.counts⟩
    · rw [hempty, hdestination, List.map_nil]
      simp
    · rw [hsame id row hrow rows hrows row' hrow', hstate]
    · rcases hone rows hrows with rfl | rfl
      · exact List.nil_sublist _
      · exact List.Sublist.refl _
    · rw [hsame id row hrow rows hrows row' hrow']
      exact Carries.refl row

theorem moved_whole_iff (key : AccountKey) (locale : LocaleOrder) (listable : Bool) (s : Store)
    (scope : Ident) (hscope : isRaw scope) (h : WellKeyed key scope s) (writes : ℕ) :
    MovedWhole key s scope (migrateAfterCrash key locale listable s writes) ↔
      Movable key locale listable s scope := by
  have houtcome := @migrateAfterCrash_outcome key locale listable scope s hscope h writes
  generalize migrateAfterCrash key locale listable s writes = after at houtcome ⊢
  by_cases hmigrates : Migrates listable s scope
  · rw [outcome_of_migrates hmigrates] at houtcome
    obtain ⟨hsource, hdestination, hrecord⟩ := Outcome.mk.inj houtcome
    have hrows := h.rows scope
    have hnext := h.rows (key.nextScope scope)
    have horder : (∀ rows ∈ [s.rows scope, s.rows (key.nextScope scope)],
        (pendingIds rows).Sublist (pendingIds (after.rows (key.nextScope scope)))) ↔
        ∀ rows ∈ [s.rows scope, s.rows (key.nextScope scope)], (pendingIds rows).Pairwise
          (SortsBefore locale (s.rows scope) (s.rows (key.nextScope scope))) := by
      refine forall₂_congr fun rows hmem => ?_
      rw [← hdestination]
      rw [List.mem_cons, List.mem_singleton] at hmem
      rcases hmem with rfl | rfl
      · exact pendingIds_sublist_iff locale hrows hnext hrows fun id hid =>
          (mem_pendingIds_mergedRows locale hrows hnext).mpr (Or.inl hid)
      · exact pendingIds_sublist_iff locale hrows hnext hnext fun id hid =>
          (mem_pendingIds_mergedRows locale hrows hnext).mpr (Or.inr hid)
    have hopens : ¬ Mismatched (openScope after (key.nextScope scope)) ↔
        ∀ header, HeaderKept key listable s scope header →
          header.pendingCount + header.archivedCount ≤
            (((s.rows scope).map Prod.fst).toFinset ∪
              ((s.rows (key.nextScope scope)).map Prod.fst).toFinset).card := by
      rw [opens_iff (hdestination ▸ length_mergedRows hrows hnext), ← hrecord]
      refine forall_congr' fun header => ?_
      rw [carried_eq_header, HeaderKept]
      simp only [hmigrates, true_and]
    have hfacts := @facts_iff locale _ _ hrows hnext
    constructor
    · intro hmoved
      exact ⟨Or.inr hmigrates, hfacts.mp (hdestination ▸ hmoved.facts),
        fun _ => horder.mp hmoved.order, hopens.mp hmoved.opens⟩
    · intro hmovable
      refine ⟨fun id => ?_, fun id row hrow hstate => ?_, horder.mpr (hmovable.order hmigrates), ?_,
        hsource.symm, hopens.mpr hmovable.counts⟩
      · rw [← hdestination]
        exact mem_keys_mergedRows locale hrows hnext
      · rw [← hdestination] at hrow
        exact archived_mergedRows hrows hnext hrow hstate
      · rw [← hdestination]
        exact hfacts.mpr hmovable.facts
  · rw [outcome_of_not_migrates hmigrates] at houtcome
    obtain ⟨hsource, hdestination, hrecord⟩ := Outcome.mk.inj houtcome
    exact movedWhole_iff_of_not_migrates h hmigrates hsource.symm hdestination.symm hrecord.symm

end Claim

section Finding

/-- An installation whose one workspace has the digest of zeros. -/
def zeroKey : AccountKey where
  fingerprintAccountId _ := List.replicate 64 '0'
  length_fingerprint _ := List.length_replicate
  hex _ := by decide

def codePointOrder : LocaleOrder where
  le a b := decide (a ≤ b)
  total a b := by simpa using le_total a b
  trans a b c := by simpa using le_trans

def rawScope : Ident := "chatgpt:team".toList

/-- A header and rows under a scope, and rows under the one of its fingerprint. -/
def sharedStore (moved there : Rows) : Store where
  rows scope :=
    if scope = rawScope then moved
    else if scope = zeroKey.nextScope rawScope then there
    else []
  records := [((.current, rawScope), .header ⟨1, 0⟩ rawScope)]
  targets := []

lemma wellKeyed_sharedStore {moved there : Rows} (hmoved : (moved.map Prod.fst).Nodup)
    (hthere : (there.map Prod.fst).Nodup) :
    WellKeyed zeroKey rawScope (sharedStore moved there) := by
  refine ⟨fun sc => ?_, List.nodup_singleton _, fun sc _ hknown _ => ?_⟩
  · unfold sharedStore
    dsimp only
    split
    · exact hmoved
    · split
      · exact hthere
      · exact List.nodup_nil
  · rcases hknown with ⟨layout, h⟩ | h
    · have hkey := PlacedMap.lookup_isSome_iff.mp h
      exact (Prod.mk.inj (List.mem_singleton.mp hkey)).2
    · exact absurd h List.not_mem_nil

def plainRow (state : DebtState) (seq : ℕ) : DebtRecord := ⟨state, seq, none, none, none, none⟩

def timedRow (state : DebtState) (seq : ℕ) : DebtRecord :=
  ⟨state, seq, some (.number 1), some (.text DebtTimeSource.listUpdate.name), none, none⟩

/-- A debt under the old scope, and another id that is archived under the new one. -/
def apartStore : Store :=
  sharedStore [("a".toList, timedRow .pending 1)] [("b".toList, plainRow .archived 1)]

lemma movable_apartStore : Movable zeroKey codePointOrder true apartStore rawScope := by
  have hmoved : apartStore.rows rawScope = [("a".toList, timedRow .pending 1)] := rfl
  have hthere : apartStore.rows (zeroKey.nextScope rawScope) =
      [("b".toList, plainRow .archived 1)] := rfl
  refine ⟨Or.inr ⟨.current, rfl⟩, fun id moved there hid hid' => ?_, fun _ rows hrows => ?_,
    fun header hkept => ?_⟩
  · have hin := List.mem_singleton.mp (PlacedMap.lookup_isSome_iff.mp
      (Option.isSome_iff_exists.mpr ⟨moved, hmoved ▸ hid⟩))
    have hin' := List.mem_singleton.mp (PlacedMap.lookup_isSome_iff.mp
      (Option.isSome_iff_exists.mpr ⟨there, hthere ▸ hid'⟩))
    exact absurd (hin.symm.trans hin') (by decide)
  · have hshort : (pendingIds rows).length ≤ 1 := by
      rw [List.mem_cons, List.mem_singleton] at hrows
      rcases hrows with rfl | rfl
      · decide +kernel
      · decide +kernel
    rcases hids : pendingIds rows with _ | ⟨id, _ | ⟨id', ids⟩⟩
    · exact List.Pairwise.nil
    · exact List.pairwise_singleton _ id
    · rw [hids] at hshort
      exact absurd hshort (by simp)
  · have hheader : header = ⟨1, 0⟩ := by
      rcases hkept with ⟨there, h⟩ | ⟨-, -, here, h⟩
      · exact nomatch h
      · exact (StoredState.header.inj (Option.some.inj h)).1.symm
    rw [hheader]
    decide +kernel

/-- Scopes that share no id are moved whole, also by a migration that died after its first write. -/
theorem apart_scopes_moved : MovedWhole zeroKey apartStore rawScope
    (migrateAfterCrash zeroKey codePointOrder true apartStore 1) :=
  (moved_whole_iff zeroKey codePointOrder true apartStore rawScope (by decide)
    (wellKeyed_sharedStore (by decide) (by decide)) 1).mpr movable_apartStore

/-- A conversation is owed under both scopes, and only the row of the old scope has its time. -/
def overlapStore : Store :=
  sharedStore [("a".toList, timedRow .pending 1)] [("a".toList, plainRow .pending 1)]

/-- The time is lost. -/
theorem overlap_loses_time : isRaw rawScope ∧ WellKeyed zeroKey rawScope overlapStore ∧
    ¬ MovedWhole zeroKey overlapStore rawScope
      (migrateAfterCrash zeroKey codePointOrder true overlapStore 0) := by
  refine ⟨by decide, wellKeyed_sharedStore (by decide) (by decide), fun h => ?_⟩
  have hrow : ((migrateAfterCrash zeroKey codePointOrder true overlapStore 0).rows
      (zeroKey.nextScope rawScope)).lookup "a".toList = some (plainRow .pending 1) := by
    decide +kernel
  have hmoved : (overlapStore.rows rawScope).lookup "a".toList = some (timedRow .pending 1) := rfl
  have htime := (h.facts _ _ hrow _ (by simp) _ hmoved).time ⟨1, .listUpdate⟩ (by decide +kernel)
  exact absurd htime (by decide +kernel)

end Finding

end ChatStasher.ScopeMigration
