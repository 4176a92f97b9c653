import ChatStasher.Collect.Facts
import ChatStasher.GrokBot.Pass
import ChatStasher.Library.Sorting
import Mathlib.Data.Char
import Mathlib.Data.Finset.Sort

/-! Grok Bot debts re-keyed from their source paths onto their sessions. -/
namespace ChatStasher.GrokBot
open Inbox (Text)

/-- One source's outstanding debt to one destination. -/
structure DebtEntry where
  machine : Text
  sessionId : Text
  cursor : OffsetEntry Text
  shards : ShardFact Text

abbrev Debts := SortedMap Text DebtEntry

def DebtEntry.delivered (entry : DebtEntry) : Option (List Text) := entry.cursor.grokBotRowDigests

def grokBotSessionDebtKey : Text := "grok-bot-session".toList

def grokBotSessionKey (sessionId : Text) : Text :=
  grokBotSessionDebtKey ++ Char.ofNat 0 :: sessionId

lemma grokBotSessionKey_injective : Function.Injective grokBotSessionKey := fun _ _ h =>
  (List.cons.inj (List.append_cancel_left h)).2

def isGrokBotSession (sessionId : Text) : Bool :=
  sessionId.takeWhile (· ≠ '.') = "grok-bot".toList

def debtAdvance (entry : DebtEntry) : ℕ × ℕ := (entry.shards.concatBytes, entry.shards.shardCount)

def behind (a b : ℕ × ℕ) : Bool := a.1 < b.1 || (a.1 == b.1 && a.2 < b.2)

def mostAdvanced (first : DebtEntry) (entries : List DebtEntry) : DebtEntry :=
  entries.foldl (fun primary entry =>
    if behind (debtAdvance primary) (debtAdvance entry) then entry else primary) first

/-- The union of what the entries proved they delivered, unknown if one of them does not know. -/
def unionDelivered (entries : List DebtEntry) : Option (List Text) :=
  if entries.any fun entry => entry.delivered.isNone then none
  else some (entries.flatMap fun entry => entry.delivered.getD []).toFinset.sort

/-- Merge one session's path-keyed entries into the one its session key will hold. -/
def mergeGrokBotSessionDebts (entries : List DebtEntry) : Option DebtEntry :=
  match entries with
  | [] => none
  | first :: _ =>
    let primary := mostAdvanced first entries
    some { primary with
      cursor := { primary.cursor with grokBotRowDigests := unionDelivered entries } }

/-- An entry of a Grok Bot session under another key than its session's. -/
def moved (e : Text × DebtEntry) : Bool :=
  e.1 ≠ grokBotSessionKey e.2.sessionId && isGrokBotSession e.2.sessionId

/-- Re-key this destination's Grok Bot debts onto their sessions. -/
def migrateGrokBotDebts (files : Debts) : Debts :=
  let kept := files.filter fun e => !moved e
  let bySession := SortedMap.groupBy (fun e : Text × DebtEntry => e.2.sessionId) Prod.snd
    (files.entries.filter moved)
  bySession.entries.foldl (fun files group =>
    match mergeGrokBotSessionDebts group.2 with
    | some merged => files.insert (grokBotSessionKey group.1) merged
    | none => files) kept

section Merge
variable {entries : List DebtEntry} {sessionId : Text}

lemma mostAdvanced_mem (first : DebtEntry) (entries : List DebtEntry) :
    mostAdvanced first entries = first ∨ mostAdvanced first entries ∈ entries := by
  rw [mostAdvanced]
  induction entries generalizing first with
  | nil => exact Or.inl rfl
  | cons entry entries ih =>
    rw [List.foldl_cons]
    rcases ih (if behind (debtAdvance first) (debtAdvance entry) then entry else first) with h | h
    · rw [h]
      split
      · exact Or.inr List.mem_cons_self
      · exact Or.inl rfl
    · exact Or.inr (List.mem_cons_of_mem entry h)

/-- What a set of delivered rows has to be: the union of those of some entries, unknown if one of them
is unknown. -/
def DeliveredUnion (entries : List DebtEntry) : Option (List Text) → Prop
  | none => ∃ entry ∈ entries, entry.delivered = none
  | some digests => (∀ entry ∈ entries, entry.delivered ≠ none) ∧
    ∀ x, x ∈ digests ↔ ∃ entry ∈ entries, ∃ rows, entry.delivered = some rows ∧ x ∈ rows

lemma unionDelivered_spec (entries : List DebtEntry) :
    DeliveredUnion entries (unionDelivered entries) := by
  rw [unionDelivered]
  split
  next h =>
    rw [List.any_eq_true] at h
    obtain ⟨entry, hmem, hnone⟩ := h
    exact ⟨entry, hmem, Option.isNone_iff_eq_none.mp hnone⟩
  next h =>
    rw [List.any_eq_true, not_exists] at h
    have hknown : ∀ entry ∈ entries, entry.delivered ≠ none := fun entry hmem hnone =>
      h entry ⟨hmem, Option.isNone_iff_eq_none.mpr hnone⟩
    refine ⟨hknown, fun x => ?_⟩
    rw [Finset.mem_sort, List.mem_toFinset, List.mem_flatMap]
    refine exists_congr fun entry => and_congr_right fun hmem => ?_
    obtain ⟨rows, hrows⟩ := Option.ne_none_iff_exists'.mp (hknown entry hmem)
    simp [hrows]

lemma mergeGrokBotSessionDebts_spec (hne : entries ≠ [])
    (hsession : ∀ entry ∈ entries, entry.sessionId = sessionId) :
    ∃ merged, mergeGrokBotSessionDebts entries = some merged ∧ merged.sessionId = sessionId ∧
      merged.delivered = unionDelivered entries := by
  cases entries with
  | nil => exact absurd rfl hne
  | cons first rest =>
    refine ⟨_, rfl, ?_, rfl⟩
    change (mostAdvanced first (first :: rest)).sessionId = sessionId
    rcases mostAdvanced_mem first (first :: rest) with h | h
    · rw [h]
      exact hsession first List.mem_cons_self
    · exact hsession _ h

end Merge

section Lookup
variable (files : Debts)

def movedOf (sessionId : Text) : List DebtEntry :=
  ((files.entries.filter moved).filter fun e => e.2.sessionId = sessionId).map Prod.snd

variable {files}

lemma mem_movedOf {sessionId : Text} {entry : DebtEntry} : entry ∈ movedOf files sessionId ↔
    entry.sessionId = sessionId ∧ isGrokBotSession sessionId = true ∧
      ∃ k, files.get k = some entry ∧ k ≠ grokBotSessionKey sessionId := by
  simp only [movedOf, List.mem_map, List.mem_filter, Prod.exists, moved, Bool.and_eq_true,
    decide_eq_true_eq, SortedMap.get_eq_some_iff]
  constructor
  · rintro ⟨k, e, ⟨⟨hmem, hkey, hgrok⟩, rfl⟩, rfl⟩
    exact ⟨rfl, hgrok, k, hmem, hkey⟩
  · rintro ⟨rfl, hgrok, k, hmem, hkey⟩
    exact ⟨k, entry, ⟨⟨hmem, hkey, hgrok⟩, rfl⟩, rfl⟩

lemma get_bySession (sessionId : Text) :
    (SortedMap.groupBy (fun e : Text × DebtEntry => e.2.sessionId) Prod.snd
      (files.entries.filter moved)).get sessionId =
        if movedOf files sessionId = [] then none else some (movedOf files sessionId) := by
  rw [SortedMap.get_groupBy, movedOf]
  cases (files.entries.filter moved).filter fun e => e.2.sessionId = sessionId with
  | nil => rfl
  | cons first rest => rfl

def mergedGroups (files : Debts) : List (Text × DebtEntry) :=
  (SortedMap.groupBy (fun e : Text × DebtEntry => e.2.sessionId) Prod.snd
    (files.entries.filter moved)).entries.filterMap fun group =>
      (mergeGrokBotSessionDebts group.2).map fun merged => (grokBotSessionKey group.1, merged)

lemma mem_mergedGroups {e : Text × DebtEntry} : e ∈ mergedGroups files ↔
    ∃ sessionId, movedOf files sessionId ≠ [] ∧ e.1 = grokBotSessionKey sessionId ∧
      mergeGrokBotSessionDebts (movedOf files sessionId) = some e.2 := by
  simp only [mergedGroups, List.mem_filterMap, Prod.exists, ← SortedMap.get_eq_some_iff,
    get_bySession, Option.map_eq_some_iff]
  constructor
  · rintro ⟨sessionId, entries, hentries, merged, hmerged, rfl⟩
    split at hentries
    next => cases hentries
    next hne =>
      obtain rfl := Option.some.inj hentries
      exact ⟨sessionId, hne, rfl, hmerged⟩
  · rintro ⟨sessionId, hne, hkey, hmerged⟩
    exact ⟨sessionId, _, if_neg hne, e.2, hmerged, Prod.ext hkey.symm rfl⟩

lemma get_migrate (k : Text) : (migrateGrokBotDebts files).get k =
    (((mergedGroups files).filter fun e => e.1 = k).getLast?.map Prod.snd).or
      ((files.get k).filter fun entry => !moved (k, entry)) := by
  have hfold : ∀ (groups : List (Text × List DebtEntry)) (kept : Debts),
      groups.foldl (fun files group =>
        match mergeGrokBotSessionDebts group.2 with
        | some merged => files.insert (grokBotSessionKey group.1) merged
        | none => files) kept =
      (groups.filterMap fun group => (mergeGrokBotSessionDebts group.2).map fun merged =>
        (grokBotSessionKey group.1, merged)).foldl (fun m e => m.insert e.1 e.2) kept := by
    intro groups
    induction groups with
    | nil => exact fun _ => rfl
    | cons group groups ih =>
      intro kept
      rw [List.foldl_cons, ih]
      cases hmerged : mergeGrokBotSessionDebts group.2 with
      | none => rw [List.filterMap_cons_none (by rw [hmerged]; rfl)]
      | some merged => rw [List.filterMap_cons_some (by rw [hmerged]; rfl), List.foldl_cons]
  rw [migrateGrokBotDebts, hfold, SortedMap.get_foldl_insert, SortedMap.get_filter]
  rfl

lemma get_migrate_session {sessionId : Text} (hne : movedOf files sessionId ≠ []) :
    (migrateGrokBotDebts files).get (grokBotSessionKey sessionId) =
      mergeGrokBotSessionDebts (movedOf files sessionId) := by
  obtain ⟨merged, hmerged, -, -⟩ := mergeGrokBotSessionDebts_spec hne fun entry hentry =>
    (mem_movedOf.mp hentry).1
  have hall : ∀ e ∈ (mergedGroups files).filter (fun e => e.1 = grokBotSessionKey sessionId),
      e.2 = merged := by
    intro e he
    rw [List.mem_filter, decide_eq_true_iff] at he
    obtain ⟨sessionId', -, hkey, hmerge⟩ := mem_mergedGroups.mp he.1
    obtain rfl := grokBotSessionKey_injective (hkey.symm.trans he.2)
    exact Option.some.inj (hmerge.symm.trans hmerged)
  have hmem : (grokBotSessionKey sessionId, merged) ∈
      (mergedGroups files).filter (fun e => e.1 = grokBotSessionKey sessionId) :=
    List.mem_filter.mpr ⟨mem_mergedGroups.mpr ⟨sessionId, hne, rfl, hmerged⟩, by simp⟩
  rw [get_migrate, hmerged]
  cases hlast : ((mergedGroups files).filter fun e => e.1 = grokBotSessionKey sessionId).getLast? with
  | none => rw [List.getLast?_eq_none_iff.mp hlast] at hmem; cases hmem
  | some e => rw [Option.map_some, Option.some_or, hall e (List.mem_of_getLast? hlast)]

lemma get_migrate_other {k : Text}
    (h : ∀ sessionId, k = grokBotSessionKey sessionId → movedOf files sessionId = []) :
    (migrateGrokBotDebts files).get k = (files.get k).filter fun entry => !moved (k, entry) := by
  have hnone : (mergedGroups files).filter (fun e => e.1 = k) = [] := by
    rw [List.filter_eq_nil_iff]
    intro e he hk
    obtain ⟨sessionId, hne, hkey, -⟩ := mem_mergedGroups.mp he
    exact hne (h sessionId ((of_decide_eq_true hk).symm.trans hkey))
  rw [get_migrate, hnone]
  rfl

lemma migrate_cases (files : Debts) (k : Text) :
    (∃ sessionId merged, k = grokBotSessionKey sessionId ∧ movedOf files sessionId ≠ [] ∧
      isGrokBotSession sessionId = true ∧ merged.sessionId = sessionId ∧
      merged.delivered = unionDelivered (movedOf files sessionId) ∧
      (migrateGrokBotDebts files).get k = some merged) ∨
    (∀ sessionId, k = grokBotSessionKey sessionId → movedOf files sessionId = []) ∧
      (migrateGrokBotDebts files).get k = (files.get k).filter fun entry => !moved (k, entry) := by
  by_cases h : ∀ sessionId, k = grokBotSessionKey sessionId → movedOf files sessionId = []
  · exact Or.inr ⟨h, get_migrate_other h⟩
  · push Not at h
    obtain ⟨sessionId, rfl, hne⟩ := h
    obtain ⟨merged, hmerged, hsession, hdelivered⟩ := mergeGrokBotSessionDebts_spec hne
      fun entry hentry => (mem_movedOf.mp hentry).1
    obtain ⟨entry, hentry⟩ := List.exists_mem_of_ne_nil _ hne
    exact Or.inl ⟨sessionId, merged, rfl, hne, (mem_movedOf.mp hentry).2.1, hsession, hdelivered,
      (get_migrate_session hne).trans hmerged⟩

lemma moved_migrate {k : Text} {entry : DebtEntry}
    (h : (migrateGrokBotDebts files).get k = some entry) : moved (k, entry) = false := by
  rcases migrate_cases files k with
    ⟨sessionId, merged, rfl, -, -, hsession, -, hget⟩ | ⟨-, hget⟩
  · obtain rfl := Option.some.inj (h.symm.trans hget)
    simp [moved, hsession]
  · rw [hget, Option.filter_eq_some_iff] at h
    simpa using h.2

lemma migrate_of_settled (h : ∀ k entry, files.get k = some entry → moved (k, entry) = false) :
    migrateGrokBotDebts files = files := by
  refine SortedMap.ext_get fun k => ?_
  have hnone : ∀ sessionId, movedOf files sessionId = [] := by
    intro sessionId
    refine List.eq_nil_iff_forall_not_mem.mpr fun entry hentry => ?_
    obtain ⟨hsession, hgrok, k, hget, hkey⟩ := mem_movedOf.mp hentry
    have hmoved := h k entry hget
    simp [moved, hsession, hgrok, hkey] at hmoved
  rw [get_migrate_other fun sessionId _ => hnone sessionId]
  cases hget : files.get k with
  | none => rfl
  | some entry => exact Option.filter_some_pos (by rw [h k entry hget]; rfl)

end Lookup

def sessionEntries (files : Debts) (sessionId : Text) : List DebtEntry :=
  (files.entries.filter fun e => e.2.sessionId = sessionId).map Prod.snd

lemma mem_sessionEntries {files : Debts} {sessionId : Text} {entry : DebtEntry} :
    entry ∈ sessionEntries files sessionId ↔
      entry.sessionId = sessionId ∧ ∃ k, files.get k = some entry := by
  simp only [sessionEntries, List.mem_map, List.mem_filter, Prod.exists, decide_eq_true_eq,
    SortedMap.get_eq_some_iff]
  constructor
  · rintro ⟨k, e, ⟨hmem, rfl⟩, rfl⟩
    exact ⟨rfl, k, hmem⟩
  · rintro ⟨rfl, k, hmem⟩
    exact ⟨k, entry, ⟨hmem, rfl⟩, rfl⟩

/-- The debts after a migration: one entry for each Grok Bot session, under its key, with the union of
what all its entries delivered; all other entries as before; nothing left to migrate. -/
structure Migrated (before after : Debts) : Prop where
  one : ∀ sessionId, isGrokBotSession sessionId = true → sessionEntries before sessionId ≠ [] →
    ∃ entry, entry.sessionId = sessionId ∧
      DeliveredUnion (sessionEntries before sessionId) entry.delivered ∧
      ∀ k e, after.get k = some e ∧ e.sessionId = sessionId ↔
        k = grokBotSessionKey sessionId ∧ e = entry
  others : ∀ k e, isGrokBotSession e.sessionId = false →
    (after.get k = some e ↔ before.get k = some e)
  again : migrateGrokBotDebts after = after

/-- An entry whose delivered rows those of some other entries make up. -/
def MadeUp (entries : List DebtEntry) (entry : DebtEntry) : Prop :=
  (∃ e ∈ entries, e.delivered = none) ∨ ∃ rows, entry.delivered = some rows ∧
    ∀ x ∈ rows, ∃ e ∈ entries, ∃ rows', e.delivered = some rows' ∧ x ∈ rows'

/-- Where entries have to move to a session's key, an entry that stands there is one of the session
and adds nothing to them, or moves away itself. -/
def Accumulates (files : Debts) : Prop :=
  ∀ sessionId entry, movedOf files sessionId ≠ [] →
    files.get (grokBotSessionKey sessionId) = some entry →
      isGrokBotSession entry.sessionId = true ∧
        (entry.sessionId = sessionId → MadeUp (movedOf files sessionId) entry)

section Migration
variable {files : Debts}

lemma accumulates_of_migrated (h : Migrated files (migrateGrokBotDebts files)) :
    Accumulates files := by
  intro sessionId entry hne hget
  obtain ⟨merged, hmerged, hsession, hdelivered⟩ := mergeGrokBotSessionDebts_spec hne
    fun entry hentry => (mem_movedOf.mp hentry).1
  have hafter := (get_migrate_session hne).trans hmerged
  obtain ⟨e, he⟩ := List.exists_mem_of_ne_nil _ hne
  obtain ⟨hesession, hgrok, k, hek, -⟩ := mem_movedOf.mp he
  constructor
  · by_contra hother
    rw [Bool.not_eq_true] at hother
    have hkept := (h.others _ entry hother).mpr hget
    obtain rfl := Option.some.inj (hafter.symm.trans hkept)
    rw [hsession, hgrok] at hother
    cases hother
  · intro hentry
    have hsome : sessionEntries files sessionId ≠ [] :=
      List.ne_nil_of_mem (mem_sessionEntries.mpr ⟨hesession, k, hek⟩)
    obtain ⟨one, -, hunion, hunique⟩ := h.one sessionId hgrok hsome
    obtain ⟨-, rfl⟩ := (hunique _ merged).mp ⟨hafter, hsession⟩
    have hspec := unionDelivered_spec (movedOf files sessionId)
    rw [← hdelivered] at hspec
    cases hd : merged.delivered with
    | none =>
      rw [hd] at hspec
      exact Or.inl hspec
    | some digests =>
      rw [hd] at hspec hunion
      have hmem := mem_sessionEntries.mpr ⟨hentry, _, hget⟩
      obtain ⟨rows, hrows⟩ := Option.ne_none_iff_exists'.mp (hunion.1 entry hmem)
      exact Or.inr ⟨rows, hrows, fun x hx =>
        (hspec.2 x).mp ((hunion.2 x).mpr ⟨entry, hmem, rows, hrows, hx⟩)⟩

lemma mem_sessionEntries_iff {sessionId : Text} (hgrok : isGrokBotSession sessionId = true)
    {entry : DebtEntry} : entry ∈ sessionEntries files sessionId ↔
      entry ∈ movedOf files sessionId ∨
        entry.sessionId = sessionId ∧ files.get (grokBotSessionKey sessionId) = some entry := by
  rw [mem_sessionEntries, mem_movedOf]
  constructor
  · rintro ⟨hsession, k, hget⟩
    by_cases hkey : k = grokBotSessionKey sessionId
    · exact Or.inr ⟨hsession, hkey ▸ hget⟩
    · exact Or.inl ⟨hsession, hgrok, k, hget, hkey⟩
  · rintro (⟨hsession, -, k, hget, -⟩ | ⟨hsession, hget⟩)
    · exact ⟨hsession, k, hget⟩
    · exact ⟨hsession, _, hget⟩

/-- What the moved entries delivered is what all entries of the session did, when the one under the
session's key adds nothing. -/
lemma deliveredUnion_of_madeUp {sessionId : Text} (hgrok : isGrokBotSession sessionId = true)
    (h : ∀ entry, files.get (grokBotSessionKey sessionId) = some entry →
      entry.sessionId = sessionId → MadeUp (movedOf files sessionId) entry) :
    DeliveredUnion (sessionEntries files sessionId) (unionDelivered (movedOf files sessionId)) := by
  have hspec := unionDelivered_spec (movedOf files sessionId)
  cases hd : unionDelivered (movedOf files sessionId) with
  | none =>
    rw [hd] at hspec
    obtain ⟨entry, hentry, hnone⟩ := hspec
    exact ⟨entry, (mem_sessionEntries_iff hgrok).mpr (Or.inl hentry), hnone⟩
  | some digests =>
    rw [hd] at hspec
    obtain ⟨hknown, hdigests⟩ := hspec
    -- the entry under the session's key, if any, knows its rows and they are among the moved ones
    have hkey : ∀ entry, entry.sessionId = sessionId →
        files.get (grokBotSessionKey sessionId) = some entry →
          ∃ rows, entry.delivered = some rows ∧ ∀ x ∈ rows, x ∈ digests := by
      intro entry hsession hget
      rcases h entry hget hsession with ⟨e, he, hnone⟩ | ⟨rows, hrows, hsub⟩
      · exact absurd hnone (hknown e he)
      · exact ⟨rows, hrows, fun x hx => (hdigests x).mpr (hsub x hx)⟩
    refine ⟨fun entry hentry => ?_, fun x => ⟨fun hx => ?_, ?_⟩⟩
    · rcases (mem_sessionEntries_iff hgrok).mp hentry with hmoved | ⟨hsession, hget⟩
      · exact hknown entry hmoved
      · obtain ⟨rows, hrows, -⟩ := hkey entry hsession hget
        rw [hrows]
        nofun
    · obtain ⟨entry, hentry, hrest⟩ := (hdigests x).mp hx
      exact ⟨entry, (mem_sessionEntries_iff hgrok).mpr (Or.inl hentry), hrest⟩
    · rintro ⟨entry, hentry, rows, hrows, hx⟩
      rcases (mem_sessionEntries_iff hgrok).mp hentry with hmoved | ⟨hsession, hget⟩
      · exact (hdigests x).mpr ⟨entry, hmoved, rows, hrows, hx⟩
      · obtain ⟨rows', hrows', hsub⟩ := hkey entry hsession hget
        obtain rfl := Option.some.inj (hrows.symm.trans hrows')
        exact hsub x hx

lemma key_of_migrated {k : Text} {e : DebtEntry}
    (h : (migrateGrokBotDebts files).get k = some e) (hgrok : isGrokBotSession e.sessionId = true) :
    k = grokBotSessionKey e.sessionId := by
  have hmoved := moved_migrate h
  by_contra hkey
  simp [moved, hkey, hgrok] at hmoved

lemma migrated_of_accumulates (h : Accumulates files) :
    Migrated files (migrateGrokBotDebts files) := by
  refine ⟨fun sessionId hgrok hsome => ?_, fun k e hother => ⟨fun hafter => ?_, fun hget => ?_⟩,
    migrate_of_settled fun k entry hget => moved_migrate hget⟩
  · -- the one entry is the merge of the moved ones, or what stood under the key already
    obtain ⟨entry, hafter, hsession, hunion⟩ : ∃ entry,
        (migrateGrokBotDebts files).get (grokBotSessionKey sessionId) = some entry ∧
          entry.sessionId = sessionId ∧
          DeliveredUnion (sessionEntries files sessionId) entry.delivered := by
      by_cases hne : movedOf files sessionId = []
      · obtain ⟨entry, hentry⟩ := List.exists_mem_of_ne_nil _ hsome
        have hstands : ∀ entry ∈ sessionEntries files sessionId,
            files.get (grokBotSessionKey sessionId) = some entry := by
          intro entry hentry
          rcases (mem_sessionEntries_iff hgrok).mp hentry with hmoved | ⟨-, hget⟩
          · rw [hne] at hmoved
            cases hmoved
          · exact hget
        have hget := hstands entry hentry
        have hsession := (mem_sessionEntries.mp hentry).1
        have hsame : ∀ e ∈ sessionEntries files sessionId, e = entry := fun e he =>
          Option.some.inj ((hstands e he).symm.trans hget)
        refine ⟨entry, ?_, hsession, ?_⟩
        · rw [get_migrate_other fun id hid => grokBotSessionKey_injective hid ▸ hne, hget]
          exact Option.filter_some_pos (by simp [moved, hsession])
        · cases hd : entry.delivered with
          | none => exact ⟨entry, hentry, hd⟩
          | some rows =>
            refine ⟨fun e he => by rw [hsame e he, hd]; nofun, fun x => ⟨fun hx =>
              ⟨entry, hentry, rows, hd, hx⟩, ?_⟩⟩
            rintro ⟨e, he, rows', hrows', hx⟩
            rw [hsame e he, hd] at hrows'
            exact Option.some.inj hrows' ▸ hx
      · obtain ⟨merged, hmerged, hsession, hdelivered⟩ := mergeGrokBotSessionDebts_spec hne
          fun entry hentry => (mem_movedOf.mp hentry).1
        refine ⟨merged, (get_migrate_session hne).trans hmerged, hsession, hdelivered ▸ ?_⟩
        exact deliveredUnion_of_madeUp hgrok fun entry hget hentry =>
          (h sessionId entry hne hget).2 hentry
    refine ⟨entry, hsession, hunion, fun k e => ⟨?_, ?_⟩⟩
    · rintro ⟨hget, rfl⟩
      obtain rfl := key_of_migrated hget hgrok
      exact ⟨rfl, Option.some.inj (hget.symm.trans hafter)⟩
    · rintro ⟨rfl, rfl⟩
      exact ⟨hafter, hsession⟩
  · rcases migrate_cases files k with
      ⟨sessionId, merged, rfl, -, hgrok, hsession, -, hget⟩ | ⟨-, hget⟩
    · obtain rfl := Option.some.inj (hafter.symm.trans hget)
      rw [hsession, hgrok] at hother
      cases hother
    · rw [hget, Option.filter_eq_some_iff] at hafter
      exact hafter.1
  · rcases migrate_cases files k with
      ⟨sessionId, merged, rfl, hne, -, -, -, -⟩ | ⟨-, hafter⟩
    · rw [(h sessionId e hne hget).1] at hother
      cases hother
    · rw [hafter, hget]
      exact Option.filter_some_pos (by simp [moved, hother])

/-- The migration leaves one entry for each session with all that was delivered, and the rest alone,
just when no key it writes holds an entry that would add to the merge or is none of the harness's. -/
theorem migrated_iff (files : Debts) :
    Migrated files (migrateGrokBotDebts files) ↔ Accumulates files :=
  ⟨accumulates_of_migrated, migrated_of_accumulates⟩

end Migration

def downgradedSession : Text := "grok-bot.m.a".toList

def downgradedEntry (row : Text) : DebtEntry where
  machine := "m".toList
  sessionId := downgradedSession
  cursor := ⟨1, 1, [], some [row]⟩
  shards := ⟨1, 1, [], []⟩

/-- A session held both under its key and, since a downgrade, under a path. -/
def downgradedDebts : Debts :=
  (SortedMap.empty.insert (grokBotSessionKey downgradedSession)
    (downgradedEntry "first".toList)).insert "path".toList (downgradedEntry "second".toList)

/-- A session held in both forms loses what its session-keyed entry delivered. -/
theorem migrate_loses_downgraded :
    ¬ Migrated downgradedDebts (migrateGrokBotDebts downgradedDebts) := by
  intro h
  have hpath : downgradedDebts.get "path".toList = some (downgradedEntry "second".toList) :=
    SortedMap.get_insert_self _ _
  have hkey : downgradedDebts.get (grokBotSessionKey downgradedSession) =
      some (downgradedEntry "first".toList) := by
    rw [downgradedDebts, SortedMap.get_insert_of_ne (by decide), SortedMap.get_insert_self]
  have hentry : downgradedEntry "second".toList ∈ movedOf downgradedDebts downgradedSession :=
    mem_movedOf.mpr ⟨rfl, by decide, "path".toList, hpath, by decide⟩
  -- only the path's entry moves, and it delivered another row
  have hmoved : ∀ e ∈ movedOf downgradedDebts downgradedSession,
      e = downgradedEntry "second".toList := by
    intro e he
    obtain ⟨-, -, k, hget, hne⟩ := mem_movedOf.mp he
    rw [downgradedDebts, SortedMap.get_insert] at hget
    split at hget
    · exact (Option.some.inj hget).symm
    · rw [SortedMap.get_insert, if_neg hne] at hget
      cases hget
  rcases (accumulates_of_migrated h downgradedSession _ (List.ne_nil_of_mem hentry) hkey).2 rfl with
    ⟨e, he, hnone⟩ | ⟨rows, hrows, hsub⟩
  · rw [hmoved e he] at hnone
    cases hnone
  · obtain rfl := Option.some.inj hrows
    obtain ⟨e, he, rows', hrows', hx⟩ := hsub "first".toList List.mem_cons_self
    rw [hmoved e he] at hrows'
    obtain rfl := Option.some.inj hrows'
    revert hx
    decide

end ChatStasher.GrokBot
