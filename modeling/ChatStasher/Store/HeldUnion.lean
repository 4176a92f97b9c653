import ChatStasher.Store.ShardList

/-! The cumulative union of an archive's snapshots, as one list in identity order. -/
namespace ChatStasher

def IdentitiesApart (entries : List ArchiveEntry) : Prop :=
  ∀ x ∈ entries, ∀ y ∈ entries, archiveShardIdentity x = archiveShardIdentity y → x = y

lemma mem_heldEntries {snapshots : List (List ArchiveEntry)}
    (h : IdentitiesApart snapshots.flatten) {e : ArchiveEntry} :
    e ∈ heldEntries snapshots ↔ e ∈ snapshots.flatten := by
  have hfun : ∀ x ∈ snapshots.flatten.map fun e => (archiveShardIdentity e, e),
      ∀ y ∈ snapshots.flatten.map fun e => (archiveShardIdentity e, e), x.1 = y.1 → x = y := by
    intro x hx y hy hkey
    obtain ⟨a, ha, rfl⟩ := List.mem_map.mp hx
    obtain ⟨b, hb, rfl⟩ := List.mem_map.mp hy
    rw [h a ha b hb hkey]
  simp only [heldEntries, List.mem_map, KeyedList.mem_inKeyOrder, KeyedList.mem_firstWins hfun]
  constructor
  · rintro ⟨-, ⟨a, ha, rfl⟩, rfl⟩
    exact ha
  · intro he
    exact ⟨_, ⟨e, he, rfl⟩, rfl⟩

lemma heldEntries_sorted (snapshots : List (List ArchiveEntry)) :
    (heldEntries snapshots).Pairwise fun a b => archiveShardIdentity a < archiveShardIdentity b := by
  have hsorted := KeyedList.inKeyOrder_sorted (KeyedList.firstWins_nodup
    (snapshots.flatten.map fun e => (archiveShardIdentity e, e)))
  rw [heldEntries, List.pairwise_map]
  refine hsorted.imp_of_mem fun {x y} hx hy hlt => ?_
  have hkey : ∀ z ∈ KeyedList.inKeyOrder (KeyedList.firstWins
      (snapshots.flatten.map fun e => (archiveShardIdentity e, e))),
      z.1 = archiveShardIdentity z.2 := by
    intro z hz
    obtain ⟨a, -, rfl⟩ := List.mem_map.mp
      (KeyedList.mem_of_mem_firstWins (KeyedList.mem_inKeyOrder.mp hz))
    rfl
  rwa [← hkey x hx, ← hkey y hy]

lemma heldEntries_eq {snapshots : List (List ArchiveEntry)} {l : List ArchiveEntry}
    (h : IdentitiesApart snapshots.flatten)
    (hl : l.Pairwise fun a b => archiveShardIdentity a < archiveShardIdentity b)
    (hmem : ∀ e, e ∈ l ↔ e ∈ snapshots.flatten) : heldEntries snapshots = l := by
  have : Std.Irrefl fun a b : ArchiveEntry => archiveShardIdentity a < archiveShardIdentity b :=
    ⟨fun a => lt_irrefl _⟩
  exact (heldEntries_sorted snapshots).eq_of_mem_iff hl fun e => by
    rw [mem_heldEntries h, hmem]

lemma archiveShardIdentity_lt {a b : ArchiveEntry} {m n : ℕ} (ha : parseShardSeq a.shard = some m)
    (hb : parseShardSeq b.shard = some n) (hlt : m < n) :
    archiveShardIdentity a < archiveShardIdentity b := by
  rw [archiveShardIdentity, archiveShardIdentity, ha, hb, Prod.Lex.toLex_lt_toLex]
  exact Or.inl hlt

lemma identitiesApart_of_sorted {l entries : List ArchiveEntry}
    (hl : l.Pairwise fun a b => archiveShardIdentity a < archiveShardIdentity b)
    (hmem : ∀ e ∈ entries, e ∈ l) : IdentitiesApart entries := by
  have hnodup : (l.map archiveShardIdentity).Nodup :=
    List.pairwise_map.mpr (hl.imp fun hlt => ne_of_lt hlt)
  exact fun x hx y hy => List.inj_on_of_nodup_map hnodup (hmem x hx) (hmem y hy)

end ChatStasher
