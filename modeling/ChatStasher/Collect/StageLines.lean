import ChatStasher.Collect.PassSpec

/-! The stage seen as lines: what sealing adds to them and which cursors they vouch for. -/
namespace ChatStasher

def shardLines (shards : List (ℕ × Bytes)) : List Bytes := shards.flatMap fun p => linesOf p.2

def shardBytes (shards : List (ℕ × Bytes)) : Bytes := (shards.map Prod.snd).flatten

/-- The directory holds exactly these shards, each of them nonempty and made of whole lines. -/
structure Staged (d : SessionDir) (shards : List (ℕ × Bytes)) : Prop extends Holds d shards where
  framed : ∀ p ∈ shards, Terminated p.2
  nonempty : ∀ p ∈ shards, p.2 ≠ []

lemma Staged.empty : Staged .empty [] := ⟨.empty, by simp, by simp⟩

@[simp] lemma shardBytes_append (a b : List (ℕ × Bytes)) :
    shardBytes (a ++ b) = shardBytes a ++ shardBytes b := by
  simp [shardBytes]

@[simp] lemma shardLines_append (a b : List (ℕ × Bytes)) :
    shardLines (a ++ b) = shardLines a ++ shardLines b := by
  simp [shardLines]

lemma shardLines_isPrefix {a b : List (ℕ × Bytes)} (h : a <+: b) :
    shardLines a <+: shardLines b := by
  obtain ⟨t, rfl⟩ := h
  exact ⟨shardLines t, (shardLines_append a t).symm⟩

lemma shardBytes_isPrefix {a b : List (ℕ × Bytes)} (h : a <+: b) :
    shardBytes a <+: shardBytes b := by
  obtain ⟨t, rfl⟩ := h
  exact ⟨shardBytes t, (shardBytes_append a t).symm⟩

lemma length_le_shardBytes {shards : List (ℕ × Bytes)} {p : ℕ × Bytes} (hp : p ∈ shards) :
    p.2.length ≤ (shardBytes shards).length := by
  obtain ⟨a, b, rfl⟩ := List.append_of_mem hp
  simp [shardBytes]
  omega

lemma shardLines_sublist_of_mem {shards : List (ℕ × Bytes)} {p : ℕ × Bytes} (hp : p ∈ shards) :
    (linesOf p.2).Sublist (shardLines shards) := by
  obtain ⟨a, b, rfl⟩ := List.append_of_mem hp
  rw [shardLines_append]
  exact (List.sublist_append_left _ (shardLines b)).trans (List.sublist_append_right _ _)

lemma linesOf_shardBytes {shards : List (ℕ × Bytes)} (h : ∀ p ∈ shards, Terminated p.2) :
    linesOf (shardBytes shards) = shardLines shards := by
  have hall : ∀ a ∈ shards.map Prod.snd, Terminated a := by
    intro a ha
    obtain ⟨p, hp, rfl⟩ := List.mem_map.mp ha
    exact h p hp
  rw [shardBytes, linesOf, Framing.records_flatten newline hall, List.flatMap_map]
  rfl

lemma terminated_shardBytes {shards : List (ℕ × Bytes)} (h : ∀ p ∈ shards, Terminated p.2) :
    Terminated (shardBytes shards) := by
  refine Framing.terminated_flatten newline fun a ha => ?_
  obtain ⟨p, hp, rfl⟩ := List.mem_map.mp ha
  exact h p hp

lemma Staged.sealedLines_eq {d : SessionDir} {shards : List (ℕ × Bytes)} (h : Staged d shards) :
    sealedLines d = shardLines shards := by
  rw [sealedLines, h.installed, completeLines_eq]
  exact linesOf_shardBytes h.framed

lemma readable_isPrefix {shards : List (ℕ × Bytes)} (h : shards.Pairwise fun a b => a.1 < b.1) :
    readable shards <+: shards := by
  induction shards with
  | nil => exact List.prefix_refl _
  | cons a rest ih =>
    have hsorted := List.pairwise_cons.mp h
    by_cases ha : a.1 < 10 ^ 6
    · rw [readable, List.filter_cons_of_pos (by simpa using ha)]
      exact List.cons_prefix_cons.mpr ⟨rfl, ih hsorted.2⟩
    · have hnil : readable (a :: rest) = [] := by
        refine List.filter_eq_nil_iff.mpr fun p hp => ?_
        rcases List.mem_cons.mp hp with rfl | hp
        · simpa using ha
        · have := hsorted.1 p hp
          simp only [decide_eq_true_eq]
          omega
      rw [hnil]
      exact List.nil_prefix

lemma Holds.stageSealedShards_eq {d : SessionDir} {shards : List (ℕ × Bytes)} (h : Holds d shards) :
    stageSealedShards d = (readable shards).map Prod.snd := by
  rw [stageSealedShards, ← h.sortedEntries_map, List.map_map]
  rfl

lemma Staged.sealNext {d : SessionDir} {shards : List (ℕ × Bytes)} (h : Staged d shards) {cap : ℕ}
    {raw : Bytes} (hraw : Terminated raw) (hne : raw ≠ []) :
    Staged (d.sealNext cap raw) (shards ++ [(d.lastSeq + 1, raw)]) := by
  refine ⟨h.toHolds.sealNext cap raw, ?_, ?_⟩
  · intro p hp
    rcases List.mem_append.mp hp with hp | hp
    · exact h.framed p hp
    · rw [List.mem_singleton.mp hp]
      exact hraw
  · intro p hp
    rcases List.mem_append.mp hp with hp | hp
    · exact h.nonempty p hp
    · rw [List.mem_singleton.mp hp]
      exact hne

lemma Staged.framed_file {d : SessionDir} {shards : List (ℕ × Bytes)} (h : Staged d shards)
    {f : StoredFile} (hf : f ∈ d.files) : Terminated f.bytes := by
  have hmem : f.bytes ∈ shards.map Prod.snd := h.map_bytes ▸ List.mem_map_of_mem hf
  obtain ⟨p, hp, heq⟩ := List.mem_map.mp hmem
  exact heq ▸ h.framed p hp

/-- Handing whole lines to the collect writer leaves them in one shard: an equal one the
deduplicating writer found, or a new last one. -/
lemma Staged.write {H : Sha256} {d d' : SessionDir} {shards : List (ℕ × Bytes)}
    (h : Staged d shards) {cap : ℕ} {raw : Bytes} {allowExactRepeat : Bool} {write : ShardWrite}
    (hraw : Terminated raw) (hne : raw ≠ [])
    (hwrite : writeShardInDir H d cap (.store raw .collect allowExactRepeat) = (some write, d')) :
    (d' = d ∧ allowExactRepeat = false ∧ ∃ p ∈ readable shards, p.2 = raw) ∨
      (d' = d.sealNext cap raw ∧ Staged d' (shards ++ [(d.lastSeq + 1, raw)])) := by
  rcases h.writeShard H cap (.store raw .collect allowExactRepeat) with
    ⟨hdedup, hfound, hdir, -⟩ | ⟨-, hinstall⟩
  · refine Or.inl ⟨by rw [← hdir, hwrite], ?_, hfound⟩
    simpa [ShardSource.dedup] using hdedup
  · obtain rfl : d' = d.sealNext cap raw := by
      rw [hwrite] at hinstall
      exact (Prod.mk.inj hinstall).2
    exact Or.inr ⟨rfl, h.sealNext hraw hne⟩

lemma Staged.write_any {H : Sha256} {d : SessionDir} {shards : List (ℕ × Bytes)}
    (h : Staged d shards) (cap : ℕ) {source : ShardSource} (hraw : Terminated source.raw)
    (hne : source.raw ≠ []) :
    ∃ shards', Staged (writeShardInDir H d cap source).2 shards' ∧
      d.files <+: (writeShardInDir H d cap source).2.files := by
  rcases h.writeShard H cap source with ⟨-, -, hsame, -⟩ | ⟨-, hinstall⟩
  · rw [hsame]
    exact ⟨shards, h, List.prefix_refl _⟩
  · rw [hinstall]
    refine ⟨_, h.sealNext hraw hne, ?_⟩
    rw [h.files_sealNext]
    exact List.prefix_append _ _

lemma completePart_split {bytes : Bytes} {base : ℕ} (h : Terminated (bytes.take base)) :
    linesOf bytes = linesOf (bytes.take base) ++ linesOf (bytes.drop base) ∧
      completePart bytes = bytes.take base ++ completePart (bytes.drop base) := by
  have hsplit := List.take_append_drop base bytes
  constructor
  · rw [← linesOf_append h, hsplit]
  · rw [← completePart_append h, hsplit]

lemma length_completePart_split {bytes : Bytes} {base : ℕ} (h : Terminated (bytes.take base))
    (hle : base ≤ bytes.length) :
    base + (completePart (bytes.drop base)).length = (completePart bytes).length := by
  rw [(completePart_split h).2, List.length_append, List.length_take_of_le hle]

lemma take_completePart (bytes : Bytes) :
    bytes.take (completePart bytes).length = completePart bytes :=
  (List.prefix_iff_eq_take.mp (completePart_isPrefix bytes)).symm

section Covered
variable {H : Sha256} {source : SourceFile}

/-- A position derived from sealed bytes is the end of leading source lines that these bytes hold
contiguously. -/
lemma jsonlPrefixEntryFromShards_spec {sealedBytes : Bytes} {c : OffsetEntry H.Digest}
    (h : jsonlPrefixEntryFromShards H source sealedBytes = some c) :
    ∃ run : List Bytes, c = cursorAt H source.bytes (sealFramedLines run).length ∧
      sealFramedLines run <+: source.bytes ∧ Terminated (sealFramedLines run) ∧
      linesOf (sealFramedLines run) <:+: linesOf sealedBytes := by
  simp only [jsonlPrefixEntryFromShards] at h
  split at h
  next => cases h
  next =>
    obtain rfl := Option.some.inj h
    have htake := take_coveredSourcePrefix sealedBytes
      (source.bytes.take (min source.bytes.length sealedBytes.length))
    have hspec := coveredSourcePrefix_spec sealedBytes
      (source.bytes.take (min source.bytes.length sealedBytes.length))
    obtain ⟨run, hrun⟩ : ∃ run, (linesOf (source.bytes.take
        (min source.bytes.length sealedBytes.length))).take (PrefixScan.longestPrefixRun
          (linesOf (source.bytes.take (min source.bytes.length sealedBytes.length)))
          (linesOf sealedBytes)) = run := ⟨_, rfl⟩
    rw [hrun] at htake hspec
    have hsep : ∀ r ∈ run, newline ∉ r := fun r hr =>
      Framing.sep_notMem_records newline _ r (List.mem_of_mem_take (hrun ▸ hr))
    have hpre : sealFramedLines run <+: source.bytes := by
      rw [← htake]
      exact (List.take_prefix _ _).trans (List.take_prefix _ _)
    refine ⟨run, ?_, hpre, Framing.terminated_frame newline hsep, ?_⟩
    · rw [htake, hspec, cursorAt, ← List.prefix_iff_eq_take.mp hpre]
    · rw [sealFramedLines, linesOf, Framing.records_frame newline hsep, ← hrun]
      exact PrefixScan.longestPrefixRun_infix _ _

end Covered

end ChatStasher
