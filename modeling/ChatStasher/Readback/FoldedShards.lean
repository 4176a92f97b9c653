import ChatStasher.Readback.OneBody

/-! What the collapse rule takes away: only an entry that a kept one repeats, byte for byte and under
the same known sequence number. -/
namespace ChatStasher

section Candidates
variable {T : Type} [DecidableEq T]

lemma longestReplay_replays {shards : List T} {preceding : List ℕ} {index bounded : ℕ}
    (h : 0 < longestReplay shards preceding index bounded) :
    replaysTail shards preceding index (longestReplay shards preceding index bounded) = true := by
  induction bounded with
  | zero => simp [longestReplay] at h
  | succ len ih =>
    rw [longestReplay] at h ⊢
    split
    next hrun => exact hrun
    next hrun =>
      rw [if_neg hrun] at h
      exact ih h

lemma replaysTail_eq {shards : List T} {preceding : List ℕ} {index len offset : ℕ}
    (h : replaysTail shards preceding index len = true) (hoffset : offset < len)
    (hlen : len ≤ preceding.length) :
    shards[index + offset]? = shards[preceding.getD (preceding.length - len + offset) 0]? := by
  have hrun := List.all_eq_true.mp h offset (List.mem_range.mpr hoffset)
  have hin : preceding.length - len + offset < preceding.length := by omega
  rw [beq_iff_eq, List.getElem?_eq_getElem hin, Option.bind_some] at hrun
  rw [hrun, List.getD_eq_getElem _ _ hin]

/-- A candidate equals its partner, and the partner, kept before or kept by this scan, is no
candidate. -/
lemma tailReplayLoop_kept {shards : List T} {fuel index : ℕ} {preceding : List ℕ}
    (hpre : ∀ p ∈ preceding, p < index) {i p : ℕ}
    (h : (i, p) ∈ tailReplayLoop shards fuel index preceding) :
    shards[i]? = shards[p]? ∧ i < shards.length ∧
      (p ∈ preceding ∨ ∀ q, (p, q) ∉ tailReplayLoop shards fuel index preceding) := by
  induction fuel generalizing index preceding with
  | zero => simp [tailReplayLoop] at h
  | succ fuel ih =>
    by_cases hlt : index < shards.length
    · have hle := longestReplay_le shards preceding index
        (min preceding.length (shards.length - index))
      by_cases hpos : 0 < longestReplay shards preceding index
          (min preceding.length (shards.length - index))
      · have hrun := longestReplay_replays hpos
        generalize hreplay : longestReplay shards preceding index
          (min preceding.length (shards.length - index)) = replay at hle hpos hrun
        rw [tailReplayLoop_fold hlt hpos hreplay] at h ⊢
        rcases List.mem_append.mp h with h | h
        · obtain ⟨offset, hoffset, heq⟩ := List.mem_map.mp h
          rw [List.mem_range] at hoffset
          simp only [Prod.mk.injEq] at heq
          obtain ⟨rfl, rfl⟩ := heq
          have hin : preceding.length - replay + offset < preceding.length := by omega
          refine ⟨replaysTail_eq hrun hoffset (by omega), by omega, Or.inl ?_⟩
          rw [List.getD_eq_getElem _ _ hin]
          exact List.getElem_mem hin
        · have hlater : ∀ p ∈ preceding, p < index + replay := fun p hp => by
            have := hpre p hp
            omega
          obtain ⟨hequal, hbound, hkept⟩ := ih hlater h
          obtain ⟨-, -, hwhere⟩ := tailReplayLoop_partner hlater h
          refine ⟨hequal, hbound, ?_⟩
          rcases hkept with hkept | hkept
          · exact Or.inl hkept
          · rcases hwhere with hwhere | hwhere
            · exact Or.inl hwhere
            · refine Or.inr fun q hq => ?_
              rcases List.mem_append.mp hq with hq | hq
              · obtain ⟨offset, hoffset, heq⟩ := List.mem_map.mp hq
                rw [List.mem_range] at hoffset
                simp only [Prod.mk.injEq] at heq
                omega
              · exact hkept q hq
      · have hzero : longestReplay shards preceding index
            (min preceding.length (shards.length - index)) = 0 := by omega
        rw [tailReplayLoop_keep hlt hzero] at h ⊢
        have hlater : ∀ p ∈ preceding ++ [index], p < index + 1 := fun p hp => by
          rcases List.mem_append.mp hp with hp | hp
          · have := hpre p hp
            omega
          · simp only [List.mem_singleton] at hp
            omega
        obtain ⟨hequal, hbound, hkept⟩ := ih hlater h
        refine ⟨hequal, hbound, ?_⟩
        rcases hkept with hkept | hkept
        · rcases List.mem_append.mp hkept with hkept | hkept
          · exact Or.inl hkept
          · obtain rfl := List.mem_singleton.mp hkept
            refine Or.inr fun q hq => ?_
            have := (tailReplayLoop_partner hlater hq).1
            omega
        · exact Or.inr hkept
    · rw [tailReplayLoop, if_neg hlt] at h
      cases h

/-- A folded entry is repeated by an earlier entry that is not folded, under its own known
sequence. -/
lemma exists_kept_of_duplicate {shards : List (Option ℕ × T)} {i : ℕ}
    (h : i ∈ duplicateShardIndicesSequenced shards) :
    ∃ p < i, p ∉ duplicateShardIndicesSequenced shards ∧
      ∃ sequence body, shards[i]? = some (some sequence, body) ∧ shards[p]? = shards[i]? := by
  obtain ⟨p, hpair, sequence, hdup, hkept⟩ := mem_duplicateShardIndices.mp h
  have hnil : ∀ p ∈ ([] : List ℕ), p < 0 := List.forall_mem_nil _
  obtain ⟨hequal, -, hfresh⟩ := tailReplayLoop_kept hnil hpair
  have hbefore := (tailReplayLoop_partner hnil hpair).2.1
  refine ⟨p, hbefore, fun hp => ?_, ?_⟩
  · obtain ⟨q, hq, -⟩ := mem_duplicateShardIndices.mp hp
    rcases hfresh with hfresh | hfresh
    · cases hfresh
    · exact hfresh q hq
  · obtain ⟨⟨raw, body⟩, hi, hraw⟩ := Option.bind_eq_some_iff.mp hdup
    obtain ⟨⟨raw', body'⟩, hp, hraw'⟩ := Option.bind_eq_some_iff.mp hkept
    dsimp only at hraw hraw'
    subst hraw hraw'
    rw [List.getElem?_map, List.getElem?_map, hi, hp] at hequal
    simp only [Option.map_some, Option.some.injEq] at hequal
    subst hequal
    exact ⟨sequence, body, hi, hp.trans hi.symm⟩

end Candidates

section Kept
variable {A T : Type} {leaves : ℕ → Bool}

def leftIn (leaves : ℕ → Bool) (l : List A) : List A :=
  (l.zipIdx.filter fun e => !leaves e.2).map Prod.fst

lemma leftIn_sublist (leaves : ℕ → Bool) (l : List A) : (leftIn leaves l).Sublist l := by
  have hkept : (leftIn leaves l).Sublist (l.zipIdx.map Prod.fst) := List.filter_sublist.map Prod.fst
  rwa [List.zipIdx_map_fst] at hkept

lemma mem_leftIn {l : List A} {a : A} :
    a ∈ leftIn leaves l ↔ ∃ i, l[i]? = some a ∧ leaves i = false := by
  simp only [leftIn, List.mem_map, List.mem_filter, Prod.exists, List.mk_mem_zipIdx_iff_getElem?,
    Bool.not_eq_true', exists_and_right, exists_eq_right]

lemma leftIn_map {B : Type} (f : A → B) (leaves : ℕ → Bool) (l : List A) :
    leftIn leaves (l.map f) = (leftIn leaves l).map f := by
  simp only [leftIn, List.zipIdx_map, List.filter_map, List.map_map]
  rfl

/-- What is left out is repeated by an earlier entry that stays, under the same known sequence; no
sequence and body disappears, and what stays keeps its order. -/
structure LeavesOnlyRepeats (entries : List (Option ℕ × T)) (leaves : ℕ → Bool) : Prop where
  evidence : ∀ i sequence body, entries[i]? = some (sequence, body) → leaves i = true →
    sequence.isSome ∧ ∃ p < i, leaves p = false ∧ entries[p]? = some (sequence, body)
  turns : ∀ turn, turn ∈ leftIn leaves entries ↔ turn ∈ entries
  order : (leftIn leaves entries).Sublist entries

lemma leavesOnlyRepeats_of_duplicates [DecidableEq T] {entries : List (Option ℕ × T)}
    (h : ∀ i, leaves i = true → i ∈ duplicateShardIndicesSequenced entries) :
    LeavesOnlyRepeats entries leaves := by
  have hevidence : ∀ i sequence body, entries[i]? = some (sequence, body) → leaves i = true →
      sequence.isSome ∧ ∃ p < i, leaves p = false ∧ entries[p]? = some (sequence, body) := by
    intro i sequence body hi hleaves
    obtain ⟨p, hp, hkept, known, body', hentry, hequal⟩ := exists_kept_of_duplicate (h i hleaves)
    obtain ⟨rfl, rfl⟩ : some known = sequence ∧ body' = body := by
      simpa [hentry] using hi
    refine ⟨rfl, p, hp, ?_, hequal.trans hi⟩
    by_contra hp
    exact hkept (h p (by simpa using hp))
  refine ⟨hevidence, fun turn => ⟨fun hturn => (leftIn_sublist leaves entries).subset hturn,
    fun hturn => ?_⟩, leftIn_sublist leaves entries⟩
  obtain ⟨i, hi⟩ := List.mem_iff_getElem?.mp hturn
  cases hleaves : leaves i with
  | false => exact mem_leftIn.mpr ⟨i, hi, hleaves⟩
  | true =>
    obtain ⟨-, p, -, hkept, hp⟩ := hevidence i turn.1 turn.2 hi hleaves
    exact mem_leftIn.mpr ⟨p, hp, hkept⟩

lemma selectShardBodiesSequenced_eq [DecidableEq T] (entries : List (Option ℕ × T))
    (collapses : Bool) :
    selectShardBodiesSequenced (entries.map Prod.snd) (entries.map Prod.fst) collapses =
      (leftIn (fun i => collapses && decide (i ∈ duplicateShardIndicesSequenced entries))
        entries).map Prod.snd := by
  have hzip : (entries.map Prod.fst).zip (entries.map Prod.snd) = entries := by
    rw [List.zip_map']
    exact List.map_id _
  cases collapses with
  | false =>
    simp only [selectShardBodiesSequenced, Bool.not_false, if_true, leftIn, Bool.false_and]
    rw [List.filter_eq_self.mpr (fun _ _ => rfl), List.zipIdx_map_fst]
  | true =>
    simp only [selectShardBodiesSequenced, Bool.not_true, Bool.false_eq_true, if_false, hzip,
      leftIn, Bool.true_and, decide_not, List.map_map]
    rfl

end Kept

namespace Readback
open Activity (DuplicateShardPolicy)

section Reads
variable {rules : ReadRules} (policy : DuplicateShardPolicy) (session : Ident)

lemma selectShards_leaves (walk : SessionWalk rules) (shards : List DumpedShard) :
    ∃ leaves, LeavesOnlyRepeats (shards.map fun shard => (shard.raw, shard.body)) leaves ∧
      selectShards session policy walk shards = leftIn leaves shards := by
  let entries := shards.map fun shard => (shard.raw, shard.body)
  let observed := verifiedObservationSequences session walk.observations
    (shards.map fun shard => (shard.nulled, shard.body))
  let leaves := fun i => policy.collapses && (decide (i ∈ duplicateShardIndicesSequenced entries) &&
    !((shards[i]?).bind DumpedShard.nulled).any (observed.contains ·))
  refine ⟨leaves, leavesOnlyRepeats_of_duplicates fun i hi => ?_, ?_⟩
  · simp only [leaves, Bool.and_eq_true, decide_eq_true_eq] at hi
    exact hi.2.1
  · refine congrArg (List.map Prod.fst) (List.filter_congr ?_)
    rintro ⟨shard, i⟩ hmem
    have hi : shards[i]? = some shard := List.mk_mem_zipIdx_iff_getElem?.mp hmem
    cases hpolicy : policy.collapses with
    | false => simp [leaves, hpolicy]
    | true => simp [leaves, hpolicy, hi, entries, observed]

lemma visitedShards_leaves (walk : MachineWalk rules) (bodies : List (Option ℕ × Bytes)) :
    ∃ leaves, LeavesOnlyRepeats bodies leaves ∧
      visitedShards policy walk session bodies = (leftIn leaves bodies).map fun shard =>
        (if policy.collapses then walk.published session shard.1 else shard.1, shard.2) := by
  let observed := walk.observedSequences session bodies
  let bound := fun shard : Option ℕ × Bytes =>
    (walk.published session shard.1).any (observed.contains ·)
  let leaves := fun i => policy.collapses && (decide (i ∈ duplicateShardIndicesSequenced bodies) &&
    !(bodies[i]?).any bound)
  refine ⟨leaves, leavesOnlyRepeats_of_duplicates fun i hi => ?_, ?_⟩
  · simp only [leaves, Bool.and_eq_true, decide_eq_true_eq] at hi
    exact hi.2.1
  · cases hpolicy : policy.collapses with
    | false =>
      have hall : leftIn leaves bodies = bodies := by
        rw [leftIn, List.filter_eq_self.mpr (fun e _ => by simp [leaves, hpolicy]),
          List.zipIdx_map_fst]
      simp [visitedShards, hpolicy, hall]
    | true =>
      rw [visitedShards, if_pos hpolicy, ← leftIn_map, leftIn]
      refine congrArg (List.map Prod.fst) (List.filter_congr ?_)
      rintro ⟨shard, i⟩ hmem
      have hi := List.mk_mem_zipIdx_iff_getElem?.mp hmem
      rw [List.getElem?_map] at hi
      obtain ⟨⟨raw, body⟩, hbody, rfl⟩ := Option.map_eq_some_iff.mp hi
      simp [leaves, hpolicy, hbody, bound, observed]

variable {policy session}

def foldsShard (walk : MachineWalk rules) (session : Ident) (wouldFold observedSequences : List ℕ)
    (shard : (Option ℕ × Bytes) × ℕ) : Bool :=
  wouldFold.contains shard.2 && !(walk.published session shard.1.1).any (observedSequences.contains ·)

/-- The shards that the report adds to the body. -/
def addedShards (policy : DuplicateShardPolicy) (walk : MachineWalk rules) (session : Ident)
    (wouldFold observedSequences : List ℕ) (shards : List ((Option ℕ × Bytes) × ℕ)) :
    List (Option ℕ × Bytes) :=
  (shards.filter fun shard =>
    !(policy.collapses && foldsShard walk session wouldFold observedSequences shard)).map Prod.fst

/-- What the report has of a session once some of its shards were added: those it kept, and the
indices of those that it folds or would fold. -/
structure Concatenation.Adds (walk : MachineWalk rules) (session : Ident)
    (row added : Concatenation rules) (kept : List (Option ℕ × Bytes)) (folded : List ℕ) : Prop where
  sha256 : added.sha256 = row.sha256 ++ kept.map fun shard => rules.H.digest shard.2
  bytes : added.bytes = row.bytes ++ kept.map fun shard => shard.2.length
  sequences : added.sequences = row.sequences ++ kept.map fun shard => walk.published session shard.1
  concat : added.concat = row.concat ++ (kept.map Prod.snd).flatten
  folded : added.folded = row.folded ++ folded

lemma Concatenation.Adds.trans {walk : MachineWalk rules} {row added added' : Concatenation rules}
    {kept kept' : List (Option ℕ × Bytes)} {folded folded' : List ℕ}
    (h : row.Adds walk session added kept folded) (h' : added.Adds walk session added' kept' folded') :
    row.Adds walk session added' (kept ++ kept') (folded ++ folded') where
  sha256 := by rw [h'.sha256, h.sha256, List.map_append, List.append_assoc]
  bytes := by rw [h'.bytes, h.bytes, List.map_append, List.append_assoc]
  sequences := by rw [h'.sequences, h.sequences, List.map_append, List.append_assoc]
  concat := by rw [h'.concat, h.concat, List.map_append, List.flatten_append, List.append_assoc]
  folded := by rw [h'.folded, h.folded, List.append_assoc]

lemma addShard_adds (walk : MachineWalk rules) (wouldFold observedSequences : List ℕ)
    (row : Concatenation rules) (shard : (Option ℕ × Bytes) × ℕ) :
    row.Adds walk session (addShard policy walk session wouldFold observedSequences row shard)
      (addedShards policy walk session wouldFold observedSequences [shard])
      (([shard].filter (foldsShard walk session wouldFold observedSequences)).map Prod.snd) := by
  have hshard : addShard policy walk session wouldFold observedSequences row shard =
      if foldsShard walk session wouldFold observedSequences shard then
        if policy.collapses then { row with folded := row.folded ++ [shard.2] }
        else ({ row with folded := row.folded ++ [shard.2] } : Concatenation rules).append
          (walk.published session shard.1.1) shard.1.2
      else row.append (walk.published session shard.1.1) shard.1.2 := rfl
  rw [hshard, addedShards]
  cases hfolds : foldsShard walk session wouldFold observedSequences shard with
  | false => constructor <;> simp [hfolds, Concatenation.append]
  | true =>
    cases hpolicy : policy.collapses with
    | false => constructor <;> simp [hfolds, Concatenation.append]
    | true => constructor <;> simp [hfolds]

lemma foldl_addShard (walk : MachineWalk rules) (wouldFold observedSequences : List ℕ)
    (shards : List ((Option ℕ × Bytes) × ℕ)) (row : Concatenation rules) :
    row.Adds walk session
      (shards.foldl (addShard policy walk session wouldFold observedSequences) row)
      (addedShards policy walk session wouldFold observedSequences shards)
      ((shards.filter (foldsShard walk session wouldFold observedSequences)).map Prod.snd) := by
  induction shards generalizing row with
  | nil => constructor <;> simp [addedShards]
  | cons shard shards ih =>
    have hadds := (@addShard_adds rules policy session walk wouldFold observedSequences row shard).trans
      (ih (addShard policy walk session wouldFold observedSequences row shard))
    have hkept : addedShards policy walk session wouldFold observedSequences [shard] ++
        addedShards policy walk session wouldFold observedSequences shards =
          addedShards policy walk session wouldFold observedSequences (shard :: shards) := by
      simp only [addedShards, ← List.map_append, ← List.filter_append, List.singleton_append]
    have hfolded : ([shard].filter (foldsShard walk session wouldFold observedSequences)).map
        Prod.snd ++ (shards.filter (foldsShard walk session wouldFold observedSequences)).map
          Prod.snd =
          ((shard :: shards).filter (foldsShard walk session wouldFold observedSequences)).map
            Prod.snd := by
      simp only [← List.map_append, ← List.filter_append, List.singleton_append]
    rw [hkept, hfolded] at hadds
    exact hadds

/-- The report of a session: under either policy it notes the copies that a collapse read leaves out,
and its body leaves them out only under that policy. -/
lemma sessionBackedUp_leaves (policy : DuplicateShardPolicy) (machine session : Ident)
    (walk : MachineWalk rules) (bodies : List (Option ℕ × Bytes)) :
    let row := sessionBackedUp policy machine walk session bodies
    ∃ leaves, LeavesOnlyRepeats bodies leaves ∧
      row.foldedShardIndices = (List.range bodies.length).filter leaves ∧
      let kept := if policy.collapses then leftIn leaves bodies else bodies
      row.shardSha256 = (kept.map fun shard => rules.H.digest shard.2) ∧
        row.shardBytes = (kept.map fun shard => shard.2.length) ∧
        row.shardSequences = (kept.map fun shard => walk.published session shard.1) ∧
        row.sha256 = rules.H.digest (kept.map Prod.snd).flatten := by
  intro row
  let duplicates := duplicateShardIndicesSequenced bodies
  let observed := walk.observedSequences session bodies
  let leaves := fun i => (bodies[i]?).any fun shard =>
    foldsShard walk session duplicates observed (shard, i)
  have hleaves : ∀ e ∈ bodies.zipIdx, foldsShard walk session duplicates observed e = leaves e.2 := by
    rintro ⟨shard, i⟩ hmem
    simp [leaves, List.mk_mem_zipIdx_iff_getElem?.mp hmem]
  have hadds := @foldl_addShard rules policy session walk duplicates observed bodies.zipIdx
    ⟨[], [], [], [], [], [], []⟩
  have hkept : addedShards policy walk session duplicates observed bodies.zipIdx =
      if policy.collapses then leftIn leaves bodies else bodies := by
    rw [addedShards]
    cases policy.collapses with
    | false => simp
    | true =>
      simp only [Bool.true_and, if_true, leftIn]
      exact congrArg (List.map Prod.fst) (List.filter_congr fun e he => by rw [hleaves e he])
  have hfolded : (bodies.zipIdx.filter (foldsShard walk session duplicates observed)).map Prod.snd =
      (List.range bodies.length).filter leaves := by
    have hindices : bodies.zipIdx.map Prod.snd = List.range bodies.length := by
      rw [List.zipIdx_map_snd, List.range_eq_range']
    rw [List.filter_congr hleaves, ← hindices, List.filter_map]
    rfl
  rw [hkept, hfolded] at hadds
  refine ⟨leaves, leavesOnlyRepeats_of_duplicates fun i hi => ?_, hadds.folded, ?_⟩
  · obtain ⟨shard, -, hfolds⟩ := (Option.any_eq_true _ _).mp hi
    rw [foldsShard, Bool.and_eq_true, List.contains_iff_mem] at hfolds
    exact hfolds.1
  · refine ⟨hadds.sha256, hadds.bytes, hadds.sequences, ?_⟩
    exact congrArg rules.H.digest hadds.concat

end Reads

/-- A cumulative read leaves out an entry only on the evidence of an earlier one that it keeps, equal
byte for byte and under the same known sequence number: no sequence and body disappears from any read,
and the entries kept stay in order. -/
theorem collapse_leaves_only_repeats {T : Type} [DecidableEq T] (rules : ReadRules)
    (policy : DuplicateShardPolicy) (machine session : Ident) :
    (∀ (entries : List (Option ℕ × T)) (collapses : Bool), ∃ leaves,
      LeavesOnlyRepeats entries leaves ∧
        selectShardBodiesSequenced (entries.map Prod.snd) (entries.map Prod.fst) collapses =
          (leftIn leaves entries).map Prod.snd) ∧
    (∀ (walk : SessionWalk rules) (shards : List DumpedShard), ∃ leaves,
      LeavesOnlyRepeats (shards.map fun shard => (shard.raw, shard.body)) leaves ∧
        selectShards session policy walk shards = leftIn leaves shards) ∧
    ∀ (walk : MachineWalk rules) (bodies : List (Option ℕ × Bytes)),
      (∃ leaves, LeavesOnlyRepeats bodies leaves ∧
        visitedShards policy walk session bodies = (leftIn leaves bodies).map fun shard =>
          (if policy.collapses then walk.published session shard.1 else shard.1, shard.2)) ∧
      let row := sessionBackedUp policy machine walk session bodies
      ∃ leaves, LeavesOnlyRepeats bodies leaves ∧
        row.foldedShardIndices = (List.range bodies.length).filter leaves ∧
        let kept := if policy.collapses then leftIn leaves bodies else bodies
        row.shardSha256 = (kept.map fun shard => rules.H.digest shard.2) ∧
          row.shardBytes = (kept.map fun shard => shard.2.length) ∧
          row.shardSequences = (kept.map fun shard => walk.published session shard.1) ∧
          row.sha256 = rules.H.digest (kept.map Prod.snd).flatten := by
  refine ⟨fun entries collapses => ?_, selectShards_leaves policy session, fun walk bodies =>
    ⟨visitedShards_leaves policy session walk bodies,
      sessionBackedUp_leaves policy machine session walk bodies⟩⟩
  refine ⟨_, leavesOnlyRepeats_of_duplicates fun i hi => ?_,
    selectShardBodiesSequenced_eq entries collapses⟩
  rw [Bool.and_eq_true, decide_eq_true_eq] at hi
  exact hi.2

section Sample

/-- One sealed shard of the session below two stage roots. -/
def twoRootEntries : List (Path × Node) :=
  ["a".toList, "b".toList].flatMap fun root =>
    [([root], .dir root), ([root, "sessions".toList], .dir (root ++ "s".toList)),
      ([root, "sessions".toList, "m".toList], .dir (root ++ "m".toList)),
      ([root, "sessions".toList, "m".toList, "s".toList], .dir (root ++ "d".toList)),
      ([root, "sessions".toList, "m".toList, "s".toList, "000001.jsonl".toList],
        .file [1, 10] (some [[]]))]

lemma twoRootEntries_within : ∀ e ∈ twoRootEntries, ∀ at_, at_ <+: e.1 → at_ ≠ [] → at_ ≠ e.1 →
    ∃ subtree, (at_, Node.dir subtree) ∈ twoRootEntries := by
  have hdirs : ∀ e ∈ twoRootEntries, ∀ at_ ∈ e.1.inits, at_ = [] ∨ at_ = e.1 ∨
      ∃ dir ∈ ["a", "as", "am", "ad", "b", "bs", "bm", "bd"].map String.toList,
        (at_, Node.dir dir) ∈ twoRootEntries := by decide +kernel
  intro e he at_ hstart hne hproper
  obtain h | h | ⟨dir, -, hdir⟩ := hdirs e he at_ ((List.mem_inits _ _).mpr hstart)
  · exact absurd h hne
  · exact absurd h hproper
  · exact ⟨dir, hdir⟩

def twoRootSnapshot : Snapshot :=
  ⟨"m".toList, 1, [["a".toList], ["b".toList]], "t".toList, twoRootEntries, by decide +kernel,
    twoRootEntries_within⟩

def twoRootArchive : Archive :=
  ⟨[twoRootSnapshot], fun _ => true, fun _ => none, .ok fun _ _ => false, .ok fun _ _ => false⟩

/-- A read of a session leaves out no entry whose sequence more than one path carries. -/
def AmbiguousStay (rules : ReadRules) (archive : Archive) (machine session : Ident)
    (snapshots : List Snapshot) : Prop :=
  ∀ (walk : SessionWalk rules) (shards : List DumpedShard),
    walkSession archive (fullEntries archive) machine session .collapse snapshots = .ok walk →
      dumpHeld archive walk = .ok shards → ∀ sequence ∈ walk.sequences.ambiguous,
        (selectShards session .collapse walk shards).countP (fun shard => shard.raw = some sequence) =
          shards.countP fun shard => shard.raw = some sequence

/-- The second root's copy is left out although its sequence is ambiguous. -/
theorem ambiguous_sequence_folded :
    ¬ AmbiguousStay stageRules twoRootArchive "m".toList "s".toList twoRootArchive.snapshots := by
  intro h
  have hrun : ((walkSession twoRootArchive (fullEntries twoRootArchive) "m".toList "s".toList
      .collapse twoRootArchive.snapshots : Except ReadError (SessionWalk stageRules)).bind fun walk =>
        (dumpHeld twoRootArchive walk).map fun shards => (decide (1 ∈ walk.sequences.ambiguous),
          (selectShards "s".toList .collapse walk shards).countP (fun shard => shard.raw = some 1),
          shards.countP fun shard => shard.raw = some 1)).toOption = some (true, 1, 2) := by
    decide +kernel
  cases hwalk : (walkSession twoRootArchive (fullEntries twoRootArchive) "m".toList "s".toList
      .collapse twoRootArchive.snapshots : Except ReadError (SessionWalk stageRules)) with
  | error e =>
    rw [hwalk] at hrun
    cases hrun
  | ok walk =>
    rw [hwalk] at hrun
    cases hshards : dumpHeld twoRootArchive walk with
    | error e =>
      simp only [Except.bind, hshards] at hrun
      cases hrun
    | ok shards =>
      simp only [Except.bind, hshards, Except.map, Except.toOption, Option.some.injEq,
        Prod.mk.injEq, decide_eq_true_eq] at hrun
      obtain ⟨hambiguous, hkept, hheld⟩ := hrun
      have hstay := h walk shards hwalk hshards 1 hambiguous
      rw [hkept, hheld] at hstay
      cases hstay

end Sample

end Readback

end ChatStasher
