import ChatStasher.Store.ShardList
import Mathlib.Data.List.GetD

/-! Which tail-replay candidates arise when every shard of a session is met twice in a row. -/
namespace ChatStasher

section Candidates
variable {T : Type}

/-- Every body twice in a row: how the two instances' shards interleave by sequence. -/
def pairUp (bodies : List T) : List T := bodies.flatMap fun b => [b, b]

@[simp] lemma getElem?_pairUp (bodies : List T) (i : ℕ) : (pairUp bodies)[i]? = bodies[i / 2]? := by
  induction bodies generalizing i with
  | nil => simp [pairUp]
  | cons b bodies ih =>
    have hcons : pairUp (b :: bodies) = b :: b :: pairUp bodies := rfl
    rw [hcons]
    match i with
    | 0 => rfl
    | 1 => rfl
    | i + 2 =>
      have hdiv : (i + 2) / 2 = i / 2 + 1 := by omega
      rw [hdiv]
      simpa using ih i

@[simp] lemma length_pairUp (bodies : List T) : (pairUp bodies).length = 2 * bodies.length := by
  simp [pairUp, Nat.mul_comm]

variable [DecidableEq T]

lemma longestReplay_le (shards : List T) (preceding : List ℕ) (index bounded : ℕ) :
    longestReplay shards preceding index bounded ≤ bounded := by
  induction bounded with
  | zero => exact le_rfl
  | succ len ih => rw [longestReplay]; split <;> omega

lemma longestReplay_eq_zero {shards : List T} {preceding : List ℕ} {index bounded : ℕ}
    (h : ∀ len, 0 < len → len ≤ bounded → replaysTail shards preceding index len = false) :
    longestReplay shards preceding index bounded = 0 := by
  induction bounded with
  | zero => rfl
  | succ len ih =>
    rw [longestReplay, h (len + 1) (by omega) le_rfl]
    exact ih fun l h0 hl => h l h0 (by omega)

lemma longestReplay_eq {shards : List T} {preceding : List ℕ} {index bounded m : ℕ} (h0 : 0 < m)
    (hm : m ≤ bounded) (hrun : replaysTail shards preceding index m = true)
    (h : ∀ len, m < len → len ≤ bounded → replaysTail shards preceding index len = false) :
    longestReplay shards preceding index bounded = m := by
  induction bounded with
  | zero => omega
  | succ len ih =>
    rcases Nat.lt_or_eq_of_le hm with hlt | rfl
    · rw [longestReplay, h (len + 1) hlt le_rfl]
      exact ih (by omega) fun l h0 hl => h l h0 (by omega)
    · rw [longestReplay, if_pos hrun]

lemma longestReplay_pos {shards : List T} {preceding : List ℕ} {index bounded m : ℕ}
    (h0 : 0 < m) (hm : m ≤ bounded) (hrun : replaysTail shards preceding index m = true) :
    0 < longestReplay shards preceding index bounded := by
  induction bounded with
  | zero => omega
  | succ len ih =>
    rw [longestReplay]
    split
    next => omega
    next hno =>
      refine ih ?_
      rcases Nat.lt_or_eq_of_le hm with hlt | rfl
      · omega
      · exact absurd hrun hno

lemma tailReplayLoop_keep {shards : List T} {fuel index : ℕ} {preceding : List ℕ}
    (hlt : index < shards.length)
    (h : longestReplay shards preceding index (min preceding.length (shards.length - index)) = 0) :
    tailReplayLoop shards (fuel + 1) index preceding =
      tailReplayLoop shards fuel (index + 1) (preceding ++ [index]) := by
  simp only [tailReplayLoop, if_pos hlt, h, lt_irrefl, if_false]

lemma tailReplayLoop_fold {shards : List T} {fuel index replay : ℕ} {preceding : List ℕ}
    (hlt : index < shards.length) (hpos : 0 < replay)
    (h : longestReplay shards preceding index (min preceding.length (shards.length - index)) =
      replay) :
    tailReplayLoop shards (fuel + 1) index preceding =
      (List.range replay).map (fun offset =>
        (index + offset, preceding.getD (preceding.length - replay + offset) 0)) ++
      tailReplayLoop shards fuel (index + replay) preceding := by
  simp only [tailReplayLoop, if_pos hlt, h, if_pos hpos]

lemma tailReplayLoop_partner {shards : List T} {fuel index : ℕ} {preceding : List ℕ}
    (hpre : ∀ p ∈ preceding, p < index) {i p : ℕ}
    (h : (i, p) ∈ tailReplayLoop shards fuel index preceding) :
    index ≤ i ∧ p < i ∧ (p ∈ preceding ∨ index ≤ p) := by
  induction fuel generalizing index preceding with
  | zero => simp [tailReplayLoop] at h
  | succ fuel ih =>
    simp only [tailReplayLoop] at h
    split at h
    next hlt =>
      split at h
      next hpos =>
        have hle := longestReplay_le shards preceding index
          (min preceding.length (shards.length - index))
        generalize longestReplay shards preceding index
          (min preceding.length (shards.length - index)) = replay at h hpos hle
        rcases List.mem_append.mp h with h | h
        · obtain ⟨offset, hoff, heq⟩ := List.mem_map.mp h
          rw [List.mem_range] at hoff
          simp only [Prod.mk.injEq] at heq
          obtain ⟨rfl, rfl⟩ := heq
          have hin : preceding.length - replay + offset < preceding.length := by omega
          have hmem : preceding.getD (preceding.length - replay + offset) 0 ∈ preceding := by
            rw [List.getD_eq_getElem _ _ hin]
            exact List.getElem_mem hin
          have := hpre _ hmem
          exact ⟨by omega, by omega, Or.inl hmem⟩
        · obtain ⟨h1, h2, h3⟩ := ih (fun p hp => by have := hpre p hp; omega) h
          exact ⟨by omega, h2, h3.imp_right fun h3 => by omega⟩
      next =>
        obtain ⟨h1, h2, h3⟩ := ih (fun p hp => by
          rcases List.mem_append.mp hp with hp | hp
          · have := hpre p hp; omega
          · simp only [List.mem_singleton] at hp; omega) h
        refine ⟨by omega, h2, ?_⟩
        rcases h3 with h3 | h3
        · rcases List.mem_append.mp h3 with h3 | h3
          · exact Or.inl h3
          · simp only [List.mem_singleton] at h3; omega
        · exact Or.inr (by omega)
    next => simp at h

def evens (k : ℕ) : List ℕ := (List.range k).map (2 * ·)

@[simp] lemma length_evens (k : ℕ) : (evens k).length = k := by simp [evens]

lemma evens_succ (k : ℕ) : evens (k + 1) = evens k ++ [2 * k] := by
  simp [evens, List.range_succ]

def FreshUpTo (bodies : List T) (k : ℕ) : Prop := ∀ i, i + 1 < k → bodies[i]? ≠ bodies[i + 1]?

lemma replaysTail_pairUp (bodies : List T) {k index len : ℕ} (hlen : len ≤ k) :
    replaysTail (pairUp bodies) (evens k) index len = true ↔
      ∀ offset < len, bodies[(index + offset) / 2]? = bodies[k - len + offset]? := by
  simp only [replaysTail, List.all_eq_true, List.mem_range, length_evens, beq_iff_eq,
    getElem?_pairUp]
  refine forall₂_congr fun offset hoff => ?_
  have hin : k - len + offset < k := by omega
  simp [evens, List.getElem?_range hin]

lemma replaysTail_even {bodies : List T} {k len : ℕ} (hfresh : FreshUpTo bodies (k + 1))
    (h0 : 0 < len) (hlen : len ≤ k) :
    replaysTail (pairUp bodies) (evens k) (2 * k) len = false := by
  refine Bool.eq_false_iff.mpr fun hrun => ?_
  rw [replaysTail_pairUp bodies hlen] at hrun
  have hzero := hrun 0 h0
  rw [show (2 * k + 0) / 2 = k by omega, Nat.add_zero] at hzero
  by_cases h1 : len = 1
  · subst h1
    refine hfresh (k - 1) (by omega) ?_
    rw [show k - 1 + 1 = k by omega, hzero]
  · have hone := hrun 1 (by omega)
    rw [show (2 * k + 1) / 2 = k by omega] at hone
    exact hfresh (k - len) (by omega) (hzero.symm.trans hone)

lemma longestReplay_odd {bodies : List T} {k bounded : ℕ} (hfresh : FreshUpTo bodies (k + 1))
    (h1 : 1 ≤ bounded) (hb : bounded ≤ k + 1) :
    longestReplay (pairUp bodies) (evens (k + 1)) (2 * k + 1) bounded = 1 := by
  refine longestReplay_eq one_pos h1 ?_ fun len hlen hle => ?_
  · rw [replaysTail_pairUp bodies (by omega)]
    intro offset hoff
    rw [show offset = 0 by omega, show (2 * k + 1 + 0) / 2 = k by omega]
    rfl
  · refine Bool.eq_false_iff.mpr fun hrun => ?_
    rw [replaysTail_pairUp bodies (by omega)] at hrun
    by_cases h2 : len = 2
    · subst h2
      have hzero := hrun 0 (by omega)
      rw [show (2 * k + 1 + 0) / 2 = k - 1 + 1 by omega, show k + 1 - 2 + 0 = k - 1 by omega]
        at hzero
      exact hfresh (k - 1) (by omega) hzero.symm
    · have hone := hrun 1 (by omega)
      have htwo := hrun 2 (by omega)
      rw [show (2 * k + 1 + 1) / 2 = k + 1 by omega] at hone
      rw [show (2 * k + 1 + 2) / 2 = k + 1 by omega] at htwo
      exact hfresh (k + 1 - len + 1) (by omega) (hone.symm.trans htwo)

lemma tailReplayLoop_fresh {bodies : List T} {k m fuel : ℕ} (hfresh : FreshUpTo bodies m)
    (hk : k ≤ m) (hm : m ≤ bodies.length) (hfuel : 2 * (m - k) ≤ fuel) :
    tailReplayLoop (pairUp bodies) fuel (2 * k) (evens k) =
      (List.range' k (m - k)).map (fun j => (2 * j + 1, 2 * j)) ++
        tailReplayLoop (pairUp bodies) (fuel - 2 * (m - k)) (2 * m) (evens m) := by
  induction hd : m - k generalizing k fuel with
  | zero =>
    obtain rfl : k = m := by omega
    simp
  | succ d ih =>
    obtain ⟨fuel, rfl⟩ : ∃ f, fuel = f + 2 := ⟨fuel - 2, by omega⟩
    have hfreshk : FreshUpTo bodies (k + 1) := fun i hi => hfresh i (by omega)
    have heven : longestReplay (pairUp bodies) (evens k) (2 * k)
        (min (evens k).length ((pairUp bodies).length - 2 * k)) = 0 :=
      longestReplay_eq_zero fun len h0 hle =>
        replaysTail_even hfreshk h0 (by simp at hle; omega)
    have hodd : longestReplay (pairUp bodies) (evens (k + 1)) (2 * k + 1)
        (min (evens (k + 1)).length ((pairUp bodies).length - (2 * k + 1))) = 1 :=
      longestReplay_odd hfreshk (by simp; omega) (by simp)
    have hpartner : (evens (k + 1)).getD ((evens (k + 1)).length - 1 + 0) 0 = 2 * k := by
      simp [evens]
    have hsecond : tailReplayLoop (pairUp bodies) (fuel + 1) (2 * k + 1) (evens (k + 1)) =
        (2 * k + 1, 2 * k) ::
          tailReplayLoop (pairUp bodies) fuel (2 * (k + 1)) (evens (k + 1)) := by
      rw [tailReplayLoop_fold (by simp; omega) one_pos hodd, List.range_one, List.map_singleton,
        hpartner]
      rfl
    rw [tailReplayLoop_keep (by simp; omega) heven, ← evens_succ, hsecond,
      ih (by omega) (by omega) (by omega), List.range'_succ]
    have hrest : fuel + 2 - 2 * (d + 1) = fuel - 2 * d := by omega
    simp only [List.map_cons, List.cons_append, hrest]

theorem tailReplayPartners_fresh {bodies : List T} (hfresh : FreshUpTo bodies bodies.length) :
    tailReplayPartners (pairUp bodies) =
      (List.range bodies.length).map fun j => (2 * j + 1, 2 * j) := by
  have hfuel : 2 * (bodies.length - 0) ≤ (pairUp bodies).length := by simp
  have h := tailReplayLoop_fresh hfresh (Nat.zero_le _) le_rfl hfuel
  have hzero : evens 0 = [] := rfl
  rw [Nat.mul_zero, hzero] at h
  rw [tailReplayPartners, h, List.range_eq_range']
  have hdone : tailReplayLoop (pairUp bodies) ((pairUp bodies).length - 2 * (bodies.length - 0))
      (2 * bodies.length) (evens bodies.length) = [] := by
    cases (pairUp bodies).length - 2 * (bodies.length - 0) with
    | zero => rfl
    | succ f => rw [tailReplayLoop, if_neg (by simp)]
  rw [hdone]
  simp

/-- At the first consecutive repeat the re-sealed copy is never paired with its own original: the
repeat has absorbed the match. -/
theorem not_mem_tailReplayPartners {bodies : List T} {k : ℕ} (hfresh : FreshUpTo bodies (k + 1))
    (hk : k + 1 < bodies.length) (hrep : bodies[k]? = bodies[k + 1]?) :
    (2 * (k + 1) + 1, 2 * (k + 1)) ∉ tailReplayPartners (pairUp bodies) := by
  have henough : 2 * (k + 1 - 0) ≤ (pairUp bodies).length := by simp; omega
  have hloop := tailReplayLoop_fresh hfresh (Nat.zero_le _) hk.le henough
  have hevens : evens 0 = [] := rfl
  rw [Nat.mul_zero, hevens] at hloop
  rw [tailReplayPartners, hloop]
  obtain ⟨fuel, hfuel⟩ : ∃ f, (pairUp bodies).length - 2 * (k + 1 - 0) = f + 1 :=
    ⟨2 * bodies.length - 2 * (k + 1) - 1, by simp; omega⟩
  have hrun : replaysTail (pairUp bodies) (evens (k + 1)) (2 * (k + 1)) 1 = true := by
    rw [replaysTail_pairUp bodies (by omega)]
    intro offset hoff
    rw [show offset = 0 by omega, show (2 * (k + 1) + 0) / 2 = k + 1 by omega]
    exact hrep.symm
  have hroom : 1 ≤ min (evens (k + 1)).length ((pairUp bodies).length - 2 * (k + 1)) := by
    simp; omega
  have hpos := longestReplay_pos one_pos hroom hrun
  have hle := longestReplay_le (pairUp bodies) (evens (k + 1)) (2 * (k + 1))
    (min (evens (k + 1)).length ((pairUp bodies).length - 2 * (k + 1)))
  obtain ⟨replay, hreplay⟩ : ∃ r, longestReplay (pairUp bodies) (evens (k + 1)) (2 * (k + 1))
    (min (evens (k + 1)).length ((pairUp bodies).length - 2 * (k + 1))) = r := ⟨_, rfl⟩
  rw [hreplay] at hpos hle
  rw [hfuel, tailReplayLoop_fold (by simp; omega) hpos hreplay]
  have hevenlt : ∀ p ∈ evens (k + 1), p < 2 * (k + 1) := by
    intro p hp
    simp only [evens, List.mem_map, List.mem_range] at hp
    omega
  simp only [List.mem_append, not_or]
  refine ⟨?_, ?_, fun h => ?_⟩
  · simp only [List.mem_map, List.mem_range'_1, Prod.mk.injEq]
    rintro ⟨j, hj, h1, h2⟩
    omega
  · simp only [List.mem_map, List.mem_range, Prod.mk.injEq]
    rintro ⟨offset, hoff, -, h2⟩
    have hin : (evens (k + 1)).length - replay + offset < (evens (k + 1)).length := by omega
    have hmem : (evens (k + 1)).getD ((evens (k + 1)).length - replay + offset) 0 ∈
        evens (k + 1) := by
      rw [List.getD_eq_getElem _ _ hin]
      exact List.getElem_mem hin
    have := hevenlt _ hmem
    omega
  · obtain ⟨-, -, h3⟩ := tailReplayLoop_partner (fun p hp => by have := hevenlt p hp; omega) h
    rcases h3 with h3 | h3
    · have := hevenlt _ h3
      omega
    · omega

lemma mem_duplicateShardIndices {shards : List (Option ℕ × T)} {i : ℕ} :
    i ∈ duplicateShardIndicesSequenced shards ↔
      ∃ p, (i, p) ∈ tailReplayPartners (shards.map Prod.snd) ∧
        ∃ s, (shards[i]?).bind Prod.fst = some s ∧ (shards[p]?).bind Prod.fst = some s := by
  simp only [duplicateShardIndicesSequenced, List.mem_map, List.mem_filter, Prod.exists,
    exists_and_right, exists_eq_right]
  refine exists_congr fun p => and_congr_right fun _ => ?_
  cases (shards[i]?).bind Prod.fst with
  | none => simp
  | some dup =>
    cases (shards[p]?).bind Prod.fst with
    | none => simp
    | some kept =>
      simp only [beq_iff_eq, Option.some.injEq]
      exact ⟨fun h => ⟨dup, rfl, h.symm⟩, fun ⟨s, h, h'⟩ => h.trans h'.symm⟩

end Candidates

end ChatStasher
