import Mathlib.Data.List.Infix
import Mathlib.Data.List.GetD
import Mathlib.Order.Bounds.Basic
import Mathlib.Order.MinMax

/-! Knuth-Morris-Pratt scanning for the longest prefix of a pattern that a text contains. -/
namespace PrefixScan

variable {α : Type*}

/-- `m` is the longest prefix of the pattern that ends the text read so far. -/
def Tracks (pat done : List α) (m : ℕ) : Prop :=
  IsGreatest {k | k ≤ pat.length ∧ pat.take k <:+ done} m

lemma tracks_nil (pat : List α) : Tracks pat [] 0 := by
  refine ⟨by simp, fun k hk => ?_⟩
  have hlen := hk.2.length_le
  rw [List.length_take_of_le hk.1] at hlen
  exact hlen

/-- `best` is the longest prefix of the pattern found anywhere in the text. -/
def Covers (pat text : List α) (best : ℕ) : Prop :=
  IsGreatest {k | k ≤ pat.length ∧ pat.take k <:+: text} best

lemma covers_concat {pat done : List α} {x : α} {m best : ℕ} (hb : Covers pat done best)
    (hm : Tracks pat (done ++ [x]) m) : Covers pat (done ++ [x]) (max best m) := by
  constructor
  · rcases le_total best m with h | h
    · rw [max_eq_right h]
      exact ⟨hm.1.1, hm.1.2.isInfix⟩
    · rw [max_eq_left h]
      exact ⟨hb.1.1, hb.1.2.trans (List.prefix_append done [x]).isInfix⟩
  · intro k hk
    rcases List.infix_concat_iff.mp hk.2 with h | h
    · exact le_max_of_le_right (hm.2 ⟨hk.1, h⟩)
    · exact le_max_of_le_left (hb.2 ⟨hk.1, h⟩)

lemma take_succ_suffix {pat done : List α} {k : ℕ} {x : α} (hk : k < pat.length) :
    pat.take (k + 1) <:+ done ++ [x] ↔ pat.take k <:+ done ∧ pat[k]? = some x := by
  rw [List.take_succ_eq_append_getElem hk, List.getElem?_eq_getElem hk, List.suffix_concat_iff]
  constructor
  · rintro (h | ⟨t, h, ht⟩)
    · exact absurd h (List.append_ne_nil_of_right_ne_nil _ (List.cons_ne_nil _ _))
    · obtain ⟨h, hx⟩ := List.append_inj' h rfl
      exact ⟨h ▸ ht, congrArg List.head? hx⟩
  · rintro ⟨h, hx⟩
    exact Or.inr ⟨pat.take k, by rw [Option.some.inj hx], h⟩

lemma suffix_tail_of_lt {pat done : List α} {k m : ℕ} (hm : m ≤ pat.length)
    (hk : pat.take k <:+ done) (hd : pat.take m <:+ done) (hkm : k < m) :
    pat.take k <:+ pat.tail.take (m - 1) := by
  have h : pat.take k <:+ pat.take m :=
    List.suffix_of_suffix_length_le hk hd (by simp; omega)
  obtain ⟨t, ht⟩ := h
  cases t with
  | nil =>
    have := congrArg List.length ht
    simp at this
    omega
  | cons a t =>
    refine ⟨t, ?_⟩
    rw [← List.tail_take_eq_take_tail, ← ht]
    rfl

variable [DecidableEq α]

/-- The inner loop: fall back through the table until `x` extends the match or nothing is left. -/
def fallBack (pat : List α) (table : List ℕ) (x : α) : ℕ → ℕ → ℕ
  | 0, matched => matched
  | fuel + 1, matched =>
    if 0 < matched ∧ pat[matched]? ≠ some x then
      fallBack pat table x fuel (table.getD (matched - 1) 0)
    else matched

/-- One symbol: fall back, then extend the match if the symbol continues it. -/
def advance (pat : List α) (table : List ℕ) (matched : ℕ) (x : α) : ℕ :=
  let matched := fallBack pat table x matched matched
  if pat[matched]? = some x then matched + 1 else matched

/-- The entries below `n` are the longest proper borders of the pattern's prefixes. -/
def TableTo (pat : List α) (table : List ℕ) (n : ℕ) : Prop :=
  ∀ i < n, Tracks pat (pat.tail.take i) (table.getD i 0)

lemma fallBack_spec {pat done : List α} {table : List ℕ} {x : α} {fuel matched : ℕ}
    (hfuel : matched ≤ fuel) (hlen : matched ≤ pat.length) (hdone : pat.take matched <:+ done)
    (htable : TableTo pat table matched)
    (habove : ∀ k, matched < k → k ≤ pat.length → pat.take k <:+ done → pat[k]? ≠ some x) :
    let m := fallBack pat table x fuel matched
    m ≤ matched ∧ pat.take m <:+ done ∧ (m = 0 ∨ pat[m]? = some x) ∧
      ∀ k, m < k → k ≤ pat.length → pat.take k <:+ done → pat[k]? ≠ some x := by
  induction fuel generalizing matched with
  | zero => exact ⟨le_rfl, hdone, Or.inl (Nat.le_zero.mp hfuel), habove⟩
  | succ fuel ih =>
    by_cases h : 0 < matched ∧ pat[matched]? ≠ some x
    · simp only [fallBack, h, ne_eq, not_false_eq_true, and_self, if_true]
      have hnext := htable (matched - 1) (by omega)
      have hlt : table.getD (matched - 1) 0 < matched := by
        have := hnext.1.2.length_le
        have := hnext.1.1
        simp at *
        omega
      have htail : pat.tail.take (matched - 1) <:+ pat.take matched := by
        rw [← List.tail_take_eq_take_tail]
        exact List.tail_suffix _
      have habove' : ∀ k, table.getD (matched - 1) 0 < k → k ≤ pat.length →
          pat.take k <:+ done → pat[k]? ≠ some x := by
        intro k hk hkl hkd
        rcases lt_trichotomy k matched with hlt' | heq | hgt
        · have := hnext.2 ⟨hkl, suffix_tail_of_lt hlen hkd hdone hlt'⟩
          omega
        · exact heq ▸ h.2
        · exact habove k hgt hkl hkd
      obtain ⟨hle, hsuf, hend, hmax⟩ := ih (by omega) (by omega)
        (hnext.1.2.trans (htail.trans hdone)) (fun i hi => htable i (by omega)) habove'
      exact ⟨by omega, hsuf, hend, hmax⟩
    · simp only [fallBack, h, if_false]
      refine ⟨le_rfl, hdone, ?_, habove⟩
      by_cases h0 : matched = 0
      · exact Or.inl h0
      · exact Or.inr (by_contra fun hx => h ⟨by omega, hx⟩)

theorem advance_tracks {pat done : List α} {table : List ℕ} {x : α} {matched : ℕ}
    (hm : Tracks pat done matched) (hlt : matched < pat.length)
    (htable : TableTo pat table matched) :
    Tracks pat (done ++ [x]) (advance pat table matched x) := by
  obtain ⟨hle, hsuf, hend, hmax⟩ := fallBack_spec (x := x) le_rfl hm.1.1 hm.1.2 htable
    (fun k hk hkl hkd => absurd (hm.2 ⟨hkl, hkd⟩) (by omega))
  simp only [advance]
  generalize fallBack pat table x matched matched = m at hle hsuf hend hmax
  by_cases hx : pat[m]? = some x
  · rw [if_pos hx]
    refine ⟨⟨by omega, (take_succ_suffix (by omega)).mpr ⟨hsuf, hx⟩⟩, fun k hk => ?_⟩
    cases k with
    | zero => omega
    | succ k =>
      have hkl : k < pat.length := hk.1
      obtain ⟨hkd, hkx⟩ := (take_succ_suffix hkl).mp hk.2
      by_contra hgt
      exact hmax k (by omega) hkl.le hkd hkx
  · obtain rfl : m = 0 := hend.resolve_right hx
    rw [if_neg hx]
    refine ⟨by simp, fun k hk => ?_⟩
    cases k with
    | zero => omega
    | succ k =>
      have hkl : k < pat.length := hk.1
      obtain ⟨hkd, hkx⟩ := (take_succ_suffix hkl).mp hk.2
      cases k with
      | zero => exact absurd hkx hx
      | succ k => exact absurd hkx (hmax (k + 1) (by omega) hkl.le hkd)

/-- The failure table is filled by matching the pattern against itself. -/
def extendTable (pat : List α) (table : List ℕ) (x : α) : List ℕ :=
  table ++ [advance pat table (table.getLastD 0) x]

def prefixTable (pat : List α) : List ℕ :=
  match pat with
  | [] => []
  | _ :: rest => rest.foldl (extendTable pat) [0]

lemma tableTo_extend {pat : List α} {table : List ℕ} {n : ℕ} {x : α}
    (hlen : table.length = n + 1) (htable : TableTo pat table (n + 1))
    (hx : pat.tail[n]? = some x) : TableTo pat (extendTable pat table x) (n + 2) := by
  have hlast : table.getLastD 0 = table.getD n 0 := by
    rw [List.getLastD_eq_getLast?, List.getLast?_eq_getElem?, hlen, List.getD_eq_getElem?_getD]
    rfl
  have htracks := htable n (by omega)
  have hn : n < pat.tail.length := (List.getElem?_eq_some_iff.mp hx).1
  have hle : table.getD n 0 ≤ n := by
    have h := htracks.1.2.length_le
    rw [List.length_take_of_le htracks.1.1, List.length_take_of_le hn.le] at h
    exact h
  rw [List.length_tail] at hn
  have hstep := advance_tracks (x := x) htracks (by omega) fun i hi => htable i (by omega)
  have htake : pat.tail.take n ++ [x] = pat.tail.take (n + 1) := by
    rw [List.take_add_one, hx, Option.toList_some]
  rw [htake] at hstep
  intro i hi
  rcases Nat.lt_succ_iff_lt_or_eq.mp hi with hlt | rfl
  · rw [extendTable, List.getD_append _ _ _ _ (by omega)]
    exact htable i hlt
  · rw [extendTable, hlast, List.getD_append_right _ _ _ _ (by omega), hlen]
    simpa using hstep

lemma tableTo_prefixTable (pat : List α) : TableTo pat (prefixTable pat) pat.length := by
  cases pat with
  | nil => intro i hi; simp at hi
  | cons a rest =>
    have key : ∀ (done todo : List α) (table : List ℕ), rest = done ++ todo →
        table.length = done.length + 1 → TableTo (a :: rest) table (done.length + 1) →
        TableTo (a :: rest) (todo.foldl (extendTable (a :: rest)) table) (rest.length + 1) := by
      intro done todo
      induction todo generalizing done with
      | nil => rintro table rfl hlen htable; simpa using htable
      | cons x todo ih =>
        intro table hrest hlen htable
        have hx : (a :: rest).tail[done.length]? = some x := by simp [hrest]
        refine ih (done ++ [x]) _ (by simp [hrest]) (by simp [extendTable, hlen]) ?_
        simpa using tableTo_extend hlen htable hx
    refine key [] rest [0] rfl rfl fun i hi => ?_
    obtain rfl : i = 0 := by simpa using hi
    exact tracks_nil _

/-- The outer loop: the best match so far, with an early return once the whole pattern is found. -/
def scan (pat : List α) (table : List ℕ) : ℕ → ℕ → List α → ℕ
  | _, best, [] => best
  | matched, best, x :: text =>
    let matched := fallBack pat table x matched matched
    if pat[matched]? = some x then
      let matched := matched + 1
      if matched = pat.length then pat.length
      else scan pat table matched (max best matched) text
    else scan pat table matched best text

/-- The length of the longest prefix of the pattern found anywhere in the text. -/
def longestPrefixRun (pat text : List α) : ℕ :=
  if pat = [] then 0 else scan pat (prefixTable pat) 0 0 text

theorem covers_scan {pat : List α} {table : List ℕ} (htable : TableTo pat table pat.length)
    (text done : List α) {matched best : ℕ} (hm : Tracks pat done matched)
    (hlt : matched < pat.length) (hb : Covers pat done best) :
    Covers pat (done ++ text) (scan pat table matched best text) := by
  induction text generalizing done matched best with
  | nil => simpa [scan] using hb
  | cons x text ih =>
    have hstep := advance_tracks (x := x) hm hlt fun i hi => htable i (by omega)
    have hbest := covers_concat hb hstep
    have happ : done ++ x :: text = (done ++ [x]) ++ text := by simp
    rw [happ]
    simp only [advance] at hstep hbest
    simp only [scan]
    have hfall : fallBack pat table x matched matched ≤ matched :=
      (fallBack_spec (x := x) le_rfl hm.1.1 hm.1.2 (fun i hi => htable i (by omega))
        fun k hk hkl hkd => absurd (hm.2 ⟨hkl, hkd⟩) (by omega)).1
    split
    next hx =>
      rw [if_pos hx] at hstep hbest
      split
      next hfull =>
        refine ⟨⟨le_rfl, ?_⟩, fun k hk => hk.1⟩
        have h := hstep.1.2
        rw [hfull] at h
        exact h.isInfix.trans (List.prefix_append _ _).isInfix
      next hfull =>
        have hle := hstep.1.1
        exact ih _ hstep (by omega) hbest
    next hx =>
      rw [if_neg hx] at hstep hbest
      have hzero : fallBack pat table x matched matched = 0 :=
        ((fallBack_spec (x := x) le_rfl hm.1.1 hm.1.2 (fun i hi => htable i (by omega))
          fun k hk hkl hkd => absurd (hm.2 ⟨hkl, hkd⟩) (by omega)).2.2.1).resolve_right hx
      rw [hzero] at hstep hbest ⊢
      exact ih _ hstep (by omega) (by simpa using hbest)

theorem longestPrefixRun_covers (pat text : List α) :
    Covers pat text (longestPrefixRun pat text) := by
  rw [longestPrefixRun]
  split
  next h => subst h; exact ⟨by simp, fun k hk => hk.1⟩
  next h =>
    have hpos := List.length_pos_of_ne_nil h
    have hnil : Covers pat [] 0 := by
      refine ⟨by simp, fun k hk => ?_⟩
      have hlen := List.infix_nil.mp hk.2
      simpa [h] using hlen
    simpa using covers_scan (tableTo_prefixTable pat) text [] (tracks_nil pat) hpos hnil

lemma longestPrefixRun_infix (pat text : List α) :
    pat.take (longestPrefixRun pat text) <:+: text :=
  (longestPrefixRun_covers pat text).1.2

lemma le_longestPrefixRun {pat text : List α} {k : ℕ} (hk : k ≤ pat.length)
    (h : pat.take k <:+: text) : k ≤ longestPrefixRun pat text :=
  (longestPrefixRun_covers pat text).2 ⟨hk, h⟩

example : longestPrefixRun [1, 1, 2] [1, 2, 1, 1, 1, 2] = 3 := by decide

end PrefixScan
