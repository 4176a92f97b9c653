import ChatStasher.Backfill.BatchExecute

/-! What the frame walk consumes. As long as no turn begins at a line of digits that no newline
follows, each turn consumes the characters that it passes, once; a turn that begins there goes back
to the start of the body. -/
namespace ChatStasher.BatchExecute
open JsonText

section Runs

variable {α : Type*} (p : α → Bool) (l : List α) (pos : ℕ)

def runEnd : ℕ := pos + ((l.drop pos).takeWhile p).length

variable {p l pos}

lemma le_runEnd : pos ≤ runEnd p l pos := Nat.le_add_right _ _

lemma of_lt_runEnd {i : ℕ} {c : α} (hpos : pos ≤ i) (hi : i < runEnd p l pos)
    (hc : l[i]? = some c) : p c := by
  obtain ⟨j, rfl⟩ := Nat.exists_eq_add_of_le hpos
  have hj : j < ((l.drop pos).takeWhile p).length := by
    unfold runEnd at hi
    omega
  have hget : (l.drop pos)[j]? = some c := by rwa [List.getElem?_drop]
  rw [← List.takeWhile_append_dropWhile (p := p) (l := l.drop pos),
    List.getElem?_append_left hj] at hget
  exact List.mem_takeWhile_imp (List.mem_of_getElem? hget)

lemma not_runEnd {c : α} (hc : l[runEnd p l pos]? = some c) : ¬ p c := by
  have hget : ((l.drop pos).dropWhile p)[0]? = some c := by
    rw [runEnd, ← List.getElem?_drop,
      ← List.takeWhile_append_dropWhile (p := p) (l := l.drop pos),
      List.getElem?_append_right (by simp)] at hc
    simpa using hc
  cases hdrop : (l.drop pos).dropWhile p with
  | nil =>
    rw [hdrop] at hget
    exact nomatch hget
  | cons d t =>
    rw [hdrop] at hget
    obtain rfl := Option.some.inj hget
    have hne : (l.drop pos).dropWhile p ≠ [] := by simp [hdrop]
    have hhead := List.head_dropWhile_not p hne
    simp only [hdrop, List.head_cons] at hhead
    simp [hhead]

end Runs

section Lines

variable {body : Units} {pos i : ℕ} {c : UInt16}

lemma le_skipSeparators : pos ≤ skipSeparators body pos := le_runEnd

lemma isSeparator_of_skipped (hpos : pos ≤ i) (hi : i < skipSeparators body pos)
    (hc : body[i]? = some c) : isSeparator c :=
  of_lt_runEnd hpos hi hc

lemma not_isSeparator_skipSeparators (hc : body[skipSeparators body pos]? = some c) :
    ¬ isSeparator c :=
  not_runEnd hc

lemma eq_lineFeed_of_lineStop (hc : body[pos + (lineAt body pos).length]? = some c) :
    c = lineFeed := by
  have hnot := not_runEnd (p := fun c => decide (c ≠ lineFeed)) hc
  simpa using hnot

lemma isSeparator_lineFeed : isSeparator lineFeed := by decide

lemma newlineFrom_eq_some {e : ℕ} (h : newlineFrom body pos = some e) :
    e = pos + (lineAt body pos).length := by
  unfold newlineFrom at h
  split at h
  · exact (Option.some.inj h).symm
  · exact nomatch h

lemma lineAt_of_newlineFrom_none (h : newlineFrom body pos = none) :
    lineAt body pos = body.drop pos := by
  unfold newlineFrom at h
  split at h
  · exact nomatch h
  next hnot =>
    refine List.takeWhile_eq_self_iff.mpr fun c hc => ?_
    have hne : c ≠ lineFeed := fun heq => hnot (heq ▸ hc)
    simpa using hne

lemma newlineFrom_lt {e : ℕ} (h : newlineFrom body pos = some e) : e < body.length := by
  obtain rfl := newlineFrom_eq_some h
  unfold newlineFrom at h
  split at h
  next hmem =>
    have hsplit := List.takeWhile_append_dropWhile (p := (· ≠ lineFeed)) (l := body.drop pos)
    have hlength := congrArg List.length hsplit
    have hne : (body.drop pos).dropWhile (· ≠ lineFeed) ≠ [] := by
      rw [ne_eq, List.dropWhile_eq_nil_iff]
      intro hall
      simpa using hall _ hmem
    have hpositive := List.length_pos_iff.mpr hne
    rw [List.length_append, List.length_drop] at hlength
    unfold lineAt
    omega
  · exact nomatch h

end Lines

section Covering

def covers (pieces : List Piece) (i : ℕ) : ℕ :=
  pieces.countP fun p => p.start ≤ i ∧ i < p.stop

@[simp] lemma covers_nil (i : ℕ) : covers [] i = 0 := rfl

@[simp] lemma covers_append (ps qs : List Piece) (i : ℕ) :
    covers (ps ++ qs) i = covers ps i + covers qs i := List.countP_append

lemma covers_singleton (p : Piece) (i : ℕ) :
    covers [p] i = if p.start ≤ i ∧ i < p.stop then 1 else 0 := by
  simp [covers, List.countP_singleton]

def Solid (body : Units) (i : ℕ) : Prop := ∃ c, body[i]? = some c ∧ ¬ isSeparator c

/-- Of the characters between two positions that are no separators, the parts hold each one once
and no other. -/
def CoverExactly (body : Units) (pieces : List Piece) (start stop : ℕ) : Prop :=
  ∀ i, Solid body i → covers pieces i = if start ≤ i ∧ i < stop then 1 else 0

variable {body : Units} {ps qs : List Piece} {a b c i pos : ℕ}

lemma Solid.lt (h : Solid body i) : i < body.length := by
  obtain ⟨c, hc, -⟩ := h
  exact (List.getElem?_eq_some_iff.mp hc).1

lemma CoverExactly.append (hab : a ≤ b) (hbc : b ≤ c) (hps : CoverExactly body ps a b)
    (hqs : CoverExactly body qs b c) : CoverExactly body (ps ++ qs) a c := by
  intro i hi
  rw [covers_append, hps i hi, hqs i hi]
  split <;> split <;> split <;> omega

lemma CoverExactly.single {p : Piece}
    (hstart : ∀ i, Solid body i → (p.start ≤ i ↔ a ≤ i))
    (hstop : ∀ i, Solid body i → (i < p.stop ↔ i < b)) : CoverExactly body [p] a b := by
  intro i hi
  rw [covers_singleton]
  simp only [hstart i hi, hstop i hi]

lemma CoverExactly.nothing {p : Piece} (h : p.stop ≤ p.start)
    (hsolid : ∀ i, Solid body i → ¬ (a ≤ i ∧ i < b)) : CoverExactly body [p] a b := by
  intro i hi
  rw [covers_singleton, if_neg (by omega), if_neg (hsolid i hi)]

lemma Solid.skipSeparators_le_iff (h : Solid body i) : skipSeparators body pos ≤ i ↔ pos ≤ i := by
  constructor
  · exact le_skipSeparators.trans
  · intro hpos
    obtain ⟨c, hc, hsep⟩ := h
    by_contra hlt
    exact hsep (isSeparator_of_skipped hpos (not_le.mp hlt) hc)

lemma solid_skipSeparators (h : skipSeparators body pos < body.length) :
    Solid body (skipSeparators body pos) :=
  ⟨_, List.getElem?_eq_getElem h, not_isSeparator_skipSeparators (List.getElem?_eq_getElem h)⟩

lemma Solid.lt_lineStop_iff (h : Solid body i) :
    i < pos + (lineAt body pos).length ↔ i < pos + (lineAt body pos).length + 1 := by
  constructor
  · exact Nat.lt_succ_of_lt
  · intro hlt
    obtain ⟨c, hc, hsep⟩ := h
    by_contra hge
    obtain rfl : i = pos + (lineAt body pos).length := by omega
    exact hsep (eq_lineFeed_of_lineStop hc ▸ isSeparator_lineFeed)

end Covering

section Turns

variable {body : Units} {w : Walk} {pos start i : ℕ}

/-- The line at hand is a line of digits that no newline follows. -/
def AtFinalLength (body : Units) (pos : ℕ) : Prop :=
  skipSeparators body pos < body.length ∧
    (declaredLength (lineAt body (skipSeparators body pos))).isSome ∧
    newlineFrom body (skipSeparators body pos) = none

lemma chunk_pieces (w : Walk) (value : Option Value) (declared : Option ℕ) (start stop : ℕ) :
    ∃ kind, (w.chunk value declared start stop).pieces = w.pieces ++ [⟨kind, start, stop⟩] := by
  cases value with
  | none => exact ⟨.undecoded, rfl⟩
  | some value => exact ⟨.frame, rfl⟩

lemma lt_nextPos (hstart : start < body.length) : start < nextPos body start := by
  unfold nextPos
  split
  next e hnewline =>
    obtain rfl := newlineFrom_eq_some hnewline
    omega
  next => exact hstart

lemma coverExactly_line (hstart : start < body.length) (kind : PieceKind) :
    CoverExactly body [⟨kind, start, start + (lineAt body start).length⟩] start
      (nextPos body start) := by
  refine .single (fun i _ => Iff.rfl) fun i hi => ?_
  unfold nextPos
  split
  next e hnewline =>
    obtain rfl := newlineFrom_eq_some hnewline
    exact hi.lt_lineStop_iff
  next hnewline =>
    have hlength := congrArg List.length (lineAt_of_newlineFrom_none hnewline)
    rw [List.length_drop] at hlength
    have hlt := hi.lt
    dsimp only
    omega

lemma declaredChunk_covers (w : Walk) (declared : ℕ) (hstart : start < body.length) :
    ∃ ps, (w.declaredChunk body declared start).pieces = w.pieces ++ ps ∧
      start < (w.declaredChunk body declared start).pos ∧
      CoverExactly body ps start (w.declaredChunk body declared start).pos := by
  unfold Walk.declaredChunk
  dsimp only
  split
  next hzero =>
    obtain ⟨kind, hkind⟩ :=
      chunk_pieces w none none start (start + (lineAt body start).length)
    exact ⟨_, hkind, lt_nextPos hstart, coverExactly_line hstart kind⟩
  next hzero =>
    split
    next value hvalue =>
      obtain ⟨kind, hkind⟩ := chunk_pieces w (some value) (some declared) start
        (start + ((body.drop start).take declared).length)
      refine ⟨_, hkind, by dsimp only; omega, .single (fun i _ => Iff.rfl) fun i hi => ?_⟩
      have hlt := hi.lt
      simp only [List.length_take, List.length_drop]
      omega
    next hvalue =>
      obtain ⟨kind, hkind⟩ := chunk_pieces w (JsonText.parse (lineAt body start)) (some declared)
        start (start + (lineAt body start).length)
      exact ⟨_, hkind, lt_nextPos hstart, coverExactly_line hstart kind⟩

lemma turn_pos (body : Units) {w w' : Walk} (h : w.pos = w'.pos) :
    (w.turn body).pos = (w'.turn body).pos := by
  have hchunk : ∀ (v v' : Walk) (declared start : ℕ),
      (v.declaredChunk body declared start).pos = (v'.declaredChunk body declared start).pos := by
    intro v v' declared start
    unfold Walk.declaredChunk
    dsimp only
    split
    · rfl
    · split <;> rfl
  unfold Walk.turn
  dsimp only
  rw [h]
  split
  · rfl
  · split
    · rfl
    · cases newlineFrom body (skipSeparators body w'.pos) with
      | none =>
        dsimp only
        split
        · rfl
        · exact hchunk _ _ _ _
      | some e =>
        dsimp only
        split
        · rfl
        · exact hchunk _ _ _ _

lemma turn_of_end (hend : body.length ≤ skipSeparators body w.pos) :
    w.turn body = { w with pos := skipSeparators body w.pos } := if_pos hend

theorem turn_covers (hskip : skipSeparators body w.pos < body.length)
    (hfinal : ¬ AtFinalLength body w.pos) :
    ∃ ps, (w.turn body).pieces = w.pieces ++ ps ∧
      skipSeparators body w.pos < (w.turn body).pos ∧
      CoverExactly body ps w.pos (w.turn body).pos := by
  have hle : w.pos ≤ skipSeparators body w.pos := le_skipSeparators
  unfold Walk.turn
  dsimp only
  rw [if_neg (not_le.mpr hskip)]
  split
  next hnone =>
    obtain ⟨kind, hkind⟩ := chunk_pieces w
      (JsonText.parse (lineAt body (skipSeparators body w.pos))) none
      (skipSeparators body w.pos)
      (skipSeparators body w.pos + (lineAt body (skipSeparators body w.pos)).length)
    refine ⟨_, hkind, by dsimp only; omega, .single (fun i hi => ?_) fun i hi => ?_⟩
    · exact hi.skipSeparators_le_iff
    · exact hi.lt_lineStop_iff
  next declared hsome =>
    cases hnewline : newlineFrom body (skipSeparators body w.pos) with
    | none => exact absurd ⟨hskip, by rw [hsome]; rfl, hnewline⟩ hfinal
    | some e =>
      have he := newlineFrom_eq_some hnewline
      have hlength : CoverExactly body [⟨.lengthLine, skipSeparators body w.pos, e⟩]
          w.pos (e + 1) := by
        refine .single (fun i hi => hi.skipSeparators_le_iff) fun i hi => ?_
        rw [he]
        exact hi.lt_lineStop_iff
      dsimp only
      rw [← he]
      split
      next hover =>
        obtain ⟨kind, hkind⟩ := chunk_pieces (w.lengthLine (skipSeparators body w.pos) e)
          none none (e + 1) (e + 1)
        have hlt := newlineFrom_lt hnewline
        refine ⟨_, hkind.trans (List.append_assoc _ _ _), hskip, ?_⟩
        refine hlength.append (by omega) hlt (.nothing le_rfl fun i hi => ?_)
        have hlast : body.length ≤ e + 1 := hover
        have hi := hi.lt
        dsimp only
        omega
      next hin =>
        have hstart : e + 1 < body.length := not_le.mp hin
        obtain ⟨ps, hps, hlt, hcover⟩ :=
          declaredChunk_covers (w.lengthLine (skipSeparators body w.pos) e) declared hstart
        refine ⟨_, hps.trans (List.append_assoc _ _ _), ?_, ?_⟩
        · exact lt_trans (by omega) hlt
        · exact hlength.append (by omega) hlt.le hcover

theorem turn_final (hfinal : AtFinalLength body w.pos) :
    ∃ ps, (w.turn body).pieces =
        w.pieces ++ (⟨.lengthLine, skipSeparators body w.pos, body.length⟩ :: ps) ∧
      CoverExactly body ps 0 (w.turn body).pos := by
  obtain ⟨hskip, hdeclared, hnewline⟩ := hfinal
  obtain ⟨declared, hsome⟩ := Option.isSome_iff_exists.mp hdeclared
  have hlength := congrArg List.length (lineAt_of_newlineFrom_none hnewline)
  rw [List.length_drop] at hlength
  have hstop : skipSeparators body w.pos + (lineAt body (skipSeparators body w.pos)).length =
      body.length := by omega
  unfold Walk.turn
  dsimp only
  rw [if_neg (not_le.mpr hskip), hsome, hnewline, hstop]
  dsimp only
  rw [if_neg (by omega)]
  obtain ⟨ps, hps, -, hcover⟩ :=
    declaredChunk_covers (w.lengthLine (skipSeparators body w.pos) body.length) declared
      (Nat.zero_lt_of_lt hskip)
  exact ⟨ps, hps.trans (List.append_assoc _ _ _), hcover⟩

lemma turn_covers_skip (hskip : skipSeparators body w.pos < body.length) :
    ∃ ps, (w.turn body).pieces = w.pieces ++ ps ∧
      1 ≤ covers ps (skipSeparators body w.pos) := by
  by_cases hfinal : AtFinalLength body w.pos
  · obtain ⟨ps, hps, -⟩ := turn_final hfinal
    refine ⟨_, hps, ?_⟩
    rw [← List.singleton_append, covers_append, covers_singleton, if_pos ⟨le_rfl, hskip⟩]
    exact Nat.le_add_right _ _
  · obtain ⟨ps, hps, hlt, hcover⟩ := turn_covers hskip hfinal
    exact ⟨ps, hps, by rw [hcover _ (solid_skipSeparators hskip), if_pos ⟨le_skipSeparators, hlt⟩]⟩

lemma covers_le_turn (w : Walk) (i : ℕ) : covers w.pieces i ≤ covers (w.turn body).pieces i := by
  by_cases hskip : skipSeparators body w.pos < body.length
  · obtain ⟨ps, hps, -⟩ := turn_covers_skip hskip
    rw [hps, covers_append]
    exact Nat.le_add_right _ _
  · rw [turn_of_end (not_lt.mp hskip)]

/-- After the turn that goes back, the first character has been consumed, twice if that turn has
passed it again. -/
lemma turn_covers_first (hfinal : AtFinalLength body w.pos)
    (hcovered : CoverExactly body w.pieces 0 w.pos) (hq : Solid body i)
    (hfirst : i ≤ skipSeparators body w.pos) :
    (if i < (w.turn body).pos then 2 else 1) ≤ covers (w.turn body).pieces i := by
  obtain ⟨ps, hps, hcover⟩ := turn_final hfinal
  rw [hps, ← List.singleton_append, covers_append, covers_append, covers_singleton, hcovered i hq,
    hcover i hq]
  have hiff : skipSeparators body w.pos ≤ i ↔ w.pos ≤ i := hq.skipSeparators_le_iff
  have hlt := hq.lt
  dsimp only
  split <;> split <;> split <;> split <;> omega

theorem turn_covers_again (hfinal : AtFinalLength body w.pos)
    (hcovered : CoverExactly body w.pieces 0 w.pos) :
    ∃ i, Solid body i ∧ 2 ≤ covers ((w.turn body).turn body).pieces i := by
  have hfirst : skipSeparators body 0 ≤ skipSeparators body w.pos :=
    (solid_skipSeparators hfinal.1).skipSeparators_le_iff.mpr (Nat.zero_le _)
  have hlt : skipSeparators body 0 < body.length := hfirst.trans_lt hfinal.1
  have hq := solid_skipSeparators hlt
  have honce := turn_covers_first hfinal hcovered hq hfirst
  refine ⟨_, hq, ?_⟩
  by_cases hpos : skipSeparators body 0 < (w.turn body).pos
  · rw [if_pos hpos] at honce
    exact honce.trans (covers_le_turn _ _)
  · rw [if_neg hpos] at honce
    have hle : skipSeparators body (w.turn body).pos ≤ skipSeparators body 0 :=
      hq.skipSeparators_le_iff.mpr (not_lt.mp hpos)
    have hback : skipSeparators body (w.turn body).pos = skipSeparators body 0 :=
      le_antisymm hle ((solid_skipSeparators (hle.trans_lt hlt)).skipSeparators_le_iff.mpr
        (Nat.zero_le _))
    obtain ⟨ps, hps, hmore⟩ := turn_covers_skip (hle.trans_lt hlt)
    rw [hback] at hmore
    rw [hps, covers_append]
    omega

end Turns

section Loop

variable {body : Units} {w w' : Walk} {fuel : ℕ}

lemma turn_of_length_le (h : body.length ≤ w.pos) : w.turn body = w := by
  have hskip : skipSeparators body w.pos = w.pos := by
    unfold skipSeparators
    rw [List.drop_eq_nil_of_le h]
    rfl
  rw [turn_of_end (by rwa [hskip]), hskip]

lemma lt_turn (hpos : w.pos < body.length) (hfinal : ¬ AtFinalLength body w.pos) :
    w.pos < (w.turn body).pos := by
  by_cases hskip : skipSeparators body w.pos < body.length
  · obtain ⟨ps, -, hlt, -⟩ := turn_covers hskip hfinal
    exact le_skipSeparators.trans_lt hlt
  · rw [turn_of_end (not_lt.mp hskip)]
    exact hpos.trans_le (not_lt.mp hskip)

lemma coverExactly_turn (hfinal : ¬ AtFinalLength body w.pos)
    (h : CoverExactly body w.pieces 0 w.pos) :
    CoverExactly body (w.turn body).pieces 0 (w.turn body).pos := by
  by_cases hskip : skipSeparators body w.pos < body.length
  · obtain ⟨ps, hps, hlt, hcover⟩ := turn_covers hskip hfinal
    rw [hps]
    exact h.append (Nat.zero_le _) (le_skipSeparators.trans hlt.le) hcover
  · rw [turn_of_end (not_lt.mp hskip)]
    intro i hi
    have hiff : skipSeparators body w.pos ≤ i ↔ w.pos ≤ i := hi.skipSeparators_le_iff
    have hlt := hi.lt
    rw [h i hi]
    dsimp only
    split <;> split <;> omega

lemma exists_iterate_of_walkFrames (h : walkFrames body fuel w = some w') :
    body.length ≤ w'.pos ∧ ∃ n, (Walk.turn body)^[n] w = w' := by
  induction fuel generalizing w with
  | zero =>
    rw [walkFrames, Option.ite_none_right_eq_some] at h
    obtain ⟨hend, heq⟩ := h
    obtain rfl := Option.some.inj heq
    exact ⟨hend, 0, rfl⟩
  | succ fuel ih =>
    rw [walkFrames] at h
    split at h
    next hend =>
      obtain rfl := Option.some.inj h
      exact ⟨hend, 0, rfl⟩
    next =>
      obtain ⟨hend, n, hn⟩ := ih h
      exact ⟨hend, n + 1, hn⟩

lemma iterate_of_length_le (h : body.length ≤ w.pos) (n : ℕ) : (Walk.turn body)^[n] w = w := by
  induction n with
  | zero => rfl
  | succ n ih => rw [Function.iterate_succ_apply, turn_of_length_le h, ih]

lemma walkFrames_isSome (h : ∀ n, ¬ AtFinalLength body ((Walk.turn body)^[n] w).pos)
    (hfuel : body.length - w.pos ≤ fuel) : ∃ w', walkFrames body fuel w = some w' := by
  induction fuel generalizing w with
  | zero =>
    rw [walkFrames, if_pos (by omega)]
    exact ⟨w, rfl⟩
  | succ fuel ih =>
    rw [walkFrames]
    split
    next => exact ⟨w, rfl⟩
    next hpos =>
      have hlt := lt_turn (not_le.mp hpos) (h 0)
      exact ih (fun n => h (n + 1)) (by omega)

lemma coverExactly_iterate (h : CoverExactly body w.pieces 0 w.pos) (n : ℕ)
    (hn : ∀ m < n, ¬ AtFinalLength body ((Walk.turn body)^[m] w).pos) :
    CoverExactly body ((Walk.turn body)^[n] w).pieces 0 ((Walk.turn body)^[n] w).pos := by
  induction n with
  | zero => exact h
  | succ n ih =>
    rw [Function.iterate_succ_apply']
    exact coverExactly_turn (hn n (Nat.lt_succ_self n))
      (ih fun m hm => hn m (Nat.lt_succ_of_lt hm))

lemma covers_le_iterate (body : Units) (w : Walk) (n i : ℕ) :
    covers w.pieces i ≤ covers ((Walk.turn body)^[n] w).pieces i := by
  induction n with
  | zero => exact le_rfl
  | succ n ih =>
    rw [Function.iterate_succ_apply']
    exact ih.trans (covers_le_turn _ _)

/-- The walk comes to the end of the body and has consumed each character that is no separator
once. -/
def Consumes (body : Units) : Prop :=
  ∃ fuel w, walkFrames body fuel .start = some w ∧ ∀ i, Solid body i → covers w.pieces i = 1

lemma coverExactly_start (body : Units) :
    CoverExactly body Walk.start.pieces 0 Walk.start.pos := by
  intro i _
  exact (if_neg (by rintro ⟨-, hlt⟩; exact Nat.not_lt_zero i hlt)).symm

def NeverAtFinalLength (body : Units) : Prop :=
  ∀ n, ¬ AtFinalLength body ((Walk.turn body)^[n] .start).pos

lemma consumes_of_never (h : NeverAtFinalLength body) : Consumes body := by
  obtain ⟨w, hw⟩ := walkFrames_isSome h (Nat.sub_le body.length 0)
  obtain ⟨hend, n, rfl⟩ := exists_iterate_of_walkFrames hw
  refine ⟨_, _, hw, fun i hi => ?_⟩
  rw [coverExactly_iterate (coverExactly_start body) n (fun m _ => h m) i hi,
    if_pos ⟨Nat.zero_le i, hi.lt.trans_le hend⟩]

lemma never_of_consumes (h : Consumes body) : NeverAtFinalLength body := by
  obtain ⟨fuel, w, hw, honce⟩ := h
  obtain ⟨hend, n, rfl⟩ := exists_iterate_of_walkFrames hw
  by_contra hnever
  -- The first turn that goes back, and the one after it, have been made when the walk ends.
  classical
  have hexists : ∃ k, AtFinalLength body ((Walk.turn body)^[k] .start).pos :=
    not_forall_not.mp hnever
  have hfirst := Nat.find_spec hexists
  have hbefore : ∀ k < Nat.find hexists, ¬ AtFinalLength body ((Walk.turn body)^[k] .start).pos :=
    fun k hk => Nat.find_min hexists hk
  generalize Nat.find hexists = k at hfirst hbefore
  obtain ⟨i, hi, htwice⟩ :=
    turn_covers_again hfirst (coverExactly_iterate (coverExactly_start body) k hbefore)
  have hturns : ((Walk.turn body)^[k] .start |>.turn body).turn body =
      (Walk.turn body)^[k + 2] .start := by
    rw [Function.iterate_succ_apply', Function.iterate_succ_apply']
  rw [hturns] at htwice
  have hlast : (Walk.turn body)^[n + (k + 2)] .start = (Walk.turn body)^[n] .start := by
    rw [Nat.add_comm, Function.iterate_add_apply, iterate_of_length_le hend]
  have hle := covers_le_iterate body ((Walk.turn body)^[k + 2] .start) n i
  rw [← Function.iterate_add_apply, hlast, honce i hi] at hle
  exact absurd (htwice.trans hle) (by omega)

theorem consumes_iff (body : Units) : Consumes body ↔ NeverAtFinalLength body :=
  ⟨never_of_consumes, consumes_of_never⟩

end Loop

end ChatStasher.BatchExecute
