import ChatStasher.Backfill.BatchWalk

/-! Bodies made of frames: JSON arrays, one a line, some of them after a line that declares a length.
Whatever the lengths say, the walk reads the frames. -/
namespace ChatStasher.BatchExecute
open JsonText

section Characters

variable {c : UInt16} {t s : Units}

lemma isWs_of_isSeparator (h : isSeparator c) : isWs c := by
  simp only [isSeparator, isWs, Bool.or_eq_true, decide_eq_true_eq] at h ⊢
  tauto

lemma isSeparator_of_isWs (h : isWs c) : isSeparator c := by
  simp only [isSeparator, isWs, Bool.or_eq_true, decide_eq_true_eq] at h ⊢
  tauto

lemma skipWs_of_separators (h : ∀ c ∈ s, isSeparator c) : skipWs s = [] :=
  skipWs_eq_nil.mpr fun c hc => isWs_of_isSeparator (h c hc)

lemma separators_of_skipWs (h : skipWs s = []) : ∀ c ∈ s, isSeparator c :=
  fun c hc => isSeparator_of_isWs (skipWs_eq_nil.mp h c hc)

lemma not_isSpace_of_isDigit (h : isDigit c) : ¬ isSpace c := by
  simp only [isDigit, isSpace, unit, Bool.and_eq_true, Bool.or_eq_true, decide_eq_true_eq,
    UInt16.le_iff_toNat_le, ← UInt16.toNat_inj] at h ⊢
  simp at h ⊢
  omega

lemma not_isSeparator_of_isDigit (h : isDigit c) : ¬ isSeparator c := by
  simp only [isDigit, isSeparator, unit, Bool.and_eq_true, Bool.or_eq_true, decide_eq_true_eq,
    UInt16.le_iff_toNat_le, ← UInt16.toNat_inj] at h ⊢
  simp at h ⊢
  omega

lemma mem_trim (hc : c ∈ t) (hspace : ¬ isSpace c) : c ∈ trim t := by
  have hkeep : ∀ {l : Units}, c ∈ l → c ∈ l.dropWhile isSpace := by
    intro l hl
    rw [← List.takeWhile_append_dropWhile (p := isSpace) (l := l), List.mem_append] at hl
    exact hl.resolve_left fun htake => hspace (List.mem_takeWhile_imp htake)
  unfold trim
  rw [List.mem_reverse]
  exact hkeep (List.mem_reverse.mpr (hkeep hc))

lemma declaredLength_eq_none (hc : c ∈ t) (hspace : ¬ isSpace c) (hdigit : ¬ isDigit c) :
    declaredLength t = none := by
  unfold declaredLength
  dsimp only
  rw [if_neg]
  rintro ⟨-, hall⟩
  exact hdigit (List.all_eq_true.mp hall c (mem_trim hc hspace))

lemma trim_append (ht : ∀ c ∈ t, ¬ isSpace c) (hs : ∀ c ∈ s, isSpace c) (hne : t ≠ []) :
    trim (t ++ s) = t := by
  have hhead : ∀ l : Units, l ≠ [] → (∀ c ∈ l, ¬ isSpace c) → ∀ u : Units,
      (l ++ u).dropWhile isSpace = l ++ u := by
    intro l hl hall u
    cases l with
    | nil => exact absurd rfl hl
    | cons c l => simp [hall c List.mem_cons_self]
  unfold trim
  rw [hhead t hne ht, List.reverse_append, List.dropWhile_append_of_pos (by simpa using hs)]
  have hback := hhead t.reverse (by simpa using hne) (by simpa using ht) []
  rw [List.append_nil] at hback
  rw [hback, List.reverse_reverse]

lemma declaredLength_append (hne : t ≠ []) (hdigits : ∀ c ∈ t, isDigit c)
    (hs : ∀ c ∈ s, isSpace c) : declaredLength (t ++ s) = some (digitsValue t) := by
  unfold declaredLength
  dsimp only
  rw [trim_append (fun c hc => not_isSpace_of_isDigit (hdigits c hc)) hs hne,
    if_pos ⟨hne, List.all_eq_true.mpr hdigits⟩]

end Characters

section Places

variable {body gap line more a b : Units} {pos : ℕ}

lemma drop_add (h : body.drop pos = a ++ b) : body.drop (pos + a.length) = b := by
  rw [← List.drop_drop, h, List.drop_left]

def EndsLine (more : Units) : Prop := more = [] ∨ ∃ t, more = lineFeed :: t

lemma lineAt_append (h : body.drop pos = line ++ more) (hline : lineFeed ∉ line)
    (hmore : EndsLine more) : lineAt body pos = line := by
  unfold lineAt
  have hall : ∀ c ∈ line, decide (c ≠ lineFeed) := by
    intro c hc
    have hne : c ≠ lineFeed := fun heq => hline (heq ▸ hc)
    simpa using hne
  rw [h, List.takeWhile_append_of_pos hall]
  rcases hmore with rfl | ⟨t, rfl⟩
  · simp
  · simp

lemma newlineFrom_append (h : body.drop pos = line ++ lineFeed :: more)
    (hline : lineFeed ∉ line) : newlineFrom body pos = some (pos + line.length) := by
  unfold newlineFrom
  rw [if_pos (by simp [h]), lineAt_append h hline (.inr ⟨more, rfl⟩)]

lemma newlineFrom_eq_none (h : body.drop pos = line) (hline : lineFeed ∉ line) :
    newlineFrom body pos = none := if_neg (h ▸ hline)

lemma drop_nextPos (h : body.drop pos = line ++ more) (hline : lineFeed ∉ line)
    (hmore : EndsLine more) : body.drop (nextPos body pos) = more.tail := by
  unfold nextPos
  rcases hmore with rfl | ⟨t, rfl⟩
  · rw [newlineFrom_eq_none (h.trans (List.append_nil _)) hline]
    exact List.drop_length
  · rw [newlineFrom_append h hline, List.tail_cons]
    have hdrop : body.drop pos = (line ++ [lineFeed]) ++ t := by simp [h]
    have hlength := drop_add hdrop
    rwa [List.length_append, ← Nat.add_assoc] at hlength

lemma lt_length_of_drop (h : body.drop pos = line) (hne : line ≠ []) : pos < body.length := by
  by_contra hge
  exact hne (h.symm.trans (List.drop_eq_nil_of_le (not_lt.mp hge)))

def BeginsSolid (t : Units) : Prop := ∀ c, t.head? = some c → ¬ isSeparator c

lemma takeWhile_of_beginsSolid (hb : BeginsSolid b) : b.takeWhile isSeparator = [] := by
  cases b with
  | nil => rfl
  | cons c t => exact List.takeWhile_cons_of_neg (hb c rfl)

lemma skipSeparators_append (h : body.drop pos = gap ++ b) (hgap : ∀ c ∈ gap, isSeparator c)
    (hb : BeginsSolid b) : skipSeparators body pos = pos + gap.length := by
  unfold skipSeparators
  rw [h, List.takeWhile_append_of_pos hgap, takeWhile_of_beginsSolid hb, List.append_nil]

end Places

section Written

inductive Newline
  | lf
  | crlf

def Newline.text : Newline → Units
  | .lf => [unit '\n']
  | .crlf => [unit '\r', unit '\n']

/-- A frame as it is written: a JSON array on one line, after a line of digits or not. -/
structure WrittenFrame where
  digits : Option Units
  digitsNewline : Newline
  text : Units
  elements : List Value
  /-- What joins the frame to the next one. -/
  newline : Newline
  declares : ∀ d ∈ digits, (∀ c ∈ d, isDigit c) ∧ 1 ≤ digitsValue d
  parses : JsonText.parse text = some (.array elements)
  oneLine : lineFeed ∉ text
  opens : text.head? = some (unit '[')

def WrittenFrame.lengthLine (f : WrittenFrame) : Units :=
  match f.digits with
  | some d => d ++ f.digitsNewline.text
  | none => []

def WrittenFrame.declared (f : WrittenFrame) : Option ℕ := f.digits.map digitsValue

def render (last : Option Newline) : List WrittenFrame → Units
  | [] => []
  | [f] => f.lengthLine ++ f.text ++ (last.map Newline.text).getD []
  | f :: fs => f.lengthLine ++ f.text ++ f.newline.text ++ render last fs

def UpToSeparators (chunk text : Units) : Prop :=
  ∃ s, (∀ c ∈ s, isSeparator c) ∧ (text = chunk ++ s ∨ chunk = text ++ s)

def WrittenFrame.readAs (f : WrittenFrame) (chunk : Units) : Frame :=
  ⟨.array f.elements, f.declared, chunk.length⟩

variable {f : WrittenFrame} {fs : List WrittenFrame} {last : Option Newline}

lemma WrittenFrame.text_ne_nil (f : WrittenFrame) : f.text ≠ [] := by
  intro hnil
  exact nomatch hnil ▸ f.opens

lemma Newline.text_eq (n : Newline) : ∃ cr, n.text = cr ++ [lineFeed] ∧ lineFeed ∉ cr ∧
    (∀ c ∈ cr, isSeparator c) ∧ ∀ c ∈ cr, isSpace c := by
  cases n with
  | lf => exact ⟨[], rfl, by simp, by simp, by simp⟩
  | crlf =>
    exact ⟨[unit '\r'], rfl, by decide, List.all_eq_true.mp (by decide),
      List.all_eq_true.mp (by decide)⟩

/-- What follows a frame: separators on its line, then a line feed and the next frames, or nothing
more. -/
lemma render_cons (last : Option Newline) (f : WrittenFrame) (fs : List WrittenFrame) :
    ∃ cr more, render last (f :: fs) = f.lengthLine ++ (f.text ++ (cr ++ more)) ∧
      lineFeed ∉ cr ∧ (∀ c ∈ cr, isSeparator c) ∧ EndsLine more ∧ more.tail = render last fs := by
  have hnewline : ∀ (n : Newline) (t : Units), ∃ cr, n.text ++ t = cr ++ lineFeed :: t ∧
      lineFeed ∉ cr ∧ ∀ c ∈ cr, isSeparator c := by
    intro n t
    obtain ⟨cr, hcr, hline, hsep, -⟩ := n.text_eq
    exact ⟨cr, by simp [hcr], hline, hsep⟩
  cases fs with
  | nil =>
    cases last with
    | none => exact ⟨[], [], by simp [render], by simp, by simp, .inl rfl, rfl⟩
    | some n =>
      obtain ⟨cr, hcr, hline, hsep⟩ := hnewline n []
      refine ⟨cr, [lineFeed], ?_, hline, hsep, .inr ⟨[], rfl⟩, rfl⟩
      rw [List.append_nil] at hcr
      simp [render, hcr]
  | cons g gs =>
    obtain ⟨cr, hcr, hline, hsep⟩ := hnewline f.newline (render last (g :: gs))
    refine ⟨cr, lineFeed :: render last (g :: gs), ?_, hline, hsep, .inr ⟨_, rfl⟩, rfl⟩
    rw [← hcr]
    simp [render]

lemma head_render (last : Option Newline) (f : WrittenFrame) (fs : List WrittenFrame) :
    ∃ c t, render last (f :: fs) = c :: t ∧ (isDigit c ∨ c = unit '[') := by
  obtain ⟨cr, more, hrender, -⟩ := render_cons last f fs
  rw [hrender]
  unfold WrittenFrame.lengthLine
  cases hdigits : f.digits with
  | none =>
    obtain ⟨t, ht⟩ := List.head?_eq_some_iff.mp f.opens
    exact ⟨unit '[', t ++ (cr ++ more), by simp [ht], .inr rfl⟩
  | some d =>
    obtain ⟨hall, hpositive⟩ := f.declares d hdigits
    cases d with
    | nil => exact absurd hpositive (by decide)
    | cons c d => exact ⟨c, _, rfl, .inl (hall c List.mem_cons_self)⟩

lemma beginsSolid_render (last : Option Newline) (fs : List WrittenFrame) :
    BeginsSolid (render last fs) := by
  cases fs with
  | nil => exact fun c hc => nomatch hc
  | cons f fs =>
    obtain ⟨c, t, hrender, hc⟩ := head_render last f fs
    rintro d hd
    rw [hrender] at hd
    obtain rfl := Option.some.inj hd
    rcases hc with hdigit | rfl
    · exact not_isSeparator_of_isDigit hdigit
    · decide

end Written

section Slices

variable {text s r t cr more : Units} {n : ℕ} {v : Value} {xs : List Value}

lemma drop_of_separators (hr : BeginsSolid r) (h : ∀ c ∈ r.take n, isSeparator c) :
    r.drop n = r := by
  cases r with
  | nil => simp
  | cons c t =>
    cases n with
    | zero => rfl
    | succ n => exact absurd (h c (by simp)) (hr c rfl)

/-- A slice from the start of an array that is JSON itself is the array but for separators,
wherever it ends. -/
lemma slice_of_parse (htext : JsonText.parse text = some (.array xs))
    (hs : ∀ c ∈ s, isSeparator c) (hr : BeginsSolid r)
    (hparse : JsonText.parse ((text ++ (s ++ r)).take n) = some v) :
    v = .array xs ∧ UpToSeparators ((text ++ (s ++ r)).take n) text ∧
      ∃ gap, (∀ c ∈ gap, isSeparator c) ∧ (text ++ (s ++ r)).drop n = gap ++ r := by
  rcases Nat.le_total n text.length with hn | hn
  · rw [List.take_append_of_le_length hn] at hparse ⊢
    rw [List.drop_append_of_le_length hn]
    rw [← List.take_append_drop n text] at htext
    obtain ⟨hv, hrest⟩ := parse_of_append htext hparse
    have hsep := separators_of_skipWs hrest
    refine ⟨hv, ⟨text.drop n, hsep, .inl (List.take_append_drop n text).symm⟩,
      text.drop n ++ s, ?_, (List.append_assoc _ _ _).symm⟩
    intro c hc
    exact (List.mem_append.mp hc).elim (hsep c) (hs c)
  · rw [List.take_append, List.take_of_length_le hn, parse_append_array htext] at hparse
    rw [List.take_append, List.take_of_length_le hn, List.drop_append, List.drop_of_length_le hn,
      List.nil_append]
    split at hparse
    next hrest =>
      have hsep := separators_of_skipWs hrest
      refine ⟨(Option.some.inj hparse).symm, ⟨_, hsep, .inr rfl⟩, s.drop (n - text.length),
        fun c hc => hs c (List.mem_of_mem_drop hc), ?_⟩
      rw [List.drop_append, drop_of_separators hr]
      intro c hc
      refine hsep c ?_
      rw [List.take_append]
      exact List.mem_append_right _ hc
    next => exact nomatch hparse

lemma separators_of_endsLine (hcr : ∀ c ∈ cr, isSeparator c) (hmore : EndsLine more) :
    ∃ s, (∀ c ∈ s, isSeparator c) ∧ cr ++ more = s ++ more.tail := by
  rcases hmore with rfl | ⟨t, rfl⟩
  · exact ⟨cr, hcr, rfl⟩
  · refine ⟨cr ++ [lineFeed], fun c hc => ?_, by simp⟩
    rcases List.mem_append.mp hc with hc | hc
    · exact hcr c hc
    · exact List.mem_singleton.mp hc ▸ isSeparator_lineFeed

lemma parse_line (htext : JsonText.parse text = some (.array xs))
    (hcr : ∀ c ∈ cr, isSeparator c) : JsonText.parse (text ++ cr) = some (.array xs) := by
  rw [parse_append_array htext, if_pos (skipWs_of_separators hcr)]

end Slices

section Turn

variable {body : Units} {w : Walk} {f : WrittenFrame} {fs : List WrittenFrame}
  {last : Option Newline} {start declared : ℕ} {cr more : Units}

/-- The walk has read one frame more, and what is left are separators and the frames after it. -/
def ReadsOne (body : Units) (w w' : Walk) (frame : Units → Frame) (text left : Units) : Prop :=
  ∃ chunk, UpToSeparators chunk text ∧ w'.frames = w.frames ++ [frame chunk] ∧
    w'.undecodedFrameCount = w.undecodedFrameCount ∧
    ∃ gap, (∀ c ∈ gap, isSeparator c) ∧ body.drop w'.pos = gap ++ left

lemma declaredChunk_reads (w : Walk) (hdeclared : declared ≠ 0)
    (hdrop : body.drop start = f.text ++ (cr ++ more)) (hline : lineFeed ∉ cr)
    (hcr : ∀ c ∈ cr, isSeparator c) (hmore : EndsLine more)
    (hsolid : BeginsSolid more.tail) :
    ReadsOne body w (w.declaredChunk body declared start)
        (fun chunk => ⟨.array f.elements, some declared, chunk.length⟩) f.text more.tail ∧
      (w.declaredChunk body declared start).sawEnvelopeShape = w.sawEnvelopeShape := by
  have hdrop' : body.drop start = (f.text ++ cr) ++ more := by simp [hdrop]
  have hfeed : lineFeed ∉ f.text ++ cr := by simp [f.oneLine, hline]
  have hlineAt : lineAt body start = f.text ++ cr := lineAt_append hdrop' hfeed hmore
  obtain ⟨s, hs, hsplit⟩ := separators_of_endsLine hcr hmore
  unfold Walk.declaredChunk
  dsimp only
  rw [if_neg hdeclared]
  split
  next v hv =>
    obtain ⟨-, hparse⟩ := Option.ite_none_right_eq_some.mp hv
    rw [hdrop, hsplit] at hparse
    obtain ⟨rfl, hchunk, gap, hgap, hleft⟩ := slice_of_parse f.parses hs hsolid hparse
    refine ⟨⟨_, hchunk, ?_, rfl, gap, hgap, ?_⟩, rfl⟩
    · rw [hdrop, hsplit]
      simp [Walk.chunk]
    · dsimp only
      rw [← hleft, ← hsplit, ← hdrop, List.drop_drop]
  next =>
    rw [hlineAt, parse_line f.parses hcr]
    refine ⟨⟨f.text ++ cr, ⟨cr, hcr, .inr rfl⟩, ?_, rfl, [], by simp, ?_⟩, rfl⟩
    · simp [Walk.chunk]
    · exact drop_nextPos hdrop' hfeed hmore

theorem turn_reads {gap : Units} (hgap : ∀ c ∈ gap, isSeparator c)
    (hdrop : body.drop w.pos = gap ++ render last (f :: fs)) :
    ReadsOne body w (w.turn body) f.readAs f.text (render last fs) ∧
      (w.turn body).sawEnvelopeShape = true := by
  have hskip := skipSeparators_append hdrop hgap (beginsSolid_render last (f :: fs))
  have hpos := drop_add hdrop
  rw [← hskip] at hpos
  have hlt : skipSeparators body w.pos < body.length := by
    obtain ⟨c, t, hrender, -⟩ := head_render last f fs
    exact lt_length_of_drop hpos (hrender ▸ List.cons_ne_nil c t)
  obtain ⟨cr, more, hrender, hline, hcr, hmore, htail⟩ := render_cons last f fs
  have hsolid : BeginsSolid more.tail := htail ▸ beginsSolid_render last fs
  rw [hrender] at hpos
  unfold Walk.turn
  dsimp only
  rw [if_neg (not_le.mpr hlt)]
  cases hdigits : f.digits with
  | none =>
    have hpos' : body.drop (skipSeparators body w.pos) = (f.text ++ cr) ++ more := by
      simp [hpos, WrittenFrame.lengthLine, hdigits]
    have hfeed : lineFeed ∉ f.text ++ cr := by simp [f.oneLine, hline]
    have hmem : unit '[' ∈ f.text ++ cr :=
      List.mem_append_left _ (List.mem_of_mem_head? f.opens)
    rw [lineAt_append hpos' hfeed hmore, parse_line f.parses hcr,
      declaredLength_eq_none hmem (by decide) (by decide)]
    refine ⟨⟨f.text ++ cr, ⟨cr, hcr, .inr rfl⟩, ?_, rfl, [], by simp, ?_⟩, ?_⟩
    · simp [Walk.chunk, WrittenFrame.readAs, WrittenFrame.declared, hdigits]
    · dsimp only
      rw [← List.drop_drop, drop_add hpos', ← htail]
      exact List.drop_one
    · exact Bool.or_true _
  | some d =>
    obtain ⟨hall, hpositive⟩ := f.declares d hdigits
    have hne : d ≠ [] := by
      rintro rfl
      exact absurd hpositive (by decide)
    obtain ⟨cr', hcr', hline', -, hspace'⟩ := f.digitsNewline.text_eq
    have hpos' : body.drop (skipSeparators body w.pos) =
        (d ++ cr') ++ lineFeed :: (f.text ++ (cr ++ more)) := by
      simp [hpos, WrittenFrame.lengthLine, hdigits, hcr']
    have hfeed : lineFeed ∉ d ++ cr' := by
      have hdigit : lineFeed ∉ d := fun hmem => absurd (hall _ hmem) (by decide)
      simp [hdigit, hline']
    have hstart : body.drop (skipSeparators body w.pos + (d ++ cr').length + 1) =
        f.text ++ (cr ++ more) := by
      rw [← List.drop_drop, drop_add hpos']
      rfl
    have hlt' := lt_length_of_drop hstart (by simp [f.text_ne_nil])
    rw [lineAt_append hpos' hfeed (.inr ⟨_, rfl⟩), newlineFrom_append hpos' hfeed,
      declaredLength_append hne hall hspace']
    dsimp only
    rw [if_neg (not_le.mpr hlt')]
    have hreads := declaredChunk_reads (f := f)
      (w.lengthLine (skipSeparators body w.pos) (skipSeparators body w.pos + (d ++ cr').length))
      (Nat.one_le_iff_ne_zero.mp hpositive) hstart hline hcr hmore hsolid
    rw [htail] at hreads
    unfold ReadsOne WrittenFrame.readAs WrittenFrame.declared
    rw [hdigits]
    exact hreads

end Turn

section Run

variable {body : Units} {w : Walk} {fs : List WrittenFrame} {last : Option Newline}

lemma walkFrames_separators {gap : Units} (hgap : ∀ c ∈ gap, isSeparator c)
    (hdrop : body.drop w.pos = gap) : ∃ pos, walkFrames body 1 w = some { w with pos } := by
  rw [walkFrames]
  split
  next => exact ⟨w.pos, rfl⟩
  next hpos =>
    have hlength := congrArg List.length hdrop
    rw [List.length_drop] at hlength
    have hskip := skipSeparators_append (hdrop.trans (List.append_nil gap).symm) hgap
      (by rintro c ⟨⟩)
    have hend : body.length ≤ skipSeparators body w.pos := by omega
    rw [turn_of_end hend, walkFrames, if_pos hend]
    exact ⟨_, rfl⟩

theorem walkFrames_reads {gap : Units} (hgap : ∀ c ∈ gap, isSeparator c)
    (hdrop : body.drop w.pos = gap ++ render last fs) :
    ∃ w' chunks, walkFrames body (fs.length + 1) w = some w' ∧
      List.Forall₂ (fun f chunk => UpToSeparators chunk f.text) fs chunks ∧
      w'.frames = w.frames ++ List.zipWith WrittenFrame.readAs fs chunks ∧
      w'.undecodedFrameCount = w.undecodedFrameCount ∧
      w'.sawEnvelopeShape = (w.sawEnvelopeShape || !fs.isEmpty) := by
  induction fs generalizing w gap with
  | nil =>
    obtain ⟨pos, hwalk⟩ := walkFrames_separators hgap (by simpa [render] using hdrop)
    exact ⟨_, [], hwalk, .nil, by simp, rfl, by simp⟩
  | cons f fs ih =>
    obtain ⟨⟨chunk, hchunk, hframes, hundecoded, gap', hgap', hdrop'⟩, hsaw⟩ :=
      turn_reads hgap hdrop
    obtain ⟨w', chunks, hwalk, hchunks, hframes', hundecoded', hsaw'⟩ := ih hgap' hdrop'
    have hpos : w.pos < body.length := by
      obtain ⟨c, t, hrender, -⟩ := head_render last f fs
      exact lt_length_of_drop hdrop (by simp [hrender])
    refine ⟨w', chunk :: chunks, ?_, .cons hchunk hchunks, ?_, hundecoded'.trans hundecoded, ?_⟩
    · rw [List.length_cons, walkFrames, if_neg (not_le.mpr hpos)]
      exact hwalk
    · simp [hframes', hframes]
    · simp [hsaw', hsaw]

end Run

section Response

/-- A response as it is written: white space or a byte-order mark, the guard with the separators
after it or no guard, and the frames. -/
structure WrittenResponse where
  lead : Units
  guarded : Option Units
  frames : List WrittenFrame
  last : Option Newline
  blank : ∀ c ∈ lead, isSpace c
  separates : ∀ s ∈ guarded, ∀ c ∈ s, isSeparator c

def WrittenResponse.text (r : WrittenResponse) : Units :=
  r.lead ++ ((r.guarded.map (guard ++ ·)).getD [] ++ render r.last r.frames)

variable {r : WrittenResponse} {finite : Units → Bool}

lemma stripGuard_text (r : WrittenResponse) :
    ∃ gap, (∀ c ∈ gap, isSeparator c) ∧ (stripGuard r.text).1 = gap ++ render r.last r.frames := by
  unfold stripGuard WrittenResponse.text
  dsimp only
  rw [List.dropWhile_append_of_pos r.blank]
  cases hguarded : r.guarded with
  | some after =>
    have hdrop : ∀ t : Units, (guard ++ t).dropWhile isSpace = guard ++ t := fun t => rfl
    refine ⟨after, r.separates after hguarded, ?_⟩
    rw [Option.map_some, Option.getD_some, List.append_assoc, hdrop,
      if_pos (List.prefix_append guard _), List.drop_left]
  | none =>
    refine ⟨[], by simp, ?_⟩
    rw [Option.map_none, Option.getD_none, List.nil_append]
    cases hframes : r.frames with
    | nil => rfl
    | cons f fs =>
      obtain ⟨c, t, hrender, hc⟩ := head_render r.last f fs
      have hspace : ¬ isSpace c := by
        rcases hc with hdigit | rfl
        · exact not_isSpace_of_isDigit hdigit
        · decide
      have hguard : ¬ guard <+: c :: t := by
        intro h
        obtain rfl : unit ')' = c := (List.cons_prefix_cons.mp h).1
        rcases hc with hdigit | hbracket
        · exact absurd hdigit (by decide)
        · exact absurd hbracket (by decide)
      rw [hrender, List.dropWhile_cons_of_neg hspace, if_neg hguard]

lemma trim_text (hframes : r.frames ≠ []) : trim r.text ≠ [] := by
  obtain ⟨f, fs, hcons⟩ := List.exists_cons_of_ne_nil hframes
  have hmem : unit '[' ∈ r.text := by
    obtain ⟨cr, more, hrender, -⟩ := render_cons r.last f fs
    have hopens := List.mem_of_mem_head? f.opens
    simp [WrittenResponse.text, hcons, hrender, hopens]
  exact List.ne_nil_of_mem (mem_trim hmem (by decide))

lemma entries_readAs (f : WrittenFrame) (chunk : Units) :
    (f.readAs chunk).entries finite = f.elements.map (toEntry finite) := rfl

lemma entries_zipWith {R : WrittenFrame → Units → Prop} {fs : List WrittenFrame}
    {chunks : List Units} (h : List.Forall₂ R fs chunks) :
    (List.zipWith WrittenFrame.readAs fs chunks).flatMap (Frame.entries finite) =
      fs.flatMap fun f => f.elements.map (toEntry finite) := by
  induction h with
  | nil => rfl
  | cons _ _ ih =>
    rw [List.zipWith_cons_cons, List.flatMap_cons, List.flatMap_cons, ih, entries_readAs]

lemma mismatch_zipWith (fs : List WrittenFrame) (chunks : List Units) :
    (List.zipWith WrittenFrame.readAs fs chunks).countP Frame.mismatch =
      (fs.zip chunks).countP fun x => x.1.declared.any (· ≠ x.2.length) := by
  rw [← List.map_uncurry_zip_eq_zipWith, List.countP_map]
  rfl

/-- What a response has to be read as: its entries in order, no chunk undecoded, and the frames
counted whose declared length is not the length used. -/
def ReadsFrames (finite : Units → Bool) (r : WrittenResponse) : Prop :=
  ∃ fuel, if r.frames = [] then
      ∃ reason, parseBatchExecute finite fuel r.text = some (.error reason)
    else ∃ w parsed chunks,
      walkFrames (stripGuard r.text).1 fuel .start = some w ∧
      w.frames = List.zipWith WrittenFrame.readAs r.frames chunks ∧
      List.Forall₂ (fun f chunk => UpToSeparators chunk f.text) r.frames chunks ∧
      parseBatchExecute finite fuel r.text = some (.ok parsed) ∧
      parsed.entries = r.frames.flatMap (fun f => f.elements.map (toEntry finite)) ∧
      parsed.undecodedFrameCount = 0 ∧
      parsed.lengthPrefixMismatchCount =
        (r.frames.zip chunks).countP fun x => x.1.declared.any (· ≠ x.2.length)

theorem readsFrames (finite : Units → Bool) (r : WrittenResponse) : ReadsFrames finite r := by
  obtain ⟨gap, hgap, hbody⟩ := stripGuard_text r
  obtain ⟨w, chunks, hwalk, hchunks, hframes, hundecoded, hsaw⟩ :=
    walkFrames_reads (w := .start) hgap hbody
  refine ⟨r.frames.length + 1, ?_⟩
  split
  next hnil =>
    unfold parseBatchExecute
    split
    next => exact ⟨_, rfl⟩
    next =>
      refine ⟨.notABatchexecuteBody, ?_⟩
      rw [hwalk, Option.map_some, parsedOf, hsaw, hnil]
      rfl
  next hne =>
    have hread : w.frames = List.zipWith WrittenFrame.readAs r.frames chunks :=
      hframes.trans (List.nil_append _)
    have hsome : w.frames ≠ [] := by
      rw [hread]
      intro hnil
      rcases List.zipWith_eq_nil_iff.mp hnil with h | h
      · exact hne h
      · exact hne (List.length_eq_zero_iff.mp (by rw [hchunks.length_eq, h]; rfl))
    have hshape : w.sawEnvelopeShape = true := by
      rw [hsaw, Bool.or_eq_true]
      exact .inr (by simpa using hne)
    refine ⟨w, w.parsed finite (stripGuard r.text).2, chunks, hwalk, hread, hchunks, ?_, ?_, ?_, ?_⟩
    · unfold parseBatchExecute
      rw [if_neg (trim_text hne), hwalk, Option.map_some, parsedOf, hshape, if_neg (by decide),
        if_neg hsome]
    · exact (congrArg (List.flatMap (Frame.entries finite)) hread).trans (entries_zipWith hchunks)
    · exact hundecoded
    · exact (congrArg (List.countP Frame.mismatch) hread).trans (mismatch_zipWith _ _)

end Response

section Finding

/-- The frames of a response are read whatever lengths are declared; each text is consumed once and
to its end just if no turn begins at a last line of digits. -/
theorem framing_iff_never_final (finite : Units → Bool) :
    (∀ r, ReadsFrames finite r) ∧
      ∀ text, Consumes (stripGuard text).1 ↔ NeverAtFinalLength (stripGuard text).1 :=
  ⟨readsFrames finite, fun text => consumes_iff (stripGuard text).1⟩

/-- After `[1]` and a newline, the body ends in a line with a digit: the walk goes round for good. -/
theorem final_length_never_returns :
    ¬ ∃ fuel result, parseBatchExecute (fun _ => true) fuel (units "[1]\n3") = some result := by
  rintro ⟨fuel, result, h⟩
  rw [parseBatchExecute, if_neg (by decide), Option.map_eq_some_iff] at h
  obtain ⟨w, hwalk, -⟩ := h
  obtain ⟨hend, n, rfl⟩ := exists_iterate_of_walkFrames hwalk
  have hturn : ∀ pos ∈ [0, 3, 4],
      (Walk.turn (units "[1]\n3") ⟨pos, [], 0, false, []⟩).pos ∈ [0, 3, 4] := by
    decide +kernel
  have hnext : ∀ w : Walk, w.pos ∈ [0, 3, 4] →
      (w.turn (units "[1]\n3")).pos ∈ [0, 3, 4] := by
    intro w hw
    have hpos : (w.turn (units "[1]\n3")).pos =
        (Walk.turn (units "[1]\n3") ⟨w.pos, [], 0, false, []⟩).pos := turn_pos _ rfl
    exact hpos ▸ hturn w.pos hw
  have hround : ∀ n, ((Walk.turn (units "[1]\n3"))^[n] .start).pos ∈ [0, 3, 4] := by
    intro n
    induction n with
    | zero => decide
    | succ n ih =>
      rw [Function.iterate_succ_apply']
      exact hnext _ ih
  have hpos : ∀ pos ∈ [0, 3, 4], pos < (units "[1]\n3").length := by decide
  exact absurd hend (not_le.mpr (hpos _ (hround n)))

end Finding

end ChatStasher.BatchExecute
