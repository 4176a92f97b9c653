import Mathlib.Data.List.TakeWhile
import Mathlib.Data.UInt

/-! JSON texts as UTF-16 code units: a reader by recursive descent, and what it makes of a text that
goes on after an array. -/
namespace JsonText

abbrev Units := List UInt16

def unit (c : Char) : UInt16 := c.toNat.toUInt16

def units (s : String) : Units := s.toList.map unit

/-- A JSON value; a number is kept as it is written. -/
inductive Value
  | null
  | bool (b : Bool)
  | number (digits : Units)
  | string (s : Units)
  | array (elements : List Value)
  | object (members : List (Units × Value))

def Value.field (key : String) : Value → Option Value
  | .object members => (members.reverse.find? fun m => m.1 = units key).map Prod.snd
  | _ => none

def isWs (c : UInt16) : Bool :=
  c = unit ' ' || c = unit '\t' || c = unit '\n' || c = unit '\r'

def skipWs (t : Units) : Units := t.dropWhile isWs

def isDigit (c : UInt16) : Bool := unit '0' ≤ c && c ≤ unit '9'

def hexValue (c : UInt16) : Option UInt16 :=
  if isDigit c then some (c - unit '0')
  else if unit 'a' ≤ c && c ≤ unit 'f' then some (c - unit 'a' + 10)
  else if unit 'A' ≤ c && c ≤ unit 'F' then some (c - unit 'A' + 10)
  else none

/-- What stands for a unit after a backslash, `u` apart. -/
def simpleEscape (c : UInt16) : Option UInt16 :=
  if c = unit '"' || c = unit '\\' || c = unit '/' then some c
  else if c = unit 'b' then some 8
  else if c = unit 'f' then some 12
  else if c = unit 'n' then some 10
  else if c = unit 'r' then some 13
  else if c = unit 't' then some 9
  else none

/-- How far an escape in a string has been read: nothing of one, its backslash, or `u` with the hex
digits that are still to come and the value of those that came. -/
inductive Escape
  | none
  | started
  | hex (left : ℕ) (value : UInt16)

/-- What one unit inside a string does. -/
inductive StringStep
  | closed
  | continued (escape : Escape)
  | emitted (c : UInt16)
  | refused

def Escape.step : Escape → UInt16 → StringStep
  | .none, c =>
    if c = unit '"' then .closed
    else if c = unit '\\' then .continued .started
    else if c < 32 then .refused
    else .emitted c
  | .started, c =>
    if c = unit 'u' then .continued (.hex 4 0)
    else match simpleEscape c with
      | some e => .emitted e
      | Option.none => .refused
  | .hex left v, c =>
    match hexValue c with
    | some d =>
      if left ≤ 1 then .emitted (v * 16 + d) else .continued (.hex (left - 1) (v * 16 + d))
    | Option.none => .refused

/-- A string from inside, and what follows its closing quote. -/
def stringRest : Escape → Units → Option (Units × Units)
  | _, [] => none
  | escape, c :: t =>
    match escape.step c with
    | .closed => some ([], t)
    | .continued escape => stringRest escape t
    | .emitted c => (stringRest .none t).map fun x => (c :: x.1, x.2)
    | .refused => none

section Numbers

def exponent : Units → Bool
  | [] => true
  | c :: t =>
    let t := if t.head? = some (unit '+') ∨ t.head? = some (unit '-') then t.tail else t
    (c = unit 'e' || c = unit 'E') && t ≠ [] && t.all isDigit

def fraction (t : Units) : Bool :=
  if t.head? = some (unit '.') then
    t.tail.takeWhile isDigit ≠ [] && exponent (t.tail.dropWhile isDigit)
  else exponent t

/-- `-?(0|[1-9][0-9]*)(\.[0-9]+)?([eE][+-]?[0-9]+)?` -/
def isNumber (t : Units) : Bool :=
  let t := if t.head? = some (unit '-') then t.tail else t
  let digits := t.takeWhile isDigit
  digits ≠ [] && (digits.head? ≠ some (unit '0') || decide (digits.length = 1)) &&
    fraction (t.dropWhile isDigit)

def isNumberUnit (c : UInt16) : Bool :=
  isDigit c || c = unit '-' || c = unit '+' || c = unit '.' || c = unit 'e' || c = unit 'E'

end Numbers

def keyword (word : Units) (v : Value) (t : Units) : Option (Value × Units) :=
  if word <+: t then some (v, t.drop word.length) else none

/-- The literal that begins with a unit. -/
def keywordOf (c : UInt16) : Option (Units × Value) :=
  if c = unit 'n' then some (units "null", .null)
  else if c = unit 't' then some (units "true", .bool true)
  else if c = unit 'f' then some (units "false", .bool false)
  else none

def number (t : Units) : Option (Value × Units) :=
  if isNumber (t.takeWhile isNumberUnit) then
    some (.number (t.takeWhile isNumberUnit), t.dropWhile isNumberUnit)
  else none

def scalar (c : UInt16) (t : Units) : Option (Value × Units) :=
  match keywordOf c with
  | some (word, v) => keyword word v (c :: t)
  | none => number (c :: t)

def memberKey (t : Units) : Option (Units × Units) :=
  match skipWs t with
  | [] => none
  | c :: t =>
    if c = unit '"' then
      match stringRest .none t with
      | none => none
      | some (key, r) =>
        match skipWs r with
        | [] => none
        | c :: r => if c = unit ':' then some (key, r) else none
    else none

/-- After an element: the close, or a comma and more elements. -/
def closeOrMore {α : Type*} (close : UInt16) (x : α) (again : Units → Option (List α × Units))
    (t : Units) : Option (List α × Units) :=
  match skipWs t with
  | [] => none
  | c :: r =>
    if c = close then some ([x], r)
    else if c = unit ',' then (again r).map fun y => (x :: y.1, y.2)
    else none

/-- After an opening bracket: the close, or elements. -/
def emptyOr {α : Type*} (close : UInt16) (again : Units → Option (List α × Units)) (t : Units) :
    Option (List α × Units) :=
  match skipWs t with
  | [] => none
  | c :: r => if c = close then some ([], r) else again (c :: r)

mutual

/-- A value at the start of the text, and what follows it. -/
def value : ℕ → Units → Option (Value × Units)
  | 0, _ => none
  | _ + 1, [] => none
  | n + 1, c :: t =>
    if c = unit '[' then
      (emptyOr (unit ']') (elements n) t).map fun x => (.array x.1, x.2)
    else if c = unit '\x7b' then
      (emptyOr (unit '\x7d') (members n) t).map fun x => (.object x.1, x.2)
    else if c = unit '"' then (stringRest .none t).map fun x => (.string x.1, x.2)
    else scalar c t

/-- One element or more and the closing bracket. -/
def elements : ℕ → Units → Option (List Value × Units)
  | 0, _ => none
  | n + 1, t =>
    match value n (skipWs t) with
    | none => none
    | some (v, r) => closeOrMore (unit ']') v (elements n) r

/-- One member or more and the closing brace. -/
def members : ℕ → Units → Option (List (Units × Value) × Units)
  | 0, _ => none
  | n + 1, t =>
    match memberKey t with
    | none => none
    | some (key, r) =>
      match value n (skipWs r) with
      | none => none
      | some (v, r) => closeOrMore (unit '\x7d') (key, v) (members n) r

end

/-- `JSON.parse`. -/
def parse (t : Units) : Option Value :=
  match value (2 * t.length + 1) (skipWs t) with
  | some (v, r) => if skipWs r = [] then some v else none
  | none => none

section Leaves

variable {t r u : Units} {c : UInt16}

lemma skipWs_append (h : skipWs t = c :: r) : skipWs (t ++ u) = c :: (r ++ u) := by
  unfold skipWs at h ⊢
  rw [List.dropWhile_append, h]
  rfl

lemma length_skipWs_le (t : Units) : (skipWs t).length ≤ t.length :=
  (List.dropWhile_sublist _).length_le

lemma map_eq_some_pair {α β γ : Type*} {f : α → γ} {o : Option (α × β)} {x : γ} {r : β} :
    (o.map fun y => (f y.1, y.2)) = some (x, r) ↔ ∃ y, o = some (y, r) ∧ f y = x := by
  cases o <;> simp [and_comm, Prod.ext_iff]

lemma stringRest_append {escape : Escape} {s : Units} (h : stringRest escape t = some (s, r)) :
    stringRest escape (t ++ u) = some (s, r ++ u) := by
  induction t generalizing escape s with
  | nil => exact nomatch h
  | cons c t ih =>
    rw [stringRest] at h
    rw [List.cons_append, stringRest]
    cases hstep : escape.step c with
    | closed =>
      rw [hstep] at h
      obtain ⟨rfl, rfl⟩ := Prod.mk.inj (Option.some.inj h)
      rfl
    | continued escape => exact ih (by rwa [hstep] at h)
    | emitted e =>
      rw [hstep] at h
      obtain ⟨y, hy, rfl⟩ := map_eq_some_pair.mp h
      exact map_eq_some_pair.mpr ⟨y, ih hy, rfl⟩
    | refused =>
      rw [hstep] at h
      exact nomatch h

lemma length_stringRest {escape : Escape} {s : Units} (h : stringRest escape t = some (s, r)) :
    r.length < t.length := by
  induction t generalizing escape s with
  | nil => exact nomatch h
  | cons c t ih =>
    rw [stringRest] at h
    rw [List.length_cons]
    cases hstep : escape.step c with
    | closed =>
      rw [hstep] at h
      obtain ⟨-, rfl⟩ := Prod.mk.inj (Option.some.inj h)
      exact Nat.lt_succ_self _
    | continued escape => exact (ih (by rwa [hstep] at h)).trans (Nat.lt_succ_self _)
    | emitted e =>
      rw [hstep] at h
      obtain ⟨y, hy, -⟩ := map_eq_some_pair.mp h
      exact (ih hy).trans (Nat.lt_succ_self _)
    | refused =>
      rw [hstep] at h
      exact nomatch h

lemma keyword_append {word : Units} {v w : Value} (h : keyword word v t = some (w, r)) :
    keyword word v (t ++ u) = some (w, r ++ u) := by
  unfold keyword at h ⊢
  split at h
  next hword =>
    obtain ⟨rest, rfl⟩ := hword
    obtain ⟨rfl, rfl⟩ := Prod.mk.inj (Option.some.inj h)
    rw [if_pos ⟨rest ++ u, by simp⟩]
    simp
  next => exact nomatch h

lemma length_keyword {word : Units} {v w : Value} (hword : word ≠ [])
    (h : keyword word v t = some (w, r)) : r.length < t.length := by
  unfold keyword at h
  split at h
  next hstart =>
    obtain ⟨rest, rfl⟩ := hstart
    obtain ⟨-, rfl⟩ := Prod.mk.inj (Option.some.inj h)
    have hpos := List.length_pos_iff.mpr hword
    simp
    omega
  next => exact nomatch h

lemma number_append {v : Value} (h : number t = some (v, r)) (hr : r ≠ []) :
    number (t ++ u) = some (v, r ++ u) := by
  unfold number at h ⊢
  split at h
  next hnumber =>
    obtain ⟨rfl, rfl⟩ := Prod.mk.inj (Option.some.inj h)
    have hdrop : (t ++ u).dropWhile isNumberUnit = t.dropWhile isNumberUnit ++ u := by
      rw [List.dropWhile_append, if_neg (by simpa using hr)]
    have htake : (t ++ u).takeWhile isNumberUnit = t.takeWhile isNumberUnit := by
      rw [List.takeWhile_append, if_neg]
      intro hall
      have hlength := congrArg List.length
        (List.takeWhile_append_dropWhile (p := isNumberUnit) (l := t))
      rw [List.length_append, hall] at hlength
      exact hr (List.length_eq_zero_iff.mp (by omega))
    rw [htake, hdrop, if_pos hnumber]
  next => exact nomatch h

lemma length_number {v : Value} (h : number t = some (v, r)) : r.length < t.length := by
  unfold number at h
  split at h
  next hnumber =>
    obtain ⟨-, rfl⟩ := Prod.mk.inj (Option.some.inj h)
    have hlength := congrArg List.length
      (List.takeWhile_append_dropWhile (p := isNumberUnit) (l := t))
    have hne : t.takeWhile isNumberUnit ≠ [] := by
      intro hnil
      rw [hnil] at hnumber
      exact absurd hnumber (by decide)
    have hpos := List.length_pos_iff.mpr hne
    rw [List.length_append] at hlength
    omega
  next => exact nomatch h

lemma ne_nil_of_keywordOf {word : Units} {v : Value} (h : keywordOf c = some (word, v)) :
    word ≠ [] := by
  unfold keywordOf at h
  split at h
  · obtain ⟨rfl, -⟩ := Prod.mk.inj (Option.some.inj h)
    decide
  · split at h
    · obtain ⟨rfl, -⟩ := Prod.mk.inj (Option.some.inj h)
      decide
    · split at h
      · obtain ⟨rfl, -⟩ := Prod.mk.inj (Option.some.inj h)
        decide
      · exact nomatch h

lemma scalar_append {v : Value} (h : scalar c t = some (v, r)) (hr : r ≠ []) :
    scalar c (t ++ u) = some (v, r ++ u) := by
  unfold scalar at h ⊢
  split at h
  next => exact keyword_append h
  next => exact number_append h hr

lemma length_scalar {v : Value} (h : scalar c t = some (v, r)) : r.length < (c :: t).length := by
  unfold scalar at h
  split at h
  next heq => exact length_keyword (ne_nil_of_keywordOf heq) h
  next => exact length_number h

lemma memberKey_append {key : Units} (h : memberKey t = some (key, r)) :
    memberKey (t ++ u) = some (key, r ++ u) := by
  unfold memberKey at h ⊢
  split at h
  next => exact nomatch h
  next c t' hskip =>
    rw [skipWs_append hskip]
    dsimp only
    split at h
    next hquote =>
      rw [if_pos hquote]
      split at h
      next => exact nomatch h
      next s r' hstring =>
        rw [stringRest_append hstring]
        dsimp only
        split at h
        next => exact nomatch h
        next hskip' =>
          rw [skipWs_append hskip']
          dsimp only
          split at h
          next hcolon =>
            rw [if_pos hcolon]
            obtain ⟨rfl, rfl⟩ := Prod.mk.inj (Option.some.inj h)
            rfl
          next => exact nomatch h
    next => exact nomatch h

lemma length_of_skipWs (h : skipWs t = c :: r) : r.length < t.length := by
  have hle := length_skipWs_le t
  rw [h, List.length_cons] at hle
  exact hle

lemma length_memberKey {key : Units} (h : memberKey t = some (key, r)) : r.length < t.length := by
  unfold memberKey at h
  split at h
  next => exact nomatch h
  next c t' hskip =>
    have hlt := length_of_skipWs hskip
    split at h
    next hquote =>
      split at h
      next => exact nomatch h
      next s r' hstring =>
        have hlt' := length_stringRest hstring
        split at h
        next => exact nomatch h
        next hskip' =>
          have hlt'' := length_of_skipWs hskip'
          split at h
          next hcolon =>
            obtain ⟨-, rfl⟩ := Prod.mk.inj (Option.some.inj h)
            omega
          next => exact nomatch h
    next => exact nomatch h

variable {α : Type*} {close : UInt16} {x : α} {xs : List α}
  {again : Units → Option (List α × Units)}

lemma closeOrMore_append (hagain : ∀ {t xs r}, again t = some (xs, r) →
      again (t ++ u) = some (xs, r ++ u))
    (h : closeOrMore close x again t = some (xs, r)) :
    closeOrMore close x again (t ++ u) = some (xs, r ++ u) := by
  unfold closeOrMore at h ⊢
  split at h
  next => exact nomatch h
  next hskip =>
    rw [skipWs_append hskip]
    dsimp only
    split at h
    next hclose =>
      rw [if_pos hclose]
      obtain ⟨rfl, rfl⟩ := Prod.mk.inj (Option.some.inj h)
      rfl
    next hclose =>
      rw [if_neg hclose]
      split at h
      next hcomma =>
        rw [if_pos hcomma]
        obtain ⟨y, hy, rfl⟩ := map_eq_some_pair.mp h
        exact map_eq_some_pair.mpr ⟨y, hagain hy, rfl⟩
      next => exact nomatch h

lemma length_closeOrMore (hagain : ∀ {t xs r}, again t = some (xs, r) → r.length < t.length)
    (h : closeOrMore close x again t = some (xs, r)) : r.length < t.length := by
  unfold closeOrMore at h
  split at h
  next => exact nomatch h
  next hskip =>
    have hlt := length_of_skipWs hskip
    split at h
    next hclose =>
      obtain ⟨-, rfl⟩ := Prod.mk.inj (Option.some.inj h)
      exact hlt
    next hclose =>
      split at h
      next hcomma =>
        obtain ⟨y, hy, -⟩ := map_eq_some_pair.mp h
        exact (hagain hy).trans hlt
      next => exact nomatch h

lemma emptyOr_append (hagain : ∀ {t xs r}, again t = some (xs, r) →
      again (t ++ u) = some (xs, r ++ u)) (h : emptyOr close again t = some (xs, r)) :
    emptyOr close again (t ++ u) = some (xs, r ++ u) := by
  unfold emptyOr at h ⊢
  split at h
  next => exact nomatch h
  next hskip =>
    rw [skipWs_append hskip]
    dsimp only
    split at h
    next hclose =>
      rw [if_pos hclose]
      obtain ⟨rfl, rfl⟩ := Prod.mk.inj (Option.some.inj h)
      rfl
    next hclose =>
      rw [if_neg hclose]
      exact hagain h

lemma length_emptyOr (hagain : ∀ {t xs r}, again t = some (xs, r) → r.length < t.length)
    (h : emptyOr close again t = some (xs, r)) : r.length < t.length := by
  unfold emptyOr at h
  split at h
  next => exact nomatch h
  next hskip =>
    have hlt := length_of_skipWs hskip
    split at h
    next hclose =>
      obtain ⟨-, rfl⟩ := Prod.mk.inj (Option.some.inj h)
      exact hlt
    next hclose =>
      have hle := length_skipWs_le t
      rw [hskip] at hle
      exact (hagain h).trans_le hle

lemma closeOrMore_congr {again' : Units → Option (List α × Units)}
    (h : ∀ r, r.length < t.length → again r = again' r) :
    closeOrMore close x again t = closeOrMore close x again' t := by
  unfold closeOrMore
  split
  next => rfl
  next hskip => rw [h _ (length_of_skipWs hskip)]

lemma emptyOr_congr {again' : Units → Option (List α × Units)}
    (h : ∀ r, r.length ≤ t.length → again r = again' r) :
    emptyOr close again t = emptyOr close again' t := by
  unfold emptyOr
  split
  next => rfl
  next hskip => rw [h _ (hskip ▸ length_skipWs_le t)]

lemma ne_nil_of_closeOrMore (h : closeOrMore close x again t = some (xs, r)) : t ≠ [] := by
  rintro rfl
  exact nomatch h

end Leaves

section Values

variable {n : ℕ} {t r u : Units} {v : Value}

lemma length_lt (n : ℕ) :
    (∀ {t v r}, value n t = some (v, r) → r.length < t.length) ∧
      (∀ {t xs r}, elements n t = some (xs, r) → r.length < t.length) ∧
      ∀ {t xs r}, members n t = some (xs, r) → r.length < t.length := by
  induction n with
  | zero => exact ⟨(fun h => nomatch h), (fun h => nomatch h), fun h => nomatch h⟩
  | succ n ih =>
    obtain ⟨hvalue, helements, hmembers⟩ := ih
    refine ⟨fun {t v r} h => ?_, fun {t xs r} h => ?_, fun {t xs r} h => ?_⟩
    · cases t with
      | nil => exact nomatch h
      | cons c t =>
        rw [value] at h
        rw [List.length_cons]
        split at h
        next =>
          obtain ⟨y, hy, -⟩ := map_eq_some_pair.mp h
          exact (length_emptyOr helements hy).trans (Nat.lt_succ_self _)
        next =>
          split at h
          next =>
            obtain ⟨y, hy, -⟩ := map_eq_some_pair.mp h
            exact (length_emptyOr hmembers hy).trans (Nat.lt_succ_self _)
          next =>
            split at h
            next =>
              obtain ⟨y, hy, -⟩ := map_eq_some_pair.mp h
              exact (length_stringRest hy).trans (Nat.lt_succ_self _)
            next => exact length_scalar h
    · rw [elements] at h
      split at h
      next => exact nomatch h
      next hv =>
        have hlt := hvalue hv
        have hle := length_skipWs_le t
        have hrest := length_closeOrMore helements h
        omega
    · rw [members] at h
      split at h
      next => exact nomatch h
      next key r' hkey =>
        have hlt := length_memberKey hkey
        split at h
        next => exact nomatch h
        next hv =>
          have hlt' := hvalue hv
          have hle := length_skipWs_le r'
          have hrest := length_closeOrMore hmembers h
          omega

lemma value_skipWs_append (hv : value n (skipWs t) = some (v, r))
    (hmore : value n (skipWs t ++ u) = some (v, r ++ u)) :
    value n (skipWs (t ++ u)) = some (v, r ++ u) := by
  cases hskip : skipWs t with
  | nil =>
    rw [hskip] at hv
    cases n <;> exact nomatch hv
  | cons c t' =>
    rw [skipWs_append hskip]
    rwa [hskip] at hmore

lemma append_eq (n : ℕ) :
    (∀ {t v r}, value n t = some (v, r) → r ≠ [] ∨ t.head? = some (unit '[') →
        value n (t ++ u) = some (v, r ++ u)) ∧
      (∀ {t xs r}, elements n t = some (xs, r) → elements n (t ++ u) = some (xs, r ++ u)) ∧
      ∀ {t xs r}, members n t = some (xs, r) → members n (t ++ u) = some (xs, r ++ u) := by
  induction n with
  | zero => exact ⟨(fun h => nomatch h), (fun h => nomatch h), fun h => nomatch h⟩
  | succ n ih =>
    obtain ⟨hvalue, helements, hmembers⟩ := ih
    refine ⟨fun {t v r} h hend => ?_, fun {t xs r} h => ?_, fun {t xs r} h => ?_⟩
    · cases t with
      | nil => exact nomatch h
      | cons c t =>
        rw [value] at h
        rw [List.cons_append, value]
        split
        next hc =>
          rw [if_pos hc] at h
          obtain ⟨y, hy, rfl⟩ := map_eq_some_pair.mp h
          exact map_eq_some_pair.mpr ⟨y, emptyOr_append helements hy, rfl⟩
        next hbracket =>
          rw [if_neg hbracket] at h
          split
          next hc =>
            rw [if_pos hc] at h
            obtain ⟨y, hy, rfl⟩ := map_eq_some_pair.mp h
            exact map_eq_some_pair.mpr ⟨y, emptyOr_append hmembers hy, rfl⟩
          next hbrace =>
            rw [if_neg hbrace] at h
            split
            next hc =>
              rw [if_pos hc] at h
              obtain ⟨y, hy, rfl⟩ := map_eq_some_pair.mp h
              exact map_eq_some_pair.mpr ⟨y, stringRest_append hy, rfl⟩
            next hquote =>
              rw [if_neg hquote] at h
              refine scalar_append h (hend.resolve_right fun hhead => hbracket ?_)
              exact Option.some.inj hhead
    · rw [elements] at h ⊢
      split at h
      next => exact nomatch h
      next v r' hv =>
        rw [value_skipWs_append hv (hvalue hv (.inl (ne_nil_of_closeOrMore h)))]
        exact closeOrMore_append helements h
    · rw [members] at h ⊢
      split at h
      next => exact nomatch h
      next key r' hkey =>
        rw [memberKey_append hkey]
        dsimp only
        split at h
        next => exact nomatch h
        next v r'' hv =>
          rw [value_skipWs_append hv (hvalue hv (.inl (ne_nil_of_closeOrMore h)))]
          exact closeOrMore_append hmembers h

lemma fuel_eq (n m : ℕ) :
    (∀ t, 2 * t.length + 1 ≤ n → 2 * t.length + 1 ≤ m → value n t = value m t) ∧
      (∀ t, 2 * t.length + 2 ≤ n → 2 * t.length + 2 ≤ m → elements n t = elements m t) ∧
      ∀ t, 2 * t.length + 2 ≤ n → 2 * t.length + 2 ≤ m → members n t = members m t := by
  induction n generalizing m with
  | zero => exact ⟨by omega, by omega, by omega⟩
  | succ n ih =>
    cases m with
    | zero => exact ⟨by omega, by omega, by omega⟩
    | succ m =>
      obtain ⟨hvalue, helements, hmembers⟩ := ih m
      refine ⟨fun t hn hm => ?_, fun t hn hm => ?_, fun t hn hm => ?_⟩
      · cases t with
        | nil => rfl
        | cons c t =>
          rw [List.length_cons] at hn hm
          have harray : emptyOr (unit ']') (elements n) t = emptyOr (unit ']') (elements m) t :=
            emptyOr_congr fun r hr => helements r (by omega) (by omega)
          have hobject : emptyOr (unit '\x7d') (members n) t =
              emptyOr (unit '\x7d') (members m) t :=
            emptyOr_congr fun r hr => hmembers r (by omega) (by omega)
          rw [value, value, harray, hobject]
      · have hle := length_skipWs_le t
        rw [elements, elements, hvalue _ (by omega) (by omega)]
        split
        next => rfl
        next hv =>
          have hlt := (length_lt m).1 hv
          exact closeOrMore_congr fun r hr => helements r (by omega) (by omega)
      · rw [members, members]
        split
        next => rfl
        next key r' hkey =>
          have hlt := length_memberKey hkey
          have hle := length_skipWs_le r'
          rw [hvalue _ (by omega) (by omega)]
          split
          next => rfl
          next hv =>
            have hlt' := (length_lt m).1 hv
            exact closeOrMore_congr fun r hr => hmembers r (by omega) (by omega)

lemma head_of_array {c : UInt16} {xs : List Value} (h : value n (c :: t) = some (.array xs, r)) :
    c = unit '[' := by
  cases n with
  | zero => exact nomatch h
  | succ n =>
    rw [value] at h
    split at h
    next hc => exact hc
    next =>
      split at h
      next =>
        obtain ⟨y, -, hy⟩ := map_eq_some_pair.mp h
        exact nomatch hy
      next =>
        split at h
        next =>
          obtain ⟨y, -, hy⟩ := map_eq_some_pair.mp h
          exact nomatch hy
        next =>
          unfold scalar keywordOf keyword number at h
          repeat' split at h
          all_goals grind

end Values

section Texts

variable {t p u : Units} {v : Value} {xs : List Value}

lemma skipWs_eq_nil : skipWs t = [] ↔ ∀ c ∈ t, isWs c := List.dropWhile_eq_nil_iff

lemma skipWs_append_eq_nil (r u : Units) :
    skipWs (r ++ u) = [] ↔ skipWs r = [] ∧ skipWs u = [] := by
  rw [skipWs_eq_nil, skipWs_eq_nil, skipWs_eq_nil]
  simp [or_imp, forall_and]

lemma parse_eq_some {n : ℕ} (hn : 2 * t.length + 1 ≤ n) :
    parse t = some v ↔ ∃ r, value n (skipWs t) = some (v, r) ∧ skipWs r = [] := by
  have hle := length_skipWs_le t
  rw [parse, (fuel_eq (2 * t.length + 1) n).1 (skipWs t) (by omega) (by omega)]
  split
  next w r hw =>
    simp only [hw, Option.ite_none_right_eq_some, Option.some.injEq, Prod.mk.injEq]
    constructor
    · rintro ⟨hr, rfl⟩
      exact ⟨r, ⟨rfl, rfl⟩, hr⟩
    · rintro ⟨_, ⟨rfl, rfl⟩, hr⟩
      exact ⟨hr, rfl⟩
  next hnone => simp [hnone]

lemma skipWs_of_array (h : parse t = some (.array xs)) : ∃ t', skipWs t = unit '[' :: t' := by
  obtain ⟨r, hr, -⟩ := (parse_eq_some le_rfl).mp h
  cases hskip : skipWs t with
  | nil =>
    rw [hskip] at hr
    exact nomatch hr
  | cons c t' =>
    rw [hskip] at hr
    rw [head_of_array hr]
    exact ⟨t', rfl⟩

theorem parse_append_array (h : parse t = some (.array xs)) (u : Units) :
    parse (t ++ u) = if skipWs u = [] then some (.array xs) else none := by
  obtain ⟨t', ht'⟩ := skipWs_of_array h
  obtain ⟨r, hr, hwhite⟩ := (parse_eq_some (n := 2 * (t ++ u).length + 1)
    (by rw [List.length_append]; omega)).mp h
  have hmore := (append_eq (u := u) _).1 hr (.inr (by rw [ht']; rfl))
  rw [ht', List.cons_append] at hmore
  split
  next hu =>
    refine (parse_eq_some le_rfl).mpr ⟨r ++ u, ?_, (skipWs_append_eq_nil r u).mpr ⟨hwhite, hu⟩⟩
    rwa [skipWs_append ht']
  next hu =>
    refine Option.eq_none_iff_forall_ne_some.mpr fun v hv => hu ?_
    obtain ⟨r', hr', hwhite'⟩ := (parse_eq_some le_rfl).mp hv
    rw [skipWs_append ht', hmore] at hr'
    obtain ⟨-, rfl⟩ := Prod.mk.inj (Option.some.inj hr')
    exact ((skipWs_append_eq_nil r u).mp hwhite').2

theorem parse_of_append (h : parse (p ++ u) = some (.array xs)) (hp : parse p = some v) :
    v = .array xs ∧ skipWs u = [] := by
  obtain ⟨r, hr, hwhite⟩ := (parse_eq_some (n := 2 * (p ++ u).length + 1)
    (by rw [List.length_append]; omega)).mp hp
  obtain ⟨t', ht'⟩ := skipWs_of_array h
  have hhead : ∃ p', skipWs p = unit '[' :: p' := by
    cases hskip : skipWs p with
    | nil =>
      rw [hskip] at hr
      exact nomatch hr
    | cons c p' =>
      obtain ⟨rfl, -⟩ := List.cons.inj ((skipWs_append hskip).symm.trans ht')
      exact ⟨p', rfl⟩
  obtain ⟨p', hskip⟩ := hhead
  have hmore := (append_eq (u := u) _).1 hr (.inr (by rw [hskip]; rfl))
  rw [hskip, List.cons_append, ← skipWs_append hskip] at hmore
  obtain ⟨r', hr', hwhite'⟩ := (parse_eq_some le_rfl).mp h
  obtain ⟨rfl, rfl⟩ := Prod.mk.inj (Option.some.inj (hmore.symm.trans hr'))
  exact ⟨rfl, ((skipWs_append_eq_nil r u).mp hwhite').2⟩

end Texts

end JsonText
