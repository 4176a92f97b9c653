import Mathlib.Data.List.Basic

/-! Written values that a reader takes off the front of a text again. -/
namespace TextCodec

def Stops (rest : List Char) : Prop := ∀ c, rest.head? = some c → c.isDigit = false

lemma stops_cons {c : Char} (h : c.isDigit = false) (rest : List Char) : Stops (c :: rest) :=
  fun d hd => by
    obtain rfl := Option.some.inj hd
    exact h

/-- How a value is written, and how it is read off a text that goes on. -/
structure Codec (R : Type*) where
  write : R → List Char
  read : List Char → Option (R × List Char)
  read_write : ∀ r rest, Stops rest → read (write r ++ rest) = some (r, rest)

def dropLiteral (lit text : List Char) : Option (List Char) :=
  if lit <+: text then some (text.drop lit.length) else none

@[simp] lemma dropLiteral_append (lit rest : List Char) :
    dropLiteral lit (lit ++ rest) = some rest := by
  rw [dropLiteral, if_pos (List.prefix_append lit rest), List.drop_left]

namespace Codec
variable {A B : Type*}

/-- A literal, then a value. -/
def preceded (lit : List Char) (c : Codec A) : Codec A where
  write a := lit ++ c.write a
  read text := (dropLiteral lit text).bind c.read
  read_write a rest h := by
    rw [List.append_assoc, dropLiteral_append, Option.bind_some, c.read_write a rest h]

def closed (c : Codec A) (close : Char) (hclose : close.isDigit = false) : Codec A where
  write a := c.write a ++ [close]
  read text := (c.read text).bind fun x => (dropLiteral [close] x.2).map (x.1, ·)
  read_write a rest _ := by
    have ha : c.read (c.write a ++ ([close] ++ rest)) = some (a, [close] ++ rest) :=
      c.read_write a _ (stops_cons hclose rest)
    rw [List.append_assoc, ha, Option.bind_some, dropLiteral_append, Option.map_some]

lemma closed_read_write (c : Codec A) {close : Char} (hclose : close.isDigit = false) (a : A)
    (rest : List Char) :
    (c.closed close hclose).read ((c.closed close hclose).write a ++ rest) = some (a, rest) := by
  have ha : c.read (c.write a ++ ([close] ++ rest)) = some (a, [close] ++ rest) :=
    c.read_write a _ (stops_cons hclose rest)
  simp only [closed, List.append_assoc]
  rw [ha, Option.bind_some, dropLiteral_append, Option.map_some]

def SelfDelimiting (c : Codec A) : Prop := ∀ a rest, c.read (c.write a ++ rest) = some (a, rest)

lemma selfDelimiting_closed (c : Codec A) {close : Char} (hclose : close.isDigit = false) :
    (c.closed close hclose).SelfDelimiting := closed_read_write c hclose

lemma SelfDelimiting.preceded {c : Codec A} (h : c.SelfDelimiting) (lit : List Char) :
    (c.preceded lit).SelfDelimiting := fun a rest => by
  simp only [Codec.preceded, List.append_assoc]
  rw [dropLiteral_append, Option.bind_some, h a rest]

/-- Two values one behind the other, where the end of the first can be told. -/
def andThen (c : Codec A) (hc : c.SelfDelimiting) (d : Codec B) : Codec (A × B) where
  write p := c.write p.1 ++ d.write p.2
  read text := (c.read text).bind fun x => (d.read x.2).map fun y => ((x.1, y.1), y.2)
  read_write p rest h := by
    rw [List.append_assoc, hc p.1, Option.bind_some, d.read_write p.2 rest h, Option.map_some]

def writeOptional (lit : List Char) (c : Codec A) (close : Char) : Option A → List Char
  | none => [close]
  | some a => lit ++ (c.write a ++ [close])

def readOptional (lit : List Char) (c : Codec A) (close : Char) (hclose : close.isDigit = false)
    (text : List Char) : Option (Option A × List Char) :=
  match dropLiteral [close] text with
  | some rest => some (none, rest)
  | none => (((c.closed close hclose).preceded lit).read text).map fun x => (some x.1, x.2)

lemma readOptional_writeOptional {lit : List Char} {c : Codec A} {close : Char}
    (hclose : close.isDigit = false) (hne : lit.head? ≠ some close) (hlit : lit ≠ [])
    (a : Option A) (rest : List Char) :
    readOptional lit c close hclose (writeOptional lit c close a ++ rest) = some (a, rest) := by
  cases a with
  | none =>
    have hclosed : dropLiteral [close] (writeOptional lit c close none ++ rest) = some rest :=
      dropLiteral_append [close] rest
    rw [readOptional, hclosed]
  | some a =>
    have hnot : dropLiteral [close] (writeOptional lit c close (some a) ++ rest) = none := by
      obtain ⟨first, lit, rfl⟩ := List.exists_cons_of_ne_nil hlit
      refine if_neg fun hp => hne ?_
      obtain ⟨t, ht⟩ := hp
      exact congrArg some (List.cons.inj ht).1.symm
    have hread : ((c.closed close hclose).preceded lit).read
        (writeOptional lit c close (some a) ++ rest) = some (a, rest) :=
      (selfDelimiting_closed c hclose).preceded lit a rest
    rw [readOptional, hnot]
    dsimp only
    rw [hread, Option.map_some]

def optional (lit : List Char) (c : Codec A) (close : Char) (hclose : close.isDigit = false)
    (hne : lit.head? ≠ some close) (hlit : lit ≠ []) : Codec (Option A) where
  write := writeOptional lit c close
  read := readOptional lit c close hclose
  read_write a rest _ := readOptional_writeOptional hclose hne hlit a rest

/-- The same values under other names. -/
def imap (c : Codec A) (f : A → B) (g : B → A) (h : ∀ b, f (g b) = b) : Codec B where
  write b := c.write (g b)
  read text := (c.read text).map fun x => (f x.1, x.2)
  read_write b rest hrest := by rw [c.read_write (g b) rest hrest, Option.map_some, h]

section Many
variable (c : Codec A) (close : Char)

/-- The rest of a bracketed list: every further value behind a comma, then the bracket. -/
def writeTail : List A → List Char
  | [] => [close]
  | a :: as => ',' :: (c.write a ++ writeTail as)

def readTail : ℕ → List Char → Option (List A × List Char)
  | 0, _ => none
  | _, [] => none
  | fuel + 1, ch :: rest =>
    if ch = close then some ([], rest)
    else if ch = ',' then
      (c.read rest).bind fun x => (readTail fuel x.2).map fun y => (x.1 :: y.1, y.2)
    else none

variable {c close}

lemma stops_writeTail (hclose : close.isDigit = false) (as : List A) (rest : List Char) :
    Stops (writeTail c close as ++ rest) := by
  cases as with
  | nil => exact stops_cons hclose rest
  | cons a as => exact stops_cons (by decide) _

lemma length_lt_writeTail (as : List A) : as.length < (writeTail c close as).length := by
  induction as with
  | nil => exact Nat.zero_lt_one
  | cons a as ih =>
    rw [writeTail, List.length_cons, List.length_cons, List.length_append]
    omega

lemma readTail_writeTail (hclose : close.isDigit = false) (hcomma : close ≠ ',') (as : List A)
    (rest : List Char) {fuel : ℕ} (hfuel : as.length < fuel) :
    readTail c close fuel (writeTail c close as ++ rest) = some (as, rest) := by
  induction as generalizing fuel with
  | nil =>
    obtain ⟨n, rfl⟩ := Nat.exists_eq_add_one_of_ne_zero (Nat.ne_of_gt hfuel)
    rw [writeTail, List.singleton_append, readTail, if_pos rfl]
  | cons a as ih =>
    obtain ⟨n, rfl⟩ := Nat.exists_eq_add_one_of_ne_zero (Nat.ne_zero_of_lt hfuel)
    rw [writeTail, List.cons_append, readTail, if_neg (Ne.symm hcomma), if_pos rfl,
      List.append_assoc, c.read_write a _ (stops_writeTail hclose as rest), Option.bind_some,
      ih (Nat.lt_of_succ_lt_succ hfuel), Option.map_some]

end Many

def writeMany (c : Codec A) (opening close : Char) : List A → List Char
  | [] => [opening, close]
  | a :: as => opening :: (c.write a ++ writeTail c close as)

def readMany (c : Codec A) (opening close : Char) (text : List Char) :
    Option (List A × List Char) :=
  (dropLiteral [opening] text).bind fun rest =>
    match dropLiteral [close] rest with
    | some rest => some ([], rest)
    | none => (c.read rest).bind fun x =>
      (readTail c close x.2.length x.2).map fun y => (x.1 :: y.1, y.2)

/-- Values that are written with a first character other than the closing bracket. -/
def StartsOtherThan (c : Codec A) (close : Char) : Prop :=
  ∀ a, ∃ first text, c.write a = first :: text ∧ first ≠ close

lemma readMany_writeMany {c : Codec A} {close : Char} (hclose : close.isDigit = false)
    (hcomma : close ≠ ',') (hstart : c.StartsOtherThan close) (opening : Char) (as : List A)
    (rest : List Char) :
    readMany c opening close (writeMany c opening close as ++ rest) = some (as, rest) := by
  cases as with
  | nil =>
    have hopen : dropLiteral [opening] (writeMany c opening close [] ++ rest) =
        some ([close] ++ rest) := dropLiteral_append [opening] _
    rw [readMany, hopen, Option.bind_some, dropLiteral_append]
  | cons a as =>
    have hopen : dropLiteral [opening] (writeMany c opening close (a :: as) ++ rest) =
        some (c.write a ++ (writeTail c close as ++ rest)) := by
      rw [writeMany, List.cons_append, List.append_assoc]
      exact dropLiteral_append [opening] _
    have hnot : dropLiteral [close] (c.write a ++ (writeTail c close as ++ rest)) = none := by
      obtain ⟨first, text, htext, hne⟩ := hstart a
      refine if_neg fun hp => hne ?_
      obtain ⟨t, ht⟩ := hp
      rw [htext] at ht
      exact (List.cons.inj ht).1.symm
    have hfuel : as.length < (writeTail c close as ++ rest).length := by
      rw [List.length_append]
      exact Nat.lt_add_right _ (length_lt_writeTail as)
    rw [readMany, hopen, Option.bind_some, hnot]
    dsimp only
    rw [c.read_write a _ (stops_writeTail hclose as rest), Option.bind_some,
      readTail_writeTail hclose hcomma as rest hfuel, Option.map_some]

def many (c : Codec A) (opening close : Char) (hclose : close.isDigit = false)
    (hcomma : close ≠ ',') (hstart : c.StartsOtherThan close) : Codec (List A) where
  write := writeMany c opening close
  read := readMany c opening close
  read_write as rest _ := readMany_writeMany hclose hcomma hstart opening as rest

lemma selfDelimiting_many (c : Codec A) (opening : Char) {close : Char}
    (hclose : close.isDigit = false) (hcomma : close ≠ ',') (hstart : c.StartsOtherThan close) :
    (c.many opening close hclose hcomma hstart).SelfDelimiting :=
  readMany_writeMany hclose hcomma hstart opening

/-- A natural number in decimal digits. -/
def natural : Codec ℕ where
  write n := Nat.toDigits 10 n
  read text :=
    if text.takeWhile Char.isDigit = [] then none
    else some (Nat.ofDigitChars 10 (text.takeWhile Char.isDigit) 0, text.dropWhile Char.isDigit)
  read_write n rest h := by
    have hdigits : ∀ c ∈ Nat.toDigits 10 n, c.isDigit = true := fun c hc =>
      Nat.isDigit_of_mem_toDigits (by decide) (by decide) hc
    have hrest : rest.takeWhile Char.isDigit = [] ∧ rest.dropWhile Char.isDigit = rest := by
      cases rest with
      | nil => exact ⟨rfl, rfl⟩
      | cons c rest =>
        have hc : c.isDigit = false := h c rfl
        simp [hc]
    have htake : (Nat.toDigits 10 n ++ rest).takeWhile Char.isDigit = Nat.toDigits 10 n := by
      rw [List.takeWhile_append_of_pos hdigits, hrest.1, List.append_nil]
    rw [htake, if_neg Nat.toDigits_ne_nil, Nat.ofDigitChars_ten_toDigits,
      List.dropWhile_append_of_pos hdigits, hrest.2]

lemma SelfDelimiting.andThen {c : Codec A} (hc : c.SelfDelimiting) {d : Codec B}
    (hd : d.SelfDelimiting) : (c.andThen hc d).SelfDelimiting := fun p rest => by
  simp only [Codec.andThen, List.append_assoc]
  rw [hc p.1, Option.bind_some, hd p.2 rest, Option.map_some]

lemma SelfDelimiting.imap {c : Codec A} (h : c.SelfDelimiting) (f : A → B) (g : B → A)
    (hfg : ∀ b, f (g b) = b) : (c.imap f g hfg).SelfDelimiting := fun b rest => by
  simp only [Codec.imap]
  rw [h (g b) rest, Option.map_some, hfg]

lemma selfDelimiting_optional (lit : List Char) (c : Codec A) {close : Char}
    (hclose : close.isDigit = false) (hne : lit.head? ≠ some close) (hlit : lit ≠ []) :
    (c.optional lit close hclose hne hlit).SelfDelimiting :=
  readOptional_writeOptional hclose hne hlit

lemma SelfDelimiting.eq_nil {c : Codec A} (h : c.SelfDelimiting) {a b : A} {rest : List Char}
    (heq : c.write a = c.write b ++ rest) : rest = [] := by
  have ha := h a []
  rw [List.append_nil, heq, h b rest] at ha
  exact (Prod.mk.inj (Option.some.inj ha)).2

def Avoids (c : Codec A) (ch : Char) : Prop := ∀ a, ch ∉ c.write a

lemma Avoids.preceded {c : Codec A} {ch : Char} (h : c.Avoids ch) {lit : List Char}
    (hlit : ch ∉ lit) : (c.preceded lit).Avoids ch := fun a => by
  simp [Codec.preceded, hlit, h a]

lemma Avoids.closed {c : Codec A} {ch : Char} (h : c.Avoids ch) {close : Char}
    (hclose : close.isDigit = false) (hch : ch ≠ close) : (c.closed close hclose).Avoids ch :=
  fun a => by simp [Codec.closed, hch, h a]

lemma Avoids.andThen {c : Codec A} {ch : Char} (h : c.Avoids ch) (hc : c.SelfDelimiting)
    {d : Codec B} (hd : d.Avoids ch) : (c.andThen hc d).Avoids ch := fun p => by
  simp [Codec.andThen, h p.1, hd p.2]

lemma Avoids.optional {c : Codec A} {ch : Char} (h : c.Avoids ch) {lit : List Char}
    (hnot : ch ∉ lit) {close : Char} (hch : ch ≠ close) (hclose : close.isDigit = false)
    (hne : lit.head? ≠ some close) (hlit : lit ≠ []) :
    (c.optional lit close hclose hne hlit).Avoids ch := fun a => by
  cases a with
  | none => simpa [Codec.optional, writeOptional] using hch
  | some a => simp [Codec.optional, writeOptional, hnot, hch, h a]

lemma Avoids.imap {c : Codec A} {ch : Char} (h : c.Avoids ch) (f : A → B) (g : B → A)
    (hfg : ∀ b, f (g b) = b) : (c.imap f g hfg).Avoids ch := fun b => h (g b)

lemma Avoids.many {c : Codec A} {ch : Char} (h : c.Avoids ch) {opening close : Char}
    (hopening : ch ≠ opening) (hch : ch ≠ close) (hsep : ch ≠ ',')
    (hclose : close.isDigit = false) (hcomma : close ≠ ',') (hstart : c.StartsOtherThan close) :
    (c.many opening close hclose hcomma hstart).Avoids ch := fun as => by
  have htail : ∀ as, ch ∉ writeTail c close as := by
    intro as
    induction as with
    | nil => simpa [writeTail] using hch
    | cons a as ih => simp [writeTail, hsep, h a, ih]
  cases as with
  | nil => simp [Codec.many, writeMany, hopening, hch]
  | cons a as => simp [Codec.many, writeMany, hopening, h a, htail as]

lemma avoids_natural {ch : Char} (h : ch.isDigit = false) : natural.Avoids ch := fun n hn => by
  have hdigit : ch.isDigit = true := Nat.isDigit_of_mem_toDigits (by decide) (by decide) hn
  exact absurd (h.symm.trans hdigit) Bool.false_ne_true

def EndsWith (c : Codec A) (ch : Char) : Prop := ∀ a, (c.write a).getLast? = some ch

lemma EndsWith.preceded {c : Codec A} {ch : Char} (h : c.EndsWith ch) (lit : List Char) :
    (c.preceded lit).EndsWith ch := fun a => by
  simp [Codec.preceded, List.getLast?_append, h a]

lemma EndsWith.andThen {d : Codec B} {ch : Char} (h : d.EndsWith ch) (c : Codec A)
    (hc : c.SelfDelimiting) : (c.andThen hc d).EndsWith ch := fun p => by
  simp [Codec.andThen, List.getLast?_append, h p.2]

lemma EndsWith.imap {c : Codec A} {ch : Char} (h : c.EndsWith ch) (f : A → B) (g : B → A)
    (hfg : ∀ b, f (g b) = b) : (c.imap f g hfg).EndsWith ch := fun b => h (g b)

lemma endsWith_optional (lit : List Char) (c : Codec A) {close : Char}
    (hclose : close.isDigit = false) (hne : lit.head? ≠ some close) (hlit : lit ≠ []) :
    (c.optional lit close hclose hne hlit).EndsWith close := fun a => by
  cases a with
  | none => rfl
  | some a => simp [Codec.optional, writeOptional]

end Codec

end TextCodec
