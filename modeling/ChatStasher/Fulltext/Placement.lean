import ChatStasher.Fulltext.Index

/-! Where a query sits in an indexed document: the first place in the stored body, and the message
that starts last before it. -/
namespace ChatStasher.Fulltext
open Inbox (Text)

/-- The first place of a text in another one, counted in characters. -/
def firstAt (needle : Text) : Text → Option ℕ
  | [] => if needle.isEmpty then some 0 else none
  | c :: text =>
    if needle.isPrefixOf (c :: text) then some 0 else (firstAt needle text).map (· + 1)

/-- SQLite's `instr`: one more than the first place, zero where there is none. -/
def instr (text needle : Text) : ℕ :=
  match firstAt needle text with
  | some place => place + 1
  | none => 0

def lower (text : Text) : Text := text.map Char.toLower

/-- The messages behind a body that is already begun: each is put after a newline unless nothing
stands before it, and its place is where it starts. -/
def joinMessages : Text → List Text → Text × List ℕ
  | body, [] => (body, [])
  | body, message :: messages =>
    let body := if body.isEmpty then body else body ++ ['\n']
    let (joined, offsets) := joinMessages (body ++ message) messages
    (joined, body.length :: offsets)

/-- Join indexed messages into the one body a document stores. -/
def documentFromMessages (messages : List Text) : DocText where
  title := []
  body := (joinMessages [] messages).1
  messageOffsets := (joinMessages [] messages).2
  notIndexable := none
  unreadLines := 0

/-- A document as it was indexed: its label and its messages. -/
structure TextDoc where
  title : Text
  messages : List Text
  deriving DecidableEq

def TextDoc.text (doc : TextDoc) : DocText := { documentFromMessages doc.messages with title := doc.title }

inductive MatchPlace
  | message (ordinal : ℕ)
  | label
  | notRelocated
  deriving DecidableEq

/-- The last position of the list that passes. -/
def rposition (p : ℕ → Bool) : List ℕ → Option ℕ
  | [] => none
  | x :: l =>
    match rposition p l with
    | some position => some (position + 1)
    | none => if p x then some 0 else none

/-- Where the query first sits inside one document's row. -/
def placeIn (query : Text) (text : DocText) : MatchPlace :=
  let bodyAt := instr (lower text.body) (lower query)
  let titleAt := instr (lower text.title) (lower query)
  if 0 < bodyAt then
    match rposition (fun start => start ≤ bodyAt - 1) text.messageOffsets with
    | some ordinal => .message ordinal
    | none => .notRelocated
  else if 0 < titleAt then .label
  else .notRelocated

def Contains (query text : Text) : Prop := lower query <:+: lower text

def InMessage (query : Text) (doc : TextDoc) (ordinal place : ℕ) : Prop :=
  ∃ (start : ℕ) (message : Text), doc.text.messageOffsets[ordinal]? = some start ∧
    doc.messages[ordinal]? = some message ∧ start ≤ place ∧
      place + query.length ≤ start + message.length

/-- The first place of the query in the body, if there is one, lies within one message. -/
def WithinOneMessage (query : Text) (doc : TextDoc) : Prop :=
  ∀ place, firstAt (lower query) (lower doc.text.body) = some place →
    ∃ ordinal, InMessage query doc ordinal place

/-- A message number that is answered is the first message whose own text holds the query, and the
place it was found at lies within that text. -/
def RightMessage (query : Text) (doc : TextDoc) (answer : MatchPlace) : Prop :=
  ∀ ordinal, answer = .message ordinal →
    (∃ message, doc.messages[ordinal]? = some message ∧ Contains query message) ∧
      (∀ earlier < ordinal, ∀ message, doc.messages[earlier]? = some message →
        ¬ Contains query message) ∧
      ∃ place, firstAt (lower query) (lower doc.text.body) = some place ∧
        InMessage query doc ordinal place

section First

lemma firstAt_eq_some_iff {needle text : Text} {place : ℕ} :
    firstAt needle text = some place ↔
      needle <+: text.drop place ∧ place ≤ text.length ∧
        ∀ earlier < place, ¬ needle <+: text.drop earlier := by
  induction text generalizing place with
  | nil =>
    rw [firstAt]
    cases needle with
    | nil =>
      simp only [List.isEmpty_nil, if_true, Option.some.injEq, List.nil_prefix, true_and,
        List.length_nil, Nat.le_zero]
      constructor
      · rintro rfl
        simp
      · rintro ⟨rfl, -⟩
        rfl
    | cons c needle => simp
  | cons c text ih =>
    rw [firstAt]
    by_cases hhere : needle <+: c :: text
    · rw [if_pos (List.isPrefixOf_iff_prefix.mpr hhere), Option.some.injEq]
      constructor
      · rintro rfl
        exact ⟨hhere, Nat.zero_le _, by simp⟩
      · rintro ⟨-, -, hfirst⟩
        by_contra hne
        exact hfirst 0 (by omega) hhere
    · rw [if_neg (by rwa [List.isPrefixOf_iff_prefix]), Option.map_eq_some_iff]
      constructor
      · rintro ⟨place, hplace, rfl⟩
        obtain ⟨hleading, hle, hfirst⟩ := ih.mp hplace
        refine ⟨hleading, by simpa using hle, fun earlier hearlier => ?_⟩
        cases earlier with
        | zero => exact hhere
        | succ earlier => exact hfirst earlier (by omega)
      · rintro ⟨hleading, hle, hfirst⟩
        cases place with
        | zero => exact absurd hleading hhere
        | succ place =>
          refine ⟨place, ih.mpr ⟨hleading, by simpa using hle, fun earlier hearlier => ?_⟩, rfl⟩
          exact hfirst (earlier + 1) (by omega)

lemma firstAt_of_ne_nil {needle text : Text} (hne : needle ≠ []) {place : ℕ} :
    firstAt needle text = some place ↔
      needle <+: text.drop place ∧ ∀ earlier < place, ¬ needle <+: text.drop earlier := by
  rw [firstAt_eq_some_iff]
  refine and_congr_right fun hleading => and_iff_right_of_imp fun _ => ?_
  have hlength := hleading.length_le
  have := List.length_pos_iff.mpr hne
  rw [List.length_drop] at hlength
  omega

end First

section Join

lemma rposition_eq_none_iff {p : ℕ → Bool} {l : List ℕ} :
    rposition p l = none ↔ ∀ x ∈ l, p x = false := by
  induction l with
  | nil => simp [rposition]
  | cons x l ih =>
    rw [rposition, List.forall_mem_cons, ← ih]
    cases rposition p l with
    | some last => simp
    | none => cases p x <;> simp

lemma rposition_eq_some_iff {p : ℕ → Bool} {l : List ℕ} {position : ℕ} :
    rposition p l = some position ↔ (∃ x, l[position]? = some x ∧ p x = true) ∧
      ∀ later, position < later → ∀ x, l[later]? = some x → p x = false := by
  induction l generalizing position with
  | nil => simp [rposition]
  | cons x l ih =>
    rw [rposition]
    cases hrest : rposition p l with
    | some last =>
      have hlast := ih.mp hrest
      simp only [Option.some.injEq]
      constructor
      · rintro rfl
        refine ⟨by simpa using hlast.1, fun later hlater y hy => ?_⟩
        cases later with
        | zero => omega
        | succ later => exact hlast.2 later (by omega) y (by simpa using hy)
      · rintro ⟨⟨y, hy, hpass⟩, hnone⟩
        cases position with
        | zero =>
          obtain ⟨z, hz, hpass'⟩ := hlast.1
          have := hnone (last + 1) (by omega) z (by simpa using hz)
          simp [hpass'] at this
        | succ position =>
          have hposition : rposition p l = some position :=
            ih.mpr ⟨⟨y, by simpa using hy, hpass⟩, fun later hlater z hz =>
              hnone (later + 1) (by omega) z (by simpa using hz)⟩
          rw [hrest, Option.some.injEq] at hposition
          rw [hposition]
    | none =>
      rw [rposition_eq_none_iff] at hrest
      have hfail : ∀ (k y : ℕ), l[k]? = some y → p y = false :=
        fun k y hy => hrest y (List.mem_of_getElem? hy)
      cases position with
      | zero =>
        have hlater : ∀ later, 0 < later → ∀ y, (x :: l)[later]? = some y → p y = false := by
          intro later hpos y hy
          obtain ⟨later, rfl⟩ : ∃ k, later = k + 1 := ⟨later - 1, by omega⟩
          exact hfail later y (by simpa using hy)
        cases hx : p x with
        | true => simpa [hx] using hlater
        | false => simp [hx]
      | succ position =>
        refine iff_of_false (by dsimp only; split <;> simp) ?_
        rintro ⟨⟨y, hy, hpass⟩, -⟩
        simp [hfail position y (by simpa using hy)] at hpass

lemma joinMessages_cons (body message : Text) (messages : List Text) :
    joinMessages body (message :: messages) =
      ((joinMessages ((if body.isEmpty then body else body ++ ['\n']) ++ message) messages).1,
        (if body.isEmpty then body else body ++ ['\n']).length ::
          (joinMessages ((if body.isEmpty then body else body ++ ['\n']) ++ message) messages).2) :=
  rfl

lemma length_joinMessages (body : Text) (messages : List Text) :
    (joinMessages body messages).2.length = messages.length := by
  induction messages generalizing body with
  | nil => rfl
  | cons message messages ih => rw [joinMessages_cons, List.length_cons, ih, List.length_cons]

lemma prefix_joinMessages (body : Text) (messages : List Text) :
    body <+: (joinMessages body messages).1 := by
  induction messages generalizing body with
  | nil => exact List.prefix_refl _
  | cons message messages ih =>
    rw [joinMessages_cons]
    refine List.IsPrefix.trans ?_ (ih _)
    split
    · exact List.prefix_append _ _
    · exact (List.prefix_append body _).trans (List.prefix_append _ _)

lemma message_at {body : Text} {messages : List Text} {ordinal start : ℕ} {message : Text}
    (hstart : (joinMessages body messages).2[ordinal]? = some start)
    (hmessage : messages[ordinal]? = some message) :
    body.length ≤ start ∧ message <+: (joinMessages body messages).1.drop start := by
  induction messages generalizing body ordinal with
  | nil => simp at hmessage
  | cons first messages ih =>
    rw [joinMessages_cons] at hstart ⊢
    have hbegun : body.length ≤ (if body.isEmpty then body else body ++ ['\n']).length := by
      split <;> simp
    cases ordinal with
    | zero =>
      simp only [List.getElem?_cons_zero, Option.some.injEq] at hstart hmessage
      subst hstart hmessage
      refine ⟨hbegun, ?_⟩
      obtain ⟨rest, hrest⟩ := prefix_joinMessages
        ((if body.isEmpty then body else body ++ ['\n']) ++ first) messages
      dsimp only
      rw [← hrest, List.append_assoc, List.drop_left]
      exact List.prefix_append _ _
    | succ ordinal =>
      simp only [List.getElem?_cons_succ] at hstart hmessage
      obtain ⟨hle, hleading⟩ := ih hstart hmessage
      rw [List.length_append] at hle
      exact ⟨by omega, hleading⟩

lemma starts_apart {body : Text} {messages : List Text} {earlier later start start' : ℕ}
    {message : Text} (hlt : earlier < later)
    (hstart : (joinMessages body messages).2[earlier]? = some start)
    (hmessage : messages[earlier]? = some message)
    (hstart' : (joinMessages body messages).2[later]? = some start') :
    start + message.length ≤ start' := by
  induction messages generalizing body earlier later with
  | nil => simp at hmessage
  | cons first messages ih =>
    rw [joinMessages_cons] at hstart hstart'
    obtain ⟨later, rfl⟩ : ∃ k, later = k + 1 := ⟨later - 1, by omega⟩
    rw [List.getElem?_cons_succ] at hstart'
    cases earlier with
    | zero =>
      simp only [List.getElem?_cons_zero, Option.some.injEq] at hstart hmessage
      subst hstart hmessage
      obtain ⟨message', hmessage'⟩ : ∃ message', messages[later]? = some message' := by
        have hlength := (List.getElem?_eq_some_iff.mp hstart').1
        rw [length_joinMessages] at hlength
        exact ⟨_, List.getElem?_eq_getElem hlength⟩
      have hle := (message_at hstart' hmessage').1
      rwa [List.length_append] at hle
    | succ earlier =>
      simp only [List.getElem?_cons_succ] at hstart hmessage
      exact ih (by omega) hstart hmessage hstart'

end Join

section Place
variable {query : Text} {doc : TextDoc} {place : ℕ}

lemma length_lower (text : Text) : (lower text).length = text.length := List.length_map _

lemma drop_lower (n : ℕ) (text : Text) : (lower text).drop n = lower (text.drop n) :=
  (List.map_drop).symm

lemma lower_prefix {a b : Text} (h : a <+: b) : lower a <+: lower b := h.map _

lemma lower_ne_nil (hquery : query ≠ []) : lower query ≠ [] := by
  simpa [lower] using hquery

lemma place_of_contains {ordinal start : ℕ} {message : Text}
    (hstart : doc.text.messageOffsets[ordinal]? = some start)
    (hmessage : doc.messages[ordinal]? = some message) (hcontains : Contains query message) :
    ∃ place, lower query <+: (lower doc.text.body).drop place ∧
      place + query.length ≤ start + message.length := by
  obtain ⟨before, after, happend⟩ := hcontains
  have hbody : lower message <+: (lower doc.text.body).drop start := by
    rw [drop_lower]
    exact lower_prefix (message_at hstart hmessage).2
  have hlength := congrArg List.length happend
  simp only [List.length_append, length_lower] at hlength
  refine ⟨start + before.length, ?_, by omega⟩
  obtain ⟨rest, hrest⟩ := hbody
  rw [← List.drop_drop, ← hrest, ← happend, List.append_assoc, List.append_assoc, List.drop_left]
  exact List.prefix_append _ _

lemma contains_of_inMessage {ordinal : ℕ} (hplace : lower query <+: (lower doc.text.body).drop place)
    (hin : InMessage query doc ordinal place) :
    ∃ message, doc.messages[ordinal]? = some message ∧ Contains query message := by
  obtain ⟨start, message, hstart, hmessage, hle, hend⟩ := hin
  have hbody : lower message <+: (lower doc.text.body).drop start := by
    rw [drop_lower]
    exact lower_prefix (message_at hstart hmessage).2
  obtain ⟨rest, hrest⟩ := hbody
  rw [show place = start + (place - start) by omega, ← List.drop_drop, ← hrest,
    List.drop_append_of_le_length (by rw [length_lower]; omega)] at hplace
  have hwithin : lower query <+: (lower message).drop (place - start) := by
    refine List.prefix_of_prefix_length_le hplace (List.prefix_append _ rest) ?_
    rw [List.length_drop, length_lower, length_lower]
    omega
  exact ⟨message, hmessage, hwithin.isInfix.trans (List.drop_suffix _ _).isInfix⟩

lemma placeIn_of_firstAt (hfirst : firstAt (lower query) (lower doc.text.body) = some place) :
    placeIn query doc.text =
      match rposition (fun start => start ≤ place) doc.text.messageOffsets with
      | some ordinal => .message ordinal
      | none => .notRelocated := by
  unfold placeIn instr
  rw [hfirst]
  dsimp only
  rw [if_pos (Nat.succ_pos place), Nat.add_sub_cancel]

lemma placeIn_of_inMessage (hquery : query ≠ []) {ordinal : ℕ}
    (hfirst : firstAt (lower query) (lower doc.text.body) = some place)
    (hin : InMessage query doc ordinal place) : placeIn query doc.text = .message ordinal := by
  obtain ⟨start, message, hstart, hmessage, hle, hend⟩ := hin
  have hpos := List.length_pos_iff.mpr hquery
  have hordinal : rposition (fun start => start ≤ place) doc.text.messageOffsets = some ordinal := by
    refine rposition_eq_some_iff.mpr ⟨⟨start, hstart, decide_eq_true hle⟩, ?_⟩
    intro later hlater start' hstart'
    have hapart := starts_apart hlater hstart hmessage hstart'
    exact decide_eq_false (by omega)
  rw [placeIn_of_firstAt hfirst, hordinal]

lemma exists_ordinal (hquery : query ≠ [])
    (hfirst : firstAt (lower query) (lower doc.text.body) = some place) :
    ∃ ordinal, placeIn query doc.text = .message ordinal := by
  obtain ⟨hleading, -⟩ := (firstAt_of_ne_nil (lower_ne_nil hquery)).mp hfirst
  cases hordinal : rposition (fun start => start ≤ place) doc.text.messageOffsets with
  | some ordinal => exact ⟨ordinal, by rw [placeIn_of_firstAt hfirst, hordinal]⟩
  | none =>
    rw [rposition_eq_none_iff] at hordinal
    cases hmessages : doc.messages with
    | nil =>
      have hbody : doc.text.body = [] := by simp [TextDoc.text, documentFromMessages, hmessages, joinMessages]
      rw [hbody] at hleading
      exact absurd (List.prefix_nil.mp (by simpa [lower] using hleading)) (lower_ne_nil hquery)
    | cons message messages =>
      have hzero : 0 ∈ doc.text.messageOffsets := by
        simp [TextDoc.text, documentFromMessages, hmessages, joinMessages_cons]
      simpa using hordinal 0 hzero

theorem rightMessage_placeIn_iff (hquery : query ≠ []) :
    RightMessage query doc (placeIn query doc.text) ↔ WithinOneMessage query doc := by
  constructor
  · intro hright place hfirst
    obtain ⟨ordinal, hordinal⟩ := exists_ordinal hquery hfirst
    obtain ⟨-, -, place', hfirst', hin⟩ := hright ordinal hordinal
    obtain rfl := Option.some.inj (hfirst.symm.trans hfirst')
    exact ⟨ordinal, hin⟩
  · intro hwithin ordinal hordinal
    cases hfirst : firstAt (lower query) (lower doc.text.body) with
    | none =>
      unfold placeIn instr at hordinal
      rw [hfirst] at hordinal
      dsimp only at hordinal
      rw [if_neg (lt_irrefl 0)] at hordinal
      split at hordinal <;> cases hordinal
    | some place =>
      obtain ⟨ordinal', hin⟩ := hwithin place hfirst
      obtain rfl := MatchPlace.message.inj (hordinal.symm.trans (placeIn_of_inMessage hquery hfirst hin))
      obtain ⟨hleading, hleast⟩ := (firstAt_of_ne_nil (lower_ne_nil hquery)).mp hfirst
      refine ⟨contains_of_inMessage hleading hin, fun earlier hearlier message hmessage hcontains => ?_,
        place, rfl, hin⟩
      -- an earlier message would show the query before the first place
      obtain ⟨start, -, hstart, -, hle, -⟩ := hin
      obtain ⟨start', hstart'⟩ : ∃ start', doc.text.messageOffsets[earlier]? = some start' := by
        have hlength := (List.getElem?_eq_some_iff.mp hstart).1
        exact ⟨_, List.getElem?_eq_getElem (hearlier.trans hlength)⟩
      obtain ⟨place', hleading', hend⟩ := place_of_contains hstart' hmessage hcontains
      have hapart := starts_apart hearlier hstart' hmessage hstart
      have hpos := List.length_pos_iff.mpr hquery
      exact hleast place' (by omega) hleading'

end Place

end ChatStasher.Fulltext
