import ChatStasher.Fulltext.Placement

/-! Searching the indexes of several destinations as one: which index supplies a hit, which one
supplies its place, and when the two agree. -/
namespace ChatStasher.Fulltext
open Inbox (Text)
open KeyedList

def minQueryChars : ℕ := 3

def maxQueryMatches : ℕ := 10000

/-- The documents of one index, one for each id. -/
structure Documents where
  entries : List (Text × TextDoc)
  nodup : (entries.map Prod.fst).Nodup

/-- One destination's index: no database there, one that does not open, or one that answers. -/
inductive TextPart
  | absent
  | unreadable
  | ready (documents : Documents)

/-- What a full-text table answers a literal query: ids of its rows, best first. -/
structure FtsTable where
  ranked : Text → List (Text × TextDoc) → List Text
  held : ∀ query entries, ∀ id ∈ ranked query entries, id ∈ entries.map Prod.fst

inductive QueryResult
  | tooShort
  | hits (ids : List Text) (truncated : Bool)
  deriving DecidableEq

/-- A place, and the index it was computed from, counted as the destinations are listed. -/
structure Placed where
  part : ℕ
  place : MatchPlace
  deriving DecidableEq

variable (fts : FtsTable) (query : Text)

/-- The ids whose text matches, then those that carry the query themselves; none for a query that
is too short to look up. -/
def Documents.matches (documents : Documents) : Option (List Text × Bool) :=
  if query.length < minQueryChars then none
  else
    let ranked := (fts.ranked query documents.entries).take (maxQueryMatches + 1)
    let byId := (inKeyOrder (documents.entries.filter fun e =>
      0 < instr (lower e.1) (lower query))).map Prod.fst
    let all := ranked ++ byId.filter fun id => id ∉ ranked
    some (all.take maxQueryMatches, decide (maxQueryMatches < all.length))

/-- Where the query sits in each named document. -/
def Documents.placements (documents : Documents) (ids : List Text) : List MatchPlace :=
  ids.map fun id =>
    match documents.entries.lookup id with
    | none => .notRelocated
    | some doc => placeIn query doc.text

def Documents.holds (documents : Documents) (id : Text) : Bool :=
  id ∈ documents.entries.map Prod.fst

def TextPart.hits : TextPart → List Text
  | .ready documents => ((documents.matches fts query).map Prod.fst).getD []
  | _ => []

def TextPart.isTruncated : TextPart → Bool
  | .ready documents => ((documents.matches fts query).map Prod.snd).getD false
  | _ => false

def TextPart.isUnreadable : TextPart → Bool
  | .unreadable => true
  | _ => false

def TextPart.isAbsent : TextPart → Bool
  | .absent => true
  | _ => false

def TextPart.holds (id : Text) : TextPart → Bool
  | .ready documents => documents.holds id
  | _ => false

def TextPart.doc (id : Text) : TextPart → Option TextDoc
  | .ready documents => documents.entries.lookup id
  | _ => none

/-- A hit that an earlier destination answered with is not taken again. -/
def pushNew (seen : List Text) (id : Text) : List Text := if id ∈ seen then seen else seen ++ [id]

/-- `MergedTextIndex::query`; `none` is the error return. -/
def mergedQuery (parts : List TextPart) : Option QueryResult :=
  if parts.length ≤ 1 then
    match parts.head? with
    | some (.ready documents) =>
      match documents.matches fts query with
      | none => some .tooShort
      | some (ids, truncated) => some (.hits ids truncated)
    | some .unreadable => if query.length < minQueryChars then some .tooShort else none
    | _ => none
  else if query.length < minQueryChars then
    if parts.all TextPart.isAbsent then some (.hits [] false) else some .tooShort
  else if parts.any TextPart.isUnreadable then none
  else
    some (.hits (parts.foldl (fun seen part => (part.hits fts query).foldl pushNew seen) [])
      (parts.any (TextPart.isTruncated fts query)))

/-- What the indexes answer, each about the asked documents it holds; the first answer stays. -/
def answerParts (ids : List Text) : ℕ → List TextPart → List (Text × Placed) → List (Text × Placed)
  | _, [], answered => answered
  | n, .ready documents :: parts, answered =>
    let mine := ids.filter documents.holds
    let places := documents.placements query mine
    answerParts ids (n + 1) parts
      ((mine.zip places).foldl (fun answered e => orInsert answered (e.1, ⟨n, e.2⟩)) answered)
  | n, _ :: parts, answered => answerParts ids (n + 1) parts answered

/-- The answers in the order asked, each taken out as it is used. -/
def takeAnswers : List (Text × Placed) → List Text → Option (List Placed)
  | _, [] => some []
  | answered, id :: ids =>
    match answered.lookup id with
    | none => none
    | some placed =>
      (takeAnswers (answered.filter fun e => e.1 ≠ id) ids).map fun rest => placed :: rest

/-- `MergedTextIndex::placements`; `none` is the error return. -/
def mergedPlacements (parts : List TextPart) (ids : List Text) : Option (List Placed) :=
  if parts.length ≤ 1 then
    match parts.head? with
    | some (.ready documents) =>
      some ((documents.placements query ids).map fun place => ⟨0, place⟩)
    | _ => none
  else if parts.any TextPart.isUnreadable then none
  else takeAnswers (answerParts query ids 0 parts []) ids

def hitPart (parts : List TextPart) (id : Text) : Option ℕ :=
  parts.findIdx? fun part => id ∈ part.hits fts query

def firstHolder (parts : List TextPart) (id : Text) : Option ℕ := parts.findIdx? (TextPart.holds id)

def docAt (parts : List TextPart) (part : ℕ) (id : Text) : Option TextDoc :=
  parts[part]?.bind (TextPart.doc id)

/-- The answer is computed from the index the hit came from, and right of its document. -/
def AnswersHit (parts : List TextPart) (id : Text) (placed : Placed) : Prop :=
  hitPart fts query parts id = some placed.part ∧ ∃ doc, docAt parts placed.part id = some doc ∧
    placed.place = placeIn query doc.text ∧ RightMessage query doc placed.place

def PlacesHits (parts : List TextPart) (ids : List Text) : Prop :=
  ∃ answers, mergedPlacements query parts ids = some answers ∧
    List.Forall₂ (AnswersHit fts query parts) ids answers

/-- With several destinations no id is asked twice and the first index that holds a document is the
one its hit came from; and in the hit's document the first place lies within one message. -/
def PlaceableHits (parts : List TextPart) (ids : List Text) : Prop :=
  (parts.length ≤ 1 ∨ ids.Nodup ∧
    ∀ id ∈ ids, firstHolder parts id = hitPart fts query parts id) ∧
  ∀ id ∈ ids, ∀ part doc, hitPart fts query parts id = some part → docAt parts part id = some doc →
    WithinOneMessage query doc

section Answers
variable {query} {parts : List TextPart} {ids : List Text} {id : Text}

lemma takeAnswers_eq_some_iff {answered : List (Text × Placed)} {answers : List Placed} :
    takeAnswers answered ids = some answers ↔
      ids.Nodup ∧ List.Forall₂ (fun id placed => answered.lookup id = some placed) ids answers := by
  induction ids generalizing answered answers with
  | nil => simp [takeAnswers, eq_comm]
  | cons id ids ih =>
    rw [takeAnswers, List.nodup_cons]
    -- what was taken out answers none of the ids behind it
    have hlater : ∀ later placed,
        (answered.filter fun e => e.1 ≠ id).lookup later = some placed ↔
          later ≠ id ∧ answered.lookup later = some placed := by
      intro later placed
      rw [lookup_filter_ne]
      split <;> simp [*]
    have hrest : ∀ rest : List Placed,
        List.Forall₂ (fun later placed =>
            (answered.filter fun e => e.1 ≠ id).lookup later = some placed) ids rest ↔
          id ∉ ids ∧
            List.Forall₂ (fun later placed => answered.lookup later = some placed) ids rest := by
      intro rest
      simp only [hlater]
      rw [List.forall₂_and_left]
      refine and_congr_left fun _ => ⟨fun h hid => h id hid rfl, ?_⟩
      rintro hid later hmem rfl
      exact hid hmem
    cases hlookup : answered.lookup id with
    | none =>
      refine iff_of_false nofun fun h => ?_
      obtain ⟨placed, rest, hplaced, -, -⟩ := List.forall₂_cons_left_iff.mp h.2
      rw [hlookup] at hplaced
      cases hplaced
    | some placed =>
      simp only [Option.map_eq_some_iff, ih, hrest]
      constructor
      · rintro ⟨rest, ⟨hnodup, hid, hanswers⟩, rfl⟩
        exact ⟨⟨hid, hnodup⟩, List.Forall₂.cons hlookup hanswers⟩
      · rintro ⟨⟨hid, hnodup⟩, h⟩
        obtain ⟨placed', rest, hplaced, hanswers, rfl⟩ := List.forall₂_cons_left_iff.mp h
        obtain rfl := Option.some.inj (hlookup.symm.trans hplaced)
        exact ⟨rest, ⟨hnodup, hid, hanswers⟩, rfl⟩

lemma TextPart.holds_iff {part : TextPart} : part.holds id = true ↔ ∃ doc, part.doc id = some doc := by
  cases part with
  | absent => simp [holds, doc]
  | unreadable => simp [holds, doc]
  | ready documents =>
    simp only [holds, doc, Documents.holds, decide_eq_true_eq, List.mem_map,
      lookup_eq_some_iff_mem documents.nodup]
    constructor
    · rintro ⟨e, he, rfl⟩
      exact ⟨e.2, he⟩
    · rintro ⟨doc, he⟩
      exact ⟨(id, doc), he, rfl⟩

/-- What the first index that holds a document answers for it, the indexes counted from `n`. -/
def holderAnswer (query : Text) (parts : List TextPart) (n : ℕ) (id : Text) : Option Placed :=
  (firstHolder parts id).bind fun k =>
    (docAt parts k id).map fun doc => ⟨n + k, placeIn query doc.text⟩

lemma holderAnswer_cons {part : TextPart} {n : ℕ} :
    holderAnswer query (part :: parts) n id =
      ((part.doc id).map fun doc => ⟨n, placeIn query doc.text⟩).or
        (holderAnswer query parts (n + 1) id) := by
  rw [holderAnswer, firstHolder, List.findIdx?_cons]
  cases hholds : part.holds id with
  | true =>
    obtain ⟨doc, hdoc⟩ := TextPart.holds_iff.mp hholds
    simp [docAt, hdoc]
  | false =>
    have hdoc : part.doc id = none := by
      rw [Option.eq_none_iff_forall_ne_some]
      exact fun doc hdoc => absurd (TextPart.holds_iff.mpr ⟨doc, hdoc⟩) (by simp [hholds])
    rw [if_neg (by simp), hdoc, Option.map_none, Option.none_or, holderAnswer, firstHolder]
    cases parts.findIdx? (TextPart.holds id) with
    | none => rfl
    | some k =>
      simp only [Option.map_some, Option.bind_some, docAt, List.getElem?_cons_succ]
      rw [show n + (k + 1) = n + 1 + k by omega]

lemma Documents.lookup_answers (documents : Documents) (n : ℕ) (ids : List Text) (hid : id ∈ ids) :
    (((ids.filter documents.holds).zip
        (documents.placements query (ids.filter documents.holds))).map
          fun e => (e.1, (⟨n, e.2⟩ : Placed))).lookup id =
      (documents.entries.lookup id).map fun doc => ⟨n, placeIn query doc.text⟩ := by
  have hholds := @TextPart.holds_iff id (.ready documents)
  rw [Documents.placements, ← List.map_prod_left_eq_zip, List.map_map]
  cases hdoc : documents.entries.lookup id with
  | some doc =>
    have hmem : id ∈ ids.filter documents.holds :=
      List.mem_filter.mpr ⟨hid, hholds.mpr ⟨doc, hdoc⟩⟩
    refine (List.lookup_graph _ hmem).trans ?_
    simp only [hdoc, Option.map_some]
  | none =>
    rw [Option.map_none, List.lookup_eq_none_iff]
    rintro e he
    obtain ⟨id', hid', rfl⟩ := List.mem_map.mp he
    obtain ⟨doc, hdoc'⟩ := (@TextPart.holds_iff id' (.ready documents)).mp (List.mem_filter.mp hid').2
    suffices id ≠ id' by simpa using this
    rintro rfl
    cases hdoc.symm.trans hdoc'

lemma lookup_answerParts (hid : id ∈ ids) {n : ℕ} {answered : List (Text × Placed)} :
    (answerParts query ids n parts answered).lookup id =
      (answered.lookup id).or (holderAnswer query parts n id) := by
  induction parts generalizing n answered with
  | nil => simp [answerParts, holderAnswer, firstHolder]
  | cons part parts ih =>
    rw [holderAnswer_cons]
    cases part with
    | absent => exact ih
    | unreadable => exact ih
    | ready documents =>
      rw [answerParts, ih, ← List.foldl_map, lookup_foldl_orInsert, Option.or_assoc,
        documents.lookup_answers n ids hid]
      rfl

end Answers

section Hits
variable {fts query} {parts : List TextPart} {id : Text}

lemma TextPart.holds_of_hit {part : TextPart} (hhit : id ∈ part.hits fts query) :
    part.holds id = true := by
  cases part with
  | absent => cases hhit
  | unreadable => cases hhit
  | ready documents =>
    rw [hits, Documents.matches] at hhit
    split at hhit
    next => cases hhit
    next =>
      suffices id ∈ documents.entries.map Prod.fst by simpa [holds, Documents.holds] using this
      rcases List.mem_append.mp (List.mem_of_mem_take hhit) with hranked | hbyId
      · exact fts.held _ _ _ (List.mem_of_mem_take hranked)
      · obtain ⟨e, he, rfl⟩ := List.mem_map.mp (List.mem_filter.mp hbyId).1
        exact List.mem_map_of_mem (List.mem_filter.mp (mem_inKeyOrder.mp he)).1

lemma mem_foldl_pushNew {ids seen : List Text} :
    id ∈ ids.foldl pushNew seen ↔ id ∈ seen ∨ id ∈ ids := by
  induction ids generalizing seen with
  | nil => simp
  | cons id' ids ih =>
    rw [List.foldl_cons, ih, pushNew]
    split
    next hseen =>
      rw [List.mem_cons]
      refine ⟨Or.imp_right Or.inr, ?_⟩
      rintro (h | rfl | h)
      · exact Or.inl h
      · exact Or.inl hseen
      · exact Or.inr h
    next => simp [or_assoc]

lemma mem_foldl_hits {seen : List Text} :
    id ∈ parts.foldl (fun seen part => (part.hits fts query).foldl pushNew seen) seen ↔
      id ∈ seen ∨ ∃ part ∈ parts, id ∈ part.hits fts query := by
  induction parts generalizing seen with
  | nil => simp
  | cons part parts ih =>
    rw [List.foldl_cons, ih, mem_foldl_pushNew]
    simp [or_assoc]

lemma eq_singleton {part : TextPart} (hlength : parts.length ≤ 1)
    (hhead : parts.head? = some part) : parts = [part] := by
  match parts, hlength with
  | [_], _ => rw [Option.some.inj hhead]

lemma hits_of_mergedQuery {hits : List Text} {truncated : Bool}
    (hquery : minQueryChars ≤ query.length)
    (h : mergedQuery fts query parts = some (.hits hits truncated)) :
    (∀ id ∈ hits, ∃ part ∈ parts, id ∈ part.hits fts query) ∧
      (parts.length ≤ 1 → ∃ documents, parts = [.ready documents]) ∧
        (1 < parts.length → parts.any TextPart.isUnreadable = false) := by
  unfold mergedQuery at h
  split at h
  next hlength =>
    split at h
    next documents hhead =>
      obtain rfl := eq_singleton hlength hhead
      refine ⟨fun id hid => ⟨_, List.mem_singleton_self _, ?_⟩, fun _ => ⟨documents, rfl⟩,
        fun hlt => absurd hlt (by simp)⟩
      cases hmatches : documents.matches fts query with
      | none =>
        rw [hmatches] at h
        cases h
      | some found =>
        rw [hmatches] at h
        cases h
        simpa [TextPart.hits, hmatches] using hid
    next =>
      split at h <;> cases h
    next => cases h
  next hlength =>
    rw [if_neg (by omega)] at h
    split at h
    next => cases h
    next hopen =>
      cases h
      refine ⟨fun id hid => ?_, fun h => absurd h hlength, fun _ => by simpa using hopen⟩
      simpa using mem_foldl_hits.mp hid

lemma exists_hitPart (h : ∃ part ∈ parts, id ∈ part.hits fts query) :
    ∃ part doc, hitPart fts query parts id = some part ∧ docAt parts part id = some doc := by
  cases hpart : hitPart fts query parts id with
  | none =>
    obtain ⟨part, hmem, hhit⟩ := h
    rw [hitPart, List.findIdx?_eq_none_iff] at hpart
    exact absurd hhit (by simpa using hpart part hmem)
  | some k =>
    rw [hitPart, List.findIdx?_eq_some_iff_getElem] at hpart
    obtain ⟨hk, hhit, -⟩ := hpart
    obtain ⟨doc, hdoc⟩ := TextPart.holds_iff.mp (TextPart.holds_of_hit (of_decide_eq_true hhit))
    exact ⟨k, doc, rfl, by rw [docAt, List.getElem?_eq_getElem hk, Option.bind_some, hdoc]⟩

end Hits

section Place
variable {fts query} {parts : List TextPart} {ids : List Text} {id : Text}

lemma query_ne_nil (hquery : minQueryChars ≤ query.length) : query ≠ [] := by
  rintro rfl
  cases hquery

/-- An answer that is some document's is a hit's own if it is of the hit's index, and then right
exactly if the first place lies within one message. -/
lemma answersHit_iff (hquery : minQueryChars ≤ query.length) {part : ℕ} {doc : TextDoc}
    (hdoc : docAt parts part id = some doc) :
    AnswersHit fts query parts id ⟨part, placeIn query doc.text⟩ ↔
      hitPart fts query parts id = some part ∧ WithinOneMessage query doc := by
  refine and_congr_right fun _ => ?_
  constructor
  · rintro ⟨doc', hdoc', -, hright⟩
    obtain rfl := Option.some.inj (hdoc.symm.trans hdoc')
    exact (rightMessage_placeIn_iff (query_ne_nil hquery)).mp hright
  · intro hwithin
    exact ⟨doc, hdoc, rfl, (rightMessage_placeIn_iff (query_ne_nil hquery)).mpr hwithin⟩

lemma exists_forall₂ {α β : Type*} {R S : α → β → Prop} {l : List α} :
    (∃ l', List.Forall₂ R l l' ∧ List.Forall₂ S l l') ↔ ∀ a ∈ l, ∃ b, R a b ∧ S a b := by
  constructor
  · rintro ⟨l', hR, hS⟩
    induction hR with
    | nil => simp
    | cons hab _ ih =>
      obtain ⟨hS₁, hS₂⟩ := List.forall₂_cons.mp hS
      exact List.forall_mem_cons.mpr ⟨⟨_, hab, hS₁⟩, ih hS₂⟩
  · intro h
    induction l with
    | nil => exact ⟨[], .nil, .nil⟩
    | cons a l ih =>
      obtain ⟨⟨b, hR, hS⟩, hl⟩ := List.forall_mem_cons.mp h
      obtain ⟨l', hR', hS'⟩ := ih hl
      exact ⟨b :: l', .cons hR hR', .cons hS hS'⟩

lemma placesHits_several (hlength : 1 < parts.length)
    (hopen : parts.any TextPart.isUnreadable = false) :
    PlacesHits fts query parts ids ↔ ids.Nodup ∧ ∀ id ∈ ids, ∃ placed,
      holderAnswer query parts 0 id = some placed ∧ AnswersHit fts query parts id placed := by
  simp only [PlacesHits, mergedPlacements, if_neg (not_le.mpr hlength), hopen, Bool.false_eq_true,
    if_false, takeAnswers_eq_some_iff, and_assoc, exists_and_left, exists_forall₂]
  refine and_congr_right fun _ => forall₂_congr fun id hid => ?_
  rw [lookup_answerParts hid, List.lookup_nil, Option.none_or]

lemma placesHits_single {documents : Documents} :
    PlacesHits fts query [.ready documents] ids ↔ ∀ id ∈ ids,
      AnswersHit fts query [.ready documents] id ⟨0, match documents.entries.lookup id with
        | none => .notRelocated
        | some doc => placeIn query doc.text⟩ := by
  simp only [PlacesHits, mergedPlacements, List.length_singleton, le_refl, if_true,
    List.head?_cons, Option.some.injEq, exists_eq_left', Documents.placements, List.map_map,
    List.forall₂_map_right_iff, List.forall₂_same]
  rfl

/-- The answers are the hits' own and right exactly if no id is asked twice and the first holders
are the hits' indexes, among several destinations, and the first places lie within one message. -/
theorem placesHits_iff {hits : List Text} {truncated : Bool}
    (hquery : minQueryChars ≤ query.length)
    (hhits : mergedQuery fts query parts = some (.hits hits truncated))
    (hids : ∀ id ∈ ids, id ∈ hits) :
    PlacesHits fts query parts ids ↔ PlaceableHits fts query parts ids := by
  obtain ⟨hfrom, hsingle, hopen⟩ := hits_of_mergedQuery hquery hhits
  have hpart := fun id hid => exists_hitPart (hfrom id (hids id hid))
  -- what a hit's own answer has to be, once its index is known
  have hwithin : ∀ id ∈ ids, ∀ part doc, hitPart fts query parts id = some part →
      docAt parts part id = some doc →
        ((∀ part doc, hitPart fts query parts id = some part → docAt parts part id = some doc →
          WithinOneMessage query doc) ↔ WithinOneMessage query doc) := by
    intro id _ part doc hpart hdoc
    refine ⟨fun h => h part doc hpart hdoc, fun h part' doc' hpart' hdoc' => ?_⟩
    obtain rfl := Option.some.inj (hpart.symm.trans hpart')
    obtain rfl := Option.some.inj (hdoc.symm.trans hdoc')
    exact h
  rcases Nat.lt_or_ge 1 parts.length with hlength | hlength
  · rw [placesHits_several hlength (hopen hlength), PlaceableHits, or_iff_right (not_le.mpr hlength),
      and_assoc, ← forall₂_and]
    refine and_congr_right fun _ => forall₂_congr fun id hid => ?_
    obtain ⟨part, doc, hhit, hdoc⟩ := hpart id hid
    rw [hwithin id hid part doc hhit hdoc, hhit]
    constructor
    · rintro ⟨placed, hplaced, hanswers⟩
      obtain ⟨k, hholder, hplaced⟩ := Option.bind_eq_some_iff.mp hplaced
      obtain ⟨doc', hdoc', rfl⟩ := Option.map_eq_some_iff.mp hplaced
      obtain rfl : part = k := by simpa using Option.some.inj (hhit.symm.trans hanswers.1)
      obtain rfl := Option.some.inj (hdoc.symm.trans hdoc')
      rw [Nat.zero_add] at hanswers
      exact ⟨hholder, ((answersHit_iff hquery hdoc).mp hanswers).2⟩
    · rintro ⟨hholder, hone⟩
      refine ⟨⟨part, placeIn query doc.text⟩, ?_, (answersHit_iff hquery hdoc).mpr ⟨hhit, hone⟩⟩
      rw [holderAnswer, hholder, Option.bind_some, hdoc, Option.map_some, Nat.zero_add]
  · obtain ⟨documents, rfl⟩ := hsingle hlength
    rw [placesHits_single, PlaceableHits, and_iff_right (Or.inl hlength)]
    refine forall₂_congr fun id hid => ?_
    obtain ⟨part, doc, hhit, hdoc⟩ := hpart id hid
    rw [hwithin id hid part doc hhit hdoc]
    obtain rfl : part = 0 := by
      by_contra hne
      rw [docAt, List.getElem?_eq_none (by simpa using Nat.one_le_iff_ne_zero.mpr hne)] at hdoc
      cases hdoc
    have hlookup : documents.entries.lookup id = some doc := hdoc
    rw [hlookup]
    exact (answersHit_iff hquery hdoc).trans (and_iff_right hhit)

/-- A table that answers with the documents whose label or body holds the query. -/
def literalTable : FtsTable where
  ranked query entries := (entries.filter fun e =>
    0 < instr (lower e.2.text.body) (lower query) || 0 < instr (lower e.2.text.title) (lower query)).map
      Prod.fst
  held query entries id hid := by
    obtain ⟨e, he, rfl⟩ := List.mem_map.mp hid
    exact List.mem_map_of_mem (List.mem_filter.mp he).1

def oneDocument (id : Text) (messages : List Text) : TextPart :=
  .ready ⟨[(id, ⟨[], messages⟩)], List.nodup_singleton id⟩

/-- Two destinations hold a document with the query in its second message, under both the same id:
the first one's answer for the first one's hit is right. -/
theorem placesHits_of_two_holders :
    PlacesHits literalTable "bcd".toList
        [oneDocument ['d'] ["a".toList, "abcd".toList], oneDocument ['d'] ["bcd".toList]] [['d']] ↔
      PlaceableHits literalTable "bcd".toList
        [oneDocument ['d'] ["a".toList, "abcd".toList], oneDocument ['d'] ["bcd".toList]] [['d']] :=
  placesHits_iff (show 3 ≤ 3 from le_refl 3)
    (show mergedQuery literalTable "bcd".toList
      [oneDocument ['d'] ["a".toList, "abcd".toList], oneDocument ['d'] ["bcd".toList]] =
        some (.hits [['d']] false) by decide +kernel) (by simp)

/-- Three answers for hits that are not theirs: an id asked twice is not answered at all, a hit of
the second destination is placed in the first one's document, and a match of two messages is given to
the first. -/
theorem placesHits_not_always :
    (mergedQuery literalTable "bcd".toList
        [oneDocument ['d'] ["bcd".toList], oneDocument ['e'] ["bcd".toList]] =
          some (.hits [['d'], ['e']] false) ∧
      ¬ PlacesHits literalTable "bcd".toList
        [oneDocument ['d'] ["bcd".toList], oneDocument ['e'] ["bcd".toList]] [['d'], ['d']]) ∧
    (mergedQuery literalTable "bcd".toList
        [oneDocument ['d'] ["a".toList], oneDocument ['d'] ["bcd".toList]] =
          some (.hits [['d']] false) ∧
      ¬ PlacesHits literalTable "bcd".toList
        [oneDocument ['d'] ["a".toList], oneDocument ['d'] ["bcd".toList]] [['d']]) ∧
    (mergedQuery literalTable "b\nc".toList [oneDocument ['d'] ["ab".toList, "cd".toList]] =
        some (.hits [['d']] false) ∧
      ¬ PlacesHits literalTable "b\nc".toList [oneDocument ['d'] ["ab".toList, "cd".toList]]
        [['d']]) := by
  refine ⟨⟨by decide +kernel, ?_⟩, ⟨by decide +kernel, ?_⟩, by decide +kernel, ?_⟩
  · rintro ⟨answers, hanswers, -⟩
    have hnone : mergedPlacements "bcd".toList
      [oneDocument ['d'] ["bcd".toList], oneDocument ['e'] ["bcd".toList]] [['d'], ['d']] = none := by
      decide +kernel
    cases hnone.symm.trans hanswers
  · rintro ⟨answers, hanswers, hhits⟩
    have hfirst : mergedPlacements "bcd".toList
        [oneDocument ['d'] ["a".toList], oneDocument ['d'] ["bcd".toList]] [['d']] =
          some [⟨0, .notRelocated⟩] := by decide +kernel
    obtain rfl := Option.some.inj (hfirst.symm.trans hanswers)
    have hhit : hitPart literalTable "bcd".toList
        [oneDocument ['d'] ["a".toList], oneDocument ['d'] ["bcd".toList]] ['d'] = some 1 := by
      decide +kernel
    cases hhit.symm.trans (List.forall₂_cons.mp hhits).1.1
  · rintro ⟨answers, hanswers, hhits⟩
    have hfirst : mergedPlacements "b\nc".toList [oneDocument ['d'] ["ab".toList, "cd".toList]]
        [['d']] = some [⟨0, .message 0⟩] := by decide +kernel
    obtain rfl := Option.some.inj (hfirst.symm.trans hanswers)
    obtain ⟨-, doc, hdoc, -, hright⟩ := (List.forall₂_cons.mp hhits).1
    obtain rfl : ⟨[], ["ab".toList, "cd".toList]⟩ = doc := Option.some.inj hdoc
    obtain ⟨⟨message, hmessage, hcontains⟩, -⟩ := hright 0 rfl
    obtain rfl : "ab".toList = message := Option.some.inj hmessage
    exact absurd hcontains (by unfold Contains; decide +kernel)

end Place

end ChatStasher.Fulltext
