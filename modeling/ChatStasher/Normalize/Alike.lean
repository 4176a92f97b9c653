import ChatStasher.Backfill.DetailTrees
import ChatStasher.Library.Unicode
import ChatStasher.Normalize.WebBodies

/-! One claude.ai body as the two languages read it: the check of a response before it is archived,
and the reader of archived bodies. -/
namespace ChatStasher.Normalize
open Inbox (Text)
open GrokBot (Value)
open JsonText (Units)
open DetailTrees (ClaudeMessage nonEmptyString? byUuid)
open Utf16 (encode encode_injective encode_eq_nil)

section Values

def lastMember (members : List (Units × JsonText.Value)) (key : Units) : Option JsonText.Value :=
  (members.reverse.find? fun m => m.1 = key).map Prod.snd

mutual

/-- The two readings of a value are one JSON value; of a repeated key the last value counts. -/
def alike : Value → JsonText.Value → Bool
  | .null, .null => true
  | .bool b, .bool b' => b = b'
  | .number digits, .number digits' => encode digits = digits'
  | .string text, .string s => encode text = s
  | .array items, .array elements => alikeItems items elements
  | .object members, .object written =>
    (written.all fun m => members.any fun member => encode member.1 = m.1) &&
      alikeMembers members written
  | _, _ => false

def alikeItems : List Value → List JsonText.Value → Bool
  | [], [] => true
  | item :: items, element :: elements => alike item element && alikeItems items elements
  | _, _ => false

def alikeMembers : List (Text × Value) → List (Units × JsonText.Value) → Bool
  | [], _ => true
  | (key, value) :: members, written =>
    (lastMember written (encode key)).any (fun v => alike value v) && alikeMembers members written

end

abbrev AlikeOptions (a : Option Value) (b : Option JsonText.Value) : Prop :=
  Option.Rel (fun w v => alike w v) a b

variable {w : Value} {v : JsonText.Value} {key : Text} {members : List (Text × Value)}
  {written : List (Units × JsonText.Value)}

lemma alikeItems_iff {items : List Value} {elements : List JsonText.Value} :
    alikeItems items elements ↔ List.Forall₂ (fun w v => alike w v) items elements := by
  induction items generalizing elements with
  | nil => cases elements <;> simp [alikeItems]
  | cons item items ih => cases elements <;> simp [alikeItems, ih]

lemma alike_of_mem (h : alikeMembers members written) (hmem : (key, w) ∈ members) :
    ∃ v, lastMember written (encode key) = some v ∧ alike w v := by
  induction members with
  | nil => exact absurd hmem List.not_mem_nil
  | cons member members ih =>
    rw [alikeMembers, Bool.and_eq_true] at h
    rcases List.mem_cons.mp hmem with rfl | hmem
    · exact (Option.any_eq_true _ _).mp h.1
    · exact ih h.2 hmem

lemma alike_get (key : String) (hkey : encode key.toList = JsonText.units key) (h : alike w v) :
    AlikeOptions (w.get key) (v.field key) := by
  unfold alike at h
  split at h
  · exact Option.Rel.none
  · exact Option.Rel.none
  · exact Option.Rel.none
  · exact Option.Rel.none
  · exact Option.Rel.none
  · next members written =>
    obtain ⟨hwritten, hmembers⟩ := (Bool.and_eq_true _ _).mp h
    have hfield : (JsonText.Value.object written).field key =
        lastMember written (encode key.toList) := by
      rw [hkey]
      rfl
    rw [hfield]
    change AlikeOptions (members.lookup key.toList) _
    cases hlookup : members.lookup key.toList with
    | some w =>
      obtain ⟨before, after, rfl, -⟩ := List.lookup_eq_some_iff.mp hlookup
      obtain ⟨v, hv, halike⟩ :=
        alike_of_mem hmembers (List.mem_append_right before List.mem_cons_self)
      rw [hv]
      exact Option.Rel.some halike
    | none =>
      -- What is written under the key stands under it in the other reading too.
      have hlast : lastMember written (encode key.toList) = none := by
        rw [lastMember, Option.map_eq_none_iff, List.find?_eq_none]
        intro m hm heq
        obtain ⟨member, hmember, hsame⟩ :=
          List.any_eq_true.mp (List.all_eq_true.mp hwritten m (List.mem_reverse.mp hm))
        have hsame' := encode_injective
          ((of_decide_eq_true hsame).trans (of_decide_eq_true heq))
        exact absurd hsame'.symm (by simpa using List.lookup_eq_none_iff.mp hlookup member hmember)
      rw [hlast]
      exact Option.Rel.none
  · exact nomatch h

lemma alike_get_array {key : String} {elements : List JsonText.Value}
    (hkey : encode key.toList = JsonText.units key) (h : alike w v)
    (hfield : v.field key = some (.array elements)) :
    ∃ items, w.get key = some (.array items) ∧
      List.Forall₂ (fun w v => alike w v) items elements := by
  have hrel := alike_get key hkey h
  rw [hfield] at hrel
  generalize w.get key = found at hrel
  cases hrel with
  | @some w _ hitems =>
    cases w with
    | array items => exact ⟨items, rfl, alikeItems_iff.mp (by simpa only [alike] using hitems)⟩
    | _ => simp [alike] at hitems

end Values

section Messages

variable {a : Option Value} {b : Option JsonText.Value}

def filled (value : Option Value) : Option Text :=
  (value.bind Value.asStr).filter fun text => !text.isEmpty

lemma nonEmptyString_of_alike (h : AlikeOptions a b) :
    nonEmptyString? b = (filled a).map encode := by
  cases h with
  | none => rfl
  | @some w v h =>
    unfold alike at h
    split at h
    · rfl
    · rfl
    · rfl
    · next text s =>
      obtain rfl := of_decide_eq_true h
      cases text with
      | nil => rfl
      | cons c text =>
        change (if encode (c :: text) = [] then none else some (encode (c :: text))) = _
        rw [if_neg (encode_eq_nil.not.mpr (List.cons_ne_nil c text))]
        rfl
    · rfl
    · rfl
    · exact nomatch h

/-- A message as the check of the response reads it. -/
structure MessageAlike {N : Type*} (message : Value) (m : ClaudeMessage N) : Prop where
  uuid : (uuidOf message).map encode = some m.uuid
  parent : (claudeParent message).map encode = m.parent

lemma findSome_of_alike {keys : List String} (h : alike w v)
    (hkeys : ∀ key ∈ keys, encode key.toList = JsonText.units key) :
    (keys.findSome? fun key => nonEmptyString? (v.field key)) =
      (keys.findSome? fun key => filled (w.get key)).map encode := by
  induction keys with
  | nil => rfl
  | cons key keys ih =>
    obtain ⟨hkey, hkeys⟩ := List.forall_mem_cons.mp hkeys
    rw [List.findSome?_cons, List.findSome?_cons, nonEmptyString_of_alike (alike_get key hkey h)]
    cases filled (w.get key) with
    | none => exact ih hkeys
    | some text => rfl

lemma claudeParent_of_alike (h : alike w v) :
    DetailTrees.claudeParentOf v = (claudeParent w).map encode :=
  findSome_of_alike h (by decide)

variable {N : Type*} {num : Units → N} {m : ClaudeMessage N} {ms : List (ClaudeMessage N)}

lemma messageAlike_of_alike (h : alike w v) (hm : DetailTrees.claudeMessage num v = .ok m) :
    MessageAlike w m := by
  have huuid := nonEmptyString_of_alike (alike_get "uuid" (by decide) h)
  unfold DetailTrees.claudeMessage at hm
  split at hm
  · split at hm
    · next uuid hfound =>
      obtain rfl := Except.ok.inj hm
      obtain ⟨text, htext, hencode⟩ := Option.map_eq_some_iff.mp (huuid.symm.trans hfound)
      refine ⟨?_, (claudeParent_of_alike h).symm⟩
      rw [uuidOf, (Option.filter_eq_some_iff.mp htext).1, ← hencode]
      rfl
    · exact nomatch hm
  · exact nomatch hm

lemma messagesAlike {messages : List Value} {values : List JsonText.Value}
    (h : List.Forall₂ (fun w v => alike w v) messages values)
    (hms : List.Forall₂ (fun v m => DetailTrees.claudeMessage num v = .ok m) values ms) :
    List.Forall₂ MessageAlike messages ms := by
  induction h generalizing ms with
  | nil =>
    cases hms
    exact List.Forall₂.nil
  | cons hone _ ih =>
    cases hms with
    | cons hm hms => exact List.Forall₂.cons (messageAlike_of_alike hone hm) (ih hms)

lemma find_rel {α β : Type*} {r : α → β → Prop} {xs : List α} {ys : List β}
    {p : α → Bool} {q : β → Bool} (h : List.Forall₂ r xs ys) (hpq : ∀ x y, r x y → p x = q y) :
    Option.Rel r (xs.find? p) (ys.find? q) := by
  induction h with
  | nil => exact Option.Rel.none
  | @cons x y xs ys hxy _ ih =>
    rw [List.find?_cons, List.find?_cons, hpq x y hxy]
    cases q y with
    | true => exact Option.Rel.some hxy
    | false => exact ih

lemma byUuid_rel {messages : List Value} (h : List.Forall₂ MessageAlike messages ms) (id : Text) :
    Option.Rel MessageAlike (claudeById messages id) (byUuid ms (encode id)) := by
  refine find_rel (List.forall₂_reverse_iff.mpr h) fun message m hmessage => ?_
  obtain ⟨text, htext, hencode⟩ := Option.map_eq_some_iff.mp hmessage.uuid
  rw [htext, ← hencode, decide_eq_decide, Option.some_inj, encode_injective.eq_iff]

end Messages

end ChatStasher.Normalize
