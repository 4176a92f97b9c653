import ChatStasher.GrokBot.Reader

/-! The secret rule: no string of a record that names a credential exchange reaches the rendered
conversation. -/
namespace ChatStasher.GrokBot
open Inbox (Text trim)
open Deletion (textLines)
open KeyedList

def SecretChange (value value' : Value) : Prop :=
  value.namesASecretExchange = true ∧ value.withoutStrings = value'.withoutStrings

/-- A line left as it is, or one whose record names a secret exchange and has other strings. -/
def LineChange (R : ReplicaReader) (line line' : Text) : Prop :=
  line = line' ∨ ∃ value value', trim line ≠ [] ∧ trim line' ≠ [] ∧
    R.parse line = some value ∧ R.parse line' = some value' ∧ SecretChange value value'

/-- What the reader may depend on: a record that names a secret exchange counts without its
strings. -/
def blot (value : Value) : Value :=
  if value.namesASecretExchange then value.withoutStrings else value

lemma SecretChange.blot_eq {value value' : Value} (h : SecretChange value value') :
    blot value = blot value' := by
  have hsame : value'.namesASecretExchange = true := by
    rw [← Value.namesASecretExchange_withoutStrings, ← h.2,
      Value.namesASecretExchange_withoutStrings, h.1]
  rw [blot, blot, if_pos h.1, if_pos hsame, h.2]

section Fields
variable (value : Value)

lemma namesASecretExchange_blot :
    (blot value).namesASecretExchange = value.namesASecretExchange := by
  rw [blot]
  split
  · exact Value.namesASecretExchange_withoutStrings value
  · rfl

lemma get_blot (key : String) : (blot value).get key = value.get key ∨
    (blot value).get key = (value.get key).map Value.withoutStrings := by
  rw [blot]
  split
  · exact Or.inr (Value.get_withoutStrings value key)
  · exact Or.inl rfl

lemma isSome_get_blot (key : String) : ((blot value).get key).isSome = (value.get key).isSome := by
  rcases get_blot value key with h | h
  · rw [h]
  · rw [h, Option.isSome_map]

lemma asU64_get_blot (key : String) :
    ((blot value).get key).bind Value.asU64 = (value.get key).bind Value.asU64 := by
  rcases get_blot value key with h | h
  · rw [h]
  · rw [h]
    cases value.get key with
    | none => rfl
    | some member => exact Value.asU64_withoutStrings member

lemma asBool_get_blot (key : String) :
    ((blot value).get key).bind Value.asBool = (value.get key).bind Value.asBool := by
  rcases get_blot value key with h | h
  · rw [h]
  · rw [h]
    cases value.get key with
    | none => rfl
    | some member => exact Value.asBool_withoutStrings member

lemma isNone_asStr_get_blot (key : String) :
    (((blot value).get key).bind Value.asStr).isNone =
      ((value.get key).bind Value.asStr).isNone := by
  rcases get_blot value key with h | h
  · rw [h]
  · rw [h]
    cases value.get key with
    | none => rfl
    | some member =>
      rw [Option.map_some, Option.bind_some, Option.bind_some, ← Option.not_isSome,
        ← Option.not_isSome, Value.asStr_withoutStrings]

lemma complete_blot : complete (blot value) = complete value := by
  rw [complete, complete, asBool_get_blot]

end Fields

lemma pickVariant_map_blot (variants : List Value) :
    pickVariant (variants.map blot) = (pickVariant variants).map blot := by
  have hfind : (complete ∘ blot) = complete := funext complete_blot
  rw [pickVariant, pickVariant, ← List.map_reverse, List.find?_map, hfind, List.getLast?_map,
    Option.map_or]

/-- A walk in which every record counts without its secret strings. -/
def Walk.blotted (walk : Walk) : Walk where
  records := walk.records.map fun group => (group.1, group.2.map blot)
  measurement := walk.measurement.map blot
  unrecognized := walk.unrecognized

lemma lookup_blotted (records : List (ℕ × List Value)) (sequence : ℕ) :
    (records.map fun group => (group.1, group.2.map blot)).lookup sequence =
      (records.lookup sequence).map (List.map blot) := by
  induction records with
  | nil => rfl
  | cons group records ih =>
    rw [List.map_cons, List.lookup_cons, List.lookup_cons, ih]
    split <;> rfl

lemma upsert_blotted (records : List (ℕ × List Value)) (sequence : ℕ) (record : Value) :
    (upsert records sequence fun variants => variants.getD [] ++ [record]).map
        (fun group => (group.1, group.2.map blot)) =
      upsert (records.map fun group => (group.1, group.2.map blot)) sequence
        fun variants => variants.getD [] ++ [blot record] := by
  rw [upsert, upsert, put, put, List.map_append, List.filter_map, lookup_blotted]
  congr 1
  cases records.lookup sequence with
  | none => rfl
  | some variants => simp

lemma Walk.take_blotted (walk : Walk) (record : Value) :
    walk.blotted.take (blot record) = (walk.take record).blotted := by
  rw [Walk.take, Walk.take, isSome_get_blot, asU64_get_blot, isNone_asStr_get_blot]
  split
  next => rfl
  next =>
    cases (record.get "seq").bind Value.asU64 with
    | none => rfl
    | some sequence =>
      dsimp only
      split
      next => rfl
      next =>
        rw [Walk.blotted, Walk.blotted]
        dsimp only
        rw [upsert_blotted]

section Bodies
variable (R : ReplicaReader)

lemma walkLine_blotted {walk walk' : Walk} (h : walk.blotted = walk'.blotted) {line line' : Text}
    (hline : LineChange R line line') :
    (walkLine R walk line).blotted = (walkLine R walk' line').blotted := by
  have htake : ∀ {record record' : Value}, blot record = blot record' →
      (walk.take record).blotted = (walk'.take record').blotted := by
    intro record record' hrecord
    rw [← Walk.take_blotted, ← Walk.take_blotted, h, hrecord]
  rcases hline with rfl | ⟨value, value', hblank, hblank', hparse, hparse', hchange⟩
  · rw [walkLine, walkLine]
    split
    · exact h
    · cases R.parse line with
      | none =>
        have hrecords := congrArg Walk.records h
        have hmeasurement := congrArg Walk.measurement h
        have hcount := congrArg Walk.unrecognized h
        simp only [Walk.blotted] at hrecords hmeasurement hcount ⊢
        rw [hrecords, hmeasurement, hcount]
      | some record => exact htake rfl
  · rw [walkLine, walkLine, if_neg (by simpa using hblank), if_neg (by simpa using hblank'),
      hparse, hparse']
    exact htake hchange.blot_eq

lemma walkBody_blotted {body body' : Text}
    (h : List.Forall₂ (LineChange R) (textLines body) (textLines body')) :
    (walkBody R body).blotted = (walkBody R body').blotted := by
  rw [walkBody, walkBody]
  suffices hfold : ∀ {walk walk' : Walk}, walk.blotted = walk'.blotted →
      ((textLines body).foldl (walkLine R) walk).blotted =
        ((textLines body').foldl (walkLine R) walk').blotted from hfold rfl
  generalize textLines body = lines, textLines body' = lines' at h ⊢
  induction h with
  | nil => exact fun hwalk => hwalk
  | cons hline _ ih => exact fun hwalk => ih (walkLine_blotted R hwalk hline)

lemma shownRecords_blotted (walk : Walk) :
    shownRecords walk.blotted = (shownRecords walk).map blot := by
  have hgroups := map_inKeyOrder (f := fun group : ℕ × List Value => (group.1, group.2.map blot))
    (fun _ => rfl) walk.records
  rw [shownRecords, shownRecords, Walk.blotted, ← hgroups, List.filterMap_map, List.map_filterMap]
  exact List.filterMap_congr fun group _ => pickVariant_map_blot group.2

lemma renderRecord_blot (conversation : Conversation) (record : Value) :
    renderRecord R conversation (blot record) = renderRecord R conversation record := by
  by_cases hsecret : record.namesASecretExchange = true
  · have hkind := isNone_asStr_get_blot record "kind"
    rw [renderRecord, renderRecord, namesASecretExchange_blot]
    cases hold : (record.get "kind").bind Value.asStr with
    | none =>
      rw [hold, Option.isNone_none, Option.isNone_iff_eq_none] at hkind
      rw [hkind]
    | some kind =>
      rw [hold, Option.isNone_some, Option.isNone_eq_false_iff, Option.isSome_iff_exists] at hkind
      obtain ⟨kind', hkind'⟩ := hkind
      rw [hkind']
      simp only [if_pos hsecret]
  · rw [blot, if_neg hsecret]

lemma asU64_entries_withoutStrings (value : Value) :
    (entries (some value.withoutStrings)).filterMap Value.asU64 =
      (entries (some value)).filterMap Value.asU64 := by
  rw [entries, entries, Option.bind_some, Option.bind_some, Value.asArray_withoutStrings]
  cases value.asArray with
  | none => rfl
  | some items =>
    rw [Option.map_some, Option.getD_some, Option.getD_some, List.filterMap_map]
    exact List.filterMap_congr fun item _ => Value.asU64_withoutStrings item

lemma gapRuns_get_withoutStrings (value : Value) (key : String) :
    gapRuns (value.withoutStrings.get key) = gapRuns (value.get key) := by
  rw [Value.get_withoutStrings]
  cases value.get key with
  | none => rfl
  | some member => rw [gapRuns, gapRuns, Option.map_some, asU64_entries_withoutStrings]

lemma measured_withoutStrings (value : Value) :
    gapRuns (value.withoutStrings.get "sequence_gaps") = gapRuns (value.get "sequence_gaps") ∧
      (value.withoutStrings.get "partial_replica").bind Value.asBool =
        (value.get "partial_replica").bind Value.asBool := by
  refine ⟨gapRuns_get_withoutStrings value _, ?_⟩
  rw [Value.get_withoutStrings]
  cases value.get "partial_replica" with
  | none => rfl
  | some member => exact Value.asBool_withoutStrings member

lemma conversationOf_blotted (walk : Walk) :
    conversationOf R walk.blotted = conversationOf R walk := by
  have hrendered : ∀ conversation : Conversation,
      (shownRecords walk.blotted).foldl (renderRecord R) conversation =
        (shownRecords walk).foldl (renderRecord R) conversation := by
    intro conversation
    rw [shownRecords_blotted, List.foldl_map]
    exact congrFun (congrFun (congrArg List.foldl (funext fun conversation => funext fun record =>
      renderRecord_blot R conversation record)) conversation) _
  rw [conversationOf, conversationOf, hrendered]
  cases hmeasurement : walk.measurement with
  | none => simp only [Walk.blotted, hmeasurement, Option.map_none, Option.bind_none]
  | some record =>
    simp only [Walk.blotted, hmeasurement, Option.map_some, Option.bind_some]
    rcases get_blot record "_chat_stasher" with hget | hget
    · rw [hget]
    · rw [hget]
      cases record.get "_chat_stasher" with
      | none => rfl
      | some measurement =>
        obtain ⟨hgaps, hpartial⟩ := measured_withoutStrings measurement
        simp only [Option.map_some, hgaps, hpartial]

theorem secrets_withheld {body body' : Text}
    (h : List.Forall₂ (LineChange R) (textLines body) (textLines body')) :
    normalizeBody R body = normalizeBody R body' := by
  rw [normalizeBody, normalizeBody, ← conversationOf_blotted, walkBody_blotted R h,
    conversationOf_blotted]

end Bodies

end ChatStasher.GrokBot
