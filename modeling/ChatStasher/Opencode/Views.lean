import ChatStasher.Opencode.Assembly

/-! The two views of a session: what the one with the deleted records adds to the other. -/
namespace ChatStasher.Opencode
open GrokBot (Value)
open Inbox (Text)
open SortByKey

section Select
variable {kind : RecordKind} {view : BodyView} {es : List (RecordKey × FoldedRecord)}

def selected (kind : RecordKind) (view : BodyView) (e : RecordKey × FoldedRecord) : Bool :=
  (ofLex e.1).1 = kind && (view = .includeDeleted || !e.2.deleted)

def rowOf (e : RecordKey × FoldedRecord) : Option SelectedRow :=
  e.2.payload.map fun payload => ⟨(ofLex e.1).2, e.2.deleted, payload⟩

lemma selectFrom_eq_ok_iff {rows : List SelectedRow} : selectFrom kind view es = .ok rows ↔
    (∀ e ∈ es, selected kind view e = true → e.2.payload.isSome = true) ∧
      rows = (es.filter (selected kind view)).filterMap rowOf := by
  induction es generalizing rows with
  | nil =>
    refine ⟨fun h => ⟨nofun, (Except.ok.inj h).symm⟩, fun h => ?_⟩
    rw [h.2]
    rfl
  | cons e es ih =>
    obtain ⟨key, record⟩ := e
    rw [selectFrom, List.forall_mem_cons]
    by_cases hkind : (ofLex key).1 = kind
    · rw [if_neg (not_not.mpr hkind)]
      by_cases hhidden : view ≠ .includeDeleted ∧ record.deleted = true
      · have hsel : selected kind view (key, record) = false := by
          simp [selected, hkind, hhidden.1, hhidden.2]
        rw [if_pos hhidden, ih, hsel, List.filter_cons_of_neg (by simp [hsel])]
        simp
      · have hsel : selected kind view (key, record) = true := by
          have hview : view = .includeDeleted ∨ record.deleted = false := by
            by_contra hnot
            push Not at hnot
            exact hhidden ⟨hnot.1, by simpa using hnot.2⟩
          simpa [selected, hkind] using hview
        rw [if_neg hhidden, List.filter_cons_of_pos hsel]
        cases hpayload : record.payload with
        | none => simp [hsel]
        | some payload =>
          have hrow : rowOf (key, record) = some ⟨(ofLex key).2, record.deleted, payload⟩ := by
            simp [rowOf, hpayload]
          rw [List.filterMap_cons_some hrow]
          dsimp only
          cases hrest : selectFrom kind view es with
          | error why =>
            refine ⟨nofun, ?_⟩
            rintro ⟨⟨-, hall⟩, -⟩
            have hok := ih.mpr ⟨hall, rfl⟩
            rw [hrest] at hok
            cases hok
          | ok rest =>
            obtain ⟨hall, hrows⟩ := ih.mp hrest
            subst hrows
            refine ⟨fun h => ⟨⟨fun _ => rfl, hall⟩, (Except.ok.inj h).symm⟩, fun h => ?_⟩
            rw [h.2]
    · have hsel : selected kind view (key, record) = false := by simp [selected, hkind]
      rw [if_pos hkind, ih, hsel, List.filter_cons_of_neg (by simp [hsel])]
      simp

lemma not_payloads_of_error {why : AssemblyError} (h : selectFrom kind view es = .error why) :
    ¬ ∀ e ∈ es, selected kind view e = true → e.2.payload.isSome = true := by
  intro hall
  rw [selectFrom_eq_ok_iff.mpr ⟨hall, rfl⟩] at h
  cases h

end Select

section Attach
variable {ids : List Text} {parts orphans : List SelectedRow}
  {attachments : SortedMap Text (List SelectedRow)}

lemma attach_eq_ok_iff {acc out : SortedMap Text (List SelectedRow) × List SelectedRow}
    (h : attach ids acc parts = .ok out) :
    (∀ row ∈ parts, row.messageId.isSome = true) ∧
      (∀ id ∈ ids, (out.1.get id).getD [] =
        (acc.1.get id).getD [] ++ parts.filter fun row => row.messageId = some id) ∧
      out.2 = acc.2 ++ parts.filter fun row => !row.messageId.any (· ∈ ids) := by
  induction parts generalizing acc with
  | nil =>
    obtain rfl := Except.ok.inj h
    simp
  | cons row parts ih =>
    obtain ⟨attachments, orphans⟩ := acc
    rw [attach] at h
    cases hid : row.messageId with
    | none => simp [hid] at h
    | some messageId =>
      simp only [hid] at h
      split at h
      next hmem =>
        obtain ⟨hsome, hattached, horphans⟩ := ih h
        refine ⟨by simpa [hid] using hsome, fun id hidmem => ?_, ?_⟩
        · rw [hattached id hidmem, SortedMap.get_insert]
          by_cases heq : id = messageId
          · subst heq
            simp [hid]
          · simp [hid, heq, Ne.symm heq]
        · rw [horphans, List.filter_cons_of_neg (by simp [hid, hmem])]
      next hmem =>
        obtain ⟨hsome, hattached, horphans⟩ := ih h
        refine ⟨by simpa [hid] using hsome, fun id hidmem => ?_, ?_⟩
        · have hne : messageId ≠ id := fun heq => hmem (heq ▸ hidmem)
          rw [hattached id hidmem, List.filter_cons_of_neg (by simp [hid, hne])]
        · rw [horphans, List.filter_cons_of_pos (by simp [hid, hmem])]
          simp

lemma attach_isOk_iff {acc : SortedMap Text (List SelectedRow) × List SelectedRow} :
    (∃ out, attach ids acc parts = .ok out) ↔ ∀ row ∈ parts, row.messageId.isSome = true := by
  refine ⟨fun ⟨out, h⟩ => (attach_eq_ok_iff h).1, fun h => ?_⟩
  induction parts generalizing acc with
  | nil => exact ⟨acc, by rw [attach]⟩
  | cons row parts ih =>
    obtain ⟨attachments, orphans⟩ := acc
    obtain ⟨messageId, hid⟩ := Option.isSome_iff_exists.mp (h row List.mem_cons_self)
    have hrest := fun acc => @ih acc fun r hr => h r (List.mem_cons_of_mem _ hr)
    rw [attach, hid]
    dsimp only
    split
    · exact hrest _
    · exact hrest _

end Attach

section Compose
variable {a : Assembly} {view : BodyView} {c full current : Composed}

def recordsOf (kind : RecordKind) (view : BodyView) (a : Assembly) : List SelectedRow :=
  (a.records.entries.filter (selected kind view)).filterMap rowOf

def viewMessages (a : Assembly) (view : BodyView) : List SelectedRow :=
  sortByKey SelectedRow.messageKey (recordsOf .message view a)

def viewParts (a : Assembly) (view : BodyView) : List SelectedRow :=
  sortByKey SelectedRow.partKey (recordsOf .part view a)

def composedOf (a : Assembly) (session : Value) (view : BodyView) : Composed where
  session := session
  messages := (viewMessages a view).map fun row =>
    (row, (viewParts a view).filter fun part => part.messageId = some row.id)
  orphanParts := (viewParts a view).filter fun part =>
    !part.messageId.any (· ∈ (viewMessages a view).map SelectedRow.id)

/-- A view is composed exactly when there is a session row, every record it selects has a payload,
and every part it selects names a message. -/
theorem compose_eq_ok_iff : compose a view = .ok c ↔
    ∃ session, sessionPayload a = some session ∧
      (∀ e ∈ a.records.entries, selected .message view e = true → e.2.payload.isSome = true) ∧
      (∀ e ∈ a.records.entries, selected .part view e = true → e.2.payload.isSome = true) ∧
      (∀ row ∈ viewParts a view, row.messageId.isSome = true) ∧
      c = composedOf a session view := by
  rw [compose]
  cases hsession : sessionPayload a with
  | none => simp
  | some session =>
    dsimp only
    cases hmessages : selectFrom .message view a.records.entries with
    | error e =>
      refine ⟨nofun, ?_⟩
      rintro ⟨_, _, hall, -⟩
      exact absurd hall (not_payloads_of_error hmessages)
    | ok messageRows =>
      obtain ⟨hall, rfl⟩ := selectFrom_eq_ok_iff.mp hmessages
      dsimp only
      cases hparts : selectFrom .part view a.records.entries with
      | error e =>
        refine ⟨nofun, ?_⟩
        rintro ⟨_, _, -, hall, -⟩
        exact absurd hall (not_payloads_of_error hparts)
      | ok partRows =>
        obtain ⟨hall', rfl⟩ := selectFrom_eq_ok_iff.mp hparts
        dsimp only
        cases hattach : attach ((viewMessages a view).map SelectedRow.id) (.empty, [])
            (viewParts a view) with
        | error e =>
          have hnot : ¬ ∀ row ∈ viewParts a view, row.messageId.isSome = true := fun hsome => by
            obtain ⟨out, hout⟩ := attach_isOk_iff.mpr hsome
            rw [hattach] at hout
            cases hout
          rw [← recordsOf, ← recordsOf, ← viewMessages, ← viewParts, hattach]
          refine ⟨nofun, ?_⟩
          rintro ⟨_, _, -, -, hsome, -⟩
          exact absurd hsome hnot
        | ok out =>
          obtain ⟨hsome, hattached, horphans⟩ := attach_eq_ok_iff hattach
          have hcomposed : (⟨session, (viewMessages a view).map fun row =>
              (row, (out.1.get row.id).getD []), out.2⟩ : Composed) =
                composedOf a session view := by
            have hmap : (viewMessages a view).map (fun row => (row, (out.1.get row.id).getD [])) =
                (viewMessages a view).map fun row =>
                  (row, (viewParts a view).filter fun part => part.messageId = some row.id) := by
              refine List.map_congr_left fun row hrow => ?_
              rw [hattached row.id (List.mem_map_of_mem hrow)]
              simp
            rw [composedOf, hmap, horphans, List.nil_append]
          rw [← recordsOf, ← recordsOf, ← viewMessages, ← viewParts, hattach]
          dsimp only
          rw [hcomposed]
          refine ⟨fun h => ⟨session, rfl, hall, hall', hsome, (Except.ok.inj h).symm⟩, ?_⟩
          rintro ⟨session', hsession', -, -, -, rfl⟩
          rw [Option.some.inj hsession']

end Compose

section Views
variable {a : Assembly} {view : BodyView} {session : Value}

lemma recordsOf_ids_nodup (kind : RecordKind) (view : BodyView) (a : Assembly) :
    ((recordsOf kind view a).map SelectedRow.id).Nodup := by
  have hkeys : a.records.entries.Pairwise fun e e' => e.1 ≠ e'.1 :=
    a.records.sorted.imp ne_of_lt
  rw [recordsOf, List.Nodup, List.pairwise_map, List.pairwise_filterMap]
  refine (hkeys.filter _).imp_of_mem fun {e e'} he he' hne row hrow row' hrow' heq => ?_
  obtain ⟨_, _, rfl⟩ := Option.map_eq_some_iff.mp hrow
  obtain ⟨_, _, rfl⟩ := Option.map_eq_some_iff.mp hrow'
  have hkind : (ofLex e.1).1 = kind ∧ (ofLex e'.1).1 = kind := by
    have h := (List.mem_filter.mp he).2
    have h' := (List.mem_filter.mp he').2
    rw [selected, Bool.and_eq_true] at h h'
    exact ⟨of_decide_eq_true h.1, of_decide_eq_true h'.1⟩
  exact hne (ofLex.injective (Prod.ext (hkind.1.trans hkind.2.symm) heq))

lemma messageKeys_nodup (view : BodyView) (a : Assembly) :
    ((recordsOf .message view a).map SelectedRow.messageKey).Nodup := by
  refine List.Nodup.of_map (fun key : ℤ ×ₗ Text => (ofLex key).2) ?_
  rw [List.map_map]
  exact recordsOf_ids_nodup .message view a

lemma partKeys_nodup (view : BodyView) (a : Assembly) :
    ((recordsOf .part view a).map SelectedRow.partKey).Nodup := by
  refine List.Nodup.of_map (fun key : Text ×ₗ ℤ ×ₗ Text => (ofLex (ofLex key).2).2) ?_
  rw [List.map_map]
  exact recordsOf_ids_nodup .part view a

lemma recordsOf_current (kind : RecordKind) (a : Assembly) : recordsOf kind .current a =
    (recordsOf kind .includeDeleted a).filter fun row => !row.deleted := by
  rw [recordsOf, recordsOf, List.filter_filterMap]
  have hsel : a.records.entries.filter (selected kind .current) =
      (a.records.entries.filter (selected kind .includeDeleted)).filter fun e => !e.2.deleted := by
    rw [List.filter_filter]
    refine List.filter_congr fun e _ => ?_
    simp [selected, Bool.and_comm]
  rw [hsel, List.filterMap_filter]
  refine List.filterMap_congr fun e _ => ?_
  cases hpayload : e.2.payload with
  | none => simp [rowOf, hpayload]
  | some payload =>
    cases hdeleted : e.2.deleted <;> simp only [rowOf, hpayload, hdeleted, Option.map_some] <;> rfl

lemma viewMessages_current (a : Assembly) : viewMessages a .current =
    (viewMessages a .includeDeleted).filter fun row => !row.deleted := by
  rw [viewMessages, recordsOf_current, sortByKey_filter (messageKeys_nodup _ a), viewMessages]

lemma viewParts_current (a : Assembly) : viewParts a .current =
    (viewParts a .includeDeleted).filter fun row => !row.deleted := by
  rw [viewParts, recordsOf_current, sortByKey_filter (partKeys_nodup _ a), viewParts]

lemma viewIds_nodup (view : BodyView) (a : Assembly) :
    ((viewMessages a view).map SelectedRow.id).Nodup :=
  ((sortByKey_perm _ _).map _).nodup_iff.mpr (recordsOf_ids_nodup .message view a)

lemma mem_currentIds (a : Assembly) (id : Text) :
    id ∈ (viewMessages a .current).map SelectedRow.id ↔
      id ∈ (viewMessages a .includeDeleted).map SelectedRow.id ∧
        id ∉ ((viewMessages a .includeDeleted).filter fun row => row.deleted).map
          SelectedRow.id := by
  rw [viewMessages_current]
  constructor
  · intro hmem
    obtain ⟨row, hrow, rfl⟩ := List.mem_map.mp hmem
    obtain ⟨hrow, hlive⟩ := List.mem_filter.mp hrow
    refine ⟨List.mem_map_of_mem hrow, fun hmem' => ?_⟩
    obtain ⟨row', hrow', heq⟩ := List.mem_map.mp hmem'
    obtain ⟨hrow', hdeleted⟩ := List.mem_filter.mp hrow'
    obtain rfl := List.inj_on_of_nodup_map (viewIds_nodup .includeDeleted a) hrow' hrow heq
    simp [hdeleted] at hlive
  · rintro ⟨hmem, hnot⟩
    obtain ⟨row, hrow, rfl⟩ := List.mem_map.mp hmem
    refine List.mem_map_of_mem (List.mem_filter.mpr ⟨hrow, ?_⟩)
    by_contra hdeleted
    refine hnot (List.mem_map_of_mem (List.mem_filter.mpr ⟨hrow, ?_⟩))
    simpa using hdeleted

/-- What is deleted still has a payload, and a deleted part names its message. -/
def DeletedShown (a : Assembly) : Prop :=
  ∀ e ∈ a.records.entries, e.2.deleted = true →
    ((ofLex e.1).1 = .message → e.2.payload.isSome = true) ∧
    ((ofLex e.1).1 = .part → ∃ payload, e.2.payload = some payload ∧
      (strField payload "message_id").isSome = true)

/-- How the view with the deleted records goes with the current one. -/
structure ShowsDeleted (full current : Composed) : Prop where
  session : full.session = current.session
  messages : ((full.messages.filter fun m => !m.1.deleted).map fun m =>
    (m.1, m.2.filter fun part => !part.deleted)) = current.messages
  orphans : current.orphanParts.Perm
    (((full.messages.filter fun m => m.1.deleted).flatMap Prod.snd ++ full.orphanParts).filter
      fun part => !part.deleted)
  messagesSorted : (full.messages.map Prod.fst).Pairwise fun m m' => m.messageKey < m'.messageKey
  partsSorted : ∀ m ∈ full.messages, m.2.Pairwise fun part part' =>
    part.messageId = some m.1.id ∧ part'.messageId = some m.1.id ∧
      part.messageKey < part'.messageKey
  orphansSorted : full.orphanParts.Pairwise fun part part' => part.partKey < part'.partKey
  currentSorted : current.orphanParts.Pairwise fun part part' => part.partKey < part'.partKey

lemma viewParts_sorted (view : BodyView) (a : Assembly) :
    (viewParts a view).Pairwise fun part part' => part.partKey < part'.partKey :=
  sortByKey_lt (partKeys_nodup view a)

lemma messageKey_lt_of_partKey {part part' : SelectedRow} (h : part.partKey < part'.partKey)
    (hid : part.messageId = part'.messageId) : part.messageKey < part'.messageKey := by
  rw [SelectedRow.partKey, SelectedRow.partKey, hid, Prod.Lex.toLex_lt_toLex] at h
  exact (h.resolve_left (lt_irrefl _)).2

/-- Removing what the view marks leaves the current view, but for the live parts of marked messages:
these are orphans there. -/
theorem showsDeleted (a : Assembly) (session : Value) :
    ShowsDeleted (composedOf a session .includeDeleted) (composedOf a session .current) where
  session := rfl
  messages := by
    rw [composedOf, composedOf, viewMessages_current, viewParts_current]
    dsimp only
    rw [List.filter_map, List.map_map]
    refine List.map_congr_left fun row _ => ?_
    simp only [Function.comp_apply, List.filter_filter, Bool.and_comm]
  orphans := by
    have hdeletedIds : (((viewMessages a .includeDeleted).filter fun row => row.deleted).map
        SelectedRow.id).Nodup := (viewIds_nodup _ a).sublist (List.filter_sublist.map _)
    have hmarked : (((composedOf a session .includeDeleted).messages.filter fun m =>
        m.1.deleted).flatMap Prod.snd).Perm ((viewParts a .includeDeleted).filter fun part =>
          part.messageId.any (· ∈ ((viewMessages a .includeDeleted).filter
            fun row => row.deleted).map SelectedRow.id)) := by
      refine List.Perm.trans (List.Perm.of_eq ?_)
        (flatMap_filter_perm SelectedRow.messageId hdeletedIds _)
      rw [composedOf]
      dsimp only
      rw [List.filter_map, List.flatMap_map, List.flatMap_map]
      rfl
    have hapart : ∀ part : SelectedRow, part.messageId.any (· ∈ ((viewMessages a
        .includeDeleted).filter fun row => row.deleted).map SelectedRow.id) = true →
          (!part.messageId.any (· ∈ (viewMessages a .includeDeleted).map SelectedRow.id)) =
            false := by
      intro part hpart
      obtain ⟨id, hid, hmem⟩ := (Option.any_eq_true _ _).mp hpart
      have hmem' : id ∈ (viewMessages a .includeDeleted).map SelectedRow.id :=
        (List.filter_sublist.map SelectedRow.id).mem (of_decide_eq_true hmem)
      simp only [hid, Option.any_some, hmem', decide_true, Bool.not_true]
    refine List.Perm.symm (((hmarked.append_right _).trans
      (filter_append_filter_perm hapart _)).filter _ |>.trans (List.Perm.of_eq ?_))
    rw [composedOf]
    dsimp only
    rw [viewParts_current, List.filter_filter, List.filter_filter]
    refine List.filter_congr fun part _ => ?_
    cases hid : part.messageId with
    | none => simp
    | some id =>
      have hid' := mem_currentIds a id
      by_cases hall : id ∈ (viewMessages a .includeDeleted).map SelectedRow.id
      · by_cases hdel : id ∈ ((viewMessages a .includeDeleted).filter fun row => row.deleted).map
          SelectedRow.id
        · simp only [Option.any_some, hall, hdel, hid']
          simp [Bool.and_comm]
        · simp only [Option.any_some, hall, hdel, hid']
          simp
      · have hdel : id ∉ ((viewMessages a .includeDeleted).filter fun row => row.deleted).map
            SelectedRow.id := fun hmem => hall ((List.filter_sublist.map SelectedRow.id).mem hmem)
        simp only [Option.any_some, hall, hdel, hid']
        simp [Bool.and_comm]
  messagesSorted := by
    rw [composedOf]
    dsimp only
    rw [List.map_map]
    have hid : (viewMessages a .includeDeleted).map (Prod.fst ∘ fun row => (row,
        (viewParts a .includeDeleted).filter fun part => part.messageId = some row.id)) =
          viewMessages a .includeDeleted := List.map_id _
    rw [hid]
    exact sortByKey_lt (messageKeys_nodup _ a)
  partsSorted := by
    intro m hm
    obtain ⟨row, -, rfl⟩ := List.mem_map.mp hm
    refine ((viewParts_sorted _ a).filter _).imp_of_mem fun {part part'} hpart hpart' hlt => ?_
    have hid := of_decide_eq_true (List.mem_filter.mp hpart).2
    have hid' := of_decide_eq_true (List.mem_filter.mp hpart').2
    exact ⟨hid, hid', messageKey_lt_of_partKey hlt (hid.trans hid'.symm)⟩
  orphansSorted := (viewParts_sorted _ a).filter _
  currentSorted := (viewParts_sorted _ a).filter _

/-- Where the current view can be composed, the other one can exactly when every deleted record is
shown. -/
lemma includeDeleted_iff {current : Composed} (h : compose a .current = .ok current) :
    (∃ full, compose a .includeDeleted = .ok full) ↔ DeletedShown a := by
  obtain ⟨session, hsession, hmessages, hparts, hnamed, -⟩ := compose_eq_ok_iff.mp h
  have hlive : ∀ {kind : RecordKind} {e : RecordKey × FoldedRecord}, (ofLex e.1).1 = kind →
      e.2.deleted = false → selected kind .current e = true := by
    intro kind e hkind hdeleted
    simp [selected, hkind, hdeleted]
  have hshown : ∀ {kind : RecordKind} {e : RecordKey × FoldedRecord}, (ofLex e.1).1 = kind →
      selected kind .includeDeleted e = true := by
    intro kind e hkind
    simp [selected, hkind]
  have hkind : ∀ {kind : RecordKind} {e : RecordKey × FoldedRecord},
      selected kind .includeDeleted e = true → (ofLex e.1).1 = kind := by
    intro kind e hsel
    rw [selected, Bool.and_eq_true] at hsel
    exact of_decide_eq_true hsel.1
  constructor
  · rintro ⟨full, hfull⟩ e he hdeleted
    obtain ⟨_, -, hmessages', hparts', hnamed', -⟩ := compose_eq_ok_iff.mp hfull
    refine ⟨fun hmessage => hmessages' e he (hshown hmessage), fun hpart => ?_⟩
    obtain ⟨payload, hpayload⟩ := Option.isSome_iff_exists.mp (hparts' e he (hshown hpart))
    refine ⟨payload, hpayload, ?_⟩
    have hrow : (⟨(ofLex e.1).2, e.2.deleted, payload⟩ : SelectedRow) ∈
        viewParts a .includeDeleted := by
      rw [viewParts, mem_sortByKey, recordsOf, List.mem_filterMap]
      exact ⟨e, List.mem_filter.mpr ⟨he, hshown hpart⟩, by simp [rowOf, hpayload]⟩
    exact hnamed' _ hrow
  · intro hdel
    refine ⟨_, compose_eq_ok_iff.mpr ⟨session, hsession, fun e he hsel => ?_, fun e he hsel => ?_,
      fun row hrow => ?_, rfl⟩⟩
    · cases hdeleted : e.2.deleted with
      | true => exact (hdel e he hdeleted).1 (hkind hsel)
      | false => exact hmessages e he (hlive (hkind hsel) hdeleted)
    · cases hdeleted : e.2.deleted with
      | true =>
        obtain ⟨payload, hpayload, -⟩ := (hdel e he hdeleted).2 (hkind hsel)
        rw [hpayload, Option.isSome_some]
      | false => exact hparts e he (hlive (hkind hsel) hdeleted)
    · have hrow' := hrow
      rw [viewParts, mem_sortByKey, recordsOf, List.mem_filterMap] at hrow'
      obtain ⟨e, he, hrowOf⟩ := hrow'
      obtain ⟨payload, hpayload, rfl⟩ := Option.map_eq_some_iff.mp hrowOf
      obtain ⟨he, hsel⟩ := List.mem_filter.mp he
      cases hdeleted : e.2.deleted with
      | true =>
        obtain ⟨payload', hpayload', hid⟩ := (hdel e he hdeleted).2 (hkind hsel)
        obtain rfl := Option.some.inj (hpayload.symm.trans hpayload')
        exact hid
      | false =>
        refine hnamed _ ?_
        rw [viewParts_current]
        exact List.mem_filter.mpr ⟨hdeleted ▸ hrow, by simp⟩

end Views

section Touched
variable {R : RecordReader} {a a' : Assembly} {value : Value} {key : RecordKey}

/-- What a line says of a record: its payload, or that it is deleted. -/
inductive Touch
  | delivers (payload : Value)
  | deletes

def observed (value : Value) : Option ObservedRows :=
  match observedSession value with
  | .error _ => none
  | .ok session => (observedRows value session).toOption

/-- A complete observation speaks of every record, an increment line of its own. -/
def touch (value : Value) (key : RecordKey) : Option Touch :=
  if strField value "schema" = some sessionV1Schema then
    (observed value).map fun observation =>
      match observation.get key with
      | some payload => .delivers payload
      | none => .deletes
  else
    ((strField value "kind").bind RecordKind.fromStr).bind fun kind =>
      (strField value "record_id").bind fun recordId =>
        if key = toLex (kind, recordId) then
          if ((value.get "deleted").bind Value.asBool).getD false then some .deletes
          else (value.get "payload").map .delivers
        else none

lemma get_overwrite (records : SortedMap RecordKey FoldedRecord) (observation : ObservedRows)
    (key : RecordKey) : (overwrite records observation).get key =
      match observation.get key with
      | some payload => some ⟨some payload, false⟩
      | none => (records.get key).map fun record => { record with deleted := true } := by
  have hentries : (observation.entries.map fun e => (e.1, (⟨some e.2, false⟩ : FoldedRecord))) =
      (observation.mapValues fun _ payload => (⟨some payload, false⟩ : FoldedRecord)).entries := rfl
  rw [overwrite, hentries, SortedMap.get_foldl_insert, ← SortedMap.get_ofList,
    SortedMap.ofList_entries, SortedMap.get_mapValues, SortedMap.get_mapValues]
  cases hget : observation.get key with
  | some payload => rfl
  | none => cases records.get key <;> simp

lemma feedV1Observation_ok (h : feedV1Observation a value = .ok a') : ∃ observation,
    observed value = some observation ∧
      a' = { a with records := overwrite a.records observation } := by
  unfold feedV1Observation at h
  cases hsession : observedSession value with
  | error e => simp [hsession] at h
  | ok session =>
    simp only [hsession] at h
    cases hcheck : a.checkSession session.1 with
    | error e => simp [hcheck] at h
    | ok _ =>
      simp only [hcheck] at h
      cases hrows : observedRows value session with
      | error e => simp [hrows] at h
      | ok observation =>
        simp only [hrows] at h
        exact ⟨observation, by simp [observed, hsession, hrows, Except.toOption],
          (Except.ok.inj h).symm⟩

lemma feedV2Record_ok (h : feedV2Record R a value = .ok a') : ∃ kind recordId,
    (strField value "kind").bind RecordKind.fromStr = some kind ∧
    strField value "record_id" = some recordId ∧
    ((((value.get "deleted").bind Value.asBool).getD false = true ∧
        a' = { a with records := (a.records.insert (toLex (kind, recordId))
          ⟨(a.records.get (toLex (kind, recordId))).bind FoldedRecord.payload, true⟩) }) ∨
      (((value.get "deleted").bind Value.asBool).getD false = false ∧
        ∃ payload, value.get "payload" = some payload ∧
          a' = { a with records :=
            (a.records.insert (toLex (kind, recordId)) ⟨some payload, false⟩) })) := by
  unfold feedV2Record at h
  cases hnative : strField value "session" with
  | none => simp [hnative] at h
  | some native =>
    simp only [hnative] at h
    cases hcheck : a.checkSession native with
    | error e => simp [hcheck] at h
    | ok _ =>
      simp only [hcheck] at h
      cases hkind : (strField value "kind").bind RecordKind.fromStr with
      | none => simp [hkind] at h
      | some kind =>
        simp only [hkind] at h
        cases hid : strField value "record_id" with
        | none => simp [hid] at h
        | some recordId =>
          simp only [hid] at h
          refine ⟨kind, recordId, rfl, rfl, ?_⟩
          split at h
          next hdeleted => exact .inl ⟨hdeleted, (Except.ok.inj h).symm⟩
          next hdeleted =>
            refine .inr ⟨by simpa using hdeleted, ?_⟩
            cases hpayload : (value.get "payload").filter fun payload => !payload.isNull with
            | none => simp [hpayload] at h
            | some payload =>
              simp only [hpayload] at h
              split at h
              next => cases h
              next => exact ⟨payload, (Option.filter_eq_some_iff.mp hpayload).1,
                (Except.ok.inj h).symm⟩

lemma feedValue_get (h : feedValue R a value = .ok a') (key : RecordKey) :
    match touch value key with
    | some (.delivers payload) => a'.records.get key = some ⟨some payload, false⟩
    | some .deletes => ∀ record, a'.records.get key = some record → record.deleted = true
    | none => a'.records.get key = a.records.get key := by
  unfold feedValue at h
  cases hschema : strField value "schema" with
  | none => simp [hschema] at h
  | some schema =>
    simp only [hschema] at h
    split at h
    next hv1 =>
      obtain ⟨observation, hobserved, rfl⟩ := feedV1Observation_ok h
      rw [touch, if_pos (hschema.trans (congrArg some hv1)), hobserved, Option.map_some]
      dsimp only
      rw [get_overwrite]
      cases hget : observation.get key with
      | some payload => rfl
      | none =>
        intro record hrecord
        obtain ⟨_, -, rfl⟩ := Option.map_eq_some_iff.mp hrecord
        rfl
    next hv1 =>
      split at h
      next hv2 =>
        have hnot : strField value "schema" ≠ some sessionV1Schema := by
          rw [hschema]
          exact fun heq => hv1 (Option.some.inj heq)
        obtain ⟨kind, recordId, hkind, hid, hcase⟩ := feedV2Record_ok h
        rw [touch, if_neg hnot, hkind, hid, Option.bind_some, Option.bind_some]
        by_cases hkey : key = toLex (kind, recordId)
        · subst hkey
          rw [if_pos rfl]
          rcases hcase with ⟨hdeleted, rfl⟩ | ⟨hdeleted, payload, hpayload, rfl⟩
          · rw [if_pos hdeleted]
            intro record hrecord
            rw [SortedMap.get_insert_self] at hrecord
            rw [← Option.some.inj hrecord]
          · rw [hdeleted, if_neg Bool.false_ne_true, hpayload, Option.map_some]
            exact SortedMap.get_insert_self _ _
        · rw [if_neg hkey]
          rcases hcase with ⟨-, rfl⟩ | ⟨-, payload, -, rfl⟩
          · exact SortedMap.get_insert_of_ne hkey _
          · exact SortedMap.get_insert_of_ne hkey _
      next => cases h

lemma feedLines_live {lines : List Text} (h : feedLines R a lines = .ok a')
    (hlive : ∃ payload, a.records.get key = some ⟨some payload, false⟩)
    (hkeeps : ∀ line ∈ lines, ∀ value, R.parse line = some value → touch value key ≠ some .deletes) :
    ∃ payload, a'.records.get key = some ⟨some payload, false⟩ := by
  induction lines generalizing a with
  | nil =>
    obtain rfl := Except.ok.inj h
    exact hlive
  | cons line lines ih =>
    rw [feedLines, feedLine] at h
    cases hparse : R.parse line with
    | none => simp [hparse] at h
    | some value =>
      simp only [hparse] at h
      cases hfeed : feedValue R a value with
      | error e => simp [hfeed] at h
      | ok b =>
        simp only [hfeed] at h
        refine ih h ?_ fun l hl => hkeeps l (List.mem_cons_of_mem _ hl)
        have hget := feedValue_get hfeed key
        cases htouch : touch value key with
        | none =>
          simp only [htouch] at hget
          rw [hget]
          exact hlive
        | some t =>
          cases t with
          | delivers payload =>
            simp only [htouch] at hget
            exact ⟨payload, hget⟩
          | deletes => exact absurd htouch (hkeeps line List.mem_cons_self value hparse)

theorem feedLines_recreated {before after : List Text} {line : Text} {payload : Value}
    (h : feedLines R a (before ++ line :: after) = .ok a') (hparse : R.parse line = some value)
    (htouch : touch value key = some (.delivers payload))
    (hkeeps : ∀ line ∈ after, ∀ value, R.parse line = some value → touch value key ≠ some .deletes) :
    ∃ payload, a'.records.get key = some ⟨some payload, false⟩ := by
  induction before generalizing a with
  | nil =>
    rw [List.nil_append, feedLines, feedLine, hparse] at h
    dsimp only at h
    cases hfeed : feedValue R a value with
    | error e => simp [hfeed] at h
    | ok b =>
      simp only [hfeed] at h
      have hget := feedValue_get hfeed key
      simp only [htouch] at hget
      exact feedLines_live h ⟨payload, hget⟩ hkeeps
  | cons first before ih =>
    rw [List.cons_append, feedLines] at h
    cases hfirst : feedLine R a first with
    | error e => simp [hfirst] at h
    | ok b =>
      simp only [hfirst] at h
      exact ih h

def Composed.rows (c : Composed) : List (RecordKind × SelectedRow) :=
  c.messages.map (fun m => (.message, m.1)) ++
    (c.messages.flatMap Prod.snd ++ c.orphanParts).map fun part => (.part, part)

lemma row_of_record {view : BodyView} {c : Composed} (h : compose a view = .ok c)
    {row : RecordKind × SelectedRow} (hrow : row ∈ c.rows) :
    ∃ record, a.records.get (toLex (row.1, row.2.id)) = some record ∧
      record.deleted = row.2.deleted := by
  have hof : ∀ kind (r : SelectedRow), r ∈ recordsOf kind view a →
      ∃ record, a.records.get (toLex (kind, r.id)) = some record ∧ record.deleted = r.deleted := by
    intro kind r hr
    obtain ⟨e, he, hrowOf⟩ := List.mem_filterMap.mp hr
    obtain ⟨payload, -, rfl⟩ := Option.map_eq_some_iff.mp hrowOf
    obtain ⟨he, hsel⟩ := List.mem_filter.mp he
    rw [selected, Bool.and_eq_true] at hsel
    have hkey : e.1 = toLex (kind, (ofLex e.1).2) := by
      rw [← of_decide_eq_true hsel.1]
      rfl
    exact ⟨e.2, SortedMap.get_eq_some_iff.mpr (hkey ▸ he), rfl⟩
  obtain ⟨session, -, -, -, -, rfl⟩ := compose_eq_ok_iff.mp h
  rcases List.mem_append.mp hrow with hrow | hrow
  · obtain ⟨m, hm, rfl⟩ := List.mem_map.mp hrow
    obtain ⟨r, hr, rfl⟩ := List.mem_map.mp hm
    exact hof .message r (mem_sortByKey.mp hr)
  · obtain ⟨part, hpart, rfl⟩ := List.mem_map.mp hrow
    refine hof .part part ((sortByKey_perm SelectedRow.partKey _).mem_iff.mp ?_)
    rcases List.mem_append.mp hpart with hpart | hpart
    · obtain ⟨m, hm, hpart⟩ := List.mem_flatMap.mp hpart
      obtain ⟨r, -, rfl⟩ := List.mem_map.mp hm
      exact (List.mem_filter.mp hpart).1
    · exact (List.mem_filter.mp hpart).1

/-- Where the current view of a fold can be composed: the view with the deleted records can exactly when
every deleted record is shown, it shows them beside the current view, and a record that was
delivered again after its deletion is marked in no view. -/
theorem include_deleted_view (R : RecordReader) (native : Option Text) (bodies : List Bytes)
    (a : Assembly) (current : Composed) (hfold : feedBodies R ⟨native, .empty⟩ bodies = .ok a)
    (hcurrent : compose a .current = .ok current) :
    ((∃ full, compose a .includeDeleted = .ok full) ↔ DeletedShown a) ∧
    (∀ full, compose a .includeDeleted = .ok full → ShowsDeleted full current) ∧
    (∀ before line after value key payload,
      bodies.flatMap (bodyLines R) = before ++ line :: after → R.parse line = some value →
      touch value key = some (.delivers payload) →
      (∀ later ∈ after, ∀ v, R.parse later = some v → touch v key ≠ some .deletes) →
        ∀ view c, compose a view = .ok c → ∀ row ∈ c.rows, row.1 = (ofLex key).1 →
          row.2.id = (ofLex key).2 → row.2.deleted = false) := by
  refine ⟨includeDeleted_iff hcurrent, fun full hfull => ?_, ?_⟩
  · obtain ⟨session, hsession, -, -, -, rfl⟩ := compose_eq_ok_iff.mp hcurrent
    obtain ⟨session', hsession', -, -, -, rfl⟩ := compose_eq_ok_iff.mp hfull
    obtain rfl := Option.some.inj (hsession.symm.trans hsession')
    exact showsDeleted a session
  · intro before line after value key payload hlines hparse htouch hkeeps view c hc row hrow hkind hid
    rw [feedBodies, hlines] at hfold
    obtain ⟨payload', hget⟩ := feedLines_recreated hfold hparse htouch hkeeps
    obtain ⟨record, hrecord, hdeleted⟩ := row_of_record hc hrow
    have hkey : (toLex (row.1, row.2.id) : RecordKey) = key := by
      rw [hkind, hid]
      rfl
    rw [hkey, hget] at hrecord
    rw [← hdeleted, ← Option.some.inj hrecord]

end Touched

section Examples

def jsonText (text : String) : Value := .string text.toList

/-- A session with one message and its part, as it was first stored. -/
def oneMessage : Value :=
  .object [("messages".toList, .array [.object [("id".toList, jsonText "m"),
      ("parts".toList, .array [.object [("id".toList, jsonText "p"),
        ("message_id".toList, jsonText "m")]])]]),
    ("schema".toList, .string sessionV1Schema),
    ("session".toList, .object [("id".toList, jsonText "s")])]

def messageTombstone (id : String) : Value :=
  .object [("deleted".toList, .bool true), ("kind".toList, jsonText "message"),
    ("record_id".toList, jsonText id), ("schema".toList, .string sessionV2Schema),
    ("session".toList, jsonText "s")]

/-- A reader of ASCII bodies that hold these lines. -/
def lineReader : RecordReader where
  lossy bytes := bytes.map fun b => Char.ofNat b.toNat
  parse line := [oneMessage, messageTombstone "m", messageTombstone "n"].find? fun value =>
    value.compact = line
  payloadDigest _ := []

def lineBody (value : Value) : Bytes :=
  (value.compact ++ ['\n']).map fun c => UInt8.ofNat c.toNat

theorem include_deleted_view_tombstone : ∃ a current full,
    feedBodies lineReader ⟨some ['s'], .empty⟩
      [lineBody oneMessage, lineBody (messageTombstone "m")] = .ok a ∧
    compose a .current = .ok current ∧ compose a .includeDeleted = .ok full ∧
      ShowsDeleted full current := by
  have hviews : (match feedBodies lineReader ⟨some ['s'], .empty⟩
      [lineBody oneMessage, lineBody (messageTombstone "m")] with
    | .ok a => (compose a .current).isOk && (compose a .includeDeleted).isOk
    | .error _ => false) = true := by decide +kernel
  cases hfold : feedBodies lineReader ⟨some ['s'], .empty⟩
      [lineBody oneMessage, lineBody (messageTombstone "m")] with
  | error e => simp [hfold] at hviews
  | ok a =>
    cases hcurrent : compose a .current with
    | error e => simp [hfold, hcurrent, Except.isOk, Except.toBool] at hviews
    | ok current =>
      cases hfull : compose a .includeDeleted with
      | error e => simp [hfold, hfull, Except.isOk, Except.toBool] at hviews
      | ok full =>
        exact ⟨a, current, full, rfl, hcurrent, hfull,
          (include_deleted_view _ _ _ a current hfold hcurrent).2.1 full hfull⟩

/-- A tombstone of a message that was never folded leaves the current view as it is and takes the
other one away. -/
theorem unknown_tombstone_refused : ∃ a current,
    feedBodies lineReader ⟨some ['s'], .empty⟩
      [lineBody oneMessage, lineBody (messageTombstone "n")] = .ok a ∧
    compose a .current = .ok current ∧ ¬ ∃ full, compose a .includeDeleted = .ok full := by
  have hviews : (match feedBodies lineReader ⟨some ['s'], .empty⟩
      [lineBody oneMessage, lineBody (messageTombstone "n")] with
    | .ok a => (compose a .current).isOk && !(compose a .includeDeleted).isOk
    | .error _ => false) = true := by decide +kernel
  cases hfold : feedBodies lineReader ⟨some ['s'], .empty⟩
      [lineBody oneMessage, lineBody (messageTombstone "n")] with
  | error e => simp [hfold] at hviews
  | ok a =>
    cases hcurrent : compose a .current with
    | error e => simp [hfold, hcurrent, Except.isOk, Except.toBool] at hviews
    | ok current =>
      refine ⟨a, current, rfl, hcurrent, ?_⟩
      rintro ⟨full, hfull⟩
      simp [hfold, hfull, Except.isOk, Except.toBool] at hviews

end Examples

end ChatStasher.Opencode
