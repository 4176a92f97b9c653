import ChatStasher.Import.ChatgptReader

/-! What a ChatGPT export becomes: reading a field changes no record and no failure, so each entry
of the document adds one of them, and the tree of a record is that of its mapping. -/
namespace ChatStasher.ChatgptExport
open Inbox (Text)
open GrokBot (Value)

section Frames

/-- Nothing but the tally is different. -/
structure SameRecords (reader reader' : Reader) : Prop where
  conversations : reader'.conversations = reader.conversations
  failures : reader'.failures = reader.failures

lemma SameRecords.refl (reader : Reader) : SameRecords reader reader := ⟨rfl, rfl⟩

lemma SameRecords.trans {a b c : Reader} (h : SameRecords a b) (h' : SameRecords b c) :
    SameRecords a c :=
  ⟨h'.conversations.trans h.conversations, h'.failures.trans h.failures⟩

/-- A step that reads one value, whatever the reader has read before, and changes the tally only. -/
def Reads {T : Type} (step : Reader → Reader × T) (value : T) : Prop :=
  ∀ reader, (step reader).2 = value ∧ SameRecords reader (step reader).1

variable (J : JsonReader)

lemma note_same (reader : Reader) (path : Text) : SameRecords reader (reader.note path) :=
  ⟨rfl, rfl⟩

lemma noteUnrecognised_same (reader : Reader) (object : Members) (known : List String)
    (path : Text) : SameRecords reader (reader.noteUnrecognised object known path) := by
  unfold Reader.noteUnrecognised
  induction object generalizing reader with
  | nil => exact SameRecords.refl reader
  | cons m object ih =>
    rw [List.foldl_cons]
    by_cases hknown : m.1 ∈ known.map String.toList
    · rw [if_pos hknown]
      exact ih reader
    · rw [if_neg hknown]
      exact (note_same reader _).trans (ih _)

/-- The readable elements of a list under a key. -/
def stringsOf (object : Members) (key : String) (path : Text) : Field (List Text) :=
  match member object key with
  | none => .absent
  | some .null => .null
  | some (.array items) => .value (items.filterMap Value.asStr)
  | some other => wrongShape path key (kindOf other)

lemma foldl_notes (entry : Text) {step : Reader × List Text → Value → Reader × List Text}
    (hread : ∀ r item text, item.asStr = some text → step r item = (r.1, r.2 ++ [text]))
    (hnote : ∀ r item, item.asStr = none → step r item = (r.1.note entry, r.2))
    (items : List Value) (reader : Reader) (read : List Text) :
    (items.foldl step (reader, read)).2 = read ++ items.filterMap Value.asStr ∧
      SameRecords reader (items.foldl step (reader, read)).1 := by
  induction items generalizing reader read with
  | nil => exact ⟨(List.append_nil read).symm, SameRecords.refl reader⟩
  | cons item items ih =>
    rw [List.foldl_cons, List.filterMap_cons]
    cases hitem : item.asStr with
    | none =>
      rw [hnote _ _ hitem]
      obtain ⟨hread, hsame⟩ := ih (reader.note entry) read
      exact ⟨hread, (note_same reader entry).trans hsame⟩
    | some text =>
      rw [hread _ _ _ hitem]
      obtain ⟨hread, hsame⟩ := ih reader (read ++ [text])
      exact ⟨hread.trans (List.append_assoc _ _ _), hsame⟩

lemma stringList_reads (object : Members) (key : String) (path : Text) :
    Reads (fun reader => reader.stringList object key path) (stringsOf object key path) := by
  intro reader
  unfold Reader.stringList stringsOf
  cases member object key with
  | none => exact ⟨rfl, SameRecords.refl reader⟩
  | some value =>
    cases value with
    | array items =>
      refine (foldl_notes (path ++ '.' :: key.toList ++ "[]".toList) (fun r item text h => ?_)
        (fun r item h => ?_) items reader []).imp_left (congrArg Field.value)
      · rw [h]
      · rw [h]
    | _ => exact ⟨rfl, SameRecords.refl reader⟩

lemma recordedTime_reads (object : Members) (key : String) (path : Text) :
    ∃ time, Reads (fun reader => reader.recordedTime J object key path) time := by
  refine ⟨(Reader.default.recordedTime J object key path).2, fun reader => ?_⟩
  dsimp only
  unfold Reader.recordedTime
  cases member object key with
  | none => exact ⟨rfl, SameRecords.refl reader⟩
  | some value =>
    cases value with
    | number digits =>
      dsimp only
      cases epochSeconds J digits with
      | none => exact ⟨rfl, note_same reader _⟩
      | some time => exact ⟨rfl, SameRecords.refl reader⟩
    | null => exact ⟨rfl, SameRecords.refl reader⟩
    | _ => exact ⟨rfl, note_same reader _⟩

lemma author_reads (object : Members) :
    ∃ author, Reads (fun reader => reader.author object) author := by
  refine ⟨(Reader.default.author object).2, fun reader => ?_⟩
  dsimp only
  unfold Reader.author
  cases member object "author" with
  | none => exact ⟨rfl, SameRecords.refl reader⟩
  | some value =>
    cases value with
    | object author => exact ⟨rfl, noteUnrecognised_same reader _ _ _⟩
    | null => exact ⟨rfl, SameRecords.refl reader⟩
    | _ => exact ⟨rfl, note_same reader _⟩

lemma content_reads (object : Members) :
    ∃ content, Reads (fun reader => reader.content object) content := by
  refine ⟨(Reader.default.content object).2, fun reader => ?_⟩
  dsimp only
  unfold Reader.content
  cases member object "content" with
  | none => exact ⟨rfl, SameRecords.refl reader⟩
  | some value =>
    cases value with
    | object content => exact ⟨rfl, noteUnrecognised_same reader _ _ _⟩
    | null => exact ⟨rfl, SameRecords.refl reader⟩
    | _ => exact ⟨rfl, note_same reader _⟩

lemma message_reads (object : Members) :
    ∃ message, Reads (fun reader => reader.message J object) message := by
  obtain ⟨⟨role, name⟩, hauthor⟩ := author_reads object
  obtain ⟨⟨kind, pieces⟩, hcontent⟩ := content_reads object
  obtain ⟨time, htime⟩ := recordedTime_reads J object "create_time" messagePath
  obtain ⟨updated, hupdated⟩ := recordedTime_reads J object "update_time" messagePath
  refine ⟨⟨text object "id" messagePath, time, updated, role, name,
    text object "recipient" messagePath, kind, pieces⟩, fun reader => ?_⟩
  have hnoted := noteUnrecognised_same reader object messageKeys messagePath
  set noted := reader.noteUnrecognised object messageKeys messagePath with hnotedEq
  obtain ⟨hauthorValue, hauthorSame⟩ := hauthor noted
  obtain ⟨hcontentValue, hcontentSame⟩ := hcontent (noted.author object).1
  obtain ⟨htimeValue, htimeSame⟩ := htime ((noted.author object).1.content object).1
  obtain ⟨hupdatedValue, hupdatedSame⟩ := hupdated
    (((noted.author object).1.content object).1.recordedTime J object "create_time" messagePath).1
  dsimp only at hauthorValue hcontentValue htimeValue hupdatedValue
  refine ⟨?_, hnoted.trans (hauthorSame.trans (hcontentSame.trans (htimeSame.trans hupdatedSame)))⟩
  simp only [Reader.message, ← hnotedEq, hauthorValue, hcontentValue, htimeValue, hupdatedValue]

lemma messageSlot_reads (object : Members) :
    ∃ slot, Reads (fun reader => reader.messageSlot J object) slot := by
  refine ⟨(Reader.default.messageSlot J object).2, fun reader => ?_⟩
  dsimp only
  unfold Reader.messageSlot
  cases member object "message" with
  | none => exact ⟨rfl, SameRecords.refl reader⟩
  | some value =>
    cases value with
    | object message =>
      obtain ⟨read, hread⟩ := message_reads J message
      obtain ⟨hvalue, hsame⟩ := hread reader
      have hdefault := (hread Reader.default).1
      dsimp only at hvalue hsame hdefault ⊢
      rw [hvalue, hdefault]
      exact ⟨rfl, hsame⟩
    | _ => exact ⟨rfl, SameRecords.refl reader⟩

lemma statedId_reads (key : Text) (object : Members) :
    Reads (fun reader => reader.statedId key object) (text object "id" nodePath) := by
  intro reader
  dsimp only
  unfold Reader.statedId
  cases text object "id" nodePath with
  | value stated =>
    dsimp only
    split
    · exact ⟨rfl, note_same reader _⟩
    · exact ⟨rfl, SameRecords.refl reader⟩
  | _ => exact ⟨rfl, SameRecords.refl reader⟩

structure IsNode (key : Text) (value : Value) (node : NodeRecord) : Prop where
  id : node.id = key
  links : ∃ object, value = .object object ∧ node.parent = parentOf object ∧
    node.children = stringsOf object "children" nodePath

lemma node_reads (key : Text) (object : Members) :
    ∃ node, IsNode key (.object object) node ∧
      Reads (fun reader => reader.node J key object) node := by
  obtain ⟨slot, hslot⟩ := messageSlot_reads J object
  refine ⟨⟨key, text object "id" nodePath, parentOf object,
    stringsOf object "children" nodePath, slot⟩, ⟨rfl, object, rfl, rfl, rfl⟩, fun reader => ?_⟩
  have hnoted := noteUnrecognised_same reader object nodeKeys nodePath
  set noted := reader.noteUnrecognised object nodeKeys nodePath with hnotedEq
  obtain ⟨hidValue, hidSame⟩ := statedId_reads key object noted
  obtain ⟨hlistValue, hlistSame⟩ :=
    stringList_reads object "children" nodePath (noted.statedId key object).1
  obtain ⟨hslotValue, hslotSame⟩ := hslot
    ((noted.statedId key object).1.stringList object "children" nodePath).1
  dsimp only at hidValue hlistValue hslotValue
  refine ⟨?_, hnoted.trans (hidSame.trans (hlistSame.trans hslotSame))⟩
  simp only [Reader.node, ← hnotedEq, hidValue, hlistValue, hslotValue]

def AreNodes (mapping : Members) (nodes : List NodeRecord) : Prop :=
  List.Forall₂ (fun m node => IsNode m.1 m.2 node) mapping nodes

lemma AreNodes.ids {mapping : Members} {nodes : List NodeRecord} (h : AreNodes mapping nodes) :
    nodes.map NodeRecord.id = mapping.map Prod.fst := by
  induction h with
  | nil => rfl
  | cons hnode _ ih => rw [List.map_cons, List.map_cons, hnode.id, ih]

lemma nodes_reads (mapping : Members) :
    ∃ read, (∀ nodes, read = .ok nodes → AreNodes mapping nodes) ∧
      Reads (fun reader => reader.nodes J mapping) read := by
  induction mapping with
  | nil =>
    refine ⟨.ok [], fun nodes h => ?_, fun reader => ⟨rfl, SameRecords.refl reader⟩⟩
    obtain rfl := Except.ok.inj h
    exact List.Forall₂.nil
  | cons m mapping ih =>
    obtain ⟨key, value⟩ := m
    cases value with
    | object object =>
      obtain ⟨node, hnode, hreads⟩ := node_reads J key object
      obtain ⟨read, hread, hrest⟩ := ih
      refine ⟨read.map (node :: ·), fun nodes h => ?_, fun reader => ?_⟩
      · cases read with
        | error reason => exact nomatch h
        | ok rest =>
          obtain rfl := Except.ok.inj h
          exact List.Forall₂.cons hnode (hread rest rfl)
      · obtain ⟨hvalue, hsame⟩ := hreads reader
        obtain ⟨hrestValue, hrestSame⟩ := hrest (reader.node J key object).1
        dsimp only at hvalue hrestValue
        refine ⟨?_, hsame.trans hrestSame⟩
        simp only [Reader.nodes, hvalue, hrestValue]
    | _ =>
      refine ⟨.error (.nodeNotAnObject (kindOf _)), fun nodes => ?_,
        fun reader => ⟨rfl, SameRecords.refl reader⟩⟩
      exact nofun

end Frames

section Entries

variable (J : JsonReader)

def alone (entry : Value) : Reader := Reader.default.conversation J entry

/-- A record's tree is that of the mapping of its entry. -/
structure IsRecord (entry : Value) (record : ConversationRecord) : Prop where
  nodes : ∃ object mapping, entry = .object object ∧
    member object "mapping" = some (.object mapping) ∧ AreNodes mapping record.nodes ∧
    (record.tree, record.currentNode) = readTree record.nodes (currentNodeOf object)

/-- An entry adds one record or one failure, the same after any others. -/
inductive Adds (step : Reader → Reader) (entry : Value) : Prop
  | record (record : ConversationRecord) (hrecord : IsRecord entry record)
      (h : ∀ reader, (step reader).conversations = reader.conversations ++ [record] ∧
        (step reader).failures = reader.failures)
  | failure (failure : ConversationFailure)
      (h : ∀ reader, (step reader).conversations = reader.conversations ∧
        (step reader).failures = reader.failures ++ [failure])

lemma fail_adds {step : Reader → Reader} {entry : Value} {noted : Reader → Reader}
    (hnoted : ∀ reader, SameRecords reader (noted reader)) (id : Option Text)
    (reason : ConversationFailureReason)
    (h : ∀ reader, step reader = (noted reader).fail id reason) : Adds step entry := by
  refine .failure ⟨id, reason⟩ fun reader => ?_
  rw [h reader]
  exact ⟨(hnoted reader).conversations, congrArg (· ++ _) (hnoted reader).failures⟩

theorem conversation_adds (entry : Value) :
    Adds (fun reader => reader.conversation J entry) entry := by
  cases entry with
  | object object =>
    have hnoted : ∀ reader : Reader, SameRecords reader
        (reader.noteUnrecognised object conversationKeys conversationPath) := fun reader =>
      noteUnrecognised_same reader object conversationKeys conversationPath
    cases hid : conversationId object with
    | error reason =>
      exact fail_adds hnoted none reason fun reader => by simp only [Reader.conversation, hid]
    | ok id =>
      have hother : ∀ value, member object "mapping" = some value →
          (∀ reader : Reader, reader.conversation J (.object object) =
            (reader.noteUnrecognised object conversationKeys conversationPath).fail (some id)
              (.mappingNotAnObject (kindOf value))) →
          Adds (fun reader => reader.conversation J (.object object)) (.object object) :=
        fun value _ h => fail_adds hnoted (some id) (.mappingNotAnObject (kindOf value)) h
      cases hmember : member object "mapping" with
      | none =>
        exact fail_adds hnoted (some id) .mappingAbsent fun reader => by
          simp only [Reader.conversation, hid, hmember]
      | some value =>
        cases value with
        | null =>
          exact fail_adds hnoted (some id) .mappingNull fun reader => by
            simp only [Reader.conversation, hid, hmember]
        | object mapping =>
          obtain ⟨read, hread, hreads⟩ := nodes_reads J mapping
          have hafter : ∀ reader : Reader, ∃ after, SameRecords reader after ∧
              (reader.noteUnrecognised object conversationKeys conversationPath).nodes J mapping =
                (after, read) := fun reader =>
            ⟨_, (hnoted reader).trans (hreads _).2, Prod.ext rfl (hreads _).1⟩
          cases read with
          | error reason =>
            refine .failure ⟨some id, reason⟩ fun reader => ?_
            obtain ⟨after, hsame, heq⟩ := hafter reader
            simp only [Reader.conversation, hid, hmember, heq, Reader.fail, hsame.conversations,
              hsame.failures, and_self]
          | ok nodes =>
            obtain ⟨created, hcreated⟩ :=
              recordedTime_reads J object "create_time" conversationPath
            obtain ⟨updated, hupdated⟩ :=
              recordedTime_reads J object "update_time" conversationPath
            refine .record ⟨id, created, updated, text object "title" conversationPath,
              (readTree nodes (currentNodeOf object)).2, nodes,
              (readTree nodes (currentNodeOf object)).1⟩
              ⟨object, mapping, rfl, hmember, hread nodes rfl, rfl⟩ fun reader => ?_
            obtain ⟨after, hsame, heq⟩ := hafter reader
            obtain ⟨hcreatedValue, hcreatedSame⟩ := hcreated after
            obtain ⟨hupdatedValue, hupdatedSame⟩ :=
              hupdated (after.recordedTime J object "create_time" conversationPath).1
            dsimp only at hcreatedValue hupdatedValue hcreatedSame hupdatedSame
            have htotal := hsame.trans (hcreatedSame.trans hupdatedSame)
            simp only [Reader.conversation, hid, hmember, heq, hcreatedValue, hupdatedValue,
              htotal.conversations, htotal.failures, and_self]
        | _ =>
          exact hother _ hmember fun reader => by simp only [Reader.conversation, hid, hmember]
  | _ => exact fail_adds SameRecords.refl none (.notAnObject (kindOf _)) fun reader => rfl

lemma conversation_alone (reader : Reader) (entry : Value) :
    (reader.conversation J entry).conversations =
        reader.conversations ++ (alone J entry).conversations ∧
      (reader.conversation J entry).failures = reader.failures ++ (alone J entry).failures := by
  rcases conversation_adds J entry with ⟨record, -, h⟩ | ⟨failure, h⟩
  · obtain ⟨hrecords, hfailures⟩ := h reader
    obtain ⟨hrecords', hfailures'⟩ := h Reader.default
    rw [hrecords, hfailures, alone, hrecords', hfailures']
    exact ⟨rfl, (List.append_nil _).symm⟩
  · obtain ⟨hrecords, hfailures⟩ := h reader
    obtain ⟨hrecords', hfailures'⟩ := h Reader.default
    rw [hrecords, hfailures, alone, hrecords', hfailures']
    exact ⟨(List.append_nil _).symm, rfl⟩

lemma alone_length (entry : Value) :
    (alone J entry).conversations.length + (alone J entry).failures.length = 1 := by
  rcases conversation_adds J entry with ⟨record, -, h⟩ | ⟨failure, h⟩
  · obtain ⟨hrecords, hfailures⟩ := h Reader.default
    rw [alone, hrecords, hfailures]
    rfl
  · obtain ⟨hrecords, hfailures⟩ := h Reader.default
    rw [alone, hrecords, hfailures]
    rfl

lemma alone_record {entry : Value} {record : ConversationRecord}
    (hmem : record ∈ (alone J entry).conversations) : IsRecord entry record := by
  rcases conversation_adds J entry with ⟨record', hrecord, h⟩ | ⟨failure, h⟩
  · rw [alone, (h Reader.default).1] at hmem
    obtain rfl := List.mem_singleton.mp hmem
    exact hrecord
  · rw [alone, (h Reader.default).1] at hmem
    exact absurd hmem List.not_mem_nil

lemma foldl_alone (es : List Value) (reader : Reader) :
    (es.foldl (Reader.conversation J) reader).conversations =
        reader.conversations ++ es.flatMap (fun e => (alone J e).conversations) ∧
      (es.foldl (Reader.conversation J) reader).failures =
        reader.failures ++ es.flatMap (fun e => (alone J e).failures) := by
  induction es generalizing reader with
  | nil => exact ⟨(List.append_nil _).symm, (List.append_nil _).symm⟩
  | cons e es ih =>
    obtain ⟨hrecords, hfailures⟩ := ih (reader.conversation J e)
    obtain ⟨hrecord, hfailure⟩ := conversation_alone J reader e
    rw [List.foldl_cons, hrecords, hfailures, hrecord, hfailure, List.append_assoc,
      List.append_assoc]
    exact ⟨rfl, rfl⟩

lemma parseExport_ok {bytes : Bytes} {document : Value} (hparse : J.fromSlice bytes = .ok document)
    {es : List Value} (hentries : entries document = some es) :
    parseExport J bytes = .ok (es.foldl (Reader.conversation J) Reader.default) := by
  rw [parseExport, hparse]
  cases document with
  | array items =>
    obtain rfl := Option.some.inj hentries
    rfl
  | object members =>
    obtain rfl := Option.some.inj hentries
    rfl
  | _ => exact nomatch hentries

lemma keys_nodup {bytes : Bytes} {document : Value} (hparse : J.fromSlice bytes = .ok document)
    {es : List Value} (hentries : entries document = some es) {entry : Value} (hentry : entry ∈ es)
    {object mapping : Members} (hobject : entry = .object object)
    (hmapping : member object "mapping" = some (.object mapping)) {nodes : List NodeRecord}
    (hnodes : AreNodes mapping nodes) : (nodes.map NodeRecord.id).Nodup := by
  have hkeyed : Keyed entry := by
    have hdocument := J.keyed bytes document hparse
    cases hdocument with
    | array h =>
      obtain rfl := Option.some.inj hentries
      exact h entry hentry
    | object hkeys h =>
      obtain rfl := Option.some.inj hentries
      rw [List.mem_singleton.mp hentry]
      exact .object hkeys h
    | _ => exact nomatch hentries
  rw [hobject] at hkeyed
  cases hkeyed with
  | object _ hmembers =>
    obtain ⟨before, after, hmem, -⟩ := List.lookup_eq_some_iff.mp hmapping
    cases hmembers ("mapping".toList, .object mapping) (by simp [hmem]) with
    | object hkeys _ =>
      rw [hnodes.ids]
      exact hkeys

structure ReadExactly (entry : Value) (record : ConversationRecord) : Prop where
  read : ∃ object mapping, entry = .object object ∧
    member object "mapping" = some (.object mapping) ∧ AreNodes mapping record.nodes ∧
    IsReading record.nodes (currentNodeOf object) record.tree ∧
    record.currentNode = resolvedCurrent record.nodes (currentNodeOf object)

/-- Each entry of an export becomes one record or one failure, in the order of the document, and
every tree is read exactly. -/
theorem export_read_exactly :
    (∀ bytes document es, J.fromSlice bytes = .ok document → entries document = some es →
      ∃ parse, parseExport J bytes = .ok parse ∧
        parse.conversations = es.flatMap (fun e => (alone J e).conversations) ∧
        parse.failures = es.flatMap (fun e => (alone J e).failures) ∧
        (∀ e ∈ es, (alone J e).conversations.length + (alone J e).failures.length = 1) ∧
        ∀ e ∈ es, ∀ record ∈ (alone J e).conversations, ReadExactly e record) ∧
    ∀ nodes current, (nodes.map NodeRecord.id).Nodup →
      IsReading nodes current (readTree nodes current).1 ∧
        (readTree nodes current).2 = resolvedCurrent nodes current := by
  refine ⟨fun bytes document es hparse hentries => ?_,
    fun nodes current hkeys => readTree_exact hkeys current⟩
  obtain ⟨hrecords, hfailures⟩ := foldl_alone J es Reader.default
  refine ⟨_, parseExport_ok J hparse hentries, hrecords, hfailures, fun e _ => alone_length J e,
    fun e he record hrecord => ?_⟩
  obtain ⟨object, mapping, hobject, hmapping, hnodes, htree⟩ := (alone_record J hrecord).nodes
  obtain ⟨hreading, hcurrent⟩ := readTree_exact
    (keys_nodup J hparse hentries he hobject hmapping hnodes) (currentNodeOf object)
  rw [← htree] at hreading hcurrent
  exact ⟨object, mapping, hobject, hmapping, hnodes, hreading, hcurrent⟩

/-- One conversation of a root and a child that is current. -/
def pairDocument : Value :=
  .object [("id".toList, .string "a".toList),
    ("mapping".toList, .object [("r".toList, .object [("parent".toList, .null)]),
      ("c".toList, .object [("parent".toList, .string "r".toList)])]),
    ("current_node".toList, .string "c".toList)]

lemma keyed_pairDocument : Keyed pairDocument := by
  have hroot : Keyed (.object [("parent".toList, .null)]) :=
    .object (by decide) (List.forall_mem_singleton.mpr .null)
  have hchild : Keyed (.object [("parent".toList, .string "r".toList)]) :=
    .object (by decide) (List.forall_mem_singleton.mpr (.string _))
  have hmapping : Keyed (.object [("r".toList, .object [("parent".toList, .null)]),
      ("c".toList, .object [("parent".toList, .string "r".toList)])]) :=
    .object (by decide) (List.forall_mem_cons.mpr ⟨hroot, List.forall_mem_singleton.mpr hchild⟩)
  exact .object (by decide) (List.forall_mem_cons.mpr ⟨.string _,
    List.forall_mem_cons.mpr ⟨hmapping, List.forall_mem_singleton.mpr (.string _)⟩⟩)

def pairReader : JsonReader where
  fromSlice _ := .ok pairDocument
  keyed _ _ h := Except.ok.inj h ▸ keyed_pairDocument
  wholeFloat _ := none

theorem pair_export_read :
    (∃ parse, parseExport pairReader [] = .ok parse ∧
      parse.conversations.length + parse.failures.length = 1 ∧
      ∀ record ∈ parse.conversations, ReadExactly pairDocument record) ∧
    IsReading [] (.named "c".toList) (readTree [] (.named "c".toList)).1 := by
  obtain ⟨hdocument, htree⟩ := export_read_exactly pairReader
  obtain ⟨parse, hparse, hrecords, hfailures, hone, hread⟩ :=
    hdocument [] pairDocument [pairDocument] rfl rfl
  refine ⟨⟨parse, hparse, ?_, fun record hrecord => ?_⟩, (htree [] _ List.nodup_nil).1⟩
  · rw [hrecords, hfailures, List.flatMap_singleton, List.flatMap_singleton]
    exact hone pairDocument (List.mem_singleton_self _)
  · rw [hrecords, List.flatMap_singleton] at hrecord
    exact hread pairDocument (List.mem_singleton_self _) record hrecord

end Entries

end ChatStasher.ChatgptExport
