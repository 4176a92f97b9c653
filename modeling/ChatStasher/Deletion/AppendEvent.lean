import ChatStasher.Provenance.ObservationLog

/-! Appending to a control stream, where any call may be killed in the middle of its record. -/
namespace ChatStasher.Deletion
open GrokBot (decodeUtf8)
open Inbox (Text utf8 trim isWhitespace)
open StepRun

/-- How control records are written to single lines and read back: one object a line, and nothing
behind it. -/
structure ControlFormat extends RowFormat ControlEvent where
  starts : ∀ e, (write e).head? = some '\x7b'
  read_two : ∀ e e', read (write e ++ write e') = none

inductive StageControlRead
  | absent
  | events (read : List ControlEvent)

def StageControlRead.list : StageControlRead → List ControlEvent
  | .absent => []
  | .events read => read

inductive AppendError
  | invalid (why : InvalidRecord)
  | fixture
  | unreadable (why : StreamUnreadable)
  | notReadBack

inductive AppendOutcome
  | ok
  | refused (why : AppendError)
  | killed

def AppendOutcome.isOk : AppendOutcome → Bool
  | .ok => true
  | _ => false

/-- How far a call gets: to its end, or not to the stream, or so many bytes of its line into it. -/
inductive Fate
  | returns
  | killedBefore
  | killed (written : ℕ)

structure AppendCall where
  event : ControlEvent
  fate : Fate

/-- The stream of one machine, and the calls so far with what became of them. -/
structure StreamRun where
  file : Option Bytes
  calls : List (ControlEvent × AppendOutcome)

def emptyStream : StreamRun := ⟨none, []⟩

section Append
variable (F : ControlFormat) (instant : ReadInstant) (refused : ControlEvent → Bool)

def ControlFormat.reader : StreamReader := ⟨decodeUtf8, F.read, instant⟩

def readStageEvents (file : Option Bytes) : Except StreamUnreadable StageControlRead :=
  match file with
  | none => .ok .absent
  | some bytes =>
    match parseEvents (F.reader instant) bytes with
    | .error why => .error why
    | .ok events => .ok (.events events)

/-- The record is checked, its line appended, and the stream read back. -/
def appendStageEvent (file : Option Bytes) (event : ControlEvent) (fate : Fate) :
    Option Bytes × AppendOutcome :=
  match event.validate instant with
  | .error why => (file, .refused (.invalid why))
  | .ok () =>
    if refused event then (file, .refused .fixture)
    else
      match fate with
      | .killedBefore => (file, .killed)
      | .killed written =>
        (some (file.getD [] ++ (F.toRowFormat.line event).take written), .killed)
      | .returns =>
        let content := file.getD [] ++ F.toRowFormat.line event
        match readStageEvents F instant (some content) with
        | .error why => (some content, .refused (.unreadable why))
        | .ok read =>
          if event ∈ read.list then (some content, .ok)
          else (some content, .refused .notReadBack)

def appendStep (s : StreamRun) (call : AppendCall) : StreamRun :=
  let (file, outcome) := appendStageEvent F instant refused s.file call.event call.fate
  ⟨file, s.calls ++ [(call.event, outcome)]⟩

/-- The events are those of the calls that returned `Ok`, in order, and of some killed ones. -/
def ReadsBack (calls : List (ControlEvent × AppendOutcome)) (events : List ControlEvent) : Prop :=
  ∃ kept, List.Sublist kept calls ∧ kept.map Prod.fst = events ∧
    (∀ call ∈ kept, call.2 = .ok ∨ call.2 = .killed) ∧
    kept.filter (fun call => call.2.isOk) = calls.filter fun call => call.2.isOk

def Accepted (event : ControlEvent) : Prop :=
  event.validate instant = .ok () ∧ refused event = false

/-- The stream reads back, and a later append succeeds. -/
structure Survives (s : StreamRun) : Prop where
  reads : ∃ read, readStageEvents F instant s.file = .ok read ∧ ReadsBack s.calls read.list
  appends : ∀ event, Accepted instant refused event →
    (appendStageEvent F instant refused s.file event .returns).2 = .ok

def WholeOrNothing (call : AppendCall) : Prop :=
  Accepted instant refused call.event → ∀ written, call.fate = .killed written →
    written = 0 ∨ (F.toRowFormat.line call.event).length ≤ written

end Append

section Parse
variable {F : ControlFormat} {instant : ReadInstant} {refused : ControlEvent → Bool}
  {rows : List ControlEvent} {event : ControlEvent}

lemma textLines_render_append (rows : List ControlEvent) {tail : Text} (hne : tail ≠ [])
    (hnewline : '\n' ∉ tail) :
    textLines (F.render rows ++ tail) = rows.map F.write ++ [tail] := by
  have hlines : ∀ line ∈ rows.map F.write, '\n' ∉ line := by
    intro line hline
    obtain ⟨row, -, rfl⟩ := List.mem_map.mp hline
    exact F.oneLine row
  have hkept : (rows.map F.write).map
      (fun line => if line.getLast? = some '\r' then line.dropLast else line) =
        rows.map F.write := by
    refine (List.map_congr_left fun line hline => ?_).trans (List.map_id _)
    obtain ⟨row, -, rfl⟩ := List.mem_map.mp hline
    rw [F.ends row]
    exact if_neg (by decide)
  rw [textLines, RowFormat.render, Framing.splitOn_frame_append '\n' hlines hnewline]
  rw [List.dropLast_concat, hkept, List.getLast?_concat,
    Option.filter_some_pos (by simpa using hne), Option.toList_some]

lemma rdropWhile_write (event : ControlEvent) :
    (F.write event).rdropWhile isWhitespace = F.write event := by
  obtain ⟨front, hwrite⟩ : ∃ front, F.write event = front ++ ['\x7d'] :=
    List.getLast?_eq_some_iff.mp (F.ends event)
  have hbrace : ¬ isWhitespace '\x7d' = true := by decide
  rw [hwrite, List.rdropWhile_concat_neg _ _ _ hbrace]

lemma parseLines_rows (hvalid : ∀ e ∈ rows, e.validate instant = .ok ()) (lineNo : ℕ)
    (lines : List Text) : parseLines (F.reader instant) lineNo (rows.map F.write ++ lines) =
      match parseLines (F.reader instant) (lineNo + rows.length) lines with
      | .error why => .error why
      | .ok events => .ok (rows ++ events) := by
  induction rows generalizing lineNo with
  | nil =>
    rw [List.map_nil, List.nil_append, List.length_nil, Nat.add_zero]
    cases parseLines (F.reader instant) lineNo lines <;> rfl
  | cons row rows ih =>
    have hrest := ih (fun e he => hvalid e (List.mem_cons_of_mem _ he)) (lineNo + 1)
    have hread : (F.reader instant).record (F.write row) = some row := F.read_write row
    have hrow : row.validate (F.reader instant).instant = .ok () := hvalid row List.mem_cons_self
    rw [List.map_cons, List.cons_append, parseLines, RowFormat.trim_write_ne_nil,
      if_neg Bool.false_ne_true, hread]
    dsimp only
    rw [if_neg (by simp [rdropWhile_write]), hrow]
    dsimp only
    rw [hrest, List.length_cons, Nat.add_right_comm, Nat.add_assoc]
    cases parseLines (F.reader instant) (lineNo + (rows.length + 1)) lines <;> rfl

lemma parseEvents_log (hvalid : ∀ e ∈ rows, e.validate instant = .ok ()) :
    parseEvents (F.reader instant) (F.toRowFormat.log rows) = .ok rows := by
  have hdecode : (F.reader instant).decodeUtf8 (F.toRowFormat.log rows) = some (F.render rows) := by
    rw [RowFormat.log_eq]
    exact GrokBot.decodeUtf8_utf8 _
  have hlines := @parseLines_rows F instant rows hvalid 1 []
  rw [List.append_nil] at hlines
  rw [parseEvents, hdecode]
  dsimp only
  rw [RowFormat.textLines_render, hlines, parseLines]
  dsimp only
  rw [List.append_nil]

lemma decode_log_append {tail : Bytes} {text : Text}
    (h : decodeUtf8 (F.toRowFormat.log rows ++ tail) = some text) :
    ∃ rest, text = F.render rows ++ rest ∧ utf8 rest = tail := by
  have hbytes := utf8_of_decodeUtf8 h
  rw [RowFormat.log_eq] at hbytes
  obtain ⟨rest, rfl⟩ := isPrefix_of_utf8 (hbytes.symm ▸ List.prefix_append _ tail)
  refine ⟨rest, rfl, ?_⟩
  rw [GrokBot.utf8_append] at hbytes
  exact List.append_cancel_left hbytes

lemma parseEvents_append_error (hvalid : ∀ e ∈ rows, e.validate instant = .ok ()) {tail : Text}
    (hstart : tail.head? = some '\x7b') (hnewline : '\n' ∉ tail) (hread : F.read tail = none) :
    parseLines (F.reader instant) 1 (textLines (F.render rows ++ tail)) =
      .error (.record (1 + rows.length)) := by
  obtain ⟨rest, rfl⟩ : ∃ rest, tail = '\x7b' :: rest := by
    cases tail with
    | nil => cases hstart
    | cons c rest => exact ⟨rest, by rw [Option.some.inj hstart]⟩
  have hblank : (trim ('\x7b' :: rest)).isEmpty = false := by
    have hbrace : isWhitespace '\x7b' = false := by decide
    have hne : ('\x7b' :: rest).rdropWhile isWhitespace ≠ [] := by
      rw [Ne, List.rdropWhile_eq_nil_iff]
      intro hall
      exact absurd (hall '\x7b' List.mem_cons_self) (by simp [hbrace])
    rw [trim, Inbox.trimMatches, List.dropWhile_cons, hbrace, if_neg Bool.false_ne_true]
    simpa using hne
  have hrecord : (F.reader instant).record ('\x7b' :: rest) = none := hread
  rw [textLines_render_append rows (List.cons_ne_nil _ _) hnewline, parseLines_rows hvalid,
    parseLines, hblank, if_neg Bool.false_ne_true, hrecord]

lemma parseEvents_torn (hvalid : ∀ e ∈ rows, e.validate instant = .ok ()) {k : ℕ} (hpos : 0 < k)
    (hlt : k < (F.toRowFormat.bytes event).length) :
    ∃ why, parseEvents (F.reader instant) (F.toRowFormat.log rows ++
      (F.toRowFormat.bytes event).take k) = .error why := by
  cases hdecode : (F.reader instant).decodeUtf8 (F.toRowFormat.log rows ++
      (F.toRowFormat.bytes event).take k) with
  | none => exact ⟨.notUtf8, by rw [parseEvents, hdecode]⟩
  | some text =>
    obtain ⟨tail, rfl, htail⟩ := decode_log_append hdecode
    obtain ⟨rest, hrest⟩ : tail <+: F.write event :=
      isPrefix_of_utf8 (htail ▸ List.take_prefix k _)
    have hne : tail ≠ [] := by
      rintro rfl
      have hlen := congrArg List.length htail
      rw [List.length_take_of_le hlt.le] at hlen
      exact absurd hlen (Nat.ne_of_lt hpos)
    have htake : tail = (F.write event).take tail.length := by rw [← hrest, List.take_left]
    have hshort : tail.length < (F.write event).length := by
      by_contra hle
      rw [List.take_of_length_le (not_lt.mp hle)] at htake
      have hlen := congrArg List.length htail
      rw [htake, List.length_take_of_le hlt.le] at hlen
      exact absurd hlen (Nat.ne_of_gt hlt)
    have hread : F.read tail = none := by
      rw [htake]
      exact F.read_torn event _ hshort
    have hstart : tail.head? = some '\x7b' := by
      rw [← F.starts event, ← hrest, List.head?_append_of_ne_nil _ hne]
    have hnewline : '\n' ∉ tail := fun hmem =>
      F.oneLine event (hrest ▸ List.mem_append_left rest hmem)
    refine ⟨.record (1 + rows.length), ?_⟩
    rw [parseEvents, hdecode]
    exact parseEvents_append_error hvalid hstart hnewline hread

lemma bytes_append (e e' : ControlEvent) :
    F.toRowFormat.bytes e ++ F.toRowFormat.line e' = utf8 (F.write e ++ F.write e' ++ ['\n']) := by
  have hnewline : utf8 ['\n'] = [newline] := by decide
  rw [GrokBot.utf8_append, GrokBot.utf8_append, hnewline, RowFormat.line, RowFormat.bytes,
    RowFormat.bytes, List.append_assoc]

lemma parseEvents_joined (hvalid : ∀ e ∈ rows, e.validate instant = .ok ()) (e e' : ControlEvent) :
    ∃ why, parseEvents (F.reader instant) (F.toRowFormat.log rows ++ F.toRowFormat.bytes e ++
      F.toRowFormat.line e') = .error why := by
  have hnewline : '\n' ∉ F.write e ++ F.write e' := by
    rw [List.mem_append]
    exact not_or.mpr ⟨F.oneLine e, F.oneLine e'⟩
  have hne : F.write e ≠ [] := by
    intro hnil
    have hstart := F.starts e
    rw [hnil] at hstart
    cases hstart
  have hstart : (F.write e ++ F.write e').head? = some '\x7b' := by
    rw [List.head?_append_of_ne_nil _ hne, F.starts]
  have hlines : textLines (F.render rows ++ (F.write e ++ F.write e' ++ ['\n'])) =
      textLines (F.render rows ++ (F.write e ++ F.write e')) := by
    have hframe : F.render rows ++ (F.write e ++ F.write e' ++ ['\n']) =
        Framing.frame '\n' (rows.map F.write ++ [F.write e ++ F.write e']) := by
      simp [RowFormat.render]
    rw [hframe, textLines_render_append rows (by simp [hne]) hnewline]
    refine GrokBot.textLines_frame (fun line hline => ?_) fun line hline => ?_
    · rcases List.mem_append.mp hline with hline | hline
      · obtain ⟨row, -, rfl⟩ := List.mem_map.mp hline
        exact F.oneLine row
      · rw [List.mem_singleton.mp hline]
        exact hnewline
    · rcases List.mem_append.mp hline with hline | hline
      · obtain ⟨row, -, rfl⟩ := List.mem_map.mp hline
        rw [F.ends row]
        decide
      · rw [List.mem_singleton.mp hline, List.getLast?_append, F.ends e']
        simp
  have hdecode : (F.reader instant).decodeUtf8 (F.toRowFormat.log rows ++ F.toRowFormat.bytes e ++
      F.toRowFormat.line e') = some (F.render rows ++ (F.write e ++ F.write e' ++ ['\n'])) := by
    rw [List.append_assoc, bytes_append, RowFormat.log_eq, ← GrokBot.utf8_append]
    exact GrokBot.decodeUtf8_utf8 _
  refine ⟨.record (1 + rows.length), ?_⟩
  rw [parseEvents, hdecode]
  dsimp only
  rw [hlines]
  exact parseEvents_append_error hvalid hstart hnewline (F.read_two e e')

end Parse

section Runs
variable {F : ControlFormat} {instant : ReadInstant} {refused : ControlEvent → Bool}
  {s : StreamRun} {rows : List ControlEvent} {event : ControlEvent}

/-- The stream holds these records whole, each of them valid, and they are what the calls left. -/
structure Whole (F : ControlFormat) (instant : ReadInstant) (s : StreamRun)
    (rows : List ControlEvent) : Prop where
  content : s.file.getD [] = F.toRowFormat.log rows
  valid : ∀ e ∈ rows, e.validate instant = .ok ()
  kept : ReadsBack s.calls rows

lemma whole_emptyStream : Whole F instant emptyStream [] where
  content := rfl
  valid := nofun
  kept := ⟨[], List.Sublist.refl _, rfl, nofun, rfl⟩

lemma ReadsBack.skip {calls : List (ControlEvent × AppendOutcome)} {events : List ControlEvent}
    (h : ReadsBack calls events) (e : ControlEvent) (outcome : AppendOutcome)
    (houtcome : outcome ≠ .ok) : ReadsBack (calls ++ [(e, outcome)]) events := by
  obtain ⟨kept, hsub, hmap, hkept, hok⟩ := h
  have hnot : outcome.isOk = false := by
    cases outcome with
    | ok => exact absurd rfl houtcome
    | refused => rfl
    | killed => rfl
  refine ⟨kept, hsub.trans (List.sublist_append_left _ _), hmap, hkept, ?_⟩
  rw [hok, List.filter_append, List.filter_singleton, hnot, cond_false, List.append_nil]

lemma ReadsBack.take {calls : List (ControlEvent × AppendOutcome)} {events : List ControlEvent}
    (h : ReadsBack calls events) (e : ControlEvent) {outcome : AppendOutcome}
    (houtcome : outcome = .ok ∨ outcome = .killed) :
    ReadsBack (calls ++ [(e, outcome)]) (events ++ [e]) := by
  obtain ⟨kept, hsub, hmap, hkept, hok⟩ := h
  refine ⟨kept ++ [(e, outcome)], hsub.append_right _, by simp [hmap], ?_, ?_⟩
  · intro call hcall
    rcases List.mem_append.mp hcall with hcall | hcall
    · exact hkept call hcall
    · rw [List.mem_singleton.mp hcall]
      exact houtcome
  · rw [List.filter_append, List.filter_append, hok]

lemma readStageEvents_getD (file : Option Bytes) (hvalid : ∀ e ∈ rows, e.validate instant = .ok ())
    (hcontent : file.getD [] = F.toRowFormat.log rows) :
    ∃ read, readStageEvents F instant file = .ok read ∧ read.list = rows := by
  cases file with
  | none =>
    have hrows : rows = [] := by
      have hlog := (@parseEvents_log F instant rows hvalid).symm.trans
        ((congrArg (parseEvents (F.reader instant)) hcontent.symm).trans
          (@parseEvents_log F instant [] nofun))
      exact Except.ok.inj hlog
    exact ⟨.absent, rfl, hrows.symm⟩
  | some content =>
    obtain rfl : content = F.toRowFormat.log rows := hcontent
    exact ⟨.events rows, by rw [readStageEvents, parseEvents_log hvalid], rfl⟩

lemma appendStageEvent_returns (file : Option Bytes)
    (hvalid : ∀ e ∈ rows, e.validate instant = .ok ())
    (hcontent : file.getD [] = F.toRowFormat.log rows) (h : Accepted instant refused event) :
    appendStageEvent F instant refused file event .returns =
      (some (F.toRowFormat.log (rows ++ [event])), .ok) := by
  have hvalid' : ∀ e ∈ rows ++ [event], e.validate instant = .ok () := by
    intro e he
    rcases List.mem_append.mp he with he | he
    · exact hvalid e he
    · rw [List.mem_singleton.mp he]
      exact h.1
  have hlog : file.getD [] ++ F.toRowFormat.line event = F.toRowFormat.log (rows ++ [event]) := by
    rw [hcontent, RowFormat.log_concat, RowFormat.line]
  unfold appendStageEvent
  rw [h.1, h.2]
  dsimp only
  rw [if_neg Bool.false_ne_true, hlog, readStageEvents, parseEvents_log hvalid']
  dsimp only
  rw [StageControlRead.list, if_pos (List.mem_append_right _ List.mem_cons_self)]

lemma survives_of_whole (h : Whole F instant s rows) : Survives F instant refused s where
  reads := by
    obtain ⟨read, hread, hlist⟩ := readStageEvents_getD s.file h.valid h.content
    exact ⟨read, hread, hlist ▸ h.kept⟩
  appends event hevent := by rw [appendStageEvent_returns s.file h.valid h.content hevent]

lemma appendStep_whole (h : Whole F instant s rows) {call : AppendCall}
    (hcall : WholeOrNothing F instant refused call) :
    ∃ rows, Whole F instant (appendStep F instant refused s call) rows := by
  cases hvalidate : call.event.validate instant with
  | error why =>
    refine ⟨rows, ⟨?_, h.valid, ?_⟩⟩
    · simpa [appendStep, appendStageEvent, hvalidate] using h.content
    · simpa [appendStep, appendStageEvent, hvalidate]
        using h.kept.skip call.event (.refused (.invalid why)) nofun
  | ok =>
    cases hrefused : refused call.event with
    | true =>
      refine ⟨rows, ⟨?_, h.valid, ?_⟩⟩
      · simpa [appendStep, appendStageEvent, hvalidate, hrefused] using h.content
      · simpa [appendStep, appendStageEvent, hvalidate, hrefused]
          using h.kept.skip call.event (.refused .fixture) nofun
    | false =>
      have hvalid' : ∀ e ∈ rows ++ [call.event], e.validate instant = .ok () := by
        intro e he
        rcases List.mem_append.mp he with he | he
        · exact h.valid e he
        · rw [List.mem_singleton.mp he]
          exact hvalidate
      cases hfate : call.fate with
      | killedBefore =>
        refine ⟨rows, ⟨?_, h.valid, ?_⟩⟩
        · simpa [appendStep, appendStageEvent, hvalidate, hrefused, hfate] using h.content
        · simpa [appendStep, appendStageEvent, hvalidate, hrefused, hfate]
            using h.kept.skip call.event .killed nofun
      | killed written =>
        rcases hcall ⟨hvalidate, hrefused⟩ written hfate with rfl | hwhole
        · refine ⟨rows, ⟨?_, h.valid, ?_⟩⟩
          · simpa [appendStep, appendStageEvent, hvalidate, hrefused, hfate] using h.content
          · simpa [appendStep, appendStageEvent, hvalidate, hrefused, hfate]
              using h.kept.skip call.event .killed nofun
        · refine ⟨rows ++ [call.event], ⟨?_, hvalid', ?_⟩⟩
          · have htake := List.take_of_length_le hwhole
            rw [RowFormat.log_concat, ← RowFormat.line]
            simp [appendStep, appendStageEvent, hvalidate, hrefused, hfate, h.content, htake]
          · simpa [appendStep, appendStageEvent, hvalidate, hrefused, hfate]
              using h.kept.take call.event (.inr rfl)
      | returns =>
        have hreturns := appendStageEvent_returns s.file h.valid h.content ⟨hvalidate, hrefused⟩
        refine ⟨rows ++ [call.event], ⟨?_, hvalid', ?_⟩⟩
        · simp [appendStep, hfate, hreturns]
        · simpa [appendStep, hfate, hreturns] using h.kept.take call.event (.inl rfl)

lemma not_survives_of_cut (h : Whole F instant s rows) {call : AppendCall}
    (hcall : ¬ WholeOrNothing F instant refused call) :
    ¬ Survives F instant refused (appendStep F instant refused s call) := by
  unfold WholeOrNothing at hcall
  push Not at hcall
  obtain ⟨haccepted, written, hfate, hne, hlt⟩ := hcall
  intro hsurvives
  have hfile : (appendStep F instant refused s call).file =
      some (F.toRowFormat.log rows ++ (F.toRowFormat.line call.event).take written) := by
    simp [appendStep, appendStageEvent, haccepted.1, haccepted.2, hfate, h.content]
  rw [length_line] at hlt
  rcases Nat.lt_or_eq_of_le (Nat.lt_succ_iff.mp hlt) with hlt | heq
  · obtain ⟨read, hread, -⟩ := hsurvives.reads
    obtain ⟨why, herror⟩ := @parseEvents_torn F instant rows call.event h.valid written
      (Nat.pos_of_ne_zero hne) hlt
    rw [hfile, RowFormat.line, List.take_append_of_le_length hlt.le, readStageEvents, herror] at hread
    cases hread
  · have happend := hsurvives.appends call.event haccepted
    obtain ⟨why, herror⟩ := parseEvents_joined (F := F) h.valid call.event call.event
    rw [hfile, heq] at happend
    have htake : (F.toRowFormat.line call.event).take (F.toRowFormat.bytes call.event).length =
        F.toRowFormat.bytes call.event := by
      rw [RowFormat.line, List.take_left]
    rw [htake, appendStageEvent, haccepted.1, haccepted.2] at happend
    dsimp only at happend
    rw [if_neg Bool.false_ne_true, Option.getD_some, readStageEvents, herror] at happend
    cases happend

/-- In every state of a run of appends the stream reads back and takes another record exactly when
every killed call has written nothing or its whole line. -/
theorem survives_along_iff (calls : List AppendCall) :
    (∀ before, before <+: calls →
      Survives F instant refused (exec (appendStep F instant refused) emptyStream before)) ↔
        ∀ call ∈ calls, WholeOrNothing F instant refused call := by
  have hgen : ∀ s rows, Whole F instant s rows →
      ((∀ before, before <+: calls →
        Survives F instant refused (exec (appendStep F instant refused) s before)) ↔
          ∀ call ∈ calls, WholeOrNothing F instant refused call) := by
    induction calls with
    | nil =>
      intro s rows h
      refine ⟨fun _ => nofun, fun _ before hbefore => ?_⟩
      rw [List.prefix_nil.mp hbefore]
      exact survives_of_whole h
    | cons call calls ih =>
      intro s rows h
      rw [List.forall_mem_cons]
      constructor
      · intro hsurvives
        have hcall : WholeOrNothing F instant refused call := by
          by_contra hcut
          exact not_survives_of_cut h hcut
            (hsurvives [call] (List.cons_prefix_cons.mpr ⟨rfl, List.nil_prefix⟩))
        obtain ⟨rows', h'⟩ := appendStep_whole h hcall
        refine ⟨hcall, (ih _ rows' h').mp fun before hbefore => ?_⟩
        exact hsurvives (call :: before) (List.cons_prefix_cons.mpr ⟨rfl, hbefore⟩)
      · rintro ⟨hcall, hcalls⟩ before hbefore
        obtain ⟨rows', h'⟩ := appendStep_whole h hcall
        cases before with
        | nil => exact survives_of_whole h
        | cons first before =>
          obtain ⟨rfl, hrest⟩ := List.cons_prefix_cons.mp hbefore
          exact (ih _ rows' h').mpr hcalls before hrest
  exact hgen emptyStream [] whole_emptyStream

end Runs

section Json
open TextCodec

/-- `kebab-case` names. -/
def ControlAction.name : ControlAction → Text
  | .hide => "hide".toList
  | .unhide => "unhide".toList
  | .purge => "purge".toList
  | .redact => "redact".toList

def ControlAction.ofName (name : Text) : ControlAction :=
  if name = "hide".toList then .hide
  else if name = "unhide".toList then .unhide
  else if name = "purge".toList then .purge
  else .redact

def ControlScope.members : ControlScope → Text × Option Text
  | .session => ("session".toList, none)
  | .sessionForever => ("session-forever".toList, none)
  | .contentThroughCutoff recordedCutoff => ("content-through-cutoff".toList, some recordedCutoff)

def ControlScope.ofMembers (members : Text × Option Text) : ControlScope :=
  match members.2 with
  | some recordedCutoff => .contentThroughCutoff recordedCutoff
  | none => if members.1 = "session".toList then .session else .sessionForever

def scopeCodec : Codec ControlScope :=
  ((stringCodec.andThen selfDelimiting_stringCodec
    (stringCodec.optional ",\"recorded_cutoff\":".toList '\x7d' isDigit_closeBrace (by decide)
      (by decide))).preceded "\x7b\"scope\":".toList).imap .ofMembers ControlScope.members
        fun scope => by cases scope <;> rfl

lemma selfDelimiting_scope : scopeCodec.SelfDelimiting :=
  ((selfDelimiting_stringCodec.andThen (Codec.selfDelimiting_optional _ _ _ _ _)).preceded _).imap
    _ _ _

lemma avoids_scope : scopeCodec.Avoids '\n' :=
  ((avoids_stringCodec.andThen _ (avoids_stringCodec.optional (by decide) (by decide) _ _
    _)).preceded (by decide)).imap _ _ _

/-- The members from `actor_machine` on. -/
def actorCodec : Codec (Text × ControlScope × Option Text) :=
  (stringCodec.andThen selfDelimiting_stringCodec
    ((scopeCodec.andThen selfDelimiting_scope
      (stringCodec.optional ",\"reason\":".toList '\x7d' isDigit_closeBrace (by decide)
        (by decide))).preceded ",\"scope\":".toList)).preceded ",\"actor_machine\":".toList

lemma selfDelimiting_actor : actorCodec.SelfDelimiting :=
  (selfDelimiting_stringCodec.andThen ((selfDelimiting_scope.andThen
    (Codec.selfDelimiting_optional _ _ _ _ _)).preceded _)).preceded _

lemma avoids_actor : actorCodec.Avoids '\n' :=
  (avoids_stringCodec.andThen _ ((avoids_scope.andThen _ (avoids_stringCodec.optional (by decide)
    (by decide) _ _ _)).preceded (by decide))).preceded (by decide)

lemma endsWith_actor : actorCodec.EndsWith '\x7d' :=
  ((((Codec.endsWith_optional _ _ _ _ _).andThen _ _).preceded _).andThen _ _).preceded _

/-- The members from `action` on. -/
def actionCodec : Codec (Text × Text × Text × Text × ControlScope × Option Text) :=
  (stringCodec.andThen selfDelimiting_stringCodec
    ((stringCodec.andThen selfDelimiting_stringCodec
      ((stringCodec.andThen selfDelimiting_stringCodec actorCodec).preceded
        ",\"session_id\":".toList)).preceded ",\"target_machine\":".toList)).preceded
          ",\"action\":".toList

lemma selfDelimiting_action : actionCodec.SelfDelimiting :=
  (selfDelimiting_stringCodec.andThen ((selfDelimiting_stringCodec.andThen
    ((selfDelimiting_stringCodec.andThen selfDelimiting_actor).preceded _)).preceded _)).preceded _

lemma avoids_action : actionCodec.Avoids '\n' :=
  (avoids_stringCodec.andThen _ ((avoids_stringCodec.andThen _ ((avoids_stringCodec.andThen _
    avoids_actor).preceded (by decide))).preceded (by decide))).preceded (by decide)

lemma endsWith_action : actionCodec.EndsWith '\x7d' :=
  ((((((endsWith_actor.andThen _ _).preceded _).andThen _ _).preceded _).andThen _ _).preceded _)

/-- The JSON object of a control record, its members in the order they are declared. -/
def controlCodec : Codec ControlEvent :=
  ((stringCodec.andThen selfDelimiting_stringCodec
    ((stringCodec.andThen selfDelimiting_stringCodec
      ((stringCodec.andThen selfDelimiting_stringCodec actionCodec).preceded
        ",\"recorded_at\":".toList)).preceded ",\"operation_id\":".toList)).preceded
          "\x7b\"schema\":".toList).imap
    (fun x => ⟨x.1, x.2.1, x.2.2.1, .ofName x.2.2.2.1, x.2.2.2.2.1, x.2.2.2.2.2.1, x.2.2.2.2.2.2.1,
      x.2.2.2.2.2.2.2.1, x.2.2.2.2.2.2.2.2⟩)
    (fun e => (e.schema, e.operationId, e.recordedAt, e.action.name, e.targetMachine, e.sessionId,
      e.actorMachine, e.scope, e.reason))
    fun e => by
      obtain ⟨schema, operationId, recordedAt, action, targetMachine, sessionId, actorMachine, scope,
        reason⟩ := e
      cases action <;> rfl

lemma selfDelimiting_control : controlCodec.SelfDelimiting :=
  ((selfDelimiting_stringCodec.andThen ((selfDelimiting_stringCodec.andThen
    ((selfDelimiting_stringCodec.andThen selfDelimiting_action).preceded _)).preceded _)).preceded
      _).imap _ _ _

def controlJson : ControlFormat where
  toRowFormat := .ofCodec controlCodec selfDelimiting_control
    (((avoids_stringCodec.andThen _ ((avoids_stringCodec.andThen _ ((avoids_stringCodec.andThen _
      avoids_action).preceded (by decide))).preceded (by decide))).preceded (by decide)).imap _ _ _)
    (((((((endsWith_action.andThen _ _).preceded _).andThen _ _).preceded _).andThen _ _).preceded
      _).imap _ _ _)
  starts _ := rfl
  read_two e e' := by
    have hread := selfDelimiting_control e (controlCodec.write e')
    have hne : controlCodec.write e ≠ controlCodec.write e ++ controlCodec.write e' := by
      intro heq
      have hnil : controlCodec.write e' = [] := List.self_eq_append_right.mp heq
      exact absurd hnil (List.cons_ne_nil _ _)
    change ((controlCodec.read (controlCodec.write e ++ controlCodec.write e')).bind _) = none
    rw [hread, Option.bind_some]
    exact if_neg hne

def hideRecord : ControlEvent where
  schema := controlSchema
  operationId := ['o']
  recordedAt := ['t']
  action := .hide
  targetMachine := ['m']
  sessionId := ['s']
  actorMachine := ['m']
  scope := .session
  reason := none

/-- An append that is killed after five bytes of its record takes the stream away. -/
theorem killed_record_unreadable :
    ¬ Survives controlJson (fun _ => some 0) (fun _ => false)
      (exec (appendStep controlJson (fun _ => some 0) fun _ => false) emptyStream
        [⟨hideRecord, .killed 5⟩]) := by
  rw [exec_cons, exec_nil]
  refine not_survives_of_cut whole_emptyStream fun hwhole => ?_
  have haccepted : Accepted (fun _ => some 0) (fun _ => false) hideRecord := ⟨by decide, rfl⟩
  rcases hwhole haccepted 5 rfl with hzero | hle
  · exact absurd hzero (by decide)
  · exact absurd hle (by decide +kernel)

end Json

end ChatStasher.Deletion
