import ChatStasher.Export.KeptMessages

/-! What an export may drop from a session, and exactly when its filters drop only that. -/
namespace ChatStasher.Export
open Activity (LineFormat)
open Inbox (Text)
open Selection (TimeWindow)
open StepRun

/-- The same words in the other record shape, at most fifteen minutes later. -/
structure Repeats (prev msg : HumanLine) : Prop where
  text : msg.text = prev.text
  kind : prev.kind ≠ msg.kind
  time : isDuplicateCopy prev.unix msg.unix = true

/-- The written bytes are lines of the body, in order, and the counts are theirs; every line that is
missing has its reason, and so has no line that is there. -/
structure DropsOnlyWhatItMay (format : LineFormat) (filters : Filters) (raw : Bytes)
    (r : FilteredSession) : Prop where
  fates : r.fates.length = (lineSpans raw).length
  bytes : r.bytes = (writtenLines (lineSpans raw) r.fates).flatten
  ordered : (writtenLines (lineSpans raw) r.fates).Sublist (lineSpans raw)
  total : r.linesTotal = (lineSpans raw).length
  written : r.linesWritten = (writtenLines (lineSpans raw) r.fates).length
  untimed : r.untimedLines =
    (writtenLines (lineSpans raw) r.fates).countP (untimed format filters)
  untouched : filters.turns = .notRequested → filters.trim = none → r.bytes = raw
  notHuman : ∀ {i : ℕ} {line : Bytes}, (lineSpans raw)[i]? = some line →
    r.fates[i]? = some .notHuman →
      filters.turns = .applied ∧ humanLine format filters.harness line = none
  outside : ∀ {i : ℕ} {line : Bytes}, (lineSpans raw)[i]? = some line →
    r.fates[i]? = some .outside → ∃ window t, filters.trim = some window ∧
      lineTime format filters.harness line = some t ∧ window.meets t t = false
  leftOut : ∀ {i : ℕ} {line : Bytes} {window : TimeWindow} {t : ℤ},
    (lineSpans raw)[i]? = some line → filters.trim = some window →
      lineTime format filters.harness line = some t → window.meets t t = false →
        r.fates[i]? ≠ some Fate.written
  copy : ∀ {i j : ℕ} {line : Bytes}, (lineSpans raw)[i]? = some line →
    r.fates[i]? = some (.duplicate j) → j < i ∧ r.fates[j]? = some .written ∧
      ∃ first prev msg, (lineSpans raw)[j]? = some first ∧
        humanLine format filters.harness first = some prev ∧
          humanLine format filters.harness line = some msg ∧ Repeats prev msg
  once : ∀ {i i' j : ℕ}, r.fates[i]? = some (.duplicate j) →
    r.fates[i']? = some (.duplicate j) → i = i'
  everyMessage : filters.turns = .applied →
    ∀ {i : ℕ} {line : Bytes} {window : TimeWindow} {msg : HumanLine} {t : ℤ},
      (lineSpans raw)[i]? = some line → filters.trim = some window →
        humanLine format filters.harness line = some msg → msg.unix = some t →
          window.meets t t = true → ∃ j first prev, r.fates[j]? = some .written ∧
            (lineSpans raw)[j]? = some first ∧
              humanLine format filters.harness first = some prev ∧
                (j = i ∨ Repeats prev msg)

/-- Where the trim runs, a line that the turns filter lets through and whose own time lies outside the
window is one that the trim reads a time from, and places outside; and a turn that a message typed in
mid-turn repeats has its own time inside. -/
def Telling (format : LineFormat) (filters : Filters) (s : Filtering) (line : Bytes) : Prop :=
  ∀ window ∈ filters.trim,
    match turnsVerdict format filters s.keptHuman line with
    | .notHuman => True
    | .duplicate _ prev => prev.kind = .turn → ∀ t ∈ prev.unix, window.meets t t = true
    | .passes _ => ∀ t ∈ lineTime format filters.harness line, window.meets t t = false →
        lineTiming format filters.harness window line = .timed false

section Runs

variable {format : LineFormat} {filters : Filters} {raw : Bytes}

def filtered (format : LineFormat) (filters : Filters) (raw : Bytes) : FilteredSession :=
  let s := exec (filterLine format filters) .start (lineSpans raw)
  ⟨s.bytes, (lineSpans raw).length, s.written, s.untimed, filters.turns, filters.trim.isSome,
    s.fates⟩

lemma fates_unfiltered (hturns : filters.turns = .notRequested) (htrim : filters.trim = none)
    (lines : List Bytes) :
    (exec (filterLine format filters) .start lines).fates =
      List.replicate lines.length .written := by
  induction lines using List.reverseRecOn with
  | nil => rfl
  | append_singleton lines line ih =>
    have hfate (s : Filtering) : fate format filters s line = .written := by
      unfold fate turnsVerdict trimFate
      rw [hturns, htrim, if_neg (by decide)]
    rw [exec_concat, filterLine_fates, ih, hfate, List.length_append, List.length_singleton,
      List.replicate_succ']

lemma writtenLines_replicate (lines : List Bytes) :
    writtenLines lines (List.replicate lines.length .written) = lines := by
  induction lines with
  | nil => rfl
  | cons line lines ih =>
    unfold writtenLines at ih ⊢
    rw [List.length_cons, List.replicate_succ, List.zip_cons_cons,
      List.filter_cons_of_pos (by rfl), List.map_cons, ih]

theorem filterSession_eq_filtered (harness : Option String) (opts : ExportOptions)
    (window : Option TimeWindow) :
    filterSession format harness raw opts window =
      filtered format (opts.filters harness window) raw := by
  unfold filterSession
  dsimp only
  split
  · rename_i hinactive
    obtain ⟨hturns, htrim⟩ := hinactive
    have htally := @tallied_exec format (opts.filters harness window) (lineSpans raw)
    have hfates := @fates_unfiltered format _ hturns htrim (lineSpans raw)
    have hbytes := htally.bytes
    have hwritten := htally.written
    have huntimed := htally.untimed
    rw [hfates, writtenLines_replicate] at hbytes hwritten huntimed
    rw [flatten_lineSpans] at hbytes
    have hnone : (lineSpans raw).countP (untimed format (opts.filters harness window)) = 0 := by
      refine List.countP_eq_zero.mpr fun line _ => ?_
      unfold untimed
      rw [htrim]
      exact Bool.false_ne_true
    rw [hnone] at huntimed
    unfold filtered
    dsimp only
    rw [hbytes, hwritten, huntimed, hfates, htrim]
    rfl
  · rfl

lemma harness_of_applied {harness : Option String} {opts : ExportOptions}
    {window : Option TimeWindow} (h : (opts.filters harness window).turns = .applied) :
    (opts.filters harness window).harness = "claude-code" := by
  unfold ExportOptions.filters at h ⊢
  dsimp only at h ⊢
  split at h
  · exact nomatch h
  · split at h
    · rename_i hharness
      exact List.mem_singleton.mp hharness
    · exact nomatch h

lemma filtered_fates_at {pre post : List Bytes} {line : Bytes}
    (h : lineSpans raw = pre ++ line :: post) :
    (filtered format filters raw).fates[pre.length]? =
      some (fate format filters (exec (filterLine format filters) .start pre) line) := by
  unfold filtered
  rw [h]
  exact fates_at pre line post

lemma filtered_fates_isPrefix {pre post : List Bytes} (h : lineSpans raw = pre ++ post) :
    (exec (filterLine format filters) .start pre).fates <+: (filtered format filters raw).fates := by
  unfold filtered
  dsimp only
  rw [h, exec_append]
  exact fates_exec_isPrefix _ _

lemma remembered_of_duplicate {pre post : List Bytes} {line : Bytes} {text : Text} {prev : Kept}
    (hsplit : lineSpans raw = pre ++ line :: post)
    (hverdict : turnsVerdict format filters
      (exec (filterLine format filters) .start pre).keptHuman line = .duplicate text prev) :
    prev.line < pre.length ∧ ∃ first msg, (lineSpans raw)[prev.line]? = some first ∧
      humanLine format filters.harness first = some ⟨prev.kind, text, prev.unix⟩ ∧
        humanLine format filters.harness line = some msg ∧
          Repeats ⟨prev.kind, text, prev.unix⟩ msg ∧
            (filtered format filters raw).fates[prev.line]? =
              some (trimFate format filters first) := by
  obtain ⟨-, hkept, msg, hmsg, htext, hkind, htime⟩ := humanLine_of_duplicate hverdict
  obtain ⟨first, hfirst, hhuman, hfate⟩ := (remembers_exec pre).kept hkept
  refine ⟨(List.getElem?_eq_some_iff.mp hfirst).1, first, msg, ?_, hhuman, hmsg,
    ⟨htext, hkind, htime⟩, ?_⟩
  · rw [hsplit]
    exact getElem?_of_prefix (List.prefix_append _ _) hfirst
  · exact getElem?_of_prefix (filtered_fates_isPrefix hsplit) hfate

lemma trimFate_of_turn {window : TimeWindow} {first : Bytes} {msg : HumanLine}
    (hharness : filters.harness = "claude-code") (htrim : filters.trim = some window)
    (hhuman : humanLine format filters.harness first = some msg) (hkind : msg.kind = .turn) :
    trimFate format filters first = .written ↔ ∀ t ∈ msg.unix, window.meets t t = true := by
  rw [hharness] at hhuman
  have htiming := lineTiming_of_turn window hhuman hkind
  unfold trimFate
  rw [htrim, hharness]
  dsimp only
  rw [htiming]
  cases hunix : msg.unix with
  | none => simp
  | some t =>
    cases hmeets : window.meets t t with
    | true => simp [hmeets]
    | false => simp [hmeets]

lemma trimFate_of_midTurn {first : Bytes} {msg : HumanLine}
    (hharness : filters.harness = "claude-code")
    (hhuman : humanLine format filters.harness first = some msg) (hkind : msg.kind = .midTurn) :
    trimFate format filters first = .written := by
  rw [hharness] at hhuman
  unfold trimFate
  cases filters.trim with
  | none => rfl
  | some window =>
    dsimp only
    rw [hharness, lineTiming_of_midTurn window hhuman hkind]
    rfl

lemma not_outside_of_written {window : TimeWindow} {line : Bytes}
    (htrim : filters.trim = some window) :
    trimFate format filters line = .written ↔
      lineTiming format filters.harness window line ≠ .timed false := by
  unfold trimFate
  rw [htrim]
  by_cases h : lineTiming format filters.harness window line = .timed false <;> simp [h]

end Runs

section Exactness

variable {format : LineFormat} {filters : Filters} {raw : Bytes}

lemma fate_notHuman {s : Filtering} {line : Bytes}
    (h : fate format filters s line = .notHuman) :
    turnsVerdict format filters s.keptHuman line = .notHuman := by
  unfold fate at h
  cases hverdict : turnsVerdict format filters s.keptHuman line with
  | notHuman => rfl
  | duplicate text prev =>
    rw [hverdict] at h
    exact nomatch h
  | passes msg =>
    rw [hverdict] at h
    obtain hcase | hcase := trimFate_cases format filters line <;> exact nomatch hcase.symm.trans h

lemma fate_outside {s : Filtering} {line : Bytes}
    (h : fate format filters s line = .outside) : ∃ window, filters.trim = some window ∧
      lineTiming format filters.harness window line = .timed false := by
  unfold fate at h
  cases hverdict : turnsVerdict format filters s.keptHuman line with
  | notHuman | duplicate text prev =>
    rw [hverdict] at h
    exact nomatch h
  | passes msg =>
    rw [hverdict] at h
    dsimp only at h
    cases htrim : filters.trim with
    | none =>
      unfold trimFate at h
      rw [htrim] at h
      exact nomatch h
    | some window =>
      refine ⟨window, rfl, ?_⟩
      by_contra hne
      rw [(not_outside_of_written htrim).mpr hne] at h
      exact nomatch h

/-- The line that a copy stands for, and that it is written where the lines are telling. -/
lemma copy_of_telling {pre post : List Bytes} {line : Bytes} {j : ℕ}
    (hharness : filters.turns = .applied → filters.harness = "claude-code")
    (hsplit : lineSpans raw = pre ++ line :: post)
    (htelling : Telling format filters (exec (filterLine format filters) .start pre) line)
    (hfate : fate format filters (exec (filterLine format filters) .start pre) line =
      .duplicate j) :
    j < pre.length ∧ (filtered format filters raw).fates[j]? = some .written ∧
      ∃ first prev msg, (lineSpans raw)[j]? = some first ∧
        humanLine format filters.harness first = some prev ∧
          humanLine format filters.harness line = some msg ∧ Repeats prev msg := by
  obtain ⟨text, prev, hverdict, rfl⟩ := duplicate_of_fate hfate
  have happlied := hharness (humanLine_of_duplicate hverdict).1
  obtain ⟨hlt, first, msg, hfirst, hhuman, hmsg, hrepeats, hat⟩ :=
    remembered_of_duplicate hsplit hverdict
  have hwritten : trimFate format filters first = .written := by
    cases htrim : filters.trim with
    | none =>
      unfold trimFate
      rw [htrim]
    | some window =>
      cases hkind : prev.kind with
      | turn =>
        have hinside := htelling window htrim
        rw [hverdict] at hinside
        exact (trimFate_of_turn happlied htrim hhuman hkind).mpr (hinside hkind)
      | midTurn => exact trimFate_of_midTurn happlied hhuman hkind
  rw [hwritten] at hat
  exact ⟨hlt, hat, first, _, msg, hfirst, hhuman, hmsg, hrepeats⟩

theorem drops_of_telling (hharness : filters.turns = .applied → filters.harness = "claude-code")
    (h : Along (filterLine format filters) (Telling format filters) .start (lineSpans raw)) :
    DropsOnlyWhatItMay format filters raw (filtered format filters raw) := by
  have htally := @tallied_exec format filters (lineSpans raw)
  have hremembers := @remembers_exec format filters (lineSpans raw)
  rw [along_iff_forall] at h
  have hcopy : ∀ {i j : ℕ} {line : Bytes}, (lineSpans raw)[i]? = some line →
      (filtered format filters raw).fates[i]? = some (.duplicate j) →
        j < i ∧ (filtered format filters raw).fates[j]? = some .written ∧
          ∃ first prev msg, (lineSpans raw)[j]? = some first ∧
            humanLine format filters.harness first = some prev ∧
              humanLine format filters.harness line = some msg ∧ Repeats prev msg := by
    intro i j line hline hfate
    obtain ⟨pre, post, hsplit, rfl⟩ := exists_split hline
    rw [filtered_fates_at hsplit] at hfate
    exact copy_of_telling hharness hsplit (h pre line post hsplit) (Option.some.inj hfate)
  have houtside : ∀ {i : ℕ} {line : Bytes}, (lineSpans raw)[i]? = some line →
      (filtered format filters raw).fates[i]? = some .outside → ∃ window t,
        filters.trim = some window ∧ lineTime format filters.harness line = some t ∧
          window.meets t t = false := by
    intro i line hline hfate
    obtain ⟨pre, post, hsplit, rfl⟩ := exists_split hline
    rw [filtered_fates_at hsplit] at hfate
    obtain ⟨window, htrim, htiming⟩ := fate_outside (Option.some.inj hfate)
    obtain ⟨t, ht, hmeets⟩ := lineTime_of_outside htiming
    exact ⟨window, t, htrim, ht, hmeets⟩
  refine ⟨htally.length, htally.bytes, writtenLines_sublist htally.length, rfl, htally.written,
    htally.untimed, ?_, ?_, houtside, ?_, hcopy, ?_, ?_⟩
  · intro hturns htrim
    have hbytes := htally.bytes
    rw [fates_unfiltered hturns htrim, writtenLines_replicate, flatten_lineSpans] at hbytes
    exact hbytes
  · intro i line hline hfate
    obtain ⟨pre, post, hsplit, rfl⟩ := exists_split hline
    rw [filtered_fates_at hsplit] at hfate
    exact humanLine_of_notHuman (fate_notHuman (Option.some.inj hfate))
  · intro i line window t hline htrim ht hmeets hfate
    obtain ⟨pre, post, hsplit, rfl⟩ := exists_split hline
    rw [filtered_fates_at hsplit] at hfate
    have htelling := h pre line post hsplit window htrim
    have hwritten := Option.some.inj hfate
    unfold fate at hwritten
    cases hverdict : turnsVerdict format filters
        (exec (filterLine format filters) .start pre).keptHuman line with
    | notHuman | duplicate text prev =>
      rw [hverdict] at hwritten
      exact nomatch hwritten
    | passes msg =>
      rw [hverdict] at hwritten htelling
      exact (not_outside_of_written htrim).mp hwritten (htelling t ht hmeets)
  · intro i i' j hi hi'
    -- The earlier of two copies uses the remembered line up.
    have hearlier : ∀ {i i' : ℕ}, (filtered format filters raw).fates[i]? = some (.duplicate j) →
        (filtered format filters raw).fates[i']? = some (.duplicate j) → ¬ i < i' := by
      intro i i' hi hi' hlt
      have hlength : i' < (lineSpans raw).length := by
        have := (List.getElem?_eq_some_iff.mp hi').1
        exact htally.length ▸ this
      obtain ⟨pre, post, hsplit, rfl⟩ := exists_split (List.getElem?_eq_getElem hlength)
      rw [filtered_fates_at hsplit] at hi'
      obtain ⟨text, prev, hverdict, rfl⟩ := duplicate_of_fate (Option.some.inj hi')
      obtain ⟨-, hkept, -⟩ := humanLine_of_duplicate hverdict
      have hpre := @remembers_exec format filters pre
      refine hpre.single hkept i ?_
      obtain ⟨more, hmore⟩ := @filtered_fates_isPrefix format filters _ _ _ hsplit
      rw [← hmore, List.getElem?_append_left (by rw [hpre.length]; exact hlt)] at hi
      exact hi
    have hle := hearlier hi hi'
    have hge := hearlier hi' hi
    omega
  · intro happlied i line window msg t hline htrim hmsg hunix hmeets
    obtain ⟨pre, post, hsplit, rfl⟩ := exists_split hline
    have hat := @filtered_fates_at format filters _ _ _ _ hsplit
    cases hfate : fate format filters (exec (filterLine format filters) .start pre) line with
    | notHuman =>
      have hnone := (humanLine_of_notHuman (fate_notHuman hfate)).2
      rw [hmsg] at hnone
      exact nomatch hnone
    | duplicate j =>
      rw [hfate] at hat
      obtain ⟨-, hwritten, first, prev, msg', hfirst, hprev, hmsg', hrepeats⟩ := hcopy hline hat
      rw [hmsg] at hmsg'
      obtain rfl := Option.some.inj hmsg'
      exact ⟨j, first, prev, hwritten, hfirst, hprev, .inr hrepeats⟩
    | outside =>
      rw [hfate] at hat
      obtain ⟨window', t', htrim', ht', hmeets'⟩ := houtside hline hat
      rw [htrim] at htrim'
      obtain rfl := Option.some.inj htrim'
      obtain ⟨text, value, hdecode, -, -, hunix'⟩ := type_of_humanLine hmsg
      unfold lineTime at ht'
      rw [hdecode, Option.bind_some, ← hunix', hunix] at ht'
      obtain rfl := Option.some.inj ht'
      rw [hmeets] at hmeets'
      exact nomatch hmeets'
    | written =>
      rw [hfate] at hat
      exact ⟨pre.length, line, msg, hat, hline, hmsg, .inl rfl⟩

theorem telling_of_drops (hharness : filters.turns = .applied → filters.harness = "claude-code")
    (h : DropsOnlyWhatItMay format filters raw (filtered format filters raw)) :
    Along (filterLine format filters) (Telling format filters) .start (lineSpans raw) := by
  rw [along_iff_forall]
  intro pre line post hsplit window htrim
  have hline : (lineSpans raw)[pre.length]? = some line := by
    rw [hsplit, List.getElem?_append_right le_rfl]
    simp
  have hat := @filtered_fates_at format filters _ _ _ _ hsplit
  unfold fate at hat
  cases hverdict : turnsVerdict format filters
      (exec (filterLine format filters) .start pre).keptHuman line with
  | notHuman => trivial
  | duplicate text prev =>
    rw [hverdict] at hat
    intro hkind
    have happlied := hharness (humanLine_of_duplicate hverdict).1
    obtain ⟨-, first, msg, -, hhuman, -, -, hfirst⟩ := remembered_of_duplicate hsplit hverdict
    have hwritten := (h.copy hline hat).2.1
    rw [hfirst] at hwritten
    exact (trimFate_of_turn happlied htrim hhuman hkind).mp (Option.some.inj hwritten)
  | passes msg =>
    rw [hverdict] at hat
    intro t ht hmeets
    by_contra hne
    have hwritten : trimFate format filters line = .written :=
      (not_outside_of_written htrim).mpr hne
    dsimp only at hat
    rw [hwritten] at hat
    exact h.leftOut hline htrim ht hmeets hat

/-- The filters drop only what they may exactly on the bodies whose lines are telling. -/
theorem filterSession_drops_iff (format : LineFormat) (harness : Option String) (raw : Bytes)
    (opts : ExportOptions) (window : Option TimeWindow) :
    DropsOnlyWhatItMay format (opts.filters harness window) raw
        (filterSession format harness raw opts window) ↔
      Along (filterLine format (opts.filters harness window))
        (Telling format (opts.filters harness window)) .start (lineSpans raw) := by
  rw [filterSession_eq_filtered]
  exact ⟨telling_of_drops harness_of_applied, drops_of_telling harness_of_applied⟩

end Exactness

section Finding

/-- The same words as a turn at ten o'clock and as a message typed in mid-turn five minutes later. -/
def turnLine : Text :=
  ("\x7b\"type\":\"user\",\"message\":\x7b\"content\":\"run it\"\x7d," ++
    "\"timestamp\":\"2026-01-15T10:00:00Z\"\x7d").toList

def midTurnLine : Text :=
  ("\x7b\"type\":\"attachment\",\"attachment\":\x7b\"type\":\"queued_command\"," ++
    "\"prompt\":\"run it\"\x7d,\"timestamp\":\"2026-01-15T10:05:00Z\"\x7d").toList

def bothLines : Bytes := Inbox.utf8 (turnLine ++ '\n' :: midTurnLine ++ ['\n'])

def stamped (type : String) (time : String) (members : List (Text × GrokBot.Value)) :
    GrokBot.Value :=
  .object (("type".toList, .string type.toList) ::
    members ++ [("timestamp".toList, .string time.toList)])

def turnRecord : GrokBot.Value :=
  stamped "user" "2026-01-15T10:00:00Z"
    [("message".toList, .object [("content".toList, .string "run it".toList)])]

def midTurnRecord : GrokBot.Value :=
  stamped "attachment" "2026-01-15T10:05:00Z"
    [("attachment".toList, .object [("type".toList, .string "queued_command".toList),
      ("prompt".toList, .string "run it".toList)])]

/-- What ASCII text says, and the JSON of the two lines. -/
def twoLines : LineFormat where
  decode line := some (line.map fun b => Char.ofNat b.toNat)
  parse text :=
    if text = turnLine then some turnRecord
    else if text = midTurnLine then some midTurnRecord
    else none
  parse_nil := by decide +kernel
  wholeFloat _ := none
  otherTime _ _ := .noTimestampField
  otherTime_ordered := nofun

/-- The message typed at five past ten lies in a window that begins at three minutes past. It is left
out as a copy of the turn, and the turn for its time. -/
theorem message_in_window_lost :
    ¬ DropsOnlyWhatItMay twoLines
        (ExportOptions.filters (some "claude-code") ⟨.user, true⟩ (some ⟨some 1768471380, none⟩))
        bothLines
        (filterSession twoLines (some "claude-code") bothLines
          ⟨.user, true⟩ (some ⟨some 1768471380, none⟩)) := by
  intro h
  have hline : (lineSpans bothLines)[1]? =
      some (Inbox.utf8 (midTurnLine ++ ['\n'])) := by decide +kernel
  have hfates : (filterSession twoLines (some "claude-code")
      bothLines ⟨.user, true⟩
        (some ⟨some 1768471380, none⟩)).fates = [.outside, .duplicate 0] := by decide +kernel
  have hwritten := (h.copy hline (by rw [hfates]; rfl)).2.1
  rw [hfates] at hwritten
  exact nomatch hwritten

end Finding

end ChatStasher.Export
