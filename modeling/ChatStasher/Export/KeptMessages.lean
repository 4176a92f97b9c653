import ChatStasher.Export.LineFilters
import ChatStasher.Search.KnownAnswers

/-! What the two filters of an export leave out, and exactly when it is only what they may. -/
namespace ChatStasher.Export
open Activity (LineFormat)
open Inbox (Text)
open Selection (TimeWindow)
open StepRun

variable {format : LineFormat} {filters : Filters} {harness : String} {line : Bytes}

section Times

lemma lineTiming_eq (window : TimeWindow) {text : Text} (hdecode : format.decode line = some text) :
    lineTiming format harness window line =
      match format.lineSpan harness text with
      | some (first, last) => .timed (window.meets first last)
      | none => .untimed := by
  obtain ⟨hfirst, hlast⟩ := Activity.analyze_line format harness text
  unfold lineTiming
  rw [hdecode]
  dsimp only
  rw [hfirst, hlast]
  cases format.lineSpan harness text with
  | none => rfl
  | some span => rfl

lemma lineTime_of_outside {window : TimeWindow}
    (h : lineTiming format harness window line = .timed false) :
    ∃ t, lineTime format harness line = some t ∧ window.meets t t = false := by
  cases hdecode : format.decode line with
  | none =>
    unfold lineTiming at h
    rw [hdecode] at h
    exact nomatch h
  | some text =>
    rw [lineTiming_eq window hdecode] at h
    cases hspan : format.lineSpan harness text with
    | none =>
      rw [hspan] at h
      exact nomatch h
    | some span =>
      obtain ⟨first, last⟩ := span
      rw [hspan] at h
      obtain ⟨hunix, hle⟩ := Activity.LineFormat.lineUnix_of_lineSpan hspan
      refine ⟨first, ?_, ?_⟩
      · unfold lineTime
        rw [hdecode, Option.bind_some, hunix]
      · have hmeets : window.meets first last = false := LineTiming.timed.inj h
        cases hinside : window.meets first first with
        | false => rfl
        | true => rw [← hmeets, Selection.TimeWindow.meets_of_inner hinside le_rfl hle]

end Times

section Steps

variable {s : Filtering} {kept : Text → Option Kept} {prev : Kept} {text : Text}

lemma humanLine_of_duplicate
    (h : turnsVerdict format filters kept line = .duplicate text prev) :
    filters.turns = .applied ∧ kept text = some prev ∧
      ∃ msg, humanLine format filters.harness line = some msg ∧ msg.text = text ∧
        prev.kind ≠ msg.kind ∧ isDuplicateCopy prev.unix msg.unix = true := by
  unfold turnsVerdict at h
  split at h
  · rename_i happlied
    split at h
    · exact nomatch h
    · rename_i msg hmsg
      split at h
      · rename_i prev' hkept
        split at h
        · rename_i hcopy
          cases h
          exact ⟨happlied, hkept, msg, hmsg, rfl, hcopy⟩
        · exact nomatch h
      · exact nomatch h
  · exact nomatch h

lemma humanLine_of_notHuman (h : turnsVerdict format filters kept line = .notHuman) :
    filters.turns = .applied ∧ humanLine format filters.harness line = none := by
  unfold turnsVerdict at h
  split at h
  · rename_i happlied
    split at h
    · rename_i hnone
      exact ⟨happlied, hnone⟩
    · split at h
      · split at h <;> exact nomatch h
      · exact nomatch h
  · exact nomatch h

lemma humanLine_of_passes {msg : HumanLine}
    (h : turnsVerdict format filters kept line = .passes (some msg)) :
    humanLine format filters.harness line = some msg := by
  unfold turnsVerdict at h
  split at h
  · split at h
    · exact nomatch h
    · rename_i msg' hmsg
      split at h
      · split at h
        · exact nomatch h
        · cases h
          exact hmsg
      · cases h
        exact hmsg
  · exact nomatch h

def fate (format : LineFormat) (filters : Filters) (s : Filtering) (line : Bytes) : Fate :=
  match turnsVerdict format filters s.keptHuman line with
  | .notHuman => .notHuman
  | .duplicate _ prev => .duplicate prev.line
  | .passes _ => trimFate format filters line

lemma trimFate_cases (format : LineFormat) (filters : Filters) (line : Bytes) :
    trimFate format filters line = .written ∨ trimFate format filters line = .outside := by
  unfold trimFate
  cases filters.trim with
  | none => exact .inl rfl
  | some window =>
    dsimp only
    split
    · exact .inr rfl
    · exact .inl rfl

lemma filterLine_passes {msg : Option HumanLine}
    (h : turnsVerdict format filters s.keptHuman line = .passes msg) :
    (filterLine format filters s line).keptHuman = s.keep msg ∧
      (filterLine format filters s line).fates =
        s.fates ++ [trimFate format filters line] := by
  unfold filterLine
  rw [h]
  dsimp only
  obtain hfate | hfate := trimFate_cases format filters line <;> rw [hfate] <;> exact ⟨rfl, rfl⟩

lemma filterLine_fates (s : Filtering) (line : Bytes) :
    (filterLine format filters s line).fates = s.fates ++ [fate format filters s line] := by
  unfold fate
  cases hverdict : turnsVerdict format filters s.keptHuman line with
  | notHuman =>
    unfold filterLine
    rw [hverdict]
  | duplicate text prev =>
    unfold filterLine
    rw [hverdict]
  | passes msg => exact (filterLine_passes hverdict).2

lemma fates_exec_isPrefix (s : Filtering) (lines : List Bytes) :
    s.fates <+: (exec (filterLine format filters) s lines).fates := by
  induction lines generalizing s with
  | nil => exact List.prefix_rfl
  | cons line lines ih =>
    refine List.IsPrefix.trans ?_ (ih (filterLine format filters s line))
    rw [filterLine_fates]
    exact List.prefix_append _ _

lemma length_fates_exec (s : Filtering) (lines : List Bytes) :
    (exec (filterLine format filters) s lines).fates.length = s.fates.length + lines.length := by
  induction lines generalizing s with
  | nil => rfl
  | cons line lines ih =>
    rw [exec_cons, ih, filterLine_fates, List.length_append, List.length_singleton,
      List.length_cons]
    omega

lemma fates_at (pre : List Bytes) (line : Bytes) (post : List Bytes) :
    (exec (filterLine format filters) .start (pre ++ line :: post)).fates[pre.length]? =
      some (fate format filters (exec (filterLine format filters) .start pre) line) := by
  have hlength := @length_fates_exec format filters .start pre
  rw [exec_append, exec_cons]
  set s := exec (filterLine format filters) .start pre
  obtain ⟨more, hmore⟩ :=
    @fates_exec_isPrefix format filters (filterLine format filters s line) post
  have hat : pre.length = s.fates.length := by
    rw [hlength]
    exact (Nat.zero_add _).symm
  rw [← hmore, filterLine_fates, hat, List.append_assoc, List.getElem?_append_right le_rfl]
  simp

end Steps

section Memory

lemma getElem?_concat {α : Type*} {l : List α} {a x : α} {i : ℕ}
    (h : (l ++ [a])[i]? = some x) : l[i]? = some x ∨ i = l.length ∧ a = x := by
  obtain hlt | hge := lt_or_ge i l.length
  · rw [List.getElem?_append_left hlt] at h
    exact .inl h
  · rw [List.getElem?_append_right hge] at h
    obtain ⟨hi, heq⟩ := List.getElem?_eq_some_iff.mp h
    simp only [List.length_singleton] at hi
    refine .inr ⟨by omega, ?_⟩
    simpa [show i - l.length = 0 by omega] using heq

lemma getElem?_of_prefix {α : Type*} {l l' : List α} {x : α} {i : ℕ} (h : l <+: l')
    (hx : l[i]? = some x) : l'[i]? = some x := by
  obtain ⟨more, rfl⟩ := h
  rw [List.getElem?_append_left (List.getElem?_eq_some_iff.mp hx).1, hx]

lemma exists_split {α : Type*} {l : List α} {x : α} {i : ℕ} (h : l[i]? = some x) :
    ∃ pre post, l = pre ++ x :: post ∧ pre.length = i := by
  obtain ⟨hi, rfl⟩ := List.getElem?_eq_some_iff.mp h
  refine ⟨l.take i, l.drop (i + 1), ?_, List.length_take_of_le hi.le⟩
  rw [List.getElem_cons_drop, List.take_append_drop]

/-- A remembered line has passed the duplicate rule and no line was a copy of it yet; a copy comes
after its line. -/
structure Remembers (format : LineFormat) (filters : Filters) (done : List Bytes)
    (s : Filtering) : Prop where
  length : s.fates.length = done.length
  backward : ∀ {i j : ℕ}, s.fates[i]? = some (Fate.duplicate j) → j < i
  kept : ∀ {text : Text} {prev : Kept}, s.keptHuman text = some prev →
    ∃ line, done[prev.line]? = some line ∧
      humanLine format filters.harness line = some ⟨prev.kind, text, prev.unix⟩ ∧
        s.fates[prev.line]? = some (trimFate format filters line)
  single : ∀ {text : Text} {prev : Kept}, s.keptHuman text = some prev →
    ∀ i : ℕ, s.fates[i]? ≠ some (Fate.duplicate prev.line)

variable {s : Filtering} {done : List Bytes} {prev : Kept} {text : Text} {j : ℕ}

lemma duplicate_of_fate (h : fate format filters s line = .duplicate j) :
    ∃ text prev, turnsVerdict format filters s.keptHuman line = .duplicate text prev ∧
      prev.line = j := by
  unfold fate at h
  cases hverdict : turnsVerdict format filters s.keptHuman line with
  | notHuman =>
    rw [hverdict] at h
    exact nomatch h
  | duplicate text prev =>
    rw [hverdict] at h
    exact ⟨text, prev, rfl, Fate.duplicate.inj h⟩
  | passes msg =>
    rw [hverdict] at h
    obtain hfate | hfate := trimFate_cases format filters line <;>
      exact nomatch hfate.symm.trans h

lemma Remembers.kept_filterLine (h : Remembers format filters done s)
    (hkept : (filterLine format filters s line).keptHuman text = some prev) :
    s.keptHuman text = some prev ∧ fate format filters s line ≠ .duplicate prev.line ∨
      fate format filters s line = trimFate format filters line ∧
        humanLine format filters.harness line = some ⟨prev.kind, text, prev.unix⟩ ∧
          prev.line = s.fates.length := by
  unfold fate
  cases hverdict : turnsVerdict format filters s.keptHuman line with
  | notHuman =>
    unfold filterLine at hkept
    rw [hverdict] at hkept
    exact .inl ⟨hkept, nofun⟩
  | duplicate text' prev' =>
    unfold filterLine at hkept
    rw [hverdict] at hkept
    dsimp only at hkept ⊢
    obtain rfl | hne := eq_or_ne text text'
    · rw [Function.update_self] at hkept
      exact nomatch hkept
    · rw [Function.update_of_ne hne] at hkept
      refine .inl ⟨hkept, fun hsame => hne ?_⟩
      -- One line has one text.
      obtain ⟨-, hkept', -⟩ := humanLine_of_duplicate hverdict
      obtain ⟨first, hfirst, hhuman, -⟩ := h.kept hkept
      obtain ⟨first', hfirst', hhuman', -⟩ := h.kept hkept'
      rw [Fate.duplicate.inj hsame, hfirst] at hfirst'
      obtain rfl := Option.some.inj hfirst'
      rw [hhuman] at hhuman'
      exact congrArg HumanLine.text (Option.some.inj hhuman')
  | passes msg =>
    rw [(filterLine_passes hverdict).1] at hkept
    dsimp only
    have hne : trimFate format filters line ≠ .duplicate prev.line := by
      obtain hfate | hfate := trimFate_cases format filters line <;> rw [hfate] <;> exact nofun
    cases msg with
    | none => exact .inl ⟨hkept, hne⟩
    | some msg =>
      unfold Filtering.keep at hkept
      dsimp only at hkept
      obtain rfl | htext := eq_or_ne text msg.text
      · rw [Function.update_self] at hkept
        cases hkept
        exact .inr ⟨rfl, humanLine_of_passes hverdict, rfl⟩
      · rw [Function.update_of_ne htext] at hkept
        exact .inl ⟨hkept, hne⟩

theorem Remembers.step (h : Remembers format filters done s) (line : Bytes) :
    Remembers format filters (done ++ [line]) (filterLine format filters s line) where
  length := by
    rw [filterLine_fates, List.length_append, List.length_append, h.length]
    rfl
  backward := by
    intro i j hat
    rw [filterLine_fates] at hat
    obtain hfate | ⟨rfl, hfate⟩ := getElem?_concat hat
    · exact h.backward hfate
    · obtain ⟨text, prev, hverdict, rfl⟩ := duplicate_of_fate hfate
      obtain ⟨-, hkept, -⟩ := humanLine_of_duplicate hverdict
      obtain ⟨first, -, -, hfirst⟩ := h.kept hkept
      exact (List.getElem?_eq_some_iff.mp hfirst).1
  kept := by
    intro text prev hkept
    obtain ⟨hkept, -⟩ | ⟨hfate, hhuman, hline⟩ := h.kept_filterLine hkept
    · obtain ⟨first, hfirst, hhuman, hfate⟩ := h.kept hkept
      refine ⟨first, getElem?_of_prefix (List.prefix_append _ _) hfirst, hhuman, ?_⟩
      rw [filterLine_fates]
      exact getElem?_of_prefix (List.prefix_append _ _) hfate
    · refine ⟨line, ?_, hhuman, ?_⟩
      · rw [hline, h.length]
        simp
      · rw [filterLine_fates, hline, hfate]
        simp
  single := by
    intro text prev hkept i hat
    rw [filterLine_fates] at hat
    obtain ⟨hkept, hne⟩ | ⟨hpassed, -, hline⟩ := h.kept_filterLine hkept
    · obtain hfate | ⟨-, hfate⟩ := getElem?_concat hat
      · exact h.single hkept i hfate
      · exact hne hfate
    · obtain hfate | ⟨-, hfate⟩ := getElem?_concat hat
      · -- A copy of the line would come after it.
        have hafter := h.backward hfate
        have hbefore := (List.getElem?_eq_some_iff.mp hfate).1
        omega
      · rw [hpassed] at hfate
        obtain hcase | hcase := trimFate_cases format filters line <;>
          exact nomatch hcase.symm.trans hfate

theorem remembers_exec (lines : List Bytes) :
    Remembers format filters lines (exec (filterLine format filters) .start lines) := by
  induction lines using List.reverseRecOn with
  | nil => exact ⟨rfl, nofun, nofun, nofun⟩
  | append_singleton lines line ih =>
    rw [exec_concat]
    exact ih.step line

end Memory

section Tally

def writtenLines (lines : List Bytes) (fates : List Fate) : List Bytes :=
  ((lines.zip fates).filter fun e => e.2 = .written).map Prod.fst

lemma writtenLines_concat {lines : List Bytes} {fates : List Fate}
    (h : fates.length = lines.length) (line : Bytes) (f : Fate) :
    writtenLines (lines ++ [line]) (fates ++ [f]) =
      writtenLines lines fates ++ if f = .written then [line] else [] := by
  unfold writtenLines
  rw [List.zip_append h.symm, List.filter_append, List.map_append]
  congr 1
  by_cases hf : f = .written <;> simp [hf]

lemma writtenLines_sublist {lines : List Bytes} {fates : List Fate}
    (h : fates.length = lines.length) : (writtenLines lines fates).Sublist lines := by
  unfold writtenLines
  have hzip : (lines.zip fates).map Prod.fst = lines := List.map_fst_zip h.ge
  have hsub : (((lines.zip fates).filter fun e => e.2 = .written).map Prod.fst).Sublist
      ((lines.zip fates).map Prod.fst) := List.filter_sublist.map _
  rwa [hzip] at hsub

/-- The bytes and the counts are those of the written lines. -/
structure Tallied (format : LineFormat) (filters : Filters) (done : List Bytes)
    (s : Filtering) : Prop where
  length : s.fates.length = done.length
  bytes : s.bytes = (writtenLines done s.fates).flatten
  written : s.written = (writtenLines done s.fates).length
  untimed : s.untimed = (writtenLines done s.fates).countP (untimed format filters)

lemma filterLine_unwritten {s : Filtering} (h : fate format filters s line ≠ .written) :
    (filterLine format filters s line).bytes = s.bytes ∧
      (filterLine format filters s line).written = s.written ∧
        (filterLine format filters s line).untimed = s.untimed := by
  unfold fate at h
  unfold filterLine
  cases hverdict : turnsVerdict format filters s.keptHuman line with
  | notHuman => exact ⟨rfl, rfl, rfl⟩
  | duplicate text prev => exact ⟨rfl, rfl, rfl⟩
  | passes msg =>
    rw [hverdict] at h
    dsimp only at h ⊢
    obtain hfate | hfate := trimFate_cases format filters line
    · exact absurd hfate h
    · rw [hfate]
      exact ⟨rfl, rfl, rfl⟩

lemma filterLine_written {s : Filtering} (h : fate format filters s line = .written) :
    (filterLine format filters s line).bytes = s.bytes ++ line ∧
      (filterLine format filters s line).written = s.written + 1 ∧
        (filterLine format filters s line).untimed =
          s.untimed + (untimed format filters line).toNat := by
  unfold fate at h
  unfold filterLine
  cases hverdict : turnsVerdict format filters s.keptHuman line with
  | notHuman =>
    rw [hverdict] at h
    exact nomatch h
  | duplicate text prev =>
    rw [hverdict] at h
    exact nomatch h
  | passes msg =>
    rw [hverdict] at h
    dsimp only at h ⊢
    rw [h]
    exact ⟨rfl, rfl, rfl⟩

theorem Tallied.step {done : List Bytes} {s : Filtering} (h : Tallied format filters done s)
    (line : Bytes) :
    Tallied format filters (done ++ [line]) (filterLine format filters s line) := by
  have hlines := writtenLines_concat h.length line (fate format filters s line)
  rw [← filterLine_fates] at hlines
  have hlength : (filterLine format filters s line).fates.length = (done ++ [line]).length := by
    rw [filterLine_fates, List.length_append, List.length_append, h.length]
    rfl
  by_cases hfate : fate format filters s line = .written
  · obtain ⟨hbytes, hwritten, huntimed⟩ := filterLine_written hfate
    rw [if_pos hfate] at hlines
    refine ⟨hlength, ?_, ?_, ?_⟩
    · rw [hbytes, hlines, h.bytes]
      simp
    · rw [hwritten, hlines, h.written]
      simp
    · rw [huntimed, hlines, h.untimed, List.countP_append, List.countP_singleton]
      cases Export.untimed format filters line <;> rfl
  · obtain ⟨hbytes, hwritten, huntimed⟩ := filterLine_unwritten hfate
    rw [if_neg hfate, List.append_nil] at hlines
    refine ⟨hlength, ?_, ?_, ?_⟩
    · rw [hbytes, hlines, h.bytes]
    · rw [hwritten, hlines, h.written]
    · rw [huntimed, hlines, h.untimed]

theorem tallied_exec (lines : List Bytes) :
    Tallied format filters lines (exec (filterLine format filters) .start lines) := by
  induction lines using List.reverseRecOn with
  | nil => exact ⟨rfl, rfl, rfl, rfl⟩
  | append_singleton lines line ih =>
    rw [exec_concat]
    exact ih.step line

end Tally

section Kinds

variable {msg : HumanLine}

lemma type_of_humanLine (h : humanLine format harness line = some msg) :
    ∃ text value, format.decode line = some text ∧ format.parse (Inbox.trim text) = some value ∧
      format.reader.recordType value =
          some (match msg.kind with | .turn => "user" | .midTurn => "attachment") ∧
        msg.unix = format.lineUnix harness text := by
  unfold humanLine at h
  split at h
  · cases h
  · rename_i text hdecode
    split at h
    · cases h
    · rename_i value hparse
      split at h
      · cases h
      · split at h
        · cases h
        · rename_i kind message origin hmessage
          have hmsg : msg = ⟨kind, message, format.lineUnix harness text⟩ := by
            split at h <;> split at h <;> first | exact (Option.some.inj h).symm | cases h
          refine ⟨text, value, hdecode, hparse, ?_, by rw [hmsg]⟩
          rw [hmsg]
          unfold humanMessage at hmessage
          split at hmessage
          · cases hmessage
          · rename_i type htype
            have hrecord : format.reader.recordType value = some (String.ofList type) := by
              change Option.map String.ofList _ = _
              rw [htype, Option.map_some]
            rw [hrecord]
            split at hmessage
            · rename_i huser
              obtain ⟨text', -, heq⟩ := Option.map_eq_some_iff.mp hmessage
              cases heq
              rw [huser]
              rfl
            · split at hmessage
              · rename_i hattachment
                split at hmessage
                · cases hmessage
                · split at hmessage
                  · cases hmessage
                  · obtain ⟨text', -, heq⟩ := Option.map_eq_some_iff.mp hmessage
                    cases heq
                    rw [hattachment]
                    rfl
              · cases hmessage

lemma lineTiming_of_turn (window : TimeWindow)
    (h : humanLine format "claude-code" line = some msg) (hkind : msg.kind = .turn) :
    lineTiming format "claude-code" window line =
      match msg.unix with
      | some t => .timed (window.meets t t)
      | none => .untimed := by
  obtain ⟨text, value, hdecode, hparse, htype, hunix⟩ := type_of_humanLine h
  rw [hkind] at htype
  rw [lineTiming_eq window hdecode, hunix]
  have htime : format.lineTime "claude-code" value = format.topLevelTimestamp value :=
    if_pos (.inl rfl)
  unfold LineFormat.lineSpan LineFormat.lineUnix
  rw [hparse, Option.bind_some, Option.bind_some, htype, htime]
  have hclass : (Activity.classifyLine "claude-code" (some "user")).looksForTime = true := by decide
  rw [if_pos hclass]
  unfold LineFormat.topLevelTimestamp
  cases value.get "timestamp" with
  | none => rfl
  | some ts =>
    dsimp only
    cases format.oneTsValue ts with
    | none => rfl
    | some time => rfl

lemma lineTiming_of_midTurn (window : TimeWindow)
    (h : humanLine format "claude-code" line = some msg) (hkind : msg.kind = .midTurn) :
    lineTiming format "claude-code" window line = .untimed := by
  obtain ⟨text, value, hdecode, hparse, htype, -⟩ := type_of_humanLine h
  rw [hkind] at htype
  rw [lineTiming_eq window hdecode]
  unfold LineFormat.lineSpan
  rw [hparse, Option.bind_some, htype]
  have hclass : (Activity.classifyLine "claude-code" (some "attachment")).looksForTime = false := by
    decide
  rw [if_neg (by rw [hclass]; exact Bool.false_ne_true)]

end Kinds

end ChatStasher.Export
