import ChatStasher.Provenance.Binding

/-! The observation log: rows appended byte by byte while other passes read and append. -/
namespace ChatStasher
open Deletion (textLines)
open GrokBot (decodeUtf8)
open Inbox (Text trim isWhitespace trimMatches utf8)
open StepRun

section Start
variable (H : Sha256)

/-- What `append_scan_observation` does before it looks at the log. -/
inductive AppendStart (D : Type)
  | nothing
  | malformed
  | countMismatch
  | unordered
  | digestMismatch
  | row (observation : ProvenanceObservation D)

/-- The row for dimensions observed while the session had these sealed shards, in the order of
their sequences. -/
def startAppend (sessionId : Text) (dimensions : SessionProvenance) (bodyShardCount : ℕ)
    (bodySha256 : H.Digest) (entries : List (ℕ × Bytes)) : AppendStart H.Digest :=
  if dimensions.isEmpty then .nothing
  else if !dimensions.isValid then .malformed
  else if bodyShardCount = 0 then .nothing
  else
    let shards := entries.insertionSort fun a b => a.1 ≤ b.1
    if shards.length ≠ bodyShardCount then .countMismatch
    else if ¬ (shards.map Prod.fst).IsChain (· < ·) then .unordered
    else if H.digest (shards.flatMap Prod.snd) ≠ bodySha256 then .digestMismatch
    else .row ⟨sessionId, dimensions, bodyShardCount, bodySha256, shards.map Prod.fst⟩

variable {H}

lemma startAppend_eq_row {sessionId : Text} {dimensions : SessionProvenance} {count : ℕ}
    {sha256 : H.Digest} {entries : List (ℕ × Bytes)} {o : ProvenanceObservation H.Digest}
    (h : startAppend H sessionId dimensions count sha256 entries = .row o) :
    ∃ shards : List (ℕ × Bytes), shards.Perm entries ∧ dimensions.isValid = true ∧ count ≠ 0 ∧
      shards.length = count ∧ (shards.map Prod.fst).IsChain (· < ·) ∧
      H.digest (shards.flatMap Prod.snd) = sha256 ∧
      o = ⟨sessionId, dimensions, count, sha256, shards.map Prod.fst⟩ := by
  unfold startAppend at h
  dsimp only at h
  split_ifs at h with hempty hvalid hcount hlen hchain hdigest
  refine ⟨_, List.perm_insertionSort _ entries, by simpa using hvalid, hcount, not_not.mp hlen,
    hchain, not_not.mp hdigest, ?_⟩
  exact (AppendStart.row.inj h).symm

/-- What an append records is bound by the shards it was computed from. -/
theorem startAppend_bound {sessionId : Text} {dimensions : SessionProvenance} {count : ℕ}
    {sha256 : H.Digest} {entries : List (ℕ × Bytes)} {o : ProvenanceObservation H.Digest}
    (hpos : ∀ e ∈ entries, e.1 ≠ 0)
    (h : startAppend H sessionId dimensions count sha256 entries = .row o) :
    BoundBy H sessionId (entries.map fun e => (some e.1, e.2)) o := by
  obtain ⟨shards, hperm, hvalid, hcount, hlen, hchain, hdigest, rfl⟩ := startAppend_eq_row h
  have hnodup : (shards.map Prod.fst).Nodup :=
    (List.isChain_iff_pairwise.mp hchain).imp ne_of_lt
  have honly := @bodiesOf_chosenShards _ hnodup (shards.map Prod.snd) (by simp)
  have hchosen : chosenShards (shards.map Prod.fst) (shards.map Prod.snd) =
      shards.map fun e => (some e.1, e.2) := by
    rw [chosenShards, List.map_map, List.zip_map']
    rfl
  rw [hchosen] at honly
  refine ⟨?_, namedDigest_eq_some_iff.mpr ⟨shards.map Prod.snd, ?_, ?_⟩⟩
  · have hzero : ∀ e ∈ shards, e.1 ≠ 0 := fun e he => hpos e (hperm.mem_iff.mp he)
    have hne : shards ≠ [] := by
      rintro rfl
      exact hcount hlen.symm
    have hany : (shards.map Prod.fst).any (· == 0) = false := by
      rw [List.any_eq_false]
      intro q hq
      obtain ⟨e, he, rfl⟩ := List.mem_map.mp hq
      simpa using hzero e he
    simp [namesSequences, hne, hlen, hvalid, hchain, hany]
  · refine honly.imp fun q body hbody => ?_
    rw [← onlyBody_perm (hperm.map fun e : ℕ × Bytes => (some e.1, e.2))]
    exact onlyBody_eq_some_iff.mpr hbody
  · rw [← hdigest, List.flatMap]

def listedShards : List (ℕ × Bytes) := [(2, [2]), (1, [1])]

theorem startAppend_bound_listed : ∃ o,
    startAppend .verbatim ['s'] ⟨[['w']], [], [], [], []⟩ 2 [1, 2] listedShards = .row o ∧
      BoundBy .verbatim ['s'] (listedShards.map fun e => (some e.1, e.2)) o :=
  ⟨_, rfl, @startAppend_bound .verbatim ['s'] ⟨[['w']], [], [], [], []⟩ 2 [1, 2] listedShards _
    (by decide) rfl⟩

end Start

namespace RowFormat
variable {R : Type} (F : RowFormat R)

def bytes (row : R) : Bytes := utf8 (F.write row)

def log (rows : List R) : Bytes := sealFramedLines (rows.map F.bytes)

def checkLine (terminated : Bool) (piece : Bytes) : Option R :=
  (decodeUtf8 piece).bind fun line =>
    F.read (if terminated && line.getLast? == some '\r' then line.dropLast else line)

/-- The rows the duplicate check finds; any line that is no row is an error. -/
def seenRows (content : Bytes) : Option (List R) :=
  let parts := content.splitOn newline
  (parts.dropLast.mapM (F.checkLine true)).bind fun rows =>
    (((parts.getLast?.filter (· ≠ [])).toList).mapM (F.checkLine false)).map (rows ++ ·)

def parseObservations (content : Bytes) : Option (List R) :=
  (decodeUtf8 content).bind fun text =>
    ((textLines text).filter fun line => !(trim line).isEmpty).mapM F.read

def readObservations : Option Bytes → Option (List R)
  | none => some []
  | some content => F.parseObservations content

variable {F}

lemma log_eq (rows : List R) : F.log rows = utf8 (F.render rows) := by
  rw [log, render, GrokBot.utf8_frame, List.map_map]
  rfl

lemma log_concat (rows : List R) (row : R) :
    F.log (rows ++ [row]) = F.log rows ++ (F.bytes row ++ [newline]) := by
  simp [log, sealFramedLines]

lemma newline_notMem_bytes (row : R) : newline ∉ F.bytes row := newline_notMem_utf8 (F.oneLine row)

lemma bytes_ne_nil (row : R) : F.bytes row ≠ [] := by
  obtain ⟨front, hwrite⟩ : ∃ front, F.write row = front ++ ['\x7d'] :=
    List.getLast?_eq_some_iff.mp (F.ends row)
  intro h
  have hlen : (F.bytes row).length = 0 := by rw [h]; rfl
  rw [bytes, hwrite, GrokBot.utf8_append, List.length_append] at hlen
  have hbrace : (utf8 ['\x7d']).length = 1 := by decide
  omega

lemma trim_write_ne_nil (row : R) : (trim (F.write row)).isEmpty = false := by
  obtain ⟨front, hwrite⟩ : ∃ front, F.write row = front ++ ['\x7d'] :=
    List.getLast?_eq_some_iff.mp (F.ends row)
  have hbrace : isWhitespace '\x7d' = false := by decide
  have hdrop : ∀ text : Text, (text ++ ['\x7d']).dropWhile isWhitespace =
      text.dropWhile isWhitespace ++ ['\x7d'] := by
    intro text
    induction text with
    | nil => rfl
    | cons c text ih =>
      rw [List.cons_append, List.dropWhile_cons, List.dropWhile_cons, ih]
      split <;> rfl
  rw [trim, trimMatches, hwrite, hdrop, List.rdropWhile_concat_neg _ _ _ (by simp [hbrace])]
  simp

theorem parseObservations_log (rows : List R) : F.parseObservations (F.log rows) = some rows := by
  have hlines : (rows.map F.write).filter (fun line => !(trim line).isEmpty) =
      rows.map F.write := by
    refine List.filter_eq_self.mpr fun line hline => ?_
    obtain ⟨row, -, rfl⟩ := List.mem_map.mp hline
    rw [trim_write_ne_nil, Bool.not_false]
  rw [parseObservations, log_eq, GrokBot.decodeUtf8_utf8, Option.bind_some, F.textLines_render,
    hlines, Traverse.mapM_eq_some_iff, List.forall₂_map_left_iff, List.forall₂_same]
  exact fun row _ => F.read_write row

lemma checkLine_bytes (terminated : Bool) (row : R) :
    F.checkLine terminated (F.bytes row) = some row := by
  have hline : (if terminated && (F.write row).getLast? == some '\r' then (F.write row).dropLast
      else F.write row) = F.write row := by
    rw [F.ends row]
    exact if_neg (by simp)
  rw [checkLine, bytes, GrokBot.decodeUtf8_utf8, Option.bind_some, hline, F.read_write]

lemma checkLine_torn {row x : R} {piece : Bytes} (hpiece : piece <+: F.bytes row)
    (h : F.checkLine false piece = some x) : piece = F.bytes row ∧ x = row := by
  obtain ⟨text, htext, hread⟩ := Option.bind_eq_some_iff.mp h
  rw [Bool.false_and, if_neg Bool.false_ne_true] at hread
  have hbytes := utf8_of_decodeUtf8 htext
  obtain ⟨rest, hrest⟩ : text <+: F.write row := isPrefix_of_utf8 (hbytes.symm ▸ hpiece)
  have htake : text = (F.write row).take text.length := by rw [← hrest, List.take_left]
  have hlen : (F.write row).length ≤ text.length := by
    by_contra hlt
    rw [htake, F.read_torn row _ (Nat.lt_of_not_le hlt)] at hread
    exact absurd hread.symm (Option.some_ne_none x)
  have hwhole : text = F.write row := htake.trans (List.take_of_length_le hlen)
  rw [hwhole, F.read_write] at hread
  exact ⟨hbytes.symm.trans (congrArg utf8 hwhole), (Option.some.inj hread).symm⟩

lemma splitOn_log (rows : List R) {tail : Bytes} (ht : newline ∉ tail) :
    (F.log rows ++ tail).splitOn newline = rows.map F.bytes ++ [tail] := by
  refine Framing.splitOn_frame_append newline (fun line hline => ?_) ht
  obtain ⟨row, -, rfl⟩ := List.mem_map.mp hline
  exact newline_notMem_bytes row

lemma mapM_checkLine (rows : List R) :
    (rows.map F.bytes).mapM (F.checkLine true) = some rows := by
  rw [Traverse.mapM_eq_some_iff, List.forall₂_map_left_iff, List.forall₂_same]
  exact fun row _ => checkLine_bytes true row

theorem seenRows_log (rows : List R) : F.seenRows (F.log rows) = some rows := by
  have hsplit := @splitOn_log R F rows [] List.not_mem_nil
  rw [List.append_nil] at hsplit
  unfold seenRows
  dsimp only
  rw [hsplit, List.dropLast_concat, mapM_checkLine, List.getLast?_concat]
  simp [Option.filter]

theorem seenRows_torn {rows seen : List R} {row : R} {tail : Bytes} (hne : tail ≠ [])
    (htail : tail <+: F.bytes row) (h : F.seenRows (F.log rows ++ tail) = some seen) :
    tail = F.bytes row ∧ seen = rows ++ [row] := by
  have hnewline : newline ∉ tail := fun hmem => newline_notMem_bytes row (htail.subset hmem)
  unfold seenRows at h
  dsimp only at h
  rw [splitOn_log rows hnewline, List.dropLast_concat, mapM_checkLine, List.getLast?_concat,
    Option.bind_some, Option.filter_some_pos (by simpa using hne)] at h
  obtain ⟨last, hlast, rfl⟩ := Option.map_eq_some_iff.mp h
  obtain ⟨x, rest, hx, hrest, rfl⟩ :=
    List.forall₂_cons_left_iff.mp (Traverse.mapM_eq_some_iff.mp hlast)
  obtain rfl := List.forall₂_nil_left_iff.mp hrest
  obtain ⟨hwhole, rfl⟩ := checkLine_torn htail hx
  exact ⟨hwhole, rfl⟩

end RowFormat

section Log
variable {R : Type} (F : RowFormat R)

/-- How far an append has come: nothing yet, the log checked for its row, so many bytes of its line
written, or ended. -/
inductive AppendPhase
  | begun
  | checked
  | writing (written : ℕ)
  | ended (ok : Bool)
  deriving DecidableEq

/-- The log file and the appends in flight. -/
structure LogState (R : Type) where
  file : Option Bytes
  calls : ℕ → Option (R × AppendPhase)

/-- The file operations of the appends; one that is killed or meets an error does no more. A write
carries any number of bytes of the line. -/
inductive LogAction (R : Type)
  | begin (c : ℕ) (row : R)
  | check (c : ℕ)
  | openLog (c : ℕ)
  | write (c : ℕ) (count : ℕ)
  | sync (c : ℕ)
  | stop (c : ℕ)

def LogState.phase (s : LogState R) (c : ℕ) (row : R) (phase : AppendPhase) : LogState R :=
  { s with calls := Function.update s.calls c (some (row, phase)) }

def RowFormat.line (row : R) : Bytes := F.bytes row ++ [newline]

variable {F}

lemma length_line (row : R) : (F.line row).length = (F.bytes row).length + 1 := by
  rw [RowFormat.line, List.length_append, List.length_singleton]

lemma readObservations_getD (file : Option Bytes) :
    F.readObservations file = F.parseObservations (file.getD []) := by
  cases file with
  | none => exact (@RowFormat.parseObservations_log R F []).symm
  | some content => rfl

section Step
variable (F) [DecidableEq R]

def logStep (s : LogState R) : LogAction R → LogState R
  | .begin c row =>
    match s.calls c with
    | none => s.phase c row .begun
    | some _ => s
  | .check c =>
    match s.calls c with
    | some (row, .begun) =>
      match s.file with
      | none => s.phase c row .checked
      | some content =>
        match F.seenRows content with
        | none => s.phase c row (.ended false)
        | some seen =>
          if row ∈ seen then s.phase c row (.ended true) else s.phase c row .checked
    | _ => s
  | .openLog c =>
    match s.calls c with
    | some (row, .checked) => { s.phase c row (.writing 0) with file := some (s.file.getD []) }
    | _ => s
  | .write c count =>
    match s.calls c with
    | some (row, .writing written) =>
      { s.phase c row (.writing (min (written + count) (F.line row).length)) with
        file := some (s.file.getD [] ++ ((F.line row).drop written).take count) }
    | _ => s
  | .sync c =>
    match s.calls c with
    | some (row, .writing written) =>
      if written = (F.line row).length then s.phase c row (.ended true) else s
    | _ => s
  | .stop c =>
    match s.calls c with
    | some (row, .ended ok) => s.phase c row (.ended ok)
    | some (row, _) => s.phase c row (.ended false)
    | none => s

end Step

variable (F)

def MidRow (s : LogState R) (c : ℕ) : Prop :=
  ∃ row written, s.calls c = some (row, .writing written) ∧ 0 < written ∧
    written < (F.line row).length

/-- No append writes while another is in the middle of its row, or writes a row that has come into
the log since it looked; and none ends in the middle of its row. -/
def Undisturbed (s : LogState R) : LogAction R → Prop
  | .write c _ => (∀ d, d ≠ c → ¬ MidRow F s d) ∧
      ∀ row, s.calls c = some (row, .writing 0) →
        ∀ rows, F.readObservations s.file = some rows → row ∉ rows
  | .stop c => ¬ MidRow F s c
  | _ => True

def AllEnded (s : LogState R) : Prop :=
  ∀ c row phase, s.calls c = some (row, phase) → ∃ ok, phase = .ended ok

def appendAlone (c : ℕ) (row : R) : List (LogAction R) :=
  [.begin c row, .check c, .openLog c, .write c (F.line row).length, .sync c]

variable {F}

/-- What stands behind the whole rows of the log: nothing, or a part of one row that one append is
writing and that is not in the log yet. -/
inductive Torn (F : RowFormat R) (s : LogState R) (rows : List R) : Bytes → Prop
  | clean (hnone : ∀ c, ¬ MidRow F s c) : Torn F s rows []
  | writing (c : ℕ) (row : R) (written : ℕ) (hcall : s.calls c = some (row, .writing written))
      (hpos : 0 < written) (hlt : written < (F.line row).length) (hnew : row ∉ rows)
      (hothers : ∀ d, d ≠ c → ¬ MidRow F s d) : Torn F s rows ((F.line row).take written)

/-- The log is whole rows and at most one torn one, and the appends know which rows are there. -/
structure Logged (F : RowFormat R) (s : LogState R) (rows : List R) (tail : Bytes) : Prop where
  file : s.file.getD [] = F.log rows ++ tail
  nodup : rows.Nodup
  torn : Torn F s rows tail
  recorded : ∀ c row, s.calls c = some (row, .ended true) →
    row ∈ rows ∨ ∃ d, s.calls d = some (row, .writing (F.bytes row).length)
  written : ∀ c row k, s.calls c = some (row, .writing k) →
    k ≤ (F.line row).length ∧ (k = (F.line row).length → row ∈ rows)
  origin : ∀ row ∈ rows, ∃ c phase, s.calls c = some (row, phase) ∧
    (phase = .writing (F.line row).length ∨ ∃ ok, phase = .ended ok)

lemma midRow_of_bytes {s : LogState R} {d : ℕ} {row : R}
    (h : s.calls d = some (row, .writing (F.bytes row).length)) : MidRow F s d :=
  ⟨row, _, h, List.length_pos_iff.mpr (RowFormat.bytes_ne_nil row), by
    rw [length_line]
    exact Nat.lt_succ_self _⟩

variable {s s' : LogState R} {rows : List R} {tail : Bytes}

lemma Logged.congr (h : Logged F s rows tail) (hfile : s'.file.getD [] = s.file.getD [])
    (hcalls : s'.calls = s.calls) : Logged F s' rows tail := by
  have hmid : ∀ d, MidRow F s' d ↔ MidRow F s d := fun d => by rw [MidRow, MidRow, hcalls]
  refine ⟨hfile.trans h.file, h.nodup, ?_, hcalls ▸ h.recorded, hcalls ▸ h.written,
    hcalls ▸ h.origin⟩
  cases h.torn with
  | clean hnone => exact .clean fun d => (hmid d).not.mpr (hnone d)
  | writing d r k hcall hpos hlt hnew hothers =>
    exact .writing d r k (hcalls ▸ hcall) hpos hlt hnew fun e he => (hmid e).not.mpr (hothers e he)

lemma Logged.move (h : Logged F s rows tail) {c : ℕ} {row : R} {phase : AppendPhase}
    (hfile : s'.file.getD [] = s.file.getD [])
    (hcalls : s'.calls = Function.update s.calls c (some (row, phase)))
    (hmid : ¬ MidRow F s c) (hphase : ∀ k, phase = .writing k → k = 0)
    (hok : phase = .ended true →
      row ∈ rows ∨ ∃ d, s.calls d = some (row, .writing (F.bytes row).length))
    (horigin : ∀ row' old, s.calls c = some (row', old) →
      (old = .writing (F.line row').length ∨ ∃ ok, old = .ended ok) →
        row' = row ∧ ∃ ok, phase = .ended ok) : Logged F s' rows tail := by
  have hother : ∀ d, d ≠ c → s'.calls d = s.calls d := fun d hd => by
    rw [hcalls, Function.update_of_ne hd]
  have hself : s'.calls c = some (row, phase) := by rw [hcalls, Function.update_self]
  have hmid' : ∀ d, ¬ MidRow F s d → ¬ MidRow F s' d := by
    rintro d hd ⟨r, k, hk, hpos, hlt⟩
    by_cases hdc : d = c
    · subst hdc
      obtain ⟨rfl, hp⟩ := Prod.mk.inj (Option.some.inj (hself.symm.trans hk))
      exact absurd (hphase k hp) (Nat.ne_of_gt hpos)
    · exact hd ⟨r, k, (hother d hdc).symm.trans hk, hpos, hlt⟩
  have hbytes : ∀ d r, s.calls d = some (r, .writing (F.bytes r).length) →
      s'.calls d = some (r, .writing (F.bytes r).length) := by
    intro d r hd
    have hdc : d ≠ c := fun hdc => hmid (hdc ▸ midRow_of_bytes hd)
    exact (hother d hdc).trans hd
  refine ⟨hfile.trans h.file, h.nodup, ?_, fun d r hd => ?_, fun d r k hd => ?_, fun r hr => ?_⟩
  · cases h.torn with
    | clean hnone => exact .clean fun d => hmid' d (hnone d)
    | writing d r k hcall hpos hlt hnew hothers =>
      have hdc : d ≠ c := fun hdc => hmid (hdc ▸ ⟨r, k, hcall, hpos, hlt⟩)
      exact .writing d r k ((hother d hdc).trans hcall) hpos hlt hnew
        fun e he => hmid' e (hothers e he)
  · by_cases hdc : d = c
    · subst hdc
      obtain ⟨rfl, hp⟩ := Prod.mk.inj (Option.some.inj (hself.symm.trans hd))
      exact (hok hp).imp_right fun ⟨e, he⟩ => ⟨e, hbytes e _ he⟩
    · exact (h.recorded d r ((hother d hdc).symm.trans hd)).imp_right fun ⟨e, he⟩ =>
        ⟨e, hbytes e r he⟩
  · by_cases hdc : d = c
    · subst hdc
      obtain ⟨rfl, hp⟩ := Prod.mk.inj (Option.some.inj (hself.symm.trans hd))
      obtain rfl := hphase k hp
      refine ⟨Nat.zero_le _, fun hzero => ?_⟩
      rw [length_line] at hzero
      omega
    · exact h.written d r k ((hother d hdc).symm.trans hd)
  · obtain ⟨d, old, hd, hend⟩ := h.origin r hr
    by_cases hdc : d = c
    · subst hdc
      obtain ⟨rfl, hended⟩ := horigin r old hd hend
      exact ⟨d, phase, hself, Or.inr hended⟩
    · exact ⟨d, old, (hother d hdc).trans hd, hend⟩

/-- The duplicate check finds a row only where it is in the log, or only its line ending is
missing there. -/
lemma Logged.seen (h : Logged F s rows tail) {content : Bytes} (hfile : s.file = some content)
    {seen : List R} (hseen : F.seenRows content = some seen) {row : R} (hrow : row ∈ seen) :
    row ∈ rows ∨ ∃ d, s.calls d = some (row, .writing (F.bytes row).length) := by
  have hcontent : content = F.log rows ++ tail := by
    have := h.file
    rwa [hfile] at this
  subst hcontent
  cases h.torn with
  | clean =>
    rw [List.append_nil, RowFormat.seenRows_log] at hseen
    obtain rfl := Option.some.inj hseen
    exact Or.inl hrow
  | writing c r k hcall hpos hlt =>
    have hlen : k ≤ (F.bytes r).length := by
      rw [length_line] at hlt
      omega
    have htake : (F.line r).take k = (F.bytes r).take k := by
      rw [RowFormat.line, List.take_append_of_le_length hlen]
    have hne : (F.line r).take k ≠ [] := by
      rw [htake, ← List.length_pos_iff, List.length_take]
      omega
    have hstart : (F.line r).take k <+: F.bytes r := htake ▸ List.take_prefix k (F.bytes r)
    obtain ⟨hwhole, rfl⟩ := RowFormat.seenRows_torn hne hstart hseen
    rcases List.mem_append.mp hrow with hmem | hmem
    · exact Or.inl hmem
    · obtain rfl := List.mem_singleton.mp hmem
      have hk : k = (F.bytes row).length := by
        rw [← hwhole, htake, List.length_take]
        omega
      exact Or.inr ⟨c, hk ▸ hcall⟩

def emptyLog : LogState R := ⟨none, fun _ => none⟩

lemma logged_emptyLog : Logged F (emptyLog : LogState R) [] [] where
  file := rfl
  nodup := List.nodup_nil
  torn := .clean fun _ ⟨_, _, h, _⟩ => absurd h nofun
  recorded _ _ h := absurd h nofun
  written _ _ _ h := absurd h nofun
  origin _ h := absurd h List.not_mem_nil

variable [DecidableEq R]

lemma Logged.write (h : Logged F s rows tail) {c : ℕ} {row : R} {k : ℕ} (count : ℕ)
    (hcall : s.calls c = some (row, .writing k))
    (hothers : ∀ d, d ≠ c → ¬ MidRow F s d) (hnew : k = 0 → row ∉ rows) :
    ∃ rows' tail', Logged F (logStep F s (.write c count)) rows' tail' := by
  have hstep : logStep F s (.write c count) =
      { s.phase c row (.writing (min (k + count) (F.line row).length)) with
        file := some (s.file.getD [] ++ ((F.line row).drop k).take count) } := by
    simp only [logStep, hcall]
  obtain ⟨hle, hdone⟩ := h.written c row k hcall
  rcases Nat.lt_or_eq_of_le hle with hlt | rfl
  · -- The append is somewhere in its line: what is there of it is the tail.
    have hpre : tail = (F.line row).take k ∧ row ∉ rows := by
      cases h.torn with
      | clean hnone =>
        have hk : k = 0 := by
          by_contra hk
          exact hnone c ⟨row, k, hcall, Nat.pos_of_ne_zero hk, hlt⟩
        subst hk
        exact ⟨rfl, hnew rfl⟩
      | writing d r k' hd hpos hlt' hr =>
        have hdc : d = c := by
          by_contra hdc
          exact hothers d hdc ⟨r, k', hd, hpos, hlt'⟩
        subst hdc
        obtain ⟨rfl, hphase⟩ := Prod.mk.inj (Option.some.inj (hd.symm.trans hcall))
        obtain rfl := AppendPhase.writing.inj hphase
        exact ⟨rfl, hr⟩
    obtain ⟨rfl, hnotin⟩ := hpre
    have hfile : (logStep F s (.write c count)).file.getD [] =
        F.log rows ++ (F.line row).take (k + count) := by
      rw [hstep, List.take_add, ← List.append_assoc, ← h.file]
      rfl
    have hother : ∀ d, d ≠ c → (logStep F s (.write c count)).calls d = s.calls d := fun d hd => by
      rw [hstep]
      exact Function.update_of_ne hd _ _
    have hself : (logStep F s (.write c count)).calls c =
        some (row, .writing (min (k + count) (F.line row).length)) := by
      rw [hstep]
      exact Function.update_self _ _ _
    have hmid : ∀ d, d ≠ c → ¬ MidRow F (logStep F s (.write c count)) d := by
      rintro d hd ⟨r, k', hk', hrest⟩
      exact hothers d hd ⟨r, k', (hother d hd).symm.trans hk', hrest⟩
    have horigin : ∀ r ∈ rows, ∃ d phase,
        (logStep F s (.write c count)).calls d = some (r, phase) ∧
          (phase = .writing (F.line r).length ∨ ∃ ok, phase = .ended ok) := by
      intro r hr
      obtain ⟨d, phase, hd, hend⟩ := h.origin r hr
      have hdc : d ≠ c := by
        rintro rfl
        obtain ⟨rfl, rfl⟩ := Prod.mk.inj (Option.some.inj (hcall.symm.trans hd))
        exact hnotin hr
      exact ⟨d, phase, (hother d hdc).trans hd, hend⟩
    by_cases hfull : (F.line row).length ≤ k + count
    · rw [Nat.min_eq_right hfull] at hself
      rw [List.take_of_length_le hfull, RowFormat.line, ← RowFormat.log_concat,
        ← List.append_nil (F.log (rows ++ [row]))] at hfile
      refine ⟨rows ++ [row], [], hfile, ?_, .clean fun d => ?_, fun d r hd => ?_,
        fun d r k' hd => ?_, fun r hr => ?_⟩
      · exact List.nodup_append.mpr ⟨h.nodup, List.nodup_singleton row, fun a ha b hb hab =>
          hnotin (List.mem_singleton.mp hb ▸ hab ▸ ha)⟩
      · by_cases hdc : d = c
        · rintro ⟨r, k', hk', -, hk''⟩
          rw [hdc, hself] at hk'
          obtain ⟨rfl, hphase⟩ := Prod.mk.inj (Option.some.inj hk')
          obtain rfl := AppendPhase.writing.inj hphase
          exact absurd hk'' (Nat.lt_irrefl _)
        · exact hmid d hdc
      · have hdc : d ≠ c := by
          rintro rfl
          exact absurd (Prod.mk.inj (Option.some.inj (hself.symm.trans hd))).2 nofun
        rcases h.recorded d r ((hother d hdc).symm.trans hd) with hr | ⟨e, he⟩
        · exact Or.inl (List.mem_append_left _ hr)
        · have hec : e = c := by
            by_contra hec
            exact hothers e hec (midRow_of_bytes he)
          rw [hec, hcall] at he
          obtain ⟨rfl, -⟩ := Prod.mk.inj (Option.some.inj he)
          exact Or.inl (List.mem_append_right _ List.mem_cons_self)
      · by_cases hdc : d = c
        · rw [hdc, hself] at hd
          obtain ⟨rfl, hphase⟩ := Prod.mk.inj (Option.some.inj hd)
          obtain rfl := AppendPhase.writing.inj hphase
          exact ⟨Nat.le_refl _, fun _ => List.mem_append_right _ List.mem_cons_self⟩
        · obtain ⟨hk', hwhole⟩ := h.written d r k' ((hother d hdc).symm.trans hd)
          exact ⟨hk', fun heq => List.mem_append_left _ (hwhole heq)⟩
      · rcases List.mem_append.mp hr with hr | hr
        · exact horigin r hr
        · obtain rfl := List.mem_singleton.mp hr
          exact ⟨c, _, hself, Or.inl rfl⟩
    · have hpart : k + count < (F.line row).length := Nat.lt_of_not_le hfull
      rw [Nat.min_eq_left (Nat.le_of_lt hpart)] at hself
      refine ⟨rows, (F.line row).take (k + count), hfile, h.nodup, ?_, fun d r hd => ?_,
        fun d r k' hd => ?_, horigin⟩
      · rcases Nat.eq_zero_or_pos (k + count) with hzero | hpos
        · rw [hzero, List.take_zero]
          refine .clean fun d => ?_
          by_cases hdc : d = c
          · rintro ⟨r, k', hk', hk'', -⟩
            rw [hdc, hself, hzero] at hk'
            obtain ⟨-, hphase⟩ := Prod.mk.inj (Option.some.inj hk')
            exact absurd hk'' (AppendPhase.writing.inj hphase ▸ Nat.lt_irrefl 0)
          · exact hmid d hdc
        · exact .writing c row (k + count) hself hpos hpart hnotin hmid
      · have hdc : d ≠ c := by
          rintro rfl
          exact absurd (Prod.mk.inj (Option.some.inj (hself.symm.trans hd))).2 nofun
        rcases h.recorded d r ((hother d hdc).symm.trans hd) with hr | ⟨e, he⟩
        · exact Or.inl hr
        · have hec : e = c := by
            by_contra hec
            exact hothers e hec (midRow_of_bytes he)
          subst hec
          obtain ⟨rfl, hphase⟩ := Prod.mk.inj (Option.some.inj (hcall.symm.trans he))
          obtain rfl := AppendPhase.writing.inj hphase
          have hcount : count = 0 := by
            rw [length_line] at hpart
            omega
          subst hcount
          exact Or.inr ⟨e, hself⟩
      · by_cases hdc : d = c
        · rw [hdc, hself] at hd
          obtain ⟨rfl, hphase⟩ := Prod.mk.inj (Option.some.inj hd)
          obtain rfl := AppendPhase.writing.inj hphase
          exact ⟨Nat.le_of_lt hpart, fun heq => absurd heq (Nat.ne_of_lt hpart)⟩
        · exact h.written d r k' ((hother d hdc).symm.trans hd)
  · -- The line is complete: nothing is left to write.
    have hsame : (logStep F s (.write c count)).calls = s.calls := by
      rw [hstep]
      simp only [LogState.phase]
      rw [Nat.min_eq_right (Nat.le_add_right _ _)]
      exact Function.update_eq_self_iff.mpr hcall.symm
    have hfile : (logStep F s (.write c count)).file.getD [] = s.file.getD [] := by
      rw [hstep]
      simp
    exact ⟨rows, tail, h.congr hfile hsame⟩

variable (F) in
/-- The log is read back: every row that was recorded exactly once, and none but of appends that
were made; and a later append succeeds and adds its row. -/
structure Survives (s : LogState R) : Prop where
  readable : ∃ rows, F.readObservations s.file = some rows ∧ rows.Nodup ∧
    (∀ c row, s.calls c = some (row, .ended true) → row ∈ rows) ∧
    (∀ row ∈ rows, ∃ c ok, s.calls c = some (row, .ended ok)) ∧
    ∀ c row, s.calls c = none →
      (exec (logStep F) s (appendAlone F c row)).calls c = some (row, .ended true) ∧
      F.readObservations (exec (logStep F) s (appendAlone F c row)).file =
        some (if row ∈ rows then rows else rows ++ [row])

theorem Logged.step (h : Logged F s rows tail) (a : LogAction R) (ha : Undisturbed F s a) :
    ∃ rows' tail', Logged F (logStep F s a) rows' tail' := by
  have hnotMid : ∀ c row phase, s.calls c = some (row, phase) →
      (∀ k, phase = .writing k → k = 0 ∨ k = (F.line row).length) → ¬ MidRow F s c := by
    rintro c row phase hcall hphase ⟨r, k, hk, hpos, hlt⟩
    obtain ⟨rfl, rfl⟩ := Prod.mk.inj (Option.some.inj (hcall.symm.trans hk))
    rcases hphase k rfl with hk | hk <;> omega
  cases a with
  | begin c row =>
    unfold logStep
    dsimp only
    split
    next hnone =>
      refine ⟨rows, tail, h.move rfl rfl ?_ nofun nofun fun _ _ hold => ?_⟩
      · rintro ⟨r, k, hk, -⟩
        exact absurd (hnone.symm.trans hk) nofun
      · exact absurd (hnone.symm.trans hold) nofun
    next => exact ⟨rows, tail, h⟩
  | check c =>
    unfold logStep
    dsimp only
    split
    next row hcall =>
      have hmid := hnotMid c row _ hcall nofun
      have horigin : ∀ phase row' old, s.calls c = some (row', old) →
          (old = .writing (F.line row').length ∨ ∃ ok, old = .ended ok) →
            row' = row ∧ ∃ ok, phase = AppendPhase.ended ok := by
        intro phase row' old hold hend
        obtain ⟨-, rfl⟩ := Prod.mk.inj (Option.some.inj (hcall.symm.trans hold))
        exact absurd hend (by simp)
      split
      next => exact ⟨rows, tail, h.move rfl rfl hmid nofun nofun (horigin _)⟩
      next content hfile =>
        split
        next => exact ⟨rows, tail, h.move rfl rfl hmid nofun nofun (horigin _)⟩
        next seen hseen =>
          split
          next hrow =>
            exact ⟨rows, tail, h.move rfl rfl hmid nofun (fun _ => h.seen hfile hseen hrow)
              (horigin _)⟩
          next => exact ⟨rows, tail, h.move rfl rfl hmid nofun nofun (horigin _)⟩
    next => exact ⟨rows, tail, h⟩
  | openLog c =>
    unfold logStep
    dsimp only
    split
    next row hcall =>
      refine ⟨rows, tail, h.move rfl rfl (hnotMid c row _ hcall nofun)
        (fun k hk => (AppendPhase.writing.inj hk).symm) nofun fun row' old hold hend => ?_⟩
      obtain ⟨-, rfl⟩ := Prod.mk.inj (Option.some.inj (hcall.symm.trans hold))
      exact absurd hend (by simp)
    next => exact ⟨rows, tail, h⟩
  | write c count =>
    cases hcall : s.calls c with
    | none => exact ⟨rows, tail, h.congr (by simp [logStep, hcall]) (by simp [logStep, hcall])⟩
    | some call =>
      obtain ⟨row, phase⟩ := call
      cases phase with
      | writing k =>
        refine h.write count hcall ha.1 fun hk => ?_
        subst hk
        cases htorn : h.torn with
        | clean =>
          refine ha.2 row hcall rows ?_
          rw [readObservations_getD, h.file, List.append_nil, RowFormat.parseObservations_log]
        | writing d r k' hd hpos hlt =>
          have hdc : d = c := by
            by_contra hdc
            exact ha.1 d hdc ⟨r, k', hd, hpos, hlt⟩
          subst hdc
          obtain ⟨-, hphase⟩ := Prod.mk.inj (Option.some.inj (hcall.symm.trans hd))
          exact absurd (AppendPhase.writing.inj hphase) (Nat.ne_of_lt hpos)
      | begun => exact ⟨rows, tail, h.congr (by simp [logStep, hcall]) (by simp [logStep, hcall])⟩
      | checked => exact ⟨rows, tail, h.congr (by simp [logStep, hcall]) (by simp [logStep, hcall])⟩
      | ended => exact ⟨rows, tail, h.congr (by simp [logStep, hcall]) (by simp [logStep, hcall])⟩
  | sync c =>
    unfold logStep
    dsimp only
    split
    next row k hcall =>
      split
      next hk =>
        subst hk
        have hmem := (h.written c row _ hcall).2 rfl
        refine ⟨rows, tail, h.move rfl rfl (hnotMid c row _ hcall fun k hk =>
          Or.inr (AppendPhase.writing.inj hk).symm) nofun (fun _ => Or.inl hmem)
          fun row' old hold _ => ?_⟩
        obtain ⟨rfl, -⟩ := Prod.mk.inj (Option.some.inj (hcall.symm.trans hold))
        exact ⟨rfl, true, rfl⟩
      next => exact ⟨rows, tail, h⟩
    next => exact ⟨rows, tail, h⟩
  | stop c =>
    unfold logStep
    dsimp only
    split
    next row ok hcall =>
      refine ⟨rows, tail, h.move rfl rfl ha nofun (fun hok => ?_) fun row' old hold _ => ?_⟩
      · exact h.recorded c row (hcall.trans (by rw [hok]))
      · obtain ⟨rfl, -⟩ := Prod.mk.inj (Option.some.inj (hcall.symm.trans hold))
        exact ⟨rfl, ok, rfl⟩
    next row phase _ hcall =>
      refine ⟨rows, tail, h.move rfl rfl ha nofun nofun fun row' old hold _ => ?_⟩
      obtain ⟨rfl, -⟩ := Prod.mk.inj (Option.some.inj (hcall.symm.trans hold))
      exact ⟨rfl, false, rfl⟩
    next => exact ⟨rows, tail, h⟩

lemma exists_logged {as : List (LogAction R)}
    (has : Along (logStep F) (Undisturbed F) emptyLog as) :
    ∃ rows tail, Logged F (exec (logStep F) emptyLog as) rows tail :=
  @invariant _ _ _ (Undisturbed F) (fun s => ∃ rows tail, Logged F s rows tail)
    (fun _ a ⟨_, _, hs⟩ ha => hs.step a ha) emptyLog ⟨[], [], logged_emptyLog⟩ as has

lemma check_whole (hcontent : s.file.getD [] = F.log rows) {c : ℕ} {row : R}
    (hcall : s.calls c = some (row, .begun)) :
    logStep F s (.check c) = s.phase c row (if row ∈ rows then .ended true else .checked) := by
  cases hfile : s.file with
  | none =>
    have hrows : rows = [] := by
      rw [hfile] at hcontent
      cases rows with
      | nil => rfl
      | cons r rows =>
        have hlen := congrArg List.length hcontent
        simp [RowFormat.log, sealFramedLines] at hlen
    subst hrows
    simp [logStep, hcall, hfile]
  | some content =>
    rw [hfile] at hcontent
    obtain rfl : content = F.log rows := hcontent
    simp only [logStep, hcall, hfile, RowFormat.seenRows_log]
    split <;> rfl

lemma appendAlone_spec (h : Logged F s rows []) {c : ℕ} (hc : s.calls c = none) (row : R) :
    (exec (logStep F) s (appendAlone F c row)).calls c = some (row, .ended true) ∧
      F.readObservations (exec (logStep F) s (appendAlone F c row)).file =
        some (if row ∈ rows then rows else rows ++ [row]) := by
  have hcontent : s.file.getD [] = F.log rows := by rw [h.file, List.append_nil]
  have hbegin : logStep F s (.begin c row) = s.phase c row .begun := by simp only [logStep, hc]
  have hcheck := @check_whole R F (s.phase c row .begun) rows _ hcontent c row
    (Function.update_self c _ s.calls)
  rw [appendAlone, exec_cons, hbegin, exec_cons, hcheck]
  by_cases hmem : row ∈ rows
  · rw [if_pos hmem, if_pos hmem]
    refine ⟨by simp [logStep, LogState.phase], ?_⟩
    simp only [exec_cons, exec_nil, logStep, LogState.phase, Function.update_self]
    rw [readObservations_getD, hcontent, RowFormat.parseObservations_log]
  · rw [if_neg hmem, if_neg hmem]
    refine ⟨by simp [logStep, LogState.phase], ?_⟩
    have hfile : (exec (logStep F) ((s.phase c row .begun).phase c row .checked)
        [.openLog c, .write c (F.line row).length, .sync c]).file = some (F.log (rows ++ [row])) := by
      rw [RowFormat.log_concat, ← RowFormat.line, ← hcontent]
      simp [logStep, LogState.phase]
    rw [hfile]
    exact RowFormat.parseObservations_log (rows ++ [row])

/-- A run in which no append is cut off, overlapped or overtaken by its own row leaves a log that is
read back whole. -/
theorem observations_survive {as : List (LogAction R)}
    (has : Along (logStep F) (Undisturbed F) emptyLog as)
    (hended : AllEnded (exec (logStep F) emptyLog as)) :
    Survives F (exec (logStep F) emptyLog as) := by
  obtain ⟨rows, tail, h⟩ := exists_logged has
  have hnotWriting : ∀ c row k, (exec (logStep F) emptyLog as).calls c ≠ some (row, .writing k) :=
    fun c row k hcall => by
      obtain ⟨ok, hok⟩ := hended c row _ hcall
      exact absurd hok nofun
  cases h.torn with
  | writing c row k hcall => exact absurd hcall (hnotWriting c row k)
  | clean =>
    refine ⟨rows, ?_, h.nodup, fun c row hcall => ?_, fun row hrow => ?_, fun c row hc => ?_⟩
    · rw [readObservations_getD, h.file, List.append_nil, RowFormat.parseObservations_log]
    · rcases h.recorded c row hcall with hmem | ⟨d, hd⟩
      · exact hmem
      · exact absurd hd (hnotWriting d row _)
    · obtain ⟨c, phase, hcall, rfl | ⟨ok, rfl⟩⟩ := h.origin row hrow
      · exact absurd hcall (hnotWriting c row _)
      · exact ⟨c, ok, hcall⟩
    · exact appendAlone_spec h hc row

end Log

section Json
open TextCodec

lemma startsOtherThan_natural {close : Char} (h : close.isDigit = false) :
    Codec.natural.StartsOtherThan close := fun n => by
  obtain ⟨first, text, htext⟩ := List.exists_cons_of_ne_nil (@Nat.toDigits_ne_nil n 10)
  refine ⟨first, text, htext, ?_⟩
  rintro rfl
  have hdigit : first.isDigit = true :=
    Nat.isDigit_of_mem_toDigits (by decide) (by decide) (htext ▸ List.mem_cons_self)
  exact absurd (h.symm.trans hdigit) Bool.false_ne_true

def stringsCodec : Codec (List Text) :=
  stringCodec.many '[' ']' (by decide) (by decide) (startsOtherThan_stringCodec (by decide))

def numbersCodec : Codec (List ℕ) :=
  Codec.natural.many '[' ']' (by decide) (by decide) (startsOtherThan_natural (by decide))

def memberCodec : Codec (Text × List Text) :=
  stringCodec.andThen selfDelimiting_stringCodec (stringsCodec.preceded ":".toList)

lemma startsOtherThan_member : memberCodec.StartsOtherThan '\x7d' := fun member =>
  ⟨'"', _, rfl, by decide⟩

def dimensionMembers (p : SessionProvenance) : List (Text × List Text) :=
  [("surface".toList, p.surface), ("tenant".toList, p.tenant), ("container".toList, p.container),
    ("cwd".toList, p.cwd), ("status".toList, p.status)].filter fun member => !member.2.isEmpty

def ofMembers (members : List (Text × List Text)) : SessionProvenance :=
  let values (name : String) := (members.lookup name.toList).getD []
  ⟨values "surface", values "tenant", values "container", values "cwd", values "status"⟩

lemma ofMembers_dimensionMembers (p : SessionProvenance) : ofMembers (dimensionMembers p) = p := by
  obtain ⟨surface, tenant, container, cwd, status⟩ := p
  cases surface <;> cases tenant <;> cases container <;> cases cwd <;> cases status <;> rfl

def dimensionsCodec : Codec SessionProvenance :=
  (memberCodec.many '\x7b' '\x7d' isDigit_closeBrace (by decide) startsOtherThan_member).imap
    ofMembers dimensionMembers ofMembers_dimensionMembers

lemma selfDelimiting_dimensions : dimensionsCodec.SelfDelimiting :=
  (Codec.selfDelimiting_many _ _ _ _ _).imap _ _ _

lemma avoids_dimensions : dimensionsCodec.Avoids '\n' :=
  (Codec.Avoids.many (avoids_stringCodec.andThen _ ((avoids_stringCodec.many (by decide) (by decide)
    (by decide) _ _ _).preceded (by decide))) (by decide) (by decide) (by decide) _ _ _).imap _ _ _

/-- The members of a row from `body_sha256` on; sequences are left out where there are none. -/
def bodyCodec : Codec (Text × Option (List ℕ)) :=
  (stringCodec.andThen selfDelimiting_stringCodec
    (numbersCodec.optional ",\"body_shard_sequences\":".toList '\x7d' isDigit_closeBrace (by decide)
      (by decide))).preceded "\"body_sha256\":".toList

lemma selfDelimiting_body : bodyCodec.SelfDelimiting :=
  (selfDelimiting_stringCodec.andThen (Codec.selfDelimiting_optional _ _ _ _ _)).preceded _

lemma avoids_body : bodyCodec.Avoids '\n' :=
  (avoids_stringCodec.andThen _ (((Codec.avoids_natural (by decide)).many (by decide) (by decide)
    (by decide) _ _ _).optional (by decide) (by decide) _ _ _)).preceded (by decide)

lemma endsWith_body : bodyCodec.EndsWith '\x7d' :=
  ((Codec.endsWith_optional _ _ _ _ _).andThen _ _).preceded _

lemma selfDelimiting_numberComma : (Codec.natural.closed ',' isDigit_comma).SelfDelimiting :=
  Codec.selfDelimiting_closed _ _

def countCodec : Codec (ℕ × Text × Option (List ℕ)) :=
  ((Codec.natural.closed ',' isDigit_comma).andThen selfDelimiting_numberComma
    bodyCodec).preceded ",\"body_shard_count\":".toList

lemma selfDelimiting_count : countCodec.SelfDelimiting :=
  ((Codec.selfDelimiting_closed _ _).andThen selfDelimiting_body).preceded _

lemma avoids_count : countCodec.Avoids '\n' :=
  (((Codec.avoids_natural (by decide)).closed _ (by decide)).andThen _ avoids_body).preceded
    (by decide)

lemma endsWith_count : countCodec.EndsWith '\x7d' := (endsWith_body.andThen _ _).preceded _

def membersCodec : Codec (Text × SessionProvenance × ℕ × Text × Option (List ℕ)) :=
  (stringCodec.andThen selfDelimiting_stringCodec
    ((dimensionsCodec.andThen selfDelimiting_dimensions countCodec).preceded
      ",\"dimensions\":".toList)).preceded "\x7b\"session_id\":".toList

/-- The JSON object of an observation row. -/
def observationCodec : Codec (ProvenanceObservation Text) :=
  membersCodec.imap (fun x => ⟨x.1, x.2.1, x.2.2.1, x.2.2.2.1, x.2.2.2.2.getD []⟩)
    (fun o => (o.sessionId, o.dimensions, o.bodyShardCount, o.bodySha256,
      if o.bodyShardSequences = [] then none else some o.bodyShardSequences))
    fun o => by
      obtain ⟨sessionId, dimensions, count, sha256, sequences⟩ := o
      cases sequences <;> rfl

def observationJson : RowFormat (ProvenanceObservation Text) :=
  .ofCodec observationCodec
    (((selfDelimiting_stringCodec.andThen ((selfDelimiting_dimensions.andThen
      selfDelimiting_count).preceded _)).preceded _).imap _ _ _)
    (((avoids_stringCodec.andThen _ ((avoids_dimensions.andThen _ avoids_count).preceded
      (by decide))).preceded (by decide)).imap _ _ _)
    (((((endsWith_count.andThen _ _).preceded _).andThen _ _).preceded _).imap _ _ _)

def firstObservation : ProvenanceObservation Text :=
  ⟨['s'], ⟨[['w', 'e', 'b']], [], [], [], []⟩, 1, ['0'], [1]⟩

theorem first_observation_survives :
    Survives observationJson (exec (logStep observationJson) emptyLog
      (appendAlone observationJson 0 firstObservation)) := by
  refine observations_survive ⟨trivial, trivial, trivial, ⟨?_, ?_⟩, trivial, trivial⟩ ?_
  · rintro d hd ⟨row, written, hcall, -⟩
    simp [logStep, emptyLog, LogState.phase, hd] at hcall
  · intro row _ rows hrows
    obtain rfl := Option.some.inj hrows
    exact List.not_mem_nil
  · intro c row phase hcall
    by_cases hc : c = 0
    · subst hc
      rw [(appendAlone_spec logged_emptyLog rfl firstObservation).1] at hcall
      exact ⟨true, (Prod.mk.inj (Option.some.inj hcall)).2.symm⟩
    · simp [appendAlone, logStep, emptyLog, LogState.phase, hc] at hcall

def killedAppend : List (LogAction (ProvenanceObservation Text)) :=
  [.begin 0 firstObservation, .check 0, .openLog 0, .write 0 5, .stop 0]

/-- The part of a row it leaves makes the log unreadable. -/
theorem killed_append_unreadable :
    AllEnded (exec (logStep observationJson) emptyLog killedAppend) ∧
      ¬ Survives observationJson (exec (logStep observationJson) emptyLog killedAppend) := by
  constructor
  · intro c row phase hcall
    by_cases hc : c = 0
    · subst hc
      obtain ⟨-, rfl⟩ := Prod.mk.inj (Option.some.inj hcall)
      exact ⟨false, rfl⟩
    · simp [killedAppend, logStep, emptyLog, LogState.phase, hc] at hcall
  · rintro ⟨rows, hrows, -⟩
    have hfile : (exec (logStep observationJson) emptyLog killedAppend).file =
        some (utf8 ['\x7b', '"', 's', 'e', 's']) := by decide
    have hnone : observationJson.parseObservations (utf8 ['\x7b', '"', 's', 'e', 's']) = none := by
      rw [RowFormat.parseObservations, GrokBot.decodeUtf8_utf8]
      decide
    rw [hfile] at hrows
    exact absurd (hnone.symm.trans hrows) nofun

end Json

end ChatStasher
