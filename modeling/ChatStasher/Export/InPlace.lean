import ChatStasher.Export.OneObject

/-! Every reachable state of a stage whose calls do not disturb each other. -/
namespace ChatStasher.Export
open Inbox (Text)
open LineAppend (Mid Tail)
open StepRun

variable {H : Sha256}

section Sound
variable (F : IndexFormat H.Digest)

/-- A rename finds at the temp name the file its call created, which nobody else has opened, and no
object under another name in the directory; an index is read, and gets a row, while no other row is
half written there; and no operation fails in the middle of a row. -/
def Undisturbed (s : ExportStage H) : ExportAction → Prop
  | .next c => ∀ call, s.calls c = some call →
    match call.phase with
    | .naming i => ∀ j, (s.dirs call.address).lookup (tempName call.deliveredName) = some j →
        j = i ∧ (s.inodes i).openers = [c] ∧
          ∀ e ∈ s.dirs call.address, visible e.1 = true → e.1 = call.deliveredName
    | .indexing _ => ∀ d, ¬ Mid (indexWriting F s call.machine) d
    | _ => True
  | .append c _ => ∀ call, s.calls c = some call →
      ∀ d, d ≠ c → ¬ Mid (indexWriting F s call.machine) d
  | .fail c => ∀ machine, ¬ Mid (indexWriting F s machine) c
  | _ => True

structure StageSound (s : ExportStage H) : Prop where
  objects : ObjectsSound s
  indexes : ∀ machine, ∃ rows tail, IndexSound F s machine rows tail

variable {F} {s s' : ExportStage H} {c : ℕ}

@[simp] lemma rowSound_phase {call : Call H.Digest} {rows : List (ExportFileRow H.Digest)}
    {p q : Phase} : RowSound F { call with phase := p } rows q ↔ RowSound F call rows q := by
  cases q <;> exact Iff.rfl

lemma StageSound.of_quiet (h : StageSound F s) (ho : ObjectsSound s')
    (hindexes : s'.indexes = s.indexes) (hcalls : ∀ d, d ≠ c → s'.calls d = s.calls d)
    (hmid : ∀ machine, ¬ Mid (indexWriting F s machine) c) {call : Call H.Digest} {p : Phase}
    (hself : s'.calls c = some { call with phase := p })
    (hidle : ∀ outcome written, p = .appending outcome written →
      written = 0 ∨ written = (rowLine F call).length)
    (hrow : ∀ rows tail, IndexSound F s call.machine rows tail → RowSound F call rows p) :
    StageSound F s' := by
  refine ⟨ho, fun machine => ?_⟩
  obtain ⟨rows, tail, hindex⟩ := h.indexes machine
  refine ⟨rows, tail, hindex.of_quiet (congrFun hindexes machine) hcalls (hmid machine)
    (not_mid_of_phase hself hidle machine) fun call' hcall' hm => ?_⟩
  obtain rfl := Option.some.inj (hself.symm.trans hcall')
  obtain rfl : call.machine = machine := hm
  exact rowSound_phase.mpr (hrow rows tail hindex)

/-- What most phases are: outside the index, and without a claim about it. -/
def Phase.IndexFree : Phase → Prop
  | .appending _ _ => False
  | .ended _ => False
  | _ => True

lemma StageSound.free (h : StageSound F s) {call : Call H.Digest} (hcall : s.calls c = some call)
    (hfree : call.phase.IndexFree) {p : Phase} (hp : p.IndexFree) (ho : ObjectsSound s')
    (hindexes : s'.indexes = s.indexes)
    (hcalls : s'.calls = Function.update s.calls c (some { call with phase := p })) :
    StageSound F s' := by
  refine h.of_quiet ho hindexes (fun d hd => by rw [hcalls, Function.update_of_ne hd])
    (fun machine => not_mid_of_phase hcall (fun outcome written heq => ?_) machine)
    (by rw [hcalls, Function.update_self]) (fun outcome written heq => ?_) fun rows tail _ => ?_
  · rw [heq] at hfree
    exact hfree.elim
  · rw [heq] at hp
    exact hp.elim
  · cases p <;> trivial

lemma IndexSound.read {machine : Text} {rows : List (ExportFileRow H.Digest)} {tail : Bytes}
    (h : IndexSound F s machine rows tail) (hnone : ∀ d, ¬ Mid (indexWriting F s machine) d) :
    ∃ state, readExportIndex F machine (s.indexes machine) = some state ∧ state.rows = rows := by
  have hcontent := h.content
  rw [h.tail.eq_nil hnone, List.append_nil] at hcontent
  exact Option.map_eq_some_iff.mp (readExportIndex_log h.usable hcontent)

lemma rowLine_ne_nil (call : Call H.Digest) : 0 < (rowLine F call).length := by
  rw [rowLine, length_line]
  exact Nat.succ_pos _

lemma StageSound.index (h : StageSound F s) {call : Call H.Digest} (hcall : s.calls c = some call)
    {outcome : SealOutcome} (hphase : call.phase = .indexing outcome)
    (hnone : ∀ d, ¬ Mid (indexWriting F s call.machine) d) :
    StageSound F (nextOperation F s c call) := by
  obtain ⟨rows, tail, hindex⟩ := h.indexes call.machine
  obtain ⟨state, hread, hrows⟩ := hindex.read hnone
  have hold := h.objects.calls c call hcall
  have hheld : ∃ e ∈ s.dirs call.address, visible e.1 = true := by
    have hp := hold.phase
    rwa [hphase] at hp
  have hstraight : call.late = true → Straight (.indexing outcome) := fun hl => by
    have := (hold.late hl).2
    rwa [hphase] at this
  have hnot : call.phase ≠ .refused := by rw [hphase]; exact nofun
  have hmid : ∀ machine, ¬ Mid (indexWriting F s machine) c := fun machine =>
    not_mid_of_phase hcall (fun o w heq => by rw [hphase] at heq; exact absurd heq nofun) machine
  unfold nextOperation
  rw [hphase]
  dsimp only
  rw [hread]
  dsimp only
  split
  next hany =>
    have hrecorded : Recorded call rows := by
      obtain ⟨row, hrow, hmatch⟩ := List.any_eq_true.mp hany
      rw [Bool.and_eq_true, beq_iff_eq, decide_eq_true_eq] at hmatch
      exact ⟨row, hrows ▸ hrow, hmatch⟩
    refine h.of_quiet (h.objects.archive hcall hnot hheld fun hl => ?_) rfl
      (fun d hd => Function.update_of_ne hd _ _) hmid (Function.update_self _ _ _) nofun
      fun rows' tail' hindex' => ?_
    · cases outcome with
      | alreadyArchived => trivial
      | installed => exact (hstraight hl).elim
    · obtain ⟨state', hread', hrows'⟩ := hindex'.read hnone
      obtain rfl : state = state' := Option.some.inj (hread.symm.trans hread')
      obtain rfl : rows = rows' := hrows.symm.trans hrows'
      exact hrecorded
  next =>
    refine h.of_quiet (h.objects.move hcall hnot hheld fun hl => ?_) rfl
      (fun d hd => Function.update_of_ne hd _ _) hmid (Function.update_self _ _ _)
      (fun o w heq => Or.inl (Phase.appending.inj heq).2.symm) fun rows' tail' _ => ?_
    · cases outcome with
      | alreadyArchived => trivial
      | installed => exact (hstraight hl).elim
    · exact ⟨Nat.zero_le _, fun hzero => absurd hzero (Nat.ne_of_lt (rowLine_ne_nil call))⟩

lemma StageSound.finish (h : StageSound F s) {call : Call H.Digest} (hcall : s.calls c = some call)
    {outcome : SealOutcome} {written : ℕ} (hphase : call.phase = .appending outcome written) :
    StageSound F (nextOperation F s c call) := by
  unfold nextOperation
  rw [hphase]
  dsimp only
  split
  next hwritten =>
    have hold := h.objects.calls c call hcall
    have hheld : ∃ e ∈ s.dirs call.address, visible e.1 = true := by
      have hp := hold.phase
      rwa [hphase] at hp
    refine h.of_quiet (h.objects.archive hcall (by rw [hphase]; exact nofun) hheld fun hl => ?_) rfl
      (fun d hd => Function.update_of_ne hd _ _)
      (fun machine => not_mid_of_phase hcall (fun o w heq => Or.inr ?_) machine)
      (Function.update_self _ _ _) nofun fun rows tail hindex => ?_
    · have hstraight := (hold.late hl).2
      rw [hphase] at hstraight
      cases outcome with
      | alreadyArchived => trivial
      | installed => exact hstraight.elim
    · rw [hphase] at heq
      obtain ⟨-, rfl⟩ := Phase.appending.inj heq
      exact hwritten
    · have hrow := hindex.calls c call hcall rfl
      rw [hphase] at hrow
      exact hrow.2 hwritten
  next => exact h

lemma StageSound.copies (h : StageSound F s) {call : Call H.Digest} (hcall : s.calls c = some call)
    (hfree : call.phase.IndexFree) (hcopies : ¬ Straight call.phase) (hnot : call.phase ≠ .refused)
    {p : Phase} (hp : p.IndexFree) (hknown : PhaseSound s c call p) :
    StageSound F (s.move c call p) :=
  h.free hcall hfree hp (h.objects.move hcall hnot hknown fun hl =>
    absurd hl (h.objects.not_late hcall hcopies)) rfl rfl

lemma StageSound.unlinks (h : StageSound F s) {call : Call H.Digest} (hcall : s.calls c = some call)
    (hfree : call.phase.IndexFree) (hcopies : ¬ Straight call.phase) (hnot : call.phase ≠ .refused)
    {p : Phase} (hp : p.IndexFree)
    (hknown : PhaseSound (s.unlink call.address (tempName call.deliveredName)) c call p) :
    StageSound F ((s.unlink call.address (tempName call.deliveredName)).move c call p) :=
  have hunlinked := h.objects.unlink call.address call.deliveredName
  h.free hcall hfree hp (hunlinked.move hcall hnot hknown fun hl =>
    absurd hl (hunlinked.not_late hcall hcopies)) rfl rfl

lemma StageSound.next (h : StageSound F s) {call : Call H.Digest} (hcall : s.calls c = some call)
    (hok : Undisturbed F s (.next c)) : StageSound F (nextOperation F s c call) := by
  have ho := h.objects
  have hold := ho.calls c call hcall
  have hok := hok call hcall
  cases hphase : call.phase with
  | hashed =>
    have hfree : call.phase.IndexFree := by rw [hphase]; trivial
    have hnot : call.phase ≠ .refused := by rw [hphase]; exact nofun
    unfold nextOperation
    rw [hphase]
    dsimp only
    rcases ho.files.heldObject_eq call.address with ⟨habsent, hnone⟩ | ⟨name, i, hheld, hvisible, hi⟩
    · rw [habsent]
      exact h.free hcall hfree (p := .installing) trivial (ho.move hcall hnot trivial fun hl =>
        absurd (ho.files.held _ (hold.late hl).1) hnone) rfl rfl
    · rw [hheld]
      exact h.free hcall hfree (p := .found name) trivial
        (ho.move hcall hnot ⟨hvisible, i, hi⟩ fun _ => trivial) rfl rfl
  | found name =>
    have hp := hold.phase
    rw [hphase] at hp
    obtain ⟨i, hlookup, hsize⟩ := ho.found_size hcall hphase
    unfold nextOperation
    rw [hphase]
    dsimp only
    rw [hlookup]
    dsimp only
    rw [if_neg (not_not.mpr hsize)]
    exact h.free hcall (by rw [hphase]; trivial) (p := .indexing _) trivial
      (ho.move hcall (by rw [hphase]; exact nofun) ⟨_, hp.2.choose_spec, hp.1⟩ fun _ => trivial) rfl
      rfl
  | indexing outcome =>
    rw [hphase] at hok
    exact h.index hcall hphase hok
  | appending outcome written => exact h.finish hcall hphase
  | naming i =>
    rw [hphase] at hok
    have hlate := ho.not_late hcall (by rw [hphase]; exact id)
    unfold nextOperation
    rw [hphase]
    dsimp only
    split
    next =>
      exact h.free hcall (by rw [hphase]; trivial) (p := .discarding) trivial
        (ho.move hcall (by rw [hphase]; exact nofun) trivial fun hl => absurd hl hlate) rfl rfl
    next j hlookup =>
      obtain ⟨rfl, hown, honly⟩ := hok j hlookup
      exact h.free hcall (by rw [hphase]; trivial) (p := .indexing _) trivial
        (ho.rename hcall hphase hlookup hown honly) rfl rfl
  | installing =>
    have hmove : ∀ p, Phase.IndexFree p → PhaseSound s c call p →
        StageSound F (s.move c call p) := fun p hp hknown =>
      h.copies hcall (by rw [hphase]; trivial) (by rw [hphase]; exact id)
        (by rw [hphase]; exact nofun) hp hknown
    unfold nextOperation
    rw [hphase]
    dsimp only
    split
    next => exact hmove _ trivial trivial
    next => exact hmove _ trivial trivial
  | probing =>
    have hmove : ∀ p, Phase.IndexFree p → PhaseSound s c call p →
        StageSound F (s.move c call p) := fun p hp hknown =>
      h.copies hcall (by rw [hphase]; trivial) (by rw [hphase]; exact id)
        (by rw [hphase]; exact nofun) hp hknown
    unfold nextOperation
    rw [hphase]
    dsimp only
    split
    next => exact hmove _ trivial trivial
    next => exact hmove _ trivial trivial
  | clearing =>
    unfold nextOperation
    rw [hphase]
    exact h.unlinks hcall (by rw [hphase]; trivial) (by rw [hphase]; exact id)
      (by rw [hphase]; exact nofun) trivial trivial
  | creating =>
    have hfree : call.phase.IndexFree := by rw [hphase]; trivial
    unfold nextOperation
    rw [hphase]
    dsimp only
    split
    next i hlookup =>
      exact h.free hcall hfree (p := .copying _ _) trivial (ho.truncate hcall hphase hlookup) rfl rfl
    next => exact h.free hcall hfree (p := .copying _ _) trivial (ho.create hcall hphase) rfl rfl
  | copying i copied =>
    have hp := hold.phase
    rw [hphase] at hp
    have hmove : ∀ p, Phase.IndexFree p → PhaseSound s c call p →
        StageSound F (s.move c call p) := fun p hp hknown =>
      h.copies hcall (by rw [hphase]; trivial) (by rw [hphase]; exact id)
        (by rw [hphase]; exact nofun) hp hknown
    unfold nextOperation
    rw [hphase]
    dsimp only
    split
    next => exact hmove .discarding trivial trivial
    next hsame =>
      -- The digest compared is that of the bytes read; the file holds them if nobody else opened it.
      refine hmove (.naming i) trivial ⟨hp.1, fun hown => ?_⟩
      rw [hp.2.2.1 hown]
      exact not_not.mp fun hne => hsame (Or.inl hne)
  | discarding =>
    unfold nextOperation
    rw [hphase]
    exact h.unlinks hcall (by rw [hphase]; trivial) (by rw [hphase]; exact id)
      (by rw [hphase]; exact nofun) trivial trivial
  | ended =>
    unfold nextOperation
    rw [hphase]
    exact h
  | refused =>
    unfold nextOperation
    rw [hphase]
    exact h
  | stopped =>
    unfold nextOperation
    rw [hphase]
    exact h

lemma StageSound.copy (h : StageSound F s) {call : Call H.Digest} (hcall : s.calls c = some call)
    {i : ℕ} {copied : Bytes} (hphase : call.phase = .copying i copied) (chunk : Bytes) :
    StageSound F ((s.setInode i { s.inodes i with
      bytes := writeAt (s.inodes i).bytes copied.length chunk }).move c call
        (.copying i (copied ++ chunk))) :=
  h.free hcall (by rw [hphase]; trivial) (p := .copying _ _) trivial
    (h.objects.copy hcall hphase chunk) rfl rfl

lemma ObjectsSound.setIndex (h : ObjectsSound s) (machine : Text) (content : Bytes) :
    ObjectsSound (s.setIndex machine content) := by
  refine ⟨⟨h.files.named, h.files.nodup, h.files.known, h.files.whole, h.files.one, h.files.held⟩,
    fun d call hcall => ?_⟩
  have hold := h.calls d call hcall
  refine ⟨hold.measured, ?_, hold.late⟩
  have hp := hold.phase
  generalize call.phase = p at hp ⊢
  cases p <;> exact hp

/-- The state behind a write of some more of a row. -/
def appended (F : IndexFormat H.Digest) (s : ExportStage H) (c : ℕ) (call : Call H.Digest)
    (outcome : SealOutcome) (written count : ℕ) : ExportStage H :=
  (s.setIndex call.machine ((s.indexes call.machine).getD [] ++
    ((rowLine F call).drop written).take count)).move c call
      (.appending outcome (min (written + count) (rowLine F call).length))

variable {call : Call H.Digest} {outcome : SealOutcome} {written count : ℕ}

lemma appended_calls_self : (appended F s c call outcome written count).calls c =
    some { call with phase := .appending outcome (min (written + count) (rowLine F call).length) } :=
  Function.update_self _ _ _

lemma indexWriting_appended : indexWriting F (appended F s c call outcome written count)
    call.machine = Function.update (indexWriting F s call.machine) c
      (some (rowLine F call, min (written + count) (rowLine F call).length)) := by
  funext d
  by_cases hd : d = c
  · subst hd
    rw [Function.update_self]
    simp [indexWriting, appended, ExportStage.move, ExportStage.setIndex, rowLine, Call.row]
  · rw [Function.update_of_ne hd]
    simp [indexWriting, appended, ExportStage.move, ExportStage.setIndex, hd]

lemma Recorded.mono {rows rows' : List (ExportFileRow H.Digest)} (hsub : rows ⊆ rows')
    (h : Recorded call rows) : Recorded call rows' := by
  obtain ⟨row, hrow, hmatch⟩ := h
  exact ⟨row, hsub hrow, hmatch⟩

lemma RowSound.mono {rows rows' : List (ExportFileRow H.Digest)} (hsub : rows ⊆ rows') {p : Phase}
    (h : RowSound F call rows p) : RowSound F call rows' p := by
  cases p with
  | appending o w => exact ⟨h.1, fun hw => (h.2 hw).mono hsub⟩
  | ended o => exact Recorded.mono hsub h
  | _ => trivial

lemma IndexSound.append {rows : List (ExportFileRow H.Digest)} {tail : Bytes}
    (h : IndexSound F s call.machine rows tail) (hcall : s.calls c = some call)
    (hphase : call.phase = .appending outcome written) (hbytes : call.bytes ≠ 0)
    (hothers : ∀ d, d ≠ c → ¬ Mid (indexWriting F s call.machine) d) :
    ∃ rows' tail', IndexSound F (appended F s c call outcome written count) call.machine rows'
      tail' := by
  have hc : indexWriting F s call.machine c = some (rowLine F call, written) := by
    rw [indexWriting, hcall, Option.bind_some, hphase]
    exact if_pos rfl
  have hrow := h.calls c call hcall rfl
  rw [hphase] at hrow
  have hcontent : ((appended F s c call outcome written count).indexes call.machine).getD [] =
      F.log rows ++ (tail ++ ((rowLine F call).drop written).take count) := by
    have hindex : (appended F s c call outcome written count).indexes call.machine =
        some ((s.indexes call.machine).getD [] ++ ((rowLine F call).drop written).take count) :=
      Function.update_self _ _ _
    rw [hindex, Option.getD_some, h.content, List.append_assoc]
  have hother : ∀ rows', rows ⊆ rows' →
      RowSound F call rows' (.appending outcome (min (written + count) (rowLine F call).length)) →
      ∀ d call', (appended F s c call outcome written count).calls d = some call' →
        call'.machine = call.machine → RowSound F call' rows' call'.phase := by
    intro rows' hsub hself d call' hcall' hm
    by_cases hd : d = c
    · subst hd
      obtain rfl := Option.some.inj (appended_calls_self.symm.trans hcall')
      exact rowSound_phase.mpr hself
    · have hcall' : Function.update s.calls c _ d = some call' := hcall'
      rw [Function.update_of_ne hd] at hcall'
      exact (h.calls d call' hcall' hm).mono hsub
  rcases h.tail.write count hc hrow.1 hothers indexWriting_appended with
    ⟨-, -, hline, hclean⟩ | ⟨hpart, htorn⟩ | ⟨hwhole, hnothing, hsame⟩
  · refine ⟨rows ++ [call.row], [], ?_, fun row hmem => ?_, hclean,
      hother _ (List.subset_append_left _ _) ⟨min_le_right _ _, fun _ => ?_⟩⟩
    · rw [hcontent, hline, List.append_nil, RowFormat.log_concat]
      rfl
    · rcases List.mem_append.mp hmem with hmem | hmem
      · exact h.usable row hmem
      · obtain rfl := List.mem_singleton.mp hmem
        exact ⟨rfl, rfl, hbytes, rfl⟩
    · exact ⟨call.row, List.mem_append_right _ List.mem_cons_self, rfl, rfl⟩
  · exact ⟨rows, _, hcontent, h.usable, htorn, hother rows (List.Subset.refl _)
      ⟨min_le_right _ _, fun hw => absurd hw (Nat.ne_of_lt hpart)⟩⟩
  · refine ⟨rows, tail, ?_, h.usable, ?_, hother rows (List.Subset.refl _)
      ⟨min_le_right _ _, fun _ => hrow.2 hwhole⟩⟩
    · rw [hcontent, hnothing, List.append_nil]
    · rw [hsame] at *
      exact h.tail

lemma StageSound.append (h : StageSound F s) (hcall : s.calls c = some call)
    (hphase : call.phase = .appending outcome written)
    (hothers : ∀ d, d ≠ c → ¬ Mid (indexWriting F s call.machine) d) :
    StageSound F (appended F s c call outcome written count) := by
  have hold := h.objects.calls c call hcall
  have hnot : call.phase ≠ .refused := by rw [hphase]; exact nofun
  have hheld : ∃ e ∈ s.dirs call.address, visible e.1 = true := by
    have hp := hold.phase
    rwa [hphase] at hp
  refine ⟨(h.objects.setIndex _ _).move hcall hnot hheld fun hl => ?_, fun machine => ?_⟩
  · have hstraight := (hold.late hl).2
    rw [hphase] at hstraight
    cases outcome with
    | alreadyArchived => trivial
    | installed => exact hstraight.elim
  · obtain ⟨rows, tail, hindex⟩ := h.indexes machine
    by_cases hm : call.machine = machine
    · subst hm
      obtain ⟨-, content, hne, -, hlen⟩ := hold.measured.resolve_left hnot
      refine hindex.append hcall hphase ?_ hothers
      rw [hlen]
      exact fun hzero => hne (List.length_eq_zero_iff.mp hzero)
    · have hnone : ∀ s' : ExportStage H, ∀ p, s'.calls c = some { call with phase := p } →
          ¬ Mid (indexWriting F s' machine) c := by
        rintro s' p hself ⟨line, k, hk, -⟩
        rw [indexWriting, hself, Option.bind_some] at hk
        split at hk
        next => rw [if_neg hm] at hk; exact absurd hk.symm (Option.some_ne_none _)
        next => exact absurd hk.symm (Option.some_ne_none _)
      refine ⟨rows, tail, hindex.of_quiet (Function.update_of_ne (Ne.symm hm) _ _)
        (fun d hd => Function.update_of_ne hd _ _) (hnone s call.phase hcall)
        (hnone _ _ (Function.update_self _ _ _)) fun call' hcall' hm' => ?_⟩
      obtain rfl := Option.some.inj (appended_calls_self.symm.trans hcall')
      exact absurd hm' hm

lemma StageSound.begin (h : StageSound F s) (hnone : s.calls c = none) {p : Phase}
    (hp : p = .hashed ∨ p = .refused)
    (hmeasured : p = .refused ∨ (visible call.deliveredName = true ∧ ∃ content : Bytes,
      content ≠ [] ∧ call.contentSha256 = H.digest content ∧ call.bytes = content.length))
    (hlate : call.late = true → call.address ∈ s.archived ∧ Straight p) :
    StageSound F (s.move c call p) := by
  have hself : (s.move c call p).calls c = some { call with phase := p } :=
    Function.update_self _ _ _
  refine h.of_quiet (h.objects.of_keeps (c := c) ⟨le_rfl, List.Subset.refl _,
    fun a e he _ => ⟨e.2, he⟩, fun i _ => Or.inl rfl, fun a e he _ => Or.inl he⟩
    ⟨h.objects.files.named, h.objects.files.nodup, h.objects.files.known, h.objects.files.whole,
    h.objects.files.one, h.objects.files.held⟩ (fun d hd => Function.update_of_ne hd _ _)
    fun call' hcall' => ?_) rfl (fun d hd => Function.update_of_ne hd _ _) (fun machine => ?_) hself
    (fun o w heq => ?_) fun rows tail _ => ?_
  · obtain rfl := Option.some.inj (hself.symm.trans hcall')
    refine ⟨hmeasured, phaseSound_move.mpr ?_, hlate⟩
    rcases hp with rfl | rfl <;> trivial
  · rintro ⟨line, k, hk, -⟩
    rw [indexWriting, hnone] at hk
    exact absurd hk.symm (Option.some_ne_none _)
  · rcases hp with rfl | rfl <;> cases heq
  · rcases hp with rfl | rfl <;> trivial

lemma StageSound.fail (h : StageSound F s) (hcall : s.calls c = some call)
    (hmid : ∀ machine, ¬ Mid (indexWriting F s machine) c) :
    StageSound F (s.move c call (failed call.phase)) := by
  have hold := h.objects.calls c call hcall
  by_cases hrefused : call.phase = .refused
  · have hsame : s.move c call (failed call.phase) = s := by
      have hcall' : { call with phase := failed call.phase } = call := by
        rw [hrefused]
        cases call
        cases hrefused
        rfl
      rw [ExportStage.move, hcall']
      exact congrArg (fun calls => { s with calls := calls })
        (Function.update_eq_self_iff.mpr hcall.symm)
    rw [hsame]
    exact h
  · refine h.of_quiet (h.objects.move hcall hrefused ?_ fun hl => ?_) rfl
      (fun d hd => Function.update_of_ne hd _ _) hmid (Function.update_self _ _ _)
      (fun o w heq => ?_) fun rows tail hindex => ?_
    · have hp := hold.phase
      generalize call.phase = p at hp ⊢
      cases p <;> trivial
    · have hstraight := (hold.late hl).2
      generalize call.phase = p at hstraight ⊢
      cases p <;> trivial
    · generalize call.phase = p at heq
      cases p <;> exact absurd heq nofun
    · have hrow := hindex.calls c call hcall rfl
      generalize call.phase = p at hrow ⊢
      cases p <;> trivial

theorem StageSound.step (h : StageSound F s) (a : ExportAction) (ha : Undisturbed F s a) :
    StageSound F (exportStep F s a) := by
  cases a with
  | start c machine platform deliveredName content =>
    unfold exportStep
    dsimp only
    split
    next => exact h
    next hnone =>
      split
      next => exact h.begin hnone (Or.inr rfl) (Or.inl rfl) nofun
      next hvalid =>
        simp only [Bool.or_eq_true, not_or] at hvalid
        obtain ⟨⟨-, hname⟩, hcontent⟩ := hvalid
        refine h.begin hnone (Or.inl rfl) (Or.inr ⟨?_, content, ?_, rfl, rfl⟩)
          fun hl => ⟨of_decide_eq_true hl, trivial⟩
        · exact visible_of_validateDeliveredName (Option.not_isSome_iff_eq_none.mp hname)
        · simpa using hcontent
  | next c =>
    unfold exportStep
    dsimp only
    split
    next call hcall => exact h.next hcall ha
    next => exact h
  | copy c chunk =>
    unfold exportStep
    dsimp only
    split
    next call hcall =>
      split
      next i copied hphase => exact h.copy hcall hphase chunk
      next => exact h
    next => exact h
  | append c count =>
    unfold exportStep
    dsimp only
    split
    next call hcall =>
      split
      next outcome written hphase => exact h.append hcall hphase (ha call hcall)
      next => exact h
    next => exact h
  | fail c =>
    unfold exportStep
    dsimp only
    split
    next call hcall => exact h.fail hcall ha
    next => exact h

lemma stageSound_emptyStage : StageSound F (emptyStage : ExportStage H) where
  objects := ⟨⟨nofun, fun _ => List.nodup_nil, nofun, nofun, fun _ => Nat.zero_le _, nofun⟩, nofun⟩
  indexes _ := ⟨[], [], rfl, nofun, .clean fun _ ⟨_, _, hk, _⟩ => absurd hk nofun, nofun⟩

end Sound

section Result
variable (F : IndexFormat H.Digest)

/-- A call that runs by itself over an object that is there. -/
def sealAlone (c : ℕ) (machine platform deliveredName : Text) (content : Bytes) :
    List ExportAction :=
  [.start c machine platform deliveredName content, .next c, .next c, .next c,
    .append c (F.line ⟨exportIndexSchema, machine, platform, H.digest content, content.length,
      .raw⟩).length, .next c]

/-- Every visible file holds the bytes of its address, and each directory at most one; what a call
returned `Ok` for is in place, with its row on a whole line of its machine's index; and whoever comes
later with those bytes is neither refused nor copies anything. -/
structure ExportsHold (s : ExportStage H) : Prop where
  bytes : ∀ a, ∀ e ∈ s.dirs a, visible e.1 = true → H.digest (s.inodes e.2).bytes = a.2
  one : ∀ a, ((s.dirs a).filter fun e => visible e.1).length ≤ 1
  inPlace : ∀ c call outcome, s.calls c = some call → call.phase = .ended outcome →
    (∃ e ∈ s.dirs call.address, visible e.1 = true) ∧
      Recorded call (indexedRows F ((s.indexes call.machine).getD []))
  later : ∀ c call, s.calls c = some call → call.late = true → Straight call.phase
  again : ∀ c call outcome, s.calls c = some call → call.phase = .ended outcome →
    ∀ d machine deliveredName content, s.calls d = none → validatePlatform call.platform = none →
      machineUsable machine = true → validateDeliveredName deliveredName = none →
      content ≠ [] → H.digest content = call.contentSha256 →
      (∀ e, ¬ Mid (indexWriting F s machine) e) →
      let after := exec (exportStep F) s
        (sealAlone F d machine call.platform deliveredName content)
      (∃ made heldName, after.calls d = some made ∧ made.phase = .ended (.alreadyArchived heldName)) ∧
        after.dirs = s.dirs ∧ after.inodes = s.inodes

variable {F} {s : ExportStage H} {c : ℕ} {call : Call H.Digest}

lemma rowLine_phase (call : Call H.Digest) (p : Phase) :
    rowLine F { call with phase := p } = rowLine F call := rfl

lemma exportStep_next (hcall : s.calls c = some call) :
    exportStep F s (.next c) = nextOperation F s c call := by
  unfold exportStep
  dsimp only
  rw [hcall]

lemma exportStep_append (hcall : s.calls c = some call) {outcome : SealOutcome} {written : ℕ}
    (hphase : call.phase = .appending outcome written) (count : ℕ) :
    exportStep F s (.append c count) = appended F s c call outcome written count := by
  unfold exportStep
  dsimp only
  rw [hcall]
  dsimp only
  rw [hphase]
  rfl

lemma exec_ended (hcall : s.calls c = some call) {outcome : SealOutcome}
    (hphase : call.phase = .ended outcome) (count : ℕ) :
    exec (exportStep F) s [.append c count, .next c] = s := by
  have happend : exportStep F s (.append c count) = s := by
    unfold exportStep
    dsimp only
    rw [hcall]
    dsimp only
    rw [hphase]
  rw [exec_cons, happend, exec_cons, exec_nil, exportStep_next hcall, nextOperation, hphase]

lemma exec_indexing (hcall : s.calls c = some call) {name : Text}
    (hphase : call.phase = .indexing (.alreadyArchived name)) {state : ExportIndexState H.Digest}
    (hread : readExportIndex F call.machine (s.indexes call.machine) = some state) :
    let after := exec (exportStep F) s [.next c, .append c (rowLine F call).length, .next c]
    (∃ made heldName, after.calls c = some made ∧ made.phase = .ended (.alreadyArchived heldName)) ∧
      after.dirs = s.dirs ∧ after.inodes = s.inodes := by
  intro after
  have hnext := @exportStep_next H F s c call hcall
  unfold nextOperation at hnext
  rw [hphase] at hnext
  dsimp only at hnext
  rw [hread] at hnext
  dsimp only at hnext
  split at hnext
  next =>
    have hafter : after = { s.move c call (.ended (.alreadyArchived name)) with
        archived := call.address :: s.archived } := by
      show exec _ _ _ = _
      rw [exec_cons, hnext]
      exact exec_ended (Function.update_self _ _ _) rfl _
    rw [hafter]
    exact ⟨⟨_, name, Function.update_self _ _ _, rfl⟩, rfl, rfl⟩
  next =>
    -- The row is written in one go and found complete.
    have hafter : after = exportStep F (appended F (s.move c call (.appending (.alreadyArchived name) 0))
        c { call with phase := .appending (.alreadyArchived name) 0 } (.alreadyArchived name) 0
        (rowLine F call).length) (.next c) := by
      show exec _ _ _ = _
      rw [exec_cons, hnext, exec_cons, exportStep_append (Function.update_self _ _ _) rfl, exec_cons,
        exec_nil]
    rw [hafter, exportStep_next appended_calls_self, nextOperation]
    dsimp only
    have hfull : min (0 + (rowLine F call).length) (rowLine F call).length =
        (rowLine F call).length := Nat.min_eq_right (Nat.le_add_left _ 0)
    simp only [rowLine_phase, hfull, if_true]
    exact ⟨⟨_, name, Function.update_self _ _ _, rfl⟩, rfl, rfl⟩

/-- From its phase behind the hash pass, a call by itself comes to its end without touching an
object. -/
lemma StageSound.alone (h : StageSound F s) (hcall : s.calls c = some call)
    (hphase : call.phase = .hashed) (hheld : ∃ e ∈ s.dirs call.address, visible e.1 = true)
    (hnone : ∀ e, ¬ Mid (indexWriting F s call.machine) e) :
    let after := exec (exportStep F) s
      [.next c, .next c, .next c, .append c (rowLine F call).length, .next c]
    (∃ made heldName, after.calls c = some made ∧ made.phase = .ended (.alreadyArchived heldName)) ∧
      after.dirs = s.dirs ∧ after.inodes = s.inodes := by
  intro after
  obtain ⟨rows, tail, hindex⟩ := h.indexes call.machine
  obtain ⟨state, hread, -⟩ := hindex.read hnone
  obtain ⟨name, i, hname, hvisible, hi⟩ :=
    (h.objects.files.heldObject_eq call.address).resolve_left fun habsent => habsent.2 hheld
  have hfirst : exportStep F s (.next c) = s.move c call (.found name) := by
    rw [exportStep_next hcall, nextOperation, hphase]
    dsimp only
    rw [hname]
  have hfound := h.step (.next c) fun call' hcall' => by
    obtain rfl := Option.some.inj (hcall.symm.trans hcall')
    rw [hphase]
    trivial
  rw [hfirst] at hfound
  have hcall₁ : (s.move c call (.found name)).calls c = some { call with phase := .found name } :=
    Function.update_self _ _ _
  obtain ⟨j, hlookup, hsize⟩ := hfound.objects.found_size hcall₁ rfl
  have hsecond : exportStep F (s.move c call (.found name)) (.next c) =
      (s.move c call (.found name)).move c { call with phase := .found name }
        (.indexing (.alreadyArchived name)) := by
    rw [exportStep_next hcall₁, nextOperation]
    dsimp only
    rw [hlookup]
    exact if_neg (not_not.mpr hsize)
  have hafter : after = exec (exportStep F) ((s.move c call (.found name)).move c
      { call with phase := .found name } (.indexing (.alreadyArchived name)))
        [.next c, .append c (rowLine F call).length, .next c] := by
    show exec _ _ _ = _
    rw [exec_cons, hfirst, exec_cons, hsecond]
  have hcall₂ : ((s.move c call (.found name)).move c { call with phase := .found name }
      (.indexing (.alreadyArchived name))).calls c =
        some { call with phase := .indexing (.alreadyArchived name) } := Function.update_self _ _ _
  rw [hafter]
  exact @exec_indexing H F _ c { call with phase := .indexing (.alreadyArchived name) } hcall₂ name rfl
    state hread

lemma StageSound.again (h : StageSound F s) {platform machine deliveredName : Text} {content : Bytes}
    (hheld : ∃ e ∈ s.dirs (platform, H.digest content), visible e.1 = true)
    (hnew : s.calls c = none) (hplatform : validatePlatform platform = none)
    (hmachine : machineUsable machine = true) (hname : validateDeliveredName deliveredName = none)
    (hcontent : content ≠ []) (hnone : ∀ e, ¬ Mid (indexWriting F s machine) e) :
    let after := exec (exportStep F) s (sealAlone F c machine platform deliveredName content)
    (∃ made heldName, after.calls c = some made ∧ made.phase = .ended (.alreadyArchived heldName)) ∧
      after.dirs = s.dirs ∧ after.inodes = s.inodes := by
  intro after
  obtain ⟨late, hstart⟩ : ∃ late, exportStep F s (.start c machine platform deliveredName content) =
      s.move c ⟨machine, platform, deliveredName, H.digest content, content.length, late, .refused⟩
        .hashed := by
    unfold exportStep
    dsimp only
    rw [hnew]
    dsimp only
    rw [if_neg (by simp [hplatform, hmachine, hname, hcontent])]
    exact ⟨_, rfl⟩
  have hsound := h.step (.start c machine platform deliveredName content) trivial
  rw [hstart] at hsound
  have hquiet : ∀ e, ¬ Mid (indexWriting F (s.move c ⟨machine, platform, deliveredName,
      H.digest content, content.length, late, .refused⟩ .hashed) machine) e := by
    rintro e ⟨line, k, hk, hrest⟩
    by_cases he : e = c
    · subst he
      simp [indexWriting, ExportStage.move] at hk
    · refine hnone e ⟨line, k, ?_, hrest⟩
      simpa [indexWriting, ExportStage.move, he] using hk
  have halone := hsound.alone (Function.update_self _ _ _) rfl hheld hquiet
  have hafter : after = exec (exportStep F) (s.move c ⟨machine, platform, deliveredName,
      H.digest content, content.length, late, .refused⟩ .hashed) [.next c, .next c, .next c,
        .append c (F.line ⟨exportIndexSchema, machine, platform, H.digest content, content.length,
          .raw⟩).length, .next c] := by
    show exec _ _ _ = _
    rw [sealAlone, exec_cons, hstart]
  rw [hafter]
  exact halone

lemma newline_notMem_tail {machine : Text} {tail : Bytes}
    (h : Tail (indexWriting F s machine) tail) : newline ∉ tail := by
  cases h with
  | clean => exact List.not_mem_nil
  | torn d line k hd hpos hlt =>
    obtain ⟨call, hcall, hwriting⟩ := Option.bind_eq_some_iff.mp hd
    split at hwriting
    next =>
      split at hwriting
      next =>
        obtain ⟨rfl, rfl⟩ := Prod.mk.inj (Option.some.inj hwriting)
        rw [rowLine, length_line] at hlt
        rw [rowLine, RowFormat.line, List.take_append_of_le_length (Nat.le_of_lt_succ hlt)]
        exact fun hmem => RowFormat.newline_notMem_bytes _ (List.mem_of_mem_take hmem)
      next => exact absurd hwriting.symm (Option.some_ne_none _)
    next => exact absurd hwriting.symm (Option.some_ne_none _)

/-- What undisturbed calls leave, in every state they reach. -/
theorem exports_hold {as : List ExportAction}
    (has : Along (exportStep F) (Undisturbed F) emptyStage as) :
    ExportsHold F (exec (exportStep F) emptyStage as) := by
  have h : StageSound F (exec (exportStep F) emptyStage as) :=
    invariant (fun _ a hs ha => hs.step a ha) stageSound_emptyStage has
  have hheld : ∀ c call outcome, (exec (exportStep F) emptyStage as).calls c = some call →
      call.phase = .ended outcome →
        ∃ e ∈ (exec (exportStep F) emptyStage as).dirs call.address, visible e.1 = true := by
    intro c call outcome hcall hphase
    have hp := (h.objects.calls c call hcall).phase
    rwa [hphase] at hp
  refine ⟨h.objects.files.whole, h.objects.files.one, fun c call outcome hcall hphase => ?_,
    fun c call hcall hl => ((h.objects.calls c call hcall).late hl).2,
    fun c call outcome hcall hphase d machine deliveredName content hnew hplatform hmachine hname
      hcontent hdigest hnone => ?_⟩
  · obtain ⟨rows, tail, hindex⟩ := h.indexes call.machine
    have hrow := hindex.calls c call hcall rfl
    rw [hphase] at hrow
    refine ⟨hheld c call outcome hcall hphase, ?_⟩
    rw [hindex.content, indexedRows_log (newline_notMem_tail hindex.tail)]
    exact hrow
  · refine h.again ?_ hnew hplatform hmachine hname hcontent hnone
    rw [hdigest]
    exact hheld c call outcome hcall hphase

end Result

section Lone
variable {F : IndexFormat H.Digest} {s : ExportStage H} {c : ℕ}

/-- The operations of one call, of which none fails. -/
def ExportAction.OnlyBy (c : ℕ) : ExportAction → Prop
  | .start d _ _ _ _ => d = c
  | .next d => d = c
  | .copy d _ => d = c
  | .append d _ => d = c
  | .fail _ => False

/-- What the first call of a stage finds in its directory. -/
def LonePhase (s : ExportStage H) (c : ℕ) (call : Call H.Digest) : Phase → Prop
  | .hashed => s.dirs call.address = []
  | .installing => s.dirs call.address = []
  | .probing => s.dirs call.address = []
  | .creating => s.dirs call.address = []
  | .copying i _ => s.dirs call.address = [(tempName call.deliveredName, i)] ∧
      (s.inodes i).openers = [c]
  | .naming i => s.dirs call.address = [(tempName call.deliveredName, i)] ∧
      (s.inodes i).openers = [c]
  | .found _ => False
  | .clearing => False
  | _ => True

/-- The stage of a call that is alone. -/
structure Lone (s : ExportStage H) (c : ℕ) : Prop where
  others : ∀ d, d ≠ c → s.calls d = none
  before : s.calls c = none → ∀ a, s.dirs a = []
  phase : ∀ call, s.calls c = some call → LonePhase s c call call.phase

lemma Lone.of_calls (h : Lone s c) {s' : ExportStage H} {call : Call H.Digest} {p : Phase}
    (hcalls : s'.calls = Function.update s.calls c (some { call with phase := p }))
    (hp : LonePhase s' c call p) : Lone s' c := by
  have hself : s'.calls c = some { call with phase := p } := by
    rw [hcalls, Function.update_self]
  refine ⟨fun d hd => by rw [hcalls, Function.update_of_ne hd, h.others d hd],
    fun hnone => absurd (hself.symm.trans hnone) nofun, fun call' hcall' => ?_⟩
  obtain rfl := Option.some.inj (hself.symm.trans hcall')
  cases p <;> exact hp

lemma Lone.next (h : Lone s c) {call : Call H.Digest} (hcall : s.calls c = some call) :
    Lone (nextOperation F s c call) c := by
  have hp := h.phase call hcall
  unfold nextOperation
  cases hphase : call.phase with
  | hashed =>
    rw [hphase] at hp
    have hdir : s.dirs call.address = [] := hp
    simp only [hdir]
    exact h.of_calls rfl (p := .installing) hdir
  | installing =>
    rw [hphase] at hp
    have hdir : s.dirs call.address = [] := hp
    simp only [hdir]
    exact h.of_calls rfl (p := .probing) hdir
  | probing =>
    rw [hphase] at hp
    have hdir : s.dirs call.address = [] := hp
    simp only [hdir]
    exact h.of_calls rfl (p := .creating) hdir
  | creating =>
    rw [hphase] at hp
    have hdir : s.dirs call.address = [] := hp
    simp only [hdir]
    refine h.of_calls rfl (p := .copying s.fresh []) ⟨?_, ?_⟩
    · exact Function.update_self _ _ _
    · exact congrArg Inode.openers (Function.update_self s.fresh _ s.inodes)
  | copying i copied =>
    rw [hphase] at hp
    dsimp only
    split
    next => exact h.of_calls rfl (p := .discarding) trivial
    next => exact h.of_calls rfl (p := .naming i) hp
  | naming i =>
    dsimp only
    split
    next => exact h.of_calls rfl (p := .discarding) trivial
    next => exact h.of_calls rfl (p := .indexing _) trivial
  | indexing outcome =>
    dsimp only
    split
    next => exact h.of_calls rfl (p := .refused) trivial
    next =>
      split
      next => exact h.of_calls rfl (p := .ended outcome) trivial
      next => exact h.of_calls rfl (p := .appending outcome 0) trivial
  | appending outcome written =>
    dsimp only
    split
    next => exact h.of_calls rfl (p := .ended outcome) trivial
    next => exact h
  | discarding => exact h.of_calls rfl (p := .refused) trivial
  | found =>
    rw [hphase] at hp
    exact hp.elim
  | clearing =>
    rw [hphase] at hp
    exact hp.elim
  | _ => exact h

lemma Lone.step (h : Lone s c) {a : ExportAction} (ha : a.OnlyBy c) : Lone (exportStep F s a) c := by
  cases a with
  | start d machine platform deliveredName content =>
    obtain rfl : d = c := ha
    unfold exportStep
    dsimp only
    split
    next => exact h
    next hnone =>
      split
      next => exact h.of_calls rfl (p := .refused) trivial
      next => exact h.of_calls rfl (p := .hashed) (h.before hnone _)
  | next d =>
    obtain rfl : d = c := ha
    unfold exportStep
    dsimp only
    split
    next call hcall => exact h.next hcall
    next => exact h
  | copy d chunk =>
    obtain rfl : d = c := ha
    unfold exportStep
    dsimp only
    split
    next call hcall =>
      split
      next i copied hphase =>
        have hp := h.phase call hcall
        rw [hphase] at hp
        refine h.of_calls rfl (p := .copying i _) ⟨hp.1, ?_⟩
        exact (congrArg Inode.openers (Function.update_self i _ s.inodes)).trans hp.2
      next => exact h
    next => exact h
  | append d count =>
    obtain rfl : d = c := ha
    unfold exportStep
    dsimp only
    split
    next call hcall =>
      split
      next => exact h.of_calls rfl (p := .appending _ _) trivial
      next => exact h
    next => exact h
  | fail => exact ha.elim

lemma Lone.undisturbed (h : Lone s c) {a : ExportAction} (ha : a.OnlyBy c) : Undisturbed F s a := by
  have hquiet : ∀ machine d, d ≠ c → ¬ Mid (indexWriting F s machine) d := by
    rintro machine d hd ⟨line, k, hk, -⟩
    rw [indexWriting, h.others d hd] at hk
    cases hk
  cases a with
  | next d =>
    obtain rfl : d = c := ha
    intro call hcall
    have hp := h.phase call hcall
    cases hphase : call.phase with
    | naming i =>
      rw [hphase] at hp
      obtain ⟨hdir, hown⟩ := hp
      intro j hj
      rw [hdir] at hj ⊢
      obtain rfl : i = j := by simpa using hj
      refine ⟨rfl, hown, fun e he hvisible => ?_⟩
      obtain rfl := List.mem_singleton.mp he
      exact absurd hvisible Bool.false_ne_true
    | indexing outcome =>
      intro e
      by_cases he : e = d
      · subst he
        exact not_mid_of_phase hcall (fun o w heq => by rw [hphase] at heq; cases heq) _
      · exact hquiet _ e he
    | _ => trivial
  | append d count =>
    obtain rfl : d = c := ha
    exact fun call _ e he => hquiet _ e he
  | fail => exact ha.elim
  | _ => trivial

theorem undisturbed_of_onlyBy {as : List ExportAction} (has : ∀ a ∈ as, a.OnlyBy c) :
    Along (exportStep F) (Undisturbed F) emptyStage as :=
  @Along.carries _ _ (exportStep F) (fun _ a => a.OnlyBy c) (Undisturbed F) (fun s => Lone s c)
    (fun _ _ hs ha => ⟨hs.undisturbed ha, hs.step ha⟩) emptyStage
    ⟨fun _ _ => rfl, fun _ _ => rfl, fun _ h => absurd h nofun⟩ as (along_of_forall has)

end Lone

section Examples

/-- One call that archives a file of one byte. -/
def firstExport : List ExportAction :=
  [.start 0 ['m'] ['p'] ['x'] [7], .next 0, .next 0, .next 0, .next 0, .copy 0 [7], .next 0, .next 0,
    .next 0, .append 0 (exportIndexJson.line ⟨exportIndexSchema, ['m'], ['p'], [7], 1, .raw⟩).length,
    .next 0]

theorem first_export_holds : @ExportsHold Sha256.verbatim exportIndexJson
    (exec (exportStep exportIndexJson) emptyStage firstExport) :=
  exports_hold (undisturbed_of_onlyBy (c := 0) (by simp [firstExport, ExportAction.OnlyBy]))

/-- Two calls with one content under two names, which both look before either has installed it. -/
def twoNames : List ExportAction :=
  [.start 0 ['m'] ['p'] ['x'] [7], .start 1 ['m'] ['p'] ['y'] [7], .next 0, .next 1, .next 0, .next 0,
    .next 0, .copy 0 [7], .next 0, .next 0, .next 1, .next 1, .next 1, .copy 1 [7], .next 1, .next 1]

/-- The directory ends up with two objects, and the next call with these bytes is refused. -/
theorem two_names_two_objects :
    ¬ @ExportsHold Sha256.verbatim exportIndexJson
        (exec (exportStep exportIndexJson) emptyStage twoNames) ∧
    ((exec (@exportStep Sha256.verbatim exportIndexJson) emptyStage
      (twoNames ++ [.start 2 ['m'] ['p'] ['x'] [7], .next 2])).calls 2).map Call.phase =
        some .refused := by
  refine ⟨fun h => absurd (h.one (['p'], ([7] : Bytes))) (by decide +kernel), by decide +kernel⟩

end Examples

end ChatStasher.Export
