import ChatStasher.Export.Seal

/-! What the export namespace holds while calls over it are in flight. -/
namespace ChatStasher.Export
open Inbox (Text)
open LineAppend (Mid Tail)
open StepRun

variable {H : Sha256}

/-- The ways of a call that copies nothing and is not refused. -/
def Straight : Phase → Prop
  | .hashed => True
  | .found _ => True
  | .indexing (.alreadyArchived _) => True
  | .appending (.alreadyArchived _) _ => True
  | .ended (.alreadyArchived _) => True
  | .stopped => True
  | _ => False

section Objects

def PhaseSound (s : ExportStage H) (c : ℕ) (call : Call H.Digest) : Phase → Prop
  | .found name => visible name = true ∧ ∃ i, (name, i) ∈ s.dirs call.address
  | .copying i copied => i < s.fresh ∧ c ∈ (s.inodes i).openers ∧
      ((s.inodes i).openers = [c] → (s.inodes i).bytes = copied) ∧
      ∀ a, ∀ e ∈ s.dirs a, visible e.1 = true → e.2 ≠ i
  | .naming i => i < s.fresh ∧
      ((s.inodes i).openers = [c] → H.digest (s.inodes i).bytes = call.contentSha256)
  | .indexing _ => ∃ e ∈ s.dirs call.address, visible e.1 = true
  | .appending _ _ => ∃ e ∈ s.dirs call.address, visible e.1 = true
  | .ended _ => ∃ e ∈ s.dirs call.address, visible e.1 = true
  | _ => True

/-- A call that was not refused was measured by a content, and a late one copies nothing. -/
structure CallSound (s : ExportStage H) (c : ℕ) (call : Call H.Digest) : Prop where
  measured : call.phase = .refused ∨ (visible call.deliveredName = true ∧ ∃ content : Bytes,
    content ≠ [] ∧ call.contentSha256 = H.digest content ∧ call.bytes = content.length)
  phase : PhaseSound s c call call.phase
  late : call.late = true → call.address ∈ s.archived ∧ Straight call.phase

/-- Every file has one name; a directory has at most one object, whose bytes are those of its
address, and an archived address has one. -/
structure FilesSound (s : ExportStage H) : Prop where
  named : ∀ a, ∀ e ∈ s.dirs a, ∀ a', ∀ e' ∈ s.dirs a', e.2 = e'.2 → a = a' ∧ e = e'
  nodup : ∀ a, ((s.dirs a).map Prod.fst).Nodup
  known : ∀ a, ∀ e ∈ s.dirs a, e.2 < s.fresh
  whole : ∀ a, ∀ e ∈ s.dirs a, visible e.1 = true → H.digest (s.inodes e.2).bytes = a.2
  one : ∀ a, ((s.dirs a).filter fun e => visible e.1).length ≤ 1
  held : ∀ a ∈ s.archived, ∃ e ∈ s.dirs a, visible e.1 = true

structure ObjectsSound (s : ExportStage H) : Prop where
  files : FilesSound s
  calls : ∀ c call, s.calls c = some call → CallSound s c call

/-- What an operation of one call leaves to all others. -/
structure Keeps (s s' : ExportStage H) (c : ℕ) : Prop where
  fresh : s.fresh ≤ s'.fresh
  archived : s.archived ⊆ s'.archived
  names : ∀ a, ∀ e ∈ s.dirs a, visible e.1 = true → ∃ i, (e.1, i) ∈ s'.dirs a
  files : ∀ i, i < s.fresh → s'.inodes i = s.inodes i ∨ ∀ d, d ≠ c →
    (d ∈ (s.inodes i).openers → d ∈ (s'.inodes i).openers) ∧ (s'.inodes i).openers ≠ [d]
  closed : ∀ a, ∀ e ∈ s'.dirs a, visible e.1 = true →
    e ∈ s.dirs a ∨ ∀ d, d ≠ c → d ∉ (s.inodes e.2).openers

variable {s s' : ExportStage H} {c : ℕ}

lemma Keeps.held (h : Keeps s s' c) {a : Address H.Digest}
    (ha : ∃ e ∈ s.dirs a, visible e.1 = true) : ∃ e ∈ s'.dirs a, visible e.1 = true := by
  obtain ⟨e, he, hvisible⟩ := ha
  obtain ⟨i, hi⟩ := h.names a e he hvisible
  exact ⟨(e.1, i), hi, hvisible⟩

lemma Keeps.phaseSound (h : Keeps s s' c) {d : ℕ} (hd : d ≠ c) {call : Call H.Digest}
    {phase : Phase} (hp : PhaseSound s d call phase) : PhaseSound s' d call phase := by
  cases phase with
  | found name =>
    obtain ⟨hvisible, i, hi⟩ := hp
    obtain ⟨j, hj⟩ := h.names _ _ hi hvisible
    exact ⟨hvisible, j, hj⟩
  | copying i copied =>
    obtain ⟨hfresh, hopen, hown, hclosed⟩ := hp
    have hhidden : ∀ a, ∀ e ∈ s'.dirs a, visible e.1 = true → e.2 ≠ i := by
      intro a e he hvisible
      rcases h.closed a e he hvisible with hold | hnone
      · exact hclosed a e hold hvisible
      · rintro rfl
        exact hnone d hd hopen
    rcases h.files i hfresh with hsame | hother
    · rw [← hsame] at hopen hown
      exact ⟨hfresh.trans_le h.fresh, hopen, hown, hhidden⟩
    · exact ⟨hfresh.trans_le h.fresh, (hother d hd).1 hopen,
        fun heq => absurd heq (hother d hd).2, hhidden⟩
  | naming i =>
    obtain ⟨hfresh, hown⟩ := hp
    rcases h.files i hfresh with hsame | hother
    · rw [← hsame] at hown
      exact ⟨hfresh.trans_le h.fresh, hown⟩
    · exact ⟨hfresh.trans_le h.fresh, fun heq => absurd heq (hother d hd).2⟩
  | indexing => exact h.held hp
  | appending => exact h.held hp
  | ended => exact h.held hp
  | _ => trivial

lemma ObjectsSound.of_keeps (h : ObjectsSound s) (hk : Keeps s s' c) (hfiles : FilesSound s')
    (hcalls : ∀ d, d ≠ c → s'.calls d = s.calls d)
    (hself : ∀ call, s'.calls c = some call → CallSound s' c call) : ObjectsSound s' := by
  refine ⟨hfiles, fun d call hcall => ?_⟩
  by_cases hd : d = c
  · subst hd
    exact hself call hcall
  · rw [hcalls d hd] at hcall
    have hold := h.calls d call hcall
    exact ⟨hold.measured, hk.phaseSound hd hold.phase, fun hlate =>
      ⟨hk.archived (hold.late hlate).1, (hold.late hlate).2⟩⟩

@[simp] lemma phaseSound_move {call : Call H.Digest} {p q : Phase} :
    PhaseSound (s.move c call p) c { call with phase := p } q ↔ PhaseSound s c call q := by
  cases q <;> exact Iff.rfl

lemma ObjectsSound.move (h : ObjectsSound s) {call : Call H.Digest} (hcall : s.calls c = some call)
    (hnot : call.phase ≠ .refused) {p : Phase} (hp : PhaseSound s c call p)
    (hlate : call.late = true → Straight p) : ObjectsSound (s.move c call p) := by
  have hold := h.calls c call hcall
  have hself : (s.move c call p).calls c = some { call with phase := p } :=
    Function.update_self _ _ _
  refine h.of_keeps ⟨le_rfl, List.Subset.refl _, fun a e he _ => ⟨e.2, he⟩, fun i _ => Or.inl rfl,
    fun a e he _ => Or.inl he⟩ ⟨h.files.named, h.files.nodup, h.files.known, h.files.whole,
    h.files.one, h.files.held⟩ (fun d hd => Function.update_of_ne hd _ _) fun call' hcall' => ?_
  obtain rfl := Option.some.inj (hself.symm.trans hcall')
  exact ⟨Or.inr (hold.measured.resolve_left hnot), phaseSound_move.mpr hp, fun hl =>
    ⟨(hold.late hl).1, hlate hl⟩⟩

lemma ObjectsSound.archive (h : ObjectsSound s) {call : Call H.Digest}
    (hcall : s.calls c = some call) (hnot : call.phase ≠ .refused) {outcome : SealOutcome}
    (hp : ∃ e ∈ s.dirs call.address, visible e.1 = true)
    (hlate : call.late = true → Straight (.ended outcome)) :
    ObjectsSound { s.move c call (.ended outcome) with archived := call.address :: s.archived } := by
  have hm := h.move hcall hnot (p := .ended outcome) hp hlate
  refine ⟨⟨hm.files.named, hm.files.nodup, hm.files.known, hm.files.whole, hm.files.one, ?_⟩,
    fun d call' hcall' => ?_⟩
  · intro a ha
    rcases List.mem_cons.mp ha with rfl | ha
    · exact hp
    · exact hm.files.held a ha
  · have hold := hm.calls d call' hcall'
    refine ⟨hold.measured, ?_, fun hl => ⟨List.mem_cons_of_mem _ (hold.late hl).1,
      (hold.late hl).2⟩⟩
    have hphase := hold.phase
    generalize call'.phase = q at hphase ⊢
    cases q <;> exact hphase

lemma filter_visible_unlink (entries : List (Text × ℕ)) (name : Text) :
    (entries.filter fun e => e.1 ≠ tempName name).filter (fun e => visible e.1) =
      entries.filter fun e => visible e.1 := by
  rw [List.filter_filter]
  refine List.filter_congr fun e _ => ?_
  by_cases he : e.1 = tempName name
  · simp [he]
  · simp [he]

lemma ObjectsSound.unlink (h : ObjectsSound s) (a : Address H.Digest) (name : Text) :
    ObjectsSound (s.unlink a (tempName name)) := by
  have hmem : ∀ b, ∀ e, e ∈ (s.unlink a (tempName name)).dirs b → e ∈ s.dirs b := by
    intro b e he
    by_cases hb : b = a
    · subst hb
      have he : e ∈ Function.update s.dirs b _ b := he
      rw [Function.update_self] at he
      exact List.mem_of_mem_filter he
    · have he : e ∈ Function.update s.dirs a _ b := he
      rwa [Function.update_of_ne hb] at he
  have hkept : ∀ b, ∀ e ∈ s.dirs b, visible e.1 = true →
      e ∈ (s.unlink a (tempName name)).dirs b := by
    intro b e he hvisible
    show e ∈ Function.update s.dirs a _ b
    by_cases hb : b = a
    · subst hb
      rw [Function.update_self, List.mem_filter]
      refine ⟨he, decide_eq_true fun htmp => ?_⟩
      rw [htmp, visible_tempName] at hvisible
      exact Bool.false_ne_true hvisible
    · rwa [Function.update_of_ne hb]
  have hkeeps : ∀ d, Keeps s (s.unlink a (tempName name)) d := fun d =>
    ⟨le_rfl, List.Subset.refl _, fun b e he hv => ⟨e.2, hkept b e he hv⟩, fun i _ => Or.inl rfl,
      fun b e he _ => Or.inl (hmem b e he)⟩
  have hnodup : ∀ b, (((s.unlink a (tempName name)).dirs b).map Prod.fst).Nodup := by
    intro b
    show ((Function.update s.dirs a _ b).map Prod.fst).Nodup
    by_cases hb : b = a
    · subst hb
      rw [Function.update_self]
      exact (h.files.nodup b).sublist (List.filter_sublist.map _)
    · rw [Function.update_of_ne hb]
      exact h.files.nodup b
  have hone : ∀ b, (((s.unlink a (tempName name)).dirs b).filter fun e => visible e.1).length ≤ 1 := by
    intro b
    show ((Function.update s.dirs a _ b).filter _).length ≤ 1
    by_cases hb : b = a
    · subst hb
      rw [Function.update_self, filter_visible_unlink]
      exact h.files.one b
    · rw [Function.update_of_ne hb]
      exact h.files.one b
  refine ⟨⟨fun b e he b' e' he' => h.files.named b e (hmem b e he) b' e' (hmem b' e' he'), hnodup,
    fun b e he => h.files.known b e (hmem b e he), fun b e he => h.files.whole b e (hmem b e he),
    hone, fun b hb => (hkeeps 0).held (h.files.held b hb)⟩, fun d call hcall => ?_⟩
  have hold := h.calls d call hcall
  exact ⟨hold.measured, (hkeeps (d + 1)).phaseSound (Nat.ne_of_lt (Nat.lt_succ_self d)) hold.phase,
    hold.late⟩

lemma ObjectsSound.rewrite (h : ObjectsSound s) {call : Call H.Digest} (hcall : s.calls c = some call)
    (hnot : call.phase ≠ .refused) {i : ℕ} {inode : Inode} {p : Phase}
    (hopen : c ∈ inode.openers) (hkept : (s.inodes i).openers ⊆ inode.openers)
    (hhidden : ∀ a, ∀ e ∈ s.dirs a, visible e.1 = true → e.2 ≠ i)
    (hp : PhaseSound (s.setInode i inode) c call p) (hlate : call.late = true → Straight p) :
    ObjectsSound ((s.setInode i inode).move c call p) := by
  have hold := h.calls c call hcall
  have hself : ((s.setInode i inode).move c call p).calls c = some { call with phase := p } :=
    Function.update_self _ _ _
  have hkeeps : Keeps s ((s.setInode i inode).move c call p) c := by
    refine ⟨le_rfl, List.Subset.refl _, fun a e he _ => ⟨e.2, he⟩, fun j _ => ?_,
      fun a e he _ => Or.inl he⟩
    show Function.update s.inodes i inode j = s.inodes j ∨ _
    by_cases hj : j = i
    · subst hj
      refine Or.inr fun d hd => ?_
      show (_ → d ∈ (Function.update s.inodes j inode j).openers) ∧
        (Function.update s.inodes j inode j).openers ≠ [d]
      rw [Function.update_self]
      refine ⟨fun hmem => hkept hmem, fun heq => ?_⟩
      rw [heq, List.mem_singleton] at hopen
      exact hd hopen.symm
    · exact Or.inl (Function.update_of_ne hj _ _)
  have hwhole : ∀ a, ∀ e ∈ s.dirs a, visible e.1 = true →
      H.digest ((s.setInode i inode).inodes e.2).bytes = a.2 := by
    intro a e he hvisible
    rw [ExportStage.setInode_inodes, Function.update_of_ne (hhidden a e he hvisible)]
    exact h.files.whole a e he hvisible
  refine h.of_keeps hkeeps ⟨h.files.named, h.files.nodup, h.files.known, hwhole, h.files.one,
    h.files.held⟩ (fun d hd => Function.update_of_ne hd _ _) fun call' hcall' => ?_
  obtain rfl := Option.some.inj (hself.symm.trans hcall')
  exact ⟨Or.inr (hold.measured.resolve_left hnot), phaseSound_move.mpr hp, fun hl =>
    ⟨(hold.late hl).1, hlate hl⟩⟩

lemma ObjectsSound.not_late (h : ObjectsSound s) {call : Call H.Digest}
    (hcall : s.calls c = some call) (hphase : ¬ Straight call.phase) : ¬ call.late = true :=
  fun hl => hphase ((h.calls c call hcall).late hl).2

lemma ObjectsSound.truncate (h : ObjectsSound s) {call : Call H.Digest}
    (hcall : s.calls c = some call) (hphase : call.phase = .creating) {i : ℕ}
    (hlookup : (s.dirs call.address).lookup (tempName call.deliveredName) = some i) :
    ObjectsSound ((s.setInode i ⟨[], c :: (s.inodes i).openers⟩).move c call (.copying i [])) := by
  have hmem := (KeyedList.lookup_eq_some_iff_mem (h.files.nodup call.address)).mp hlookup
  have hhidden : ∀ a, ∀ e ∈ s.dirs a, visible e.1 = true → e.2 ≠ i := by
    intro a e he hvisible hi
    obtain ⟨-, rfl⟩ := h.files.named a e he _ _ hmem hi
    exact Bool.false_ne_true hvisible
  have hlate := h.not_late hcall (by rw [hphase]; exact id)
  refine h.rewrite hcall (by rw [hphase]; exact nofun) List.mem_cons_self
    (List.subset_cons_self _ _) hhidden ⟨h.files.known _ _ hmem, ?_, fun _ => ?_, hhidden⟩
    fun hl => absurd hl hlate
  · rw [ExportStage.setInode_inodes, Function.update_self]
    exact List.mem_cons_self
  · rw [ExportStage.setInode_inodes, Function.update_self]

lemma writeAt_end (bytes chunk : Bytes) : writeAt bytes bytes.length chunk = bytes ++ chunk := by
  simp [writeAt]

lemma ObjectsSound.copy (h : ObjectsSound s) {call : Call H.Digest} (hcall : s.calls c = some call)
    {i : ℕ} {copied : Bytes} (hphase : call.phase = .copying i copied) (chunk : Bytes) :
    ObjectsSound ((s.setInode i { s.inodes i with
      bytes := writeAt (s.inodes i).bytes copied.length chunk }).move c call
        (.copying i (copied ++ chunk))) := by
  have hp := (h.calls c call hcall).phase
  rw [hphase] at hp
  obtain ⟨hfresh, hopen, hown, hhidden⟩ := hp
  have hlate := h.not_late hcall (by rw [hphase]; exact id)
  refine h.rewrite hcall (by rw [hphase]; exact nofun) hopen (List.Subset.refl _) hhidden
    ⟨hfresh, ?_, fun honly => ?_, hhidden⟩ fun hl => absurd hl hlate
  · rw [ExportStage.setInode_inodes, Function.update_self]
    exact hopen
  · rw [ExportStage.setInode_inodes, Function.update_self] at honly ⊢
    dsimp only
    rw [hown honly, writeAt_end]

/-- A directory gets an entry under a name that only this call uses; what it held under other names
stays. -/
lemma mem_put_dir {a b : Address H.Digest} {entries : List (Text × ℕ)} {entry e : Text × ℕ} :
    e ∈ (s.setDir a (KeyedList.put entries entry)).dirs b ↔
      (b = a ∧ (e = entry ∨ (e ∈ entries ∧ e.1 ≠ entry.1))) ∨ (b ≠ a ∧ e ∈ s.dirs b) := by
  rw [ExportStage.setDir_dirs]
  by_cases hb : b = a
  · subst hb
    rw [Function.update_self, KeyedList.mem_put]
    simp
  · rw [Function.update_of_ne hb]
    simp [hb]

/-- The state behind the creation of a copy. -/
def created (s : ExportStage H) (c : ℕ) (call : Call H.Digest) : ExportStage H :=
  { (s.setInode s.fresh ⟨[], [c]⟩).setDir call.address
      (KeyedList.put (s.dirs call.address) (tempName call.deliveredName, s.fresh)) with
    fresh := s.fresh + 1 }

lemma mem_created {call : Call H.Digest} {b : Address H.Digest} {e : Text × ℕ} :
    e ∈ (created s c call).dirs b ↔
      (b = call.address ∧ (e = (tempName call.deliveredName, s.fresh) ∨
        (e ∈ s.dirs call.address ∧ e.1 ≠ tempName call.deliveredName))) ∨
        (b ≠ call.address ∧ e ∈ s.dirs b) := mem_put_dir

lemma mem_created_old {call : Call H.Digest} {b : Address H.Digest} {e : Text × ℕ}
    (he : e ∈ (created s c call).dirs b) :
    e ∈ s.dirs b ∨ (b = call.address ∧ e = (tempName call.deliveredName, s.fresh)) := by
  rcases mem_created.mp he with ⟨rfl, rfl | ⟨he, -⟩⟩ | ⟨-, he⟩
  · exact Or.inr ⟨rfl, rfl⟩
  · exact Or.inl he
  · exact Or.inl he

lemma mem_created_visible {call : Call H.Digest} {b : Address H.Digest} {e : Text × ℕ}
    (hvisible : visible e.1 = true) : e ∈ (created s c call).dirs b ↔ e ∈ s.dirs b := by
  have htmp : e.1 ≠ tempName call.deliveredName := by
    intro htmp
    rw [htmp, visible_tempName] at hvisible
    exact Bool.false_ne_true hvisible
  constructor
  · intro he
    rcases mem_created_old he with he | ⟨-, rfl⟩
    · exact he
    · exact absurd rfl htmp
  · intro he
    refine mem_created.mpr ?_
    by_cases hb : b = call.address
    · subst hb
      exact Or.inl ⟨rfl, Or.inr ⟨he, htmp⟩⟩
    · exact Or.inr ⟨hb, he⟩

lemma filter_visible_put (entries : List (Text × ℕ)) (name : Text) (i : ℕ) :
    (KeyedList.put entries (tempName name, i)).filter (fun e => visible e.1) =
      entries.filter fun e => visible e.1 := by
  rw [KeyedList.put, List.filter_append, filter_visible_unlink]
  exact List.append_nil _

lemma FilesSound.created (h : FilesSound s) (call : Call H.Digest) :
    FilesSound (created s c call) := by
  have hinode : ∀ i, i < s.fresh → (Export.created s c call).inodes i = s.inodes i := fun i hi =>
    Function.update_of_ne (Nat.ne_of_lt hi) _ _
  refine ⟨fun b e he b' e' he' hsame => ?_, fun b => ?_, fun b e he => ?_, fun b e he hvisible => ?_,
    fun b => ?_, fun b hb => ?_⟩
  · rcases mem_created_old he with hold | ⟨rfl, rfl⟩ <;>
      rcases mem_created_old he' with hold' | ⟨rfl, rfl⟩
    · exact h.named b e hold b' e' hold' hsame
    · exact absurd hsame (Nat.ne_of_lt (h.known b e hold))
    · exact absurd hsame.symm (Nat.ne_of_lt (h.known b' e' hold'))
    · exact ⟨rfl, rfl⟩
  · show ((Function.update s.dirs call.address _ b).map Prod.fst).Nodup
    by_cases hb : b = call.address
    · subst hb
      rw [Function.update_self]
      exact KeyedList.put_nodup (h.nodup _)
    · rw [Function.update_of_ne hb]
      exact h.nodup b
  · rcases mem_created_old he with hold | ⟨rfl, rfl⟩
    · exact Nat.lt_succ_of_lt (h.known b e hold)
    · exact Nat.lt_succ_self _
  · have hold := (mem_created_visible hvisible).mp he
    rw [hinode e.2 (h.known b e hold)]
    exact h.whole b e hold hvisible
  · show ((Function.update s.dirs call.address _ b).filter _).length ≤ 1
    by_cases hb : b = call.address
    · subst hb
      rw [Function.update_self, filter_visible_put]
      exact h.one _
    · rw [Function.update_of_ne hb]
      exact h.one b
  · obtain ⟨e, he, hvisible⟩ := h.held b hb
    exact ⟨e, (mem_created_visible hvisible).mpr he, hvisible⟩

lemma ObjectsSound.create (h : ObjectsSound s) {call : Call H.Digest}
    (hcall : s.calls c = some call) (hphase : call.phase = .creating) :
    ObjectsSound ((created s c call).move c call (.copying s.fresh [])) := by
  have hlate := h.not_late hcall (by rw [hphase]; exact id)
  have hfiles := @FilesSound.created H s c h.files call
  have hkeeps : Keeps s (created s c call) c :=
    ⟨Nat.le_succ _, List.Subset.refl _,
      fun b e he hvisible => ⟨e.2, (mem_created_visible hvisible).mpr he⟩,
      fun i hi => Or.inl (Function.update_of_ne (Nat.ne_of_lt hi) _ _),
      fun b e he hvisible => Or.inl ((mem_created_visible hvisible).mp he)⟩
  have hcreated : ObjectsSound (created s c call) := by
    refine h.of_keeps hkeeps hfiles (fun _ _ => rfl) fun call' hcall' => ?_
    have hold := h.calls c call' hcall'
    obtain rfl := Option.some.inj (hcall.symm.trans hcall')
    refine ⟨hold.measured, ?_, fun hl => absurd hl hlate⟩
    rw [hphase]
    trivial
  have hself : (created s c call).inodes s.fresh = ⟨[], [c]⟩ := Function.update_self _ _ _
  refine hcreated.move hcall (by rw [hphase]; exact nofun)
    ⟨Nat.lt_succ_self _, ?_, fun _ => ?_, fun b e he hvisible => ?_⟩ fun hl => absurd hl hlate
  · rw [hself]
    exact List.mem_cons_self
  · rw [hself]
  · exact Nat.ne_of_lt (h.files.known b e ((mem_created_visible hvisible).mp he))

/-- The state behind a rename of the copy into the object's place. -/
def renamed (s : ExportStage H) (call : Call H.Digest) (i : ℕ) : ExportStage H :=
  s.setDir call.address (KeyedList.put
    ((s.dirs call.address).filter fun e => e.1 ≠ tempName call.deliveredName)
    (call.deliveredName, i))

lemma mem_renamed_old {call : Call H.Digest} {i : ℕ} {b : Address H.Digest} {e : Text × ℕ}
    (he : e ∈ (renamed s call i).dirs b) :
    (e ∈ s.dirs b ∧ (b = call.address → e.1 ≠ tempName call.deliveredName)) ∨
      (b = call.address ∧ e = (call.deliveredName, i)) := by
  rcases mem_put_dir.mp he with ⟨rfl, rfl | ⟨hold, -⟩⟩ | ⟨hb, hold⟩
  · exact Or.inr ⟨rfl, rfl⟩
  · obtain ⟨hold, htmp⟩ := List.mem_filter.mp hold
    exact Or.inl ⟨hold, fun _ => of_decide_eq_true htmp⟩
  · exact Or.inl ⟨hold, fun h => absurd h hb⟩

lemma renamed_names {call : Call H.Digest} {i : ℕ} {b : Address H.Digest} {e : Text × ℕ}
    (he : e ∈ s.dirs b) (hvisible : visible e.1 = true) :
    ∃ j, (e.1, j) ∈ (renamed s call i).dirs b := by
  by_cases hb : b = call.address
  · subst hb
    by_cases hname : e.1 = call.deliveredName
    · exact ⟨i, mem_put_dir.mpr (Or.inl ⟨rfl, Or.inl (by rw [hname])⟩)⟩
    · have htmp : e.1 ≠ tempName call.deliveredName := by
        intro htmp
        rw [htmp, visible_tempName] at hvisible
        exact Bool.false_ne_true hvisible
      exact ⟨e.2, mem_put_dir.mpr (Or.inl ⟨rfl, Or.inr
        ⟨List.mem_filter.mpr ⟨he, decide_eq_true htmp⟩, hname⟩⟩)⟩
  · exact ⟨e.2, mem_put_dir.mpr (Or.inr ⟨hb, he⟩)⟩

lemma FilesSound.renamed (h : FilesSound s) {call : Call H.Digest} {i : ℕ}
    (hmem : (tempName call.deliveredName, i) ∈ s.dirs call.address)
    (hbytes : H.digest (s.inodes i).bytes = call.contentSha256)
    (hname : visible call.deliveredName = true)
    (honly : ∀ e ∈ s.dirs call.address, visible e.1 = true → e.1 = call.deliveredName) :
    FilesSound (renamed s call i) := by
  have hnew : ∀ b, ∀ e ∈ s.dirs b, (b = call.address → e.1 ≠ tempName call.deliveredName) →
      e.2 ≠ i := by
    intro b e he htmp hi
    obtain ⟨rfl, rfl⟩ := h.named b e he _ _ hmem hi
    exact htmp rfl rfl
  refine ⟨fun b e he b' e' he' hsame => ?_, fun b => ?_, fun b e he => ?_, fun b e he hvisible => ?_,
    fun b => ?_, fun b hb => ?_⟩
  · rcases mem_renamed_old he with ⟨hold, htmp⟩ | ⟨rfl, rfl⟩ <;>
      rcases mem_renamed_old he' with ⟨hold', htmp'⟩ | ⟨rfl, rfl⟩
    · exact h.named b e hold b' e' hold' hsame
    · exact absurd hsame (hnew b e hold htmp)
    · exact absurd hsame.symm (hnew b' e' hold' htmp')
    · exact ⟨rfl, rfl⟩
  · show ((Function.update s.dirs call.address _ b).map Prod.fst).Nodup
    by_cases hb : b = call.address
    · subst hb
      rw [Function.update_self]
      exact KeyedList.put_nodup ((h.nodup _).sublist (List.filter_sublist.map _))
    · rw [Function.update_of_ne hb]
      exact h.nodup b
  · rcases mem_renamed_old he with ⟨hold, -⟩ | ⟨rfl, rfl⟩
    · exact h.known b e hold
    · exact h.known call.address (tempName call.deliveredName, i) hmem
  · rcases mem_renamed_old he with ⟨hold, -⟩ | ⟨rfl, rfl⟩
    · exact h.whole b e hold hvisible
    · exact hbytes
  · show ((Function.update s.dirs call.address _ b).filter _).length ≤ 1
    by_cases hb : b = call.address
    · subst hb
      rw [Function.update_self, KeyedList.put, List.filter_append]
      have hnone : (((s.dirs call.address).filter fun e =>
          decide (e.1 ≠ tempName call.deliveredName)).filter fun e =>
            decide (e.1 ≠ call.deliveredName)).filter (fun e => visible e.1) = [] := by
        rw [List.filter_eq_nil_iff]
        intro e he hvisible
        obtain ⟨he, hother⟩ := List.mem_filter.mp he
        exact of_decide_eq_true hother (honly e (List.mem_of_mem_filter he) hvisible)
      rw [hnone, List.nil_append]
      exact List.length_filter_le _ _
    · rw [Function.update_of_ne hb]
      exact h.one b
  · obtain ⟨e, he, hvisible⟩ := h.held b hb
    obtain ⟨j, hj⟩ := @renamed_names H s call i b e he hvisible
    exact ⟨(e.1, j), hj, hvisible⟩

lemma ObjectsSound.rename (h : ObjectsSound s) {call : Call H.Digest}
    (hcall : s.calls c = some call) {i : ℕ} (hphase : call.phase = .naming i)
    (hlookup : (s.dirs call.address).lookup (tempName call.deliveredName) = some i)
    (hown : (s.inodes i).openers = [c])
    (honly : ∀ e ∈ s.dirs call.address, visible e.1 = true → e.1 = call.deliveredName) :
    ObjectsSound ((renamed s call i).move c call (.indexing (.installed call.deliveredName))) := by
  have hlate := h.not_late hcall (by rw [hphase]; exact id)
  have hold := h.calls c call hcall
  have hname : visible call.deliveredName = true :=
    (hold.measured.resolve_left (by rw [hphase]; exact nofun)).1
  have hp := hold.phase
  rw [hphase] at hp
  have hmem := (KeyedList.lookup_eq_some_iff_mem (h.files.nodup call.address)).mp hlookup
  have hfiles := h.files.renamed hmem (hp.2 hown) hname honly
  have hkeeps : Keeps s (renamed s call i) c := by
    refine ⟨le_rfl, List.Subset.refl _, fun b e he hvisible => renamed_names he hvisible,
      fun _ _ => Or.inl rfl, fun b e he _ => ?_⟩
    rcases mem_renamed_old he with ⟨hold, -⟩ | ⟨rfl, rfl⟩
    · exact Or.inl hold
    · refine Or.inr fun d hd hmem => hd ?_
      rw [hown] at hmem
      exact List.mem_singleton.mp hmem
  have hrenamed : ObjectsSound (renamed s call i) := by
    refine h.of_keeps hkeeps hfiles (fun _ _ => rfl) fun call' hcall' => ?_
    obtain rfl := Option.some.inj (hcall.symm.trans hcall')
    refine ⟨hold.measured, ?_, fun hl => absurd hl hlate⟩
    rw [hphase]
    exact hp
  refine hrenamed.move hcall (by rw [hphase]; exact nofun) ⟨(call.deliveredName, i), ?_, hname⟩
    fun hl => absurd hl hlate
  exact mem_put_dir.mpr (Or.inl ⟨rfl, Or.inl rfl⟩)

lemma FilesSound.heldObject_eq (h : FilesSound s) (a : Address H.Digest) :
    (heldObject (s.dirs a) = .absent ∧ ¬ ∃ e ∈ s.dirs a, visible e.1 = true) ∨
      ∃ name i, heldObject (s.dirs a) = .held name ∧ visible name = true ∧ (name, i) ∈ s.dirs a := by
  have hone := h.one a
  unfold heldObject
  cases hobjects : (s.dirs a).filter fun e => visible e.1 with
  | nil =>
    refine Or.inl ⟨rfl, ?_⟩
    rintro ⟨e, he, hvisible⟩
    exact List.not_mem_nil (hobjects ▸ List.mem_filter.mpr ⟨he, hvisible⟩)
  | cons e rest =>
    rw [hobjects] at hone
    obtain rfl : rest = [] := List.length_eq_zero_iff.mp (by simp at hone; exact List.length_eq_zero_iff.mpr hone)
    obtain ⟨he, hvisible⟩ := List.mem_filter.mp
      (hobjects ▸ List.mem_cons_self : e ∈ (s.dirs a).filter fun e => visible e.1)
    exact Or.inr ⟨e.1, e.2, rfl, hvisible, he⟩

lemma ObjectsSound.found_size (h : ObjectsSound s) {call : Call H.Digest}
    (hcall : s.calls c = some call) {name : Text} (hphase : call.phase = .found name) :
    ∃ i, (s.dirs call.address).lookup name = some i ∧ (s.inodes i).bytes.length = call.bytes := by
  have hold := h.calls c call hcall
  have hp := hold.phase
  rw [hphase] at hp
  obtain ⟨hvisible, i, hi⟩ := hp
  obtain ⟨-, content, -, hsha, hlen⟩ := hold.measured.resolve_left (by rw [hphase]; exact nofun)
  refine ⟨i, (KeyedList.lookup_eq_some_iff_mem (h.files.nodup _)).mpr hi, ?_⟩
  have hbytes := h.files.whole _ _ hi hvisible
  rw [H.digest_injective (hbytes.trans hsha), hlen]

end Objects

section Index
variable (F : IndexFormat H.Digest)

/-- The rows that are being appended to a machine's index, and how much of them is written. -/
def indexWriting (s : ExportStage H) (machine : Text) (c : ℕ) : Option (Bytes × ℕ) :=
  (s.calls c).bind fun call =>
    match call.phase with
    | .appending _ written => if call.machine = machine then some (rowLine F call, written) else none
    | _ => none

def Recorded (call : Call H.Digest) (rows : List (ExportFileRow H.Digest)) : Prop :=
  ∃ row ∈ rows, row.platform = call.platform ∧ row.contentSha256 = call.contentSha256

/-- What a call in a phase knows of its machine's index. -/
def RowSound (call : Call H.Digest) (rows : List (ExportFileRow H.Digest)) : Phase → Prop
  | .appending _ written => written ≤ (rowLine F call).length ∧
      (written = (rowLine F call).length → Recorded call rows)
  | .ended _ => Recorded call rows
  | _ => True

/-- A machine's index is whole rows of its own, and a part of at most one more. -/
structure IndexSound (s : ExportStage H) (machine : Text) (rows : List (ExportFileRow H.Digest))
    (tail : Bytes) : Prop where
  content : (s.indexes machine).getD [] = F.log rows ++ tail
  usable : ∀ row ∈ rows, RowUsable machine row
  tail : Tail (indexWriting F s machine) tail
  calls : ∀ c call, s.calls c = some call → call.machine = machine → RowSound F call rows call.phase

variable {F} {s s' : ExportStage H} {c : ℕ} {machine : Text}
  {rows : List (ExportFileRow H.Digest)} {tail : Bytes}

/-- An operation of one call that writes no index, and leaves it outside its row, changes no
index. -/
lemma IndexSound.of_quiet (h : IndexSound F s machine rows tail)
    (hindex : s'.indexes machine = s.indexes machine)
    (hcalls : ∀ d, d ≠ c → s'.calls d = s.calls d)
    (hmid : ¬ Mid (indexWriting F s machine) c) (hmid' : ¬ Mid (indexWriting F s' machine) c)
    (hself : ∀ call, s'.calls c = some call → call.machine = machine →
      RowSound F call rows call.phase) : IndexSound F s' machine rows tail := by
  refine ⟨hindex ▸ h.content, h.usable, h.tail.congr fun d => ?_, fun d call hcall hm => ?_⟩
  · by_cases hd : d = c
    · subst hd
      exact Or.inr ⟨hmid, hmid'⟩
    · refine Or.inl ?_
      rw [indexWriting, indexWriting, hcalls d hd]
  · by_cases hd : d = c
    · subst hd
      exact hself call hcall hm
    · rw [hcalls d hd] at hcall
      exact h.calls d call hcall hm

lemma not_mid_of_phase {call : Call H.Digest} (hcall : s.calls c = some call)
    (hphase : ∀ outcome written, call.phase = .appending outcome written →
      written = 0 ∨ written = (rowLine F call).length) (machine : Text) :
    ¬ Mid (indexWriting F s machine) c := by
  rintro ⟨line, k, hk, hpos, hlt⟩
  rw [indexWriting, hcall, Option.bind_some] at hk
  split at hk
  next outcome written happending =>
    split at hk
    next =>
      obtain ⟨rfl, rfl⟩ := Prod.mk.inj (Option.some.inj hk)
      rcases hphase _ _ happending with hw | hw <;> omega
    next => exact absurd hk.symm (Option.some_ne_none _)
  next => exact absurd hk.symm (Option.some_ne_none _)

end Index

end ChatStasher.Export
