import ChatStasher.Publish.AtomicPack

/-! What one request of a publication does to the directory and to the publication. -/
namespace ChatStasher

variable {H : Sha256}

def PackPath.IsTmp : PackPath H.Digest → Prop
  | .final _ _ => False
  | .tmp _ _ _ _ => True

/-- The upload can only be answered with success. -/
def PublishPhase.hasSucceeded : PublishPhase H.Digest → Prop
  | .taking (.succeeded _) | .reconnecting (.succeeded _) _ | .cleaning (.succeeded _) _ _
  | .answered (.ok _) => True
  | _ => False

/-- The temporary file has been read back and checked, and not yet renamed. -/
def PublishPhase.hasVerified : PublishPhase H.Digest → Prop
  | .checking | .installing => True
  | _ => False

namespace Publication

/-- The temporary files that the publication may still write, rename or delete. -/
def names (t : Publication H) : List (PackPath H.Digest) :=
  match t.phase with
  | .discarding _ | .reading | .checking | .installing | .rechecking _ | .settling | .unlinking
  | .taking _ => [t.tmp]
  | .reconnecting _ wanted => wanted
  | .cleaning _ wanted left => wanted ++ left
  | _ => []

def Installed (files : PackFiles H) (t : Publication H) : Prop :=
  ∃ b, files t.finalPath = some b ∧ H.digest b = t.id

/-- What a publication has found out about the directory still holds. -/
structure Sound (files : PackFiles H) (t : Publication H) : Prop where
  verified : t.phase.hasVerified → ∀ b, files t.tmp = some b → H.digest b = t.id
  free : t.phase = .installing → ∀ b, files t.finalPath = some b → H.digest b = t.id
  installed : t.phase = .unlinking ∨ t.phase.hasSucceeded → t.Installed files

end Publication

/-- Final names keep what they hold and are given to files that hash to their id. -/
def FinalsGrow (files files' : PackFiles H) : Prop :=
  ∀ kind id, files' (.final kind id) = files (.final kind id) ∨
    files (.final kind id) = none ∧ ∃ b, files' (.final kind id) = some b ∧ H.digest b = id

lemma FinalsGrow.refl (files : PackFiles H) : FinalsGrow files files := fun _ _ => Or.inl rfl

lemma FinalsGrow.trans {files files' files'' : PackFiles H} (h : FinalsGrow files files')
    (h' : FinalsGrow files' files'') : FinalsGrow files files'' := by
  intro kind id
  rcases h kind id with heq | ⟨hnone, b, hb, hid⟩
  · rw [← heq]
    exact h' kind id
  · rcases h' kind id with heq' | ⟨hnone', -⟩
    · exact Or.inr ⟨hnone, b, heq'.trans hb, hid⟩
    · rw [hnone'] at hb
      cases hb

lemma FinalsGrow.kept {files files' : PackFiles H} (h : FinalsGrow files files') {kind : FileKind}
    {id : H.Digest} {b : Bytes} (hb : files (.final kind id) = some b) :
    files' (.final kind id) = some b := by
  rcases h kind id with heq | ⟨hnone, -⟩
  · exact heq.trans hb
  · rw [hnone] at hb
    cases hb

lemma FinalsGrow.hashes {files files' : PackFiles H} (h : FinalsGrow files files')
    {kind : FileKind} {id : H.Digest} (hold : ∀ b, files (.final kind id) = some b → H.digest b = id) :
    ∀ b, files' (.final kind id) = some b → H.digest b = id := by
  intro b hb
  rcases h kind id with heq | ⟨-, b', hb', hid⟩
  · exact hold b (heq ▸ hb)
  · rw [hb'] at hb
    exact Option.some.inj hb ▸ hid

lemma finalsGrow_update_tmp (files : PackFiles H) {path : PackPath H.Digest} (h : path.IsTmp)
    (content : Option Bytes) : FinalsGrow files (Function.update files path content) := by
  intro kind id
  refine Or.inl (Function.update_of_ne ?_ _ _)
  rintro rfl
  exact h

lemma finalsGrow_deleteFile (files : PackFiles H) {path : PackPath H.Digest} (h : path.IsTmp)
    (reply : Reply) : FinalsGrow files (deleteFile files path reply) := by
  unfold deleteFile
  split
  next => exact finalsGrow_update_tmp files h none
  next => exact .refl files

lemma deleteFile_of_ne (files : PackFiles H) {path p : PackPath H.Digest} (h : p ≠ path)
    (reply : Reply) : deleteFile files path reply p = files p := by
  unfold deleteFile
  split
  next => exact Function.update_of_ne h _ _
  next => rfl

lemma finalsGrow_install {files : PackFiles H} {kind : FileKind} {id : H.Digest}
    {tmp : PackPath H.Digest} {b : Bytes} (htmp : tmp.IsTmp) (hid : H.digest b = id)
    (hfree : ∀ b, files (.final kind id) = some b → H.digest b = id) :
    FinalsGrow files
      (Function.update (Function.update files tmp none) (.final kind id) (some b)) := by
  intro kind' id'
  have hne : PackPath.final kind' id' ≠ tmp := by
    rintro rfl
    exact htmp
  by_cases heq : PackPath.final kind' id' = .final kind id
  · obtain ⟨rfl, rfl⟩ := PackPath.final.inj heq
    rw [Function.update_self]
    cases hold : files (.final kind' id') with
    | none => exact Or.inr ⟨rfl, b, rfl, hid⟩
    | some old =>
      have hsame : b = old := H.digest_injective (hid.trans (hfree old hold).symm)
      exact Or.inl (congrArg some hsame)
  · exact Or.inl (by rw [Function.update_of_ne heq, Function.update_of_ne hne])

lemma renameFile_spec (overwrites : Bool) {files : PackFiles H} {kind : FileKind} {id : H.Digest}
    {tmp : PackPath H.Digest} (reply : Reply) (htmp : tmp.IsTmp)
    (hverified : ∀ b, files tmp = some b → H.digest b = id)
    (hfree : ∀ b, files (.final kind id) = some b → H.digest b = id) :
    let r := renameFile overwrites files tmp (.final kind id) reply
    FinalsGrow files r.1 ∧ (∀ p, p.IsTmp → p ≠ tmp → r.1 p = files p) ∧
      (r.2 = none → ∃ b, r.1 (.final kind id) = some b ∧ H.digest b = id) := by
  unfold renameFile
  cases hsource : files tmp with
  | none => exact ⟨.refl files, fun _ _ _ => rfl, fun h => by cases h⟩
  | some b =>
    dsimp only
    split
    next => exact ⟨.refl files, fun _ _ _ => rfl, fun h => by cases h⟩
    next =>
      split
      next =>
        have hid := hverified b hsource
        refine ⟨finalsGrow_install htmp hid hfree, fun p hp hne => ?_, fun _ => ⟨b, ?_, hid⟩⟩
        · have hfinal : p ≠ .final kind id := by
            rintro rfl
            exact hp
          exact (Function.update_of_ne hfinal _ _).trans (Function.update_of_ne hne _ _)
        · exact Function.update_self _ _ _
      next hnot =>
        refine ⟨.refl files, fun _ _ _ => rfl, fun herror => ?_⟩
        have herror : reply.error = none := herror
        simp [Reply.carriedOut, herror] at hnot

namespace Publication

/-- How the names move: they stay with the publication, come from what its publisher still has to
remove, or go back there. -/
inductive NamesMove (t : Publication H) (pending : List (PackPath H.Digest)) (r : PublishTurn H) :
    Prop
  | stay (hpending : r.pending = pending)
      (hnames : ∀ p ∈ r.task.names, p ∈ t.names ∨ p ∈ r.created)
  | take (hpending : r.pending = []) (hnames : ∀ p ∈ r.task.names, p ∈ t.names ∨ p ∈ pending)
  | putBack (hpending : ∀ p ∈ r.pending, p ∈ pending ∨ p ∈ t.names) (hnames : r.task.names = [])

/-- Everything a turn can do. -/
structure TurnSpec (files : PackFiles H) (pending : List (PackPath H.Digest)) (t : Publication H)
    (reply : Reply) (r : PublishTurn H) : Prop where
  owner : r.task.owner = t.owner
  finalPath : r.task.finalPath = t.finalPath
  finals : FinalsGrow files r.files
  frame : ∀ p, p.IsTmp → p ∉ t.names → p ∉ r.created → r.files p = files p
  names : NamesMove t pending r
  created : r.created = [] ∨
    t.phase.isWriting = true ∧ r.created = [.tmp t.kind t.id reply.now reply.random]
  deleted : ∀ p ∈ r.deleted, p ∈ t.names
  changes : r.files t.finalPath ≠ files t.finalPath →
    r.task.lostInstall = true ∨ r.task.phase.hasSucceeded
  lost : r.task.lostInstall = true ↔ t.lostInstall = true ∨
    ¬ r.task.phase.hasSucceeded ∧ r.files t.finalPath ≠ files t.finalPath
  succeeded : t.phase.hasSucceeded → r.task.phase.hasSucceeded
  sound : r.task.Sound r.files

lemma TurnSpec.quiet {files : PackFiles H} {pending : List (PackPath H.Digest)}
    {t t' : Publication H} (reply : Reply) (howner : t'.owner = t.owner)
    (hfinal : t'.finalPath = t.finalPath) (hlost : t'.lostInstall = t.lostInstall)
    (hnames : ∀ p ∈ t'.names, p ∈ t.names) (hsucceeded : t.phase.hasSucceeded → t'.phase.hasSucceeded)
    (hsound : t'.Sound files) : TurnSpec files pending t reply ⟨files, pending, t', [], []⟩ where
  owner := howner
  finalPath := hfinal
  finals := .refl files
  frame _ _ _ _ := rfl
  names := .stay rfl fun p hp => Or.inl (hnames p hp)
  created := Or.inl rfl
  deleted _ hp := by cases hp
  changes h := absurd rfl h
  lost := by simp [hlost]
  succeeded := hsucceeded
  sound := hsound

lemma TurnSpec.delete {files : PackFiles H} {pending : List (PackPath H.Digest)}
    {t t' : Publication H} (reply : Reply) {path : PackPath H.Digest} (hpath : path ∈ t.names)
    (htmp : path.IsTmp) (howner : t'.owner = t.owner) (hfinal : t'.finalPath = t.finalPath)
    (hlost : t'.lostInstall = t.lostInstall) (hnames : ∀ p ∈ t'.names, p ∈ t.names)
    (hsucceeded : t.phase.hasSucceeded → t'.phase.hasSucceeded)
    (hsound : t'.Sound (deleteFile files path reply)) :
    TurnSpec files pending t reply ⟨deleteFile files path reply, pending, t', [], [path]⟩ where
  owner := howner
  finalPath := hfinal
  finals := finalsGrow_deleteFile files htmp reply
  frame p _ hp _ := by
    refine deleteFile_of_ne files ?_ reply
    rintro rfl
    exact hp hpath
  names := .stay rfl fun p hp => Or.inl (hnames p hp)
  created := Or.inl rfl
  deleted p hp := List.mem_singleton.mp hp ▸ hpath
  changes h := by
    refine absurd (deleteFile_of_ne files ?_ reply) h
    rintro rfl
    exact htmp
  lost := by
    have hsame : deleteFile files path reply t.finalPath = files t.finalPath := by
      refine deleteFile_of_ne files ?_ reply
      rintro rfl
      exact htmp
    simp [hlost, hsame]
  succeeded := hsucceeded
  sound := hsound

lemma Sound.idle {files : PackFiles H} {t : Publication H} (hverified : ¬ t.phase.hasVerified)
    (hunlinking : t.phase ≠ .unlinking) (hsucceeded : ¬ t.phase.hasSucceeded) : t.Sound files where
  verified h := absurd h hverified
  free h := absurd (h ▸ trivial) hverified
  installed h := absurd h (by simp [hunlinking, hsucceeded])

lemma Sound.checked {files : PackFiles H} {t : Publication H}
    (h : ∀ b, files t.tmp = some b → H.digest b = t.id) (hphase : t.phase = .checking) :
    t.Sound files where
  verified _ := h
  free hp := by cases hphase.symm.trans hp
  installed hp := by
    rcases hp with hp | hp
    · cases hphase.symm.trans hp
    · rw [hphase] at hp
      exact hp.elim

lemma Sound.fail (files : PackFiles H) (t : Publication H) (f : PublishError) :
    (t.fail f).Sound files :=
  .idle (by simp [Publication.fail, PublishPhase.hasVerified])
    (by simp [Publication.fail]) (by simp [Publication.fail, PublishPhase.hasSucceeded])

lemma Sound.done {files : PackFiles H} {t : Publication H} (h : t.Installed files)
    (hsucceeded : t.phase.hasSucceeded) : t.Sound files := by
  have hverified : ¬ t.phase.hasVerified := by
    intro hverified
    cases hphase : t.phase <;> simp_all [PublishPhase.hasSucceeded, PublishPhase.hasVerified]
  exact ⟨fun hp => absurd hp hverified, fun hp => absurd (hp ▸ trivial) hverified, fun _ => h⟩

def afterOf : PublishPhase H.Digest → Option CleanUp
  | .taking after | .reconnecting after _ | .cleaning after _ _ => some after
  | _ => none

lemma Sound.cleanUp {files : PackFiles H} {t : Publication H} {after : CleanUp}
    (hafter : afterOf t.phase = some after) (h : ∀ p, after = .succeeded p → t.Installed files) :
    t.Sound files := by
  cases after with
  | succeeded p =>
    refine .done (h p rfl) ?_
    cases hphase : t.phase <;> simp_all [afterOf, PublishPhase.hasSucceeded]
  | failed f =>
    refine .idle ?_ ?_ ?_
    all_goals cases hphase : t.phase <;>
      simp_all [afterOf, PublishPhase.hasSucceeded, PublishPhase.hasVerified]

lemma succeed_phase (t : Publication H) (pending : List (PackPath H.Digest)) (p : Published) :
    (t.succeed pending p).phase.hasSucceeded := by
  unfold Publication.succeed
  cases pending <;> trivial

lemma succeed_names (t : Publication H) (pending : List (PackPath H.Digest)) (p : Published) :
    ∀ q ∈ (t.succeed pending p).names, q = t.tmp := by
  unfold Publication.succeed
  cases pending <;> simp [Publication.names]

@[simp] lemma finish_names (t : Publication H) (attempts : ℕ) (after : CleanUp) (left : ℕ) :
    (t.finish attempts after left).names = [] := by
  cases after with
  | succeeded p => rfl
  | failed f => by_cases h : t.attempt < attempts <;> simp [finish, Publication.names, h]

lemma finish_owner (t : Publication H) (attempts : ℕ) (after : CleanUp) (left : ℕ) :
    (t.finish attempts after left).owner = t.owner ∧
      (t.finish attempts after left).finalPath = t.finalPath ∧
      (t.finish attempts after left).lostInstall = t.lostInstall := by
  cases after <;> exact ⟨rfl, rfl, rfl⟩

lemma finish_sound {files : PackFiles H} {t : Publication H} {after : CleanUp} (attempts left : ℕ)
    (h : ∀ p, after = .succeeded p → t.Installed files) :
    (t.finish attempts after left).Sound files := by
  cases after with
  | succeeded p => exact .done (h p rfl) trivial
  | failed f =>
    by_cases hmore : t.attempt < attempts
    all_goals
      exact .idle (by simp [finish, hmore, PublishPhase.hasVerified]) (by simp [finish, hmore])
        (by simp [finish, hmore, PublishPhase.hasSucceeded])

section Turn
variable {files : PackFiles H} {pending : List (PackPath H.Digest)} {t : Publication H}

lemma TurnSpec.fails (reply : Reply) (hold : ¬ t.phase.hasSucceeded) (hnames : t.names = [t.tmp])
    (f : PublishError) : TurnSpec files pending t reply ⟨files, pending, t.fail f, [], []⟩ :=
  .quiet reply rfl rfl rfl (fun _ hp => hnames ▸ hp) (fun hs => absurd hs hold) (.fail ..)

lemma TurnSpec.stop (attempts : ℕ) (reply : Reply) {after : CleanUp}
    {back : List (PackPath H.Digest)} (left : ℕ) (hback : ∀ p ∈ back, p ∈ t.names)
    (hsucceeded : t.phase.hasSucceeded ↔ ∃ p, after = .succeeded p) (h : t.Sound files) :
    TurnSpec files pending t reply ⟨files, pending ++ back, t.finish attempts after left, [], []⟩ where
  owner := (t.finish_owner attempts after left).1
  finalPath := (t.finish_owner attempts after left).2.1
  finals := .refl files
  frame _ _ _ _ := rfl
  names := .putBack (fun p hp => (List.mem_append.mp hp).imp_right (hback p))
    (t.finish_names attempts after left)
  created := Or.inl rfl
  deleted _ hp := by cases hp
  changes hne := absurd rfl hne
  lost := by simp [(t.finish_owner attempts after left).2.2]
  succeeded hs := by
    obtain ⟨p, rfl⟩ := hsucceeded.mp hs
    trivial
  sound := finish_sound attempts left fun p hp => h.installed (Or.inr (hsucceeded.mpr ⟨p, hp⟩))

lemma turn_installing (overwrites : Bool) (attempts : ℕ) (reply : Reply) (hphase : t.phase = .installing)
    (htmp : t.tmp.IsTmp) (h : t.Sound files) :
    TurnSpec files pending t reply (t.turn overwrites attempts files pending reply) := by
  have hverified : ∀ b, files t.tmp = some b → H.digest b = t.id := h.verified (hphase ▸ trivial)
  obtain ⟨hfinals, hframe, hdone⟩ := renameFile_spec overwrites reply htmp hverified (h.free hphase)
  have hnames : t.names = [t.tmp] := by rw [Publication.names, hphase]
  unfold turn
  rw [hphase]
  dsimp only [Publication.finalPath] at hfinals hframe hdone ⊢
  generalize renameFile overwrites files t.tmp (.final t.kind t.id) reply = r at *
  obtain ⟨files', error⟩ := r
  dsimp only at hfinals hframe hdone ⊢
  cases error with
  | none =>
    exact {
      owner := rfl
      finalPath := rfl
      finals := hfinals
      frame := fun p hp hnot _ => hframe p hp (by simpa [hnames] using hnot)
      names := .stay rfl fun p hp => Or.inl (by
        rw [hnames, succeed_names _ _ _ p hp]
        exact List.mem_singleton_self _)
      created := Or.inl rfl
      deleted := fun p hp => by cases hp
      changes := fun _ => Or.inr (succeed_phase ..)
      lost := by
        refine Iff.trans ?_ (or_iff_left fun hnot => hnot.1 (succeed_phase ..)).symm
        simp [Publication.succeed]
      succeeded := fun _ => succeed_phase ..
      sound := .done (hdone rfl) (succeed_phase ..) }
  | some e =>
    have hgrown : ((files (.final t.kind t.id)).isNone && (files' (.final t.kind t.id)).isSome) =
        true ↔ files' (.final t.kind t.id) ≠ files (.final t.kind t.id) := by
      rcases hfinals t.kind t.id with heq | ⟨hnone, b, hb, -⟩
      · rw [heq]
        cases files (.final t.kind t.id) <;> simp
      · simp [hnone, hb]
    have hlost : (t.lostInstall || ((some e).isSome && (files (.final t.kind t.id)).isNone &&
        (files' (.final t.kind t.id)).isSome)) = true ↔ t.lostInstall = true ∨
          files' (.final t.kind t.id) ≠ files (.final t.kind t.id) := by
      rw [Option.isSome_some, Bool.true_and, Bool.or_eq_true, hgrown]
    exact {
      owner := rfl
      finalPath := rfl
      finals := hfinals
      frame := fun p hp hnot _ => hframe p hp (by simpa [hnames] using hnot)
      names := .stay rfl fun p hp => Or.inl (by
        rw [hnames]
        exact hp)
      created := Or.inl rfl
      deleted := fun p hp => by cases hp
      changes := fun hne => Or.inl (hlost.mpr (Or.inr hne))
      lost := hlost.trans (or_congr_right ⟨fun hne => ⟨fun hs => hs, hne⟩, fun hne => hne.2⟩)
      succeeded := fun hs => (hphase ▸ hs : PublishPhase.installing.hasSucceeded).elim
      sound := .idle (fun hs => hs) (fun hs => by cases hs) fun hs => hs }

theorem turn_spec (overwrites : Bool) (attempts : ℕ) (pending : List (PackPath H.Digest))
    (reply : Reply) (htmps : ∀ p ∈ t.names, p.IsTmp) (h : t.Sound files) :
    TurnSpec files pending t reply (t.turn overwrites attempts files pending reply) := by
  have hnames : t.names = match t.phase with
    | .discarding _ | .reading | .checking | .installing | .rechecking _ | .settling | .unlinking
    | .taking _ => [t.tmp]
    | .reconnecting _ wanted => wanted
    | .cleaning _ wanted left => wanted ++ left
    | _ => [] := rfl
  cases hphase : t.phase with
  | installing =>
    rw [hphase] at hnames
    exact turn_installing overwrites attempts reply hphase
      (htmps _ (hnames ▸ List.mem_singleton_self _)) h
  | connecting | drawing =>
    have hold : ¬ t.phase.hasSucceeded := by rw [hphase]; exact fun hs => hs
    rw [turn, hphase]
    dsimp only
    split
    all_goals
      exact .quiet reply rfl rfl rfl (fun _ hp => by cases hp) (fun hs => absurd hs hold)
        (.idle (fun hs => hs) (fun hs => by cases hs) fun hs => hs)
  | writing =>
    have hold : ¬ t.phase.hasSucceeded := by rw [hphase]; exact fun hs => hs
    have htmp : (PackPath.tmp t.kind t.id reply.now reply.random).IsTmp := trivial
    have hfinal : t.finalPath ≠ .tmp t.kind t.id reply.now reply.random := by simp [finalPath]
    rw [turn, hphase]
    dsimp only
    exact {
      owner := rfl
      finalPath := rfl
      finals := finalsGrow_update_tmp files htmp reply.left
      frame := fun p _ _ hnew => Function.update_of_ne (by simpa using hnew) _ _
      names := .stay rfl fun p hp => Or.inr (by
        revert hp
        cases reply.error <;> exact fun hp => hp)
      created := Or.inr ⟨hphase ▸ rfl, rfl⟩
      deleted := fun p hp => by cases hp
      changes := fun hne => absurd (Function.update_of_ne hfinal reply.left files) hne
      lost := (or_iff_left fun hne => hne.2 (Function.update_of_ne hfinal reply.left files)).symm
      succeeded := fun hs => absurd hs hold
      sound := by
        cases reply.error
        all_goals exact .idle (fun hs => hs) (fun hs => by cases hs) fun hs => hs }
  | discarding failure =>
    have hold : ¬ t.phase.hasSucceeded := by rw [hphase]; exact fun hs => hs
    rw [hphase] at hnames
    have hmem : t.tmp ∈ t.names := hnames ▸ List.mem_singleton_self _
    rw [turn, hphase]
    exact .delete reply hmem (htmps _ hmem) rfl rfl rfl (fun p hp => hnames ▸ hp)
      (fun hs => absurd hs hold) (.fail ..)
  | reading =>
    have hold : ¬ t.phase.hasSucceeded := by rw [hphase]; exact fun hs => hs
    rw [hphase] at hnames
    rw [turn, hphase]
    cases hreply : reply.error with
    | some e => exact .fails reply hold hnames _
    | none =>
      cases hb : files t.tmp with
      | none => exact .fails reply hold hnames _
      | some b =>
        dsimp only
        split
        next hid =>
          refine .quiet reply rfl rfl rfl (fun p hp => hnames ▸ hp) (fun hs => absurd hs hold)
            (.checked (fun b' hb' => ?_) rfl)
          exact Option.some.inj (hb.symm.trans hb') ▸ hid
        next =>
          exact .quiet reply rfl rfl rfl (fun p hp => hnames ▸ hp) (fun hs => absurd hs hold)
            (.idle (fun hs => hs) (fun hs => by cases hs) fun hs => hs)
  | checking =>
    have hold : ¬ t.phase.hasSucceeded := by rw [hphase]; exact fun hs => hs
    have hverified : ∀ b, files t.tmp = some b → H.digest b = t.id := h.verified (hphase ▸ trivial)
    rw [hphase] at hnames
    rw [turn, hphase]
    cases hreply : reply.error with
    | some e => exact .fails reply hold hnames _
    | none =>
      cases hfinal : files t.finalPath with
      | some b =>
        exact .quiet reply rfl rfl rfl (fun p hp => hnames ▸ hp) (fun hs => absurd hs hold)
          (.idle (fun hs => hs) (fun hs => by cases hs) fun hs => hs)
      | none =>
        refine .quiet reply rfl rfl rfl (fun p hp => hnames ▸ hp) (fun hs => absurd hs hold)
          ⟨fun _ => hverified, fun _ b hb => ?_, fun hs => ?_⟩
        · cases hfinal.symm.trans hb
        · rcases hs with hs | hs <;> cases hs
  | rechecking e =>
    have hold : ¬ t.phase.hasSucceeded := by rw [hphase]; exact fun hs => hs
    rw [hphase] at hnames
    rw [turn, hphase]
    dsimp only
    split
    next =>
      exact .quiet reply rfl rfl rfl (fun p hp => hnames ▸ hp) (fun hs => absurd hs hold)
        (.idle (fun hs => hs) (fun hs => by cases hs) fun hs => hs)
    next => exact .fails reply hold hnames _
  | settling =>
    have hold : ¬ t.phase.hasSucceeded := by rw [hphase]; exact fun hs => hs
    rw [hphase] at hnames
    rw [turn, hphase]
    cases hreply : reply.error with
    | some e => exact .fails reply hold hnames _
    | none =>
      cases hb : files t.finalPath with
      | none => exact .fails reply hold hnames _
      | some b =>
        dsimp only
        split
        next hid =>
          exact .quiet reply rfl rfl rfl (fun p hp => hnames ▸ hp) (fun hs => absurd hs hold)
            ⟨fun hs => hs.elim, (fun hs => by cases hs), fun _ => ⟨b, hb, hid⟩⟩
        next =>
          exact .quiet reply rfl rfl rfl (fun _ hp => by cases hp) (fun hs => absurd hs hold)
            (.idle (fun hs => hs) (fun hs => by cases hs) fun hs => hs)
  | unlinking =>
    have hold : ¬ t.phase.hasSucceeded := by rw [hphase]; exact fun hs => hs
    rw [hphase] at hnames
    have hmem : t.tmp ∈ t.names := hnames ▸ List.mem_singleton_self _
    have hinstalled : t.Installed (deleteFile files t.tmp reply) := by
      obtain ⟨b, hb, hid⟩ := h.installed (Or.inl hphase)
      exact ⟨b, (finalsGrow_deleteFile files (htmps _ hmem) reply).kept hb, hid⟩
    rw [turn, hphase]
    cases hreply : reply.error with
    | none =>
      refine .delete reply hmem (htmps _ hmem) rfl rfl rfl (fun p hp => ?_)
        (fun hs => absurd hs hold) (.done hinstalled (succeed_phase ..))
      exact succeed_names _ _ _ p hp ▸ hmem
    | some e =>
      exact .delete reply hmem (htmps _ hmem) rfl rfl rfl (fun p hp => hnames ▸ hp)
        (fun hs => absurd hs hold) (.fail ..)
  | taking after =>
    rw [hphase] at hnames
    have hinstalled : ∀ p, after = .succeeded p → t.Installed files := fun p hp =>
      h.installed (Or.inr (by rw [hphase, hp]; trivial))
    rw [turn, hphase]
    exact {
      owner := rfl
      finalPath := rfl
      finals := .refl files
      frame := fun _ _ _ _ => rfl
      names := .take rfl fun p hp => (List.mem_append.mp hp).symm.imp_left (hnames ▸ ·)
      created := Or.inl rfl
      deleted := fun p hp => by cases hp
      changes := fun hne => absurd rfl hne
      lost := by simp
      succeeded := fun hs => by
        rw [hphase] at hs
        cases after with
        | succeeded p => trivial
        | failed f => exact hs.elim
      sound := .cleanUp rfl hinstalled }
  | reconnecting after wanted =>
    rw [hphase] at hnames
    have hinstalled : ∀ p, after = .succeeded p → t.Installed files := fun p hp =>
      h.installed (Or.inr (by rw [hphase, hp]; trivial))
    have hsucceeded : t.phase.hasSucceeded ↔ ∃ p, after = .succeeded p := by
      rw [hphase]
      cases after <;> simp [PublishPhase.hasSucceeded]
    rw [turn, hphase]
    cases hreply : reply.error with
    | none =>
      refine .quiet reply rfl rfl rfl (fun p hp => ?_) (fun hs => ?_) (.cleanUp rfl hinstalled)
      · rw [hnames]
        simpa [Publication.names] using hp
      · obtain ⟨p, rfl⟩ := hsucceeded.mp hs
        trivial
    | some e => exact .stop attempts reply _ (fun p hp => hnames ▸ hp) hsucceeded h
  | cleaning after wanted left =>
    rw [hphase] at hnames
    have hinstalled : ∀ p, after = .succeeded p → t.Installed files := fun p hp =>
      h.installed (Or.inr (by rw [hphase, hp]; trivial))
    have hsucceeded : t.phase.hasSucceeded ↔ ∃ p, after = .succeeded p := by
      rw [hphase]
      cases after <;> simp [PublishPhase.hasSucceeded]
    rw [turn, hphase]
    cases wanted with
    | nil => exact .stop attempts reply _ (fun p hp => hnames ▸ hp) hsucceeded h
    | cons path wanted =>
      have hmem : path ∈ t.names := hnames ▸ List.mem_cons_self
      refine .delete reply hmem (htmps _ hmem) rfl rfl rfl (fun p hp => ?_) (fun hs => ?_)
        (.cleanUp rfl fun p hp => ?_)
      · have hnames : t.names = path :: wanted ++ left := hnames
        have hp : p ∈ wanted ++ if reply.error.isNone then left else left ++ [path] := hp
        rw [hnames, List.cons_append, List.mem_cons, List.mem_append]
        rcases List.mem_append.mp hp with hp | hp
        · exact Or.inr (Or.inl hp)
        · split at hp
          next => exact Or.inr (Or.inr hp)
          next =>
            rcases List.mem_append.mp hp with hp | hp
            · exact Or.inr (Or.inr hp)
            · exact Or.inl (List.mem_singleton.mp hp)
      · obtain ⟨p, rfl⟩ := hsucceeded.mp hs
        trivial
      · obtain ⟨b, hb, hid⟩ := hinstalled p hp
        exact ⟨b, (finalsGrow_deleteFile files (htmps _ hmem) reply).kept hb, hid⟩
  | retrying =>
    have hold : ¬ t.phase.hasSucceeded := by rw [hphase]; exact fun hs => hs
    rw [turn, hphase]
    cases hreply : reply.error with
    | none | some e =>
      exact .quiet reply rfl rfl rfl (fun _ hp => by cases hp) (fun hs => absurd hs hold)
        (.idle (fun hs => hs) (fun hs => by cases hs) fun hs => hs)
  | answered r =>
    rw [turn, hphase]
    exact .quiet reply rfl rfl rfl (fun _ hp => hp) (fun hs => hs) h

end Turn

end Publication

end ChatStasher
