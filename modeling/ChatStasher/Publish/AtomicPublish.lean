import ChatStasher.Library.StepRun
import ChatStasher.Library.Tasks
import ChatStasher.Publish.TurnSpec

/-! Publishers that share one backend directory, over all interleavings of their requests. -/
namespace ChatStasher

variable {H : Sha256}

lemma Publication.Sound.mono {files files' : PackFiles H} {t : Publication H} (h : t.Sound files)
    (hfinals : FinalsGrow files files') (hnames : ∀ p ∈ t.names, files' p = files p) :
    t.Sound files' where
  verified hp := by
    have hmem : t.tmp ∈ t.names := by
      cases hphase : t.phase <;> simp_all [PublishPhase.hasVerified, Publication.names]
    rw [hnames _ hmem]
    exact h.verified hp
  free hp := hfinals.hashes (h.free hp)
  installed hp := by
    obtain ⟨b, hb, hid⟩ := h.installed hp
    exact ⟨b, hfinals.kept hb, hid⟩

def Apart (t u : Publication H) : Prop := ∀ p ∈ t.names, p ∉ u.names

lemma Apart.symm {t u : Publication H} (h : Apart t u) : Apart u t := fun p hp hq => h p hq hp

structure Accounted (t : Publication H) : Prop where
  changed : t.changed = true → t.lostInstall = true ∨ t.phase.hasSucceeded
  lost : t.lostInstall = true → t.changed = true

/-- Over the files `files₀` the directory had at first. -/
structure SiteInv (files₀ : PackFiles H) (s : PublishSite H) : Prop where
  finals : FinalsGrow files₀ s.files
  sound : ∀ t ∈ s.tasks, t.Sound s.files
  accounted : ∀ t ∈ s.tasks, Accounted t
  named : ∀ t ∈ s.tasks, ∀ p ∈ t.names, (t.owner, p) ∈ s.created
  pendingNamed : ∀ owner, ∀ p ∈ s.pending owner, (owner, p) ∈ s.created
  apart : s.tasks.Pairwise Apart
  apartPending : ∀ t ∈ s.tasks, ∀ owner, ∀ p ∈ t.names, p ∉ s.pending owner
  createdOnce : ∀ x ∈ s.created, ∀ y ∈ s.created, x.2 = y.2 → x.1 = y.1
  createdTmp : ∀ x ∈ s.created, x.2.IsTmp
  deleted : ∀ x ∈ s.deleted, x ∈ s.created

lemma SiteInv.start (files₀ : PackFiles H) : SiteInv files₀ (.start files₀) where
  finals := .refl files₀
  sound _ h := by cases h
  accounted _ h := by cases h
  named _ h := by cases h
  pendingNamed _ _ h := by cases h
  apart := List.Pairwise.nil
  apartPending _ h := by cases h
  createdOnce _ h := by cases h
  createdTmp _ h := by cases h
  deleted _ h := by cases h

namespace Publication.NamesMove
variable {t : Publication H} {held : List (PackPath H.Digest)} {r : PublishTurn H}

lemma names (h : NamesMove t held r) :
    ∀ p ∈ r.task.names, p ∈ t.names ∨ p ∈ r.created ∨ p ∈ held := by
  intro p hp
  cases h with
  | stay hpending hnames => exact (hnames p hp).imp_right Or.inl
  | take hpending hnames => exact (hnames p hp).imp_right Or.inr
  | putBack hpending hnames => exact absurd hp (by simp [hnames])

lemma pending (h : NamesMove t held r) : ∀ p ∈ r.pending, p ∈ held ∨ p ∈ t.names := by
  intro p hp
  cases h with
  | stay hpending hnames => exact Or.inl (hpending ▸ hp)
  | take hpending hnames => exact absurd hp (by simp [hpending])
  | putBack hpending hnames => exact hpending p hp

lemma apart (h : NamesMove t held r) (hold : ∀ p ∈ t.names, p ∉ held)
    (hnew : ∀ p ∈ r.created, p ∉ held) : ∀ p ∈ r.task.names, p ∉ r.pending := by
  intro p hp hin
  cases h with
  | stay hpending hnames =>
    rw [hpending] at hin
    exact (hnames p hp).elim (hold p · hin) (hnew p · hin)
  | take hpending hnames => exact absurd hin (by simp [hpending])
  | putBack hpending hnames => exact absurd hp (by simp [hnames])

end Publication.NamesMove

section Proceed
variable {files₀ : PackFiles H} {s : PublishSite H} {i : ℕ} {t : Publication H} {reply : Reply}
  {r : PublishTurn H}

lemma SiteInv.pending_owner (h : SiteInv files₀ s) {u : Publication H} (hu : u ∈ s.tasks)
    {owner : ℕ} {p : PackPath H.Digest} (hp : p ∈ s.pending owner) (hmem : p ∈ u.names) : False :=
  h.apartPending u hu owner p hmem hp

lemma SiteInv.others (h : SiteInv files₀ s) (hi : s.tasks[i]? = some t)
    (hr : Publication.TurnSpec s.files (s.pending t.owner) t reply r)
    (hfresh : ∀ p ∈ r.created, p ∉ s.created.map Prod.snd) {j : ℕ} {u : Publication H}
    (hj : j ≠ i) (hu : s.tasks[j]? = some u) :
    u.Sound r.files ∧ Apart r.task u ∧ ∀ p ∈ r.pending, p ∉ u.names := by
  have hmem := TaskList.mem_of_getElem? hu
  have hapart : Apart t u := TaskList.pairwise_getElem? (fun _ _ => Apart.symm) h.apart hj.symm hi hu
  have hnew : ∀ p ∈ u.names, p ∉ r.created := fun p hp hin =>
    hfresh p hin (List.mem_map_of_mem (h.named u hmem p hp))
  refine ⟨(h.sound u hmem).mono hr.finals fun p hp => ?_, fun p hp hin => ?_, fun p hp hin => ?_⟩
  · exact hr.frame p (h.createdTmp _ (h.named u hmem p hp)) (fun hin => hapart p hin hp) (hnew p hp)
  · rcases hr.names.names p hp with hold | hcreated | hpending
    · exact hapart p hold hin
    · exact hnew p hin hcreated
    · exact h.pending_owner hmem hpending hin
  · rcases hr.names.pending p hp with hpending | hold
    · exact h.pending_owner hmem hpending hin
    · exact hapart p hold hin

lemma Accounted.turn (h : Accounted t)
    (hr : Publication.TurnSpec s.files (s.pending t.owner) t reply r) :
    Accounted { r.task with
      changed := t.changed || decide (r.files t.finalPath ≠ s.files t.finalPath) } where
  changed hchanged := by
    rcases Bool.or_eq_true _ _ ▸ hchanged with hold | hnew
    · exact (h.changed hold).imp (fun hlost => hr.lost.mpr (Or.inl hlost)) hr.succeeded
    · exact hr.changes (of_decide_eq_true hnew)
  lost hlost := by
    rcases hr.lost.mp hlost with hold | ⟨-, hnew⟩
    · simp [h.lost hold]
    · simp [hnew]

lemma SiteInv.proceed (h : SiteInv files₀ s) (hi : s.tasks[i]? = some t)
    (hr : Publication.TurnSpec s.files (s.pending t.owner) t reply r)
    (hfresh : ∀ p ∈ r.created, p ∉ s.created.map Prod.snd ∧ p.IsTmp) :
    SiteInv files₀ {
      files := r.files
      pending := Function.update s.pending t.owner r.pending
      tasks := s.tasks.set i { r.task with
        changed := t.changed || decide (r.files t.finalPath ≠ s.files t.finalPath) }
      created := s.created ++ r.created.map (t.owner, ·)
      deleted := s.deleted ++ r.deleted.map (t.owner, ·) } := by
  have hmem := TaskList.mem_of_getElem? hi
  have hothers := fun {j : ℕ} {u : Publication H} =>
    h.others hi hr (fun p hp => (hfresh p hp).1) (j := j) (u := u)
  have hnamed : ∀ p ∈ r.task.names, (t.owner, p) ∈ s.created ++ r.created.map (t.owner, ·) := by
    intro p hp
    rcases hr.names.names p hp with hold | hcreated | hpending
    · exact List.mem_append_left _ (h.named t hmem p hold)
    · exact List.mem_append_right _ (List.mem_map_of_mem hcreated)
    · exact List.mem_append_left _ (h.pendingNamed _ p hpending)
  have hback : ∀ p ∈ r.pending, (t.owner, p) ∈ s.created := by
    intro p hp
    rcases hr.names.pending p hp with hpending | hold
    · exact h.pendingNamed _ p hpending
    · exact h.named t hmem p hold
  have hnotPending : ∀ p ∈ r.created, ∀ owner, p ∉ s.pending owner := fun p hp owner hin =>
    (hfresh p hp).1 (List.mem_map_of_mem (h.pendingNamed owner p hin))
  refine {
    finals := h.finals.trans hr.finals
    sound := fun u hu => ?_
    accounted := fun u hu => ?_
    named := fun u hu p hp => ?_
    pendingNamed := fun owner p hp => ?_
    apart := ?_
    apartPending := fun u hu owner p hp hin => ?_
    createdOnce := ?_
    createdTmp := ?_
    deleted := ?_ }
  · rcases TaskList.mem_set hu with rfl | ⟨j, hj, hu⟩
    · exact ⟨hr.sound.verified, hr.sound.free, hr.sound.installed⟩
    · exact (hothers hj hu).1
  · rcases TaskList.mem_set hu with rfl | ⟨j, hj, hu⟩
    · exact (h.accounted t hmem).turn hr
    · exact h.accounted u (TaskList.mem_of_getElem? hu)
  · rcases TaskList.mem_set hu with rfl | ⟨j, hj, hu⟩
    · exact hr.owner ▸ hnamed p hp
    · exact List.mem_append_left _ (h.named u (TaskList.mem_of_getElem? hu) p hp)
  · dsimp only at hp
    by_cases howner : owner = t.owner
    · subst howner
      rw [Function.update_self] at hp
      exact List.mem_append_left _ (hback p hp)
    · rw [Function.update_of_ne howner] at hp
      exact List.mem_append_left _ (h.pendingNamed owner p hp)
  · exact TaskList.pairwise_set (fun _ _ => Apart.symm) h.apart fun j u hj hu => (hothers hj hu).2.1
  · dsimp only at hin
    by_cases howner : owner = t.owner
    · subst howner
      rw [Function.update_self] at hin
      rcases TaskList.mem_set hu with rfl | ⟨j, hj, hu⟩
      · exact hr.names.apart (fun q hq => h.apartPending t hmem _ q hq)
          (fun q hq => hnotPending q hq _) p hp hin
      · exact (hothers hj hu).2.2 p hin hp
    · rw [Function.update_of_ne howner] at hin
      rcases TaskList.mem_set hu with rfl | ⟨j, hj, hu⟩
      · -- Another publisher's clean-up list names only what that publisher wrote.
        rcases List.mem_append.mp (hnamed p hp) with hold | hnew
        · exact howner (h.createdOnce _ (h.pendingNamed owner p hin) _ hold rfl)
        · obtain ⟨q, hq, heq⟩ := List.mem_map.mp hnew
          obtain rfl : q = p := congrArg Prod.snd heq
          exact hnotPending q hq owner hin
      · exact h.apartPending u (TaskList.mem_of_getElem? hu) owner p hp hin
  · intro x hx y hy heq
    rcases List.mem_append.mp hx with hx | hx <;> rcases List.mem_append.mp hy with hy | hy
    · exact h.createdOnce x hx y hy heq
    · obtain ⟨q, hq, rfl⟩ := List.mem_map.mp hy
      exact absurd (List.mem_map.mpr ⟨x, hx, heq⟩) (hfresh q hq).1
    · obtain ⟨q, hq, rfl⟩ := List.mem_map.mp hx
      exact absurd (List.mem_map.mpr ⟨y, hy, heq.symm⟩) (hfresh q hq).1
    · obtain ⟨q, -, rfl⟩ := List.mem_map.mp hx
      obtain ⟨q', -, rfl⟩ := List.mem_map.mp hy
      rfl
  · intro x hx
    rcases List.mem_append.mp hx with hx | hx
    · exact h.createdTmp x hx
    · obtain ⟨q, hq, rfl⟩ := List.mem_map.mp hx
      exact (hfresh q hq).2
  · intro x hx
    rcases List.mem_append.mp hx with hx | hx
    · exact List.mem_append_left _ (h.deleted x hx)
    · obtain ⟨q, hq, rfl⟩ := List.mem_map.mp hx
      exact List.mem_append_left _ (h.named t hmem q (hr.deleted q hq))

end Proceed

section Runs
variable {files₀ : PackFiles H} {s : PublishSite H}

lemma SiteInv.publish (h : SiteInv files₀ s) (owner : ℕ) (kind : FileKind) (id : H.Digest)
    (bytes : Bytes) : SiteInv files₀ { s with tasks := s.tasks ++
      [⟨owner, kind, id, bytes, 1, .final kind id, "", 0, .connecting, false, false⟩] } := by
  have hnone : (⟨owner, kind, id, bytes, 1, .final kind id, "", 0, .connecting, false, false⟩ :
    Publication H).names = [] := rfl
  refine { h with
    sound := fun u hu => ?_
    accounted := fun u hu => ?_
    named := fun u hu p hp => ?_
    apart := ?_
    apartPending := fun u hu owner p hp => ?_ }
  · rcases List.mem_append.mp hu with hu | hu
    · exact h.sound u hu
    · rw [List.mem_singleton.mp hu]
      exact .idle (fun hs => hs) (fun hs => by cases hs) fun hs => hs
  · rcases List.mem_append.mp hu with hu | hu
    · exact h.accounted u hu
    · rw [List.mem_singleton.mp hu]
      exact ⟨(fun hs => by cases hs), (fun hs => by cases hs)⟩
  · rcases List.mem_append.mp hu with hu | hu
    · exact h.named u hu p hp
    · rw [List.mem_singleton.mp hu, hnone] at hp
      cases hp
  · refine List.pairwise_append.mpr ⟨h.apart, List.pairwise_singleton _ _, fun u _ v hv => ?_⟩
    rw [List.mem_singleton.mp hv]
    exact fun p _ hp => by cases hp
  · rcases List.mem_append.mp hu with hu | hu
    · exact h.apartPending u hu owner p hp
    · rw [List.mem_singleton.mp hu, hnone] at hp
      cases hp

lemma SiteInv.kill (h : SiteInv files₀ s) (owner : ℕ) : SiteInv files₀ { s with
    pending := Function.update s.pending owner []
    tasks := s.tasks.filter fun t => t.owner ≠ owner } := by
  have hpending : ∀ o, ∀ p ∈ Function.update s.pending owner [] o, p ∈ s.pending o := by
    intro o p hp
    by_cases heq : o = owner
    · subst heq
      rw [Function.update_self] at hp
      cases hp
    · rwa [Function.update_of_ne heq] at hp
  exact { h with
    sound := fun u hu => h.sound u (List.mem_of_mem_filter hu)
    accounted := fun u hu => h.accounted u (List.mem_of_mem_filter hu)
    named := fun u hu => h.named u (List.mem_of_mem_filter hu)
    pendingNamed := fun o p hp => h.pendingNamed o p (hpending o p hp)
    apart := h.apart.filter _
    apartPending := fun u hu o p hp hin =>
      h.apartPending u (List.mem_of_mem_filter hu) o p hp (hpending o p hin) }

theorem publishStep_inv (setup : PublishSetup) (h : SiteInv files₀ s) {a : PublishAction H}
    (hfresh : DrawsFresh s a) : SiteInv files₀ (publishStep setup s a) := by
  cases a with
  | publish owner kind id bytes => exact h.publish owner kind id bytes
  | kill owner => exact h.kill owner
  | proceed i reply =>
    unfold publishStep
    dsimp only
    split
    next => exact h
    next t hi =>
      have hmem := TaskList.mem_of_getElem? hi
      have hr := Publication.turn_spec setup.overwrites (max setup.attempts 1) (s.pending t.owner)
        reply (fun p hp => h.createdTmp _ (h.named t hmem p hp)) (h.sound t hmem)
      refine h.proceed hi hr fun p hp => ?_
      rcases hr.created with hnil | ⟨hwriting, hone⟩
      · rw [hnil] at hp
        cases hp
      · rw [hone, List.mem_singleton] at hp
        exact hp ▸ ⟨(hfresh t hi hwriting).1, trivial⟩

/-- Publications are safe: final names keep what they held and are given to files that hash to their
id, success means that the name holds the object, failure that its publication did not change what
the name holds, and publishers only ever delete temporary files that they and no one else wrote. -/
structure PublishSafe (files₀ : PackFiles H) (s : PublishSite H) : Prop where
  hashes : ∀ kind id b, s.files (.final kind id) = some b →
    H.digest b = id ∨ files₀ (.final kind id) = some b
  kept : ∀ kind id b, files₀ (.final kind id) = some b → s.files (.final kind id) = some b
  ok : ∀ t ∈ s.tasks, ∀ p, t.phase = .answered (.ok p) → t.Installed s.files
  error : ∀ t ∈ s.tasks, ∀ e, t.phase = .answered (.error e) → t.changed = false
  deletes : ∀ x ∈ s.deleted, x ∈ s.created ∧ x.2.IsTmp ∧ ∀ y ∈ s.created, y.2 = x.2 → y.1 = x.1

def PublishPhase.isFailed {D : Type} : PublishPhase D → Bool
  | .answered (.error _) => true
  | _ => false

lemma PublishPhase.isFailed_iff {D : Type} {phase : PublishPhase D} :
    phase.isFailed = true ↔ ∃ e, phase = .answered (.error e) := by
  constructor
  · intro h
    unfold isFailed at h
    split at h
    next e => exact ⟨e, rfl⟩
    next => cases h
  · rintro ⟨e, rfl⟩
    rfl

/-- No publication that answers an error has had a rename that installed its file and was reported
as failed. -/
def NoLostInstall (s : PublishSite H) : Prop :=
  ∀ t ∈ s.tasks, ∀ e, t.phase = .answered (.error e) → t.lostInstall = false

theorem publications_safe_iff (setup : PublishSetup) (files₀ : PackFiles H)
    (actions : List (PublishAction H))
    (hfresh : StepRun.Along (publishStep setup) DrawsFresh (.start files₀) actions) :
    let s := StepRun.exec (publishStep setup) (.start files₀) actions
    PublishSafe files₀ s ↔ NoLostInstall s := by
  intro s
  have hstep : ∀ (s : PublishSite H) a, SiteInv files₀ s → DrawsFresh s a →
      SiteInv files₀ (publishStep setup s a) := fun _ _ h hok => publishStep_inv setup h hok
  have h : SiteInv files₀ s := StepRun.invariant hstep (.start files₀) hfresh
  have herror : ∀ t ∈ s.tasks, ∀ e, t.phase = .answered (.error e) →
      (t.changed = false ↔ t.lostInstall = false) := by
    intro t ht e hphase
    have hnot : ¬ t.phase.hasSucceeded := by rw [hphase]; exact fun hs => hs
    have hiff : t.changed = true ↔ t.lostInstall = true :=
      ⟨fun hc => ((h.accounted t ht).changed hc).resolve_right hnot, (h.accounted t ht).lost⟩
    rw [← Bool.not_eq_true, ← Bool.not_eq_true, hiff]
  constructor
  · exact fun hsafe t ht e hphase => (herror t ht e hphase).mp (hsafe.error t ht e hphase)
  · intro hlost
    refine {
      hashes := fun kind id b hb => ?_
      kept := fun kind id b hb => h.finals.kept hb
      ok := fun t ht p hphase => (h.sound t ht).installed (Or.inr (hphase ▸ trivial))
      error := fun t ht e hphase => (herror t ht e hphase).mpr (hlost t ht e hphase)
      deletes := fun x hx => ⟨h.deleted x hx, h.createdTmp x (h.deleted x hx),
        fun y hy heq => h.createdOnce y hy x (h.deleted x hx) heq⟩ }
    rcases h.finals kind id with heq | ⟨-, b', hb', hid⟩
    · exact Or.inr (heq ▸ hb)
    · rw [hb'] at hb
      exact Or.inl (Option.some.inj hb ▸ hid)

/-- Two publishers race to one name: one rename installs the object, the other is refused and its
temporary file removed. -/
theorem publications_safe_of_race :
    let id : Sha256.verbatim.Digest := Sha256.verbatim.digest [97]
    let reply : Reply := ⟨none, true, 1, 0, some [97]⟩
    let other : Reply := ⟨none, true, 1, 1, some [97]⟩
    let actions : List (PublishAction .verbatim) :=
      [.publish 0 .pack id [97], .publish 1 .pack id [97]] ++
        List.replicate 5 (.proceed 0 reply) ++ List.replicate 5 (.proceed 1 other) ++
        [.proceed 0 reply] ++ List.replicate 4 (.proceed 1 other)
    let s := StepRun.exec (publishStep ⟨false, 2⟩) (.start fun _ => none) actions
    PublishSafe (fun _ => none) s ∧ s.files (.final .pack id) = some [97] ∧
      s.deleted = [(1, .tmp .pack id 1 1)] := by
  intro id reply other actions s
  have hlost : ∀ t ∈ s.tasks, t.lostInstall = false := by decide +kernel
  have hiff := publications_safe_iff ⟨false, 2⟩ (fun _ => none) actions (by decide +kernel)
  exact ⟨hiff.mpr fun t ht _ _ => hlost t ht, by decide +kernel, by decide +kernel⟩

/-- The connection is lost with the answer to the rename and does not come back: the upload answers
that nothing was published under a final name, which the object has been. -/
theorem lost_rename_answer_reported_unpublished :
    let id : Sha256.verbatim.Digest := Sha256.verbatim.digest [97]
    let reply : Reply := ⟨none, true, 1, 0, some [97]⟩
    let cut : Reply := ⟨some connectionCause, true, 0, 0, none⟩
    let s := StepRun.exec (publishStep ⟨false, 2⟩) (.start fun _ => none)
      ([.publish 0 .pack id [97]] ++ List.replicate 5 (.proceed 0 reply) ++
        List.replicate 5 (.proceed 0 cut))
    (∃ t ∈ s.tasks, t.phase.isFailed = true ∧ t.left = 1) ∧ s.files (.final .pack id) = some [97] ∧
      ¬ PublishSafe (fun _ => none) s := by
  intro id reply cut s
  have hfailed : ∃ t ∈ s.tasks, t.phase.isFailed = true ∧ t.left = 1 ∧ t.changed = true := by
    decide +kernel
  obtain ⟨t, ht, hphase, hleft, hchanged⟩ := hfailed
  obtain ⟨e, herror⟩ := PublishPhase.isFailed_iff.mp hphase
  refine ⟨⟨t, ht, hphase, hleft⟩, by decide +kernel, fun hsafe => ?_⟩
  rw [hsafe.error t ht e herror] at hchanged
  cases hchanged

end Runs

end ChatStasher
