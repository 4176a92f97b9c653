import ChatStasher.Inbox.ExactlyOnce

/-! What the stage keeps of an install's identity: records that name an install, a browser and a
profile never contradict each other, whoever seals them and whatever is reclaimed. -/
namespace ChatStasher.Inbox

variable {H : Sha256} {R : Reader H} {machine : Text} {s s' : InboxSite H} {stage stage' : Stage H}

/-- The inbox at work on a stage that is reclaimed from in between. -/
inductive StageAction (H : Sha256)
  | inbox (action : InboxAction)
  | reclaim (reclaimed : List (Shard H))
  deriving DecidableEq

/-- A reclaim takes the shards that the archive has proven out of the stage. -/
def Stage.reclaim (stage : Stage H) (reclaimed : List (Shard H)) : Stage H :=
  { stage with shards := stage.shards.filter fun shard => shard ∉ reclaimed }

def stageStep (R : Reader H) (machine : Text) (s : InboxSite H) : StageAction H → InboxSite H
  | .inbox action => inboxStep R machine s action
  | .reclaim reclaimed => { s with stage := s.stage.reclaim reclaimed }

/-- A sealed record, in a shard that is read as one, that carries the install id and names another
browser, or another profile where both labels are names. -/
structure Contradicts (installId browser profileLabel : Text) (shard : Shard H) : Prop where
  listed : shard.isListed = true
  install : shard.record.installId = some installId
  other : (∃ saved, shard.record.browser = some saved ∧ saved ≠ browser) ∨
    ∃ saved, shard.record.profileLabel = some saved ∧ namesAProfile saved = true ∧
      namesAProfile profileLabel = true ∧ saved ≠ profileLabel

/-- A sealed record, in a shard that is read as one, with all three identity fields. -/
structure Identified (installId browser profileLabel : Text) (shard : Shard H) : Prop where
  listed : shard.isListed = true
  install : shard.record.installId = some installId
  browser : shard.record.browser = some browser
  label : shard.record.profileLabel = some profileLabel

/-- Of one install id the identified records name one browser and at most one profile. -/
def OneIdentity (stage : Stage H) : Prop :=
  ∀ a ∈ stage.shards, ∀ b ∈ stage.shards, ∀ installId browserA labelA browserB labelB,
    Identified installId browserA labelA a → Identified installId browserB labelB b →
      browserA = browserB ∧
        (namesAProfile labelA = true → namesAProfile labelB = true → labelA = labelB)

/-- The call that holds the lock is refused as a collision by its next operation. -/
def refusesIdentity (R : Reader H) (machine : Text) (stage : Stage H) (call : SealCall H) : Prop :=
  (advanceSeal R machine stage { call with phase := .locked } true).2 =
    .returned (.error .identityCollision)

/-- A call past the check carries a record with the payload's identity, which collides with nothing. -/
def Checked (stage : Stage H) (call : SealCall H) : Prop :=
  match call.phase with
  | .numbered record _ =>
    record.installId = call.payload.installId ∧ record.browser = call.payload.browser ∧
      record.profileLabel = call.payload.profileLabel ∧ identityCollides stage call.payload = false
  | _ => True

structure IdentityInv (s : InboxSite H) : Prop where
  locked : Mutex.Agrees (fun p => (s.consumers p).holdsLock) s.lock
  checked : ∀ p call, (s.consumers p).call = some call → Checked s.stage call
  one : OneIdentity s.stage

section Check

lemma installIdentityConflicts_iff {installId browser profileLabel : Text} :
    installIdentityConflicts stage installId browser profileLabel = true ↔
      ∃ shard ∈ stage.shards, Contradicts installId browser profileLabel shard ∨
        shard.isListed = true ∧ shard.record.installId = some installId ∧
          shard.record.browser = none := by
  unfold installIdentityConflicts
  rw [List.any_eq_true]
  refine exists_congr fun shard => and_congr_right fun _ => ?_
  constructor
  · intro h
    simp only [Bool.and_eq_true, Bool.or_eq_true, decide_eq_true_eq] at h
    obtain ⟨⟨hlisted, hinstall⟩, hother⟩ := h
    rcases hother with hbrowser | hlabel
    · cases hsaved : shard.record.browser with
      | none => exact Or.inr ⟨hlisted, hinstall, rfl⟩
      | some saved =>
        refine Or.inl ⟨hlisted, hinstall, Or.inl ⟨saved, hsaved, ?_⟩⟩
        rintro rfl
        exact hbrowser hsaved
    · cases hsaved : shard.record.profileLabel with
      | none => simp [hsaved] at hlabel
      | some saved =>
        simp only [hsaved, Option.any_some, Bool.and_eq_true, decide_eq_true_eq] at hlabel
        exact Or.inl ⟨hlisted, hinstall, Or.inr ⟨saved, hsaved, hlabel.1.1, hlabel.1.2, hlabel.2⟩⟩
  · rintro (⟨hlisted, hinstall, ⟨saved, hsaved, hne⟩ | ⟨saved, hsaved, hnamed, hnames, hne⟩⟩ |
      ⟨hlisted, hinstall, hnone⟩)
    · simp [hlisted, hinstall, hsaved, hne]
    · simp [hlisted, hinstall, hsaved, hnamed, hnames, hne]
    · simp [hlisted, hinstall, hnone]

lemma refusesIdentity_iff {call : SealCall H} :
    refusesIdentity R machine stage call ↔ identityCollides stage call.payload = true := by
  change (decideSeal R machine stage { call with phase := .locked }).2 = _ ↔ _
  unfold decideSeal
  dsimp only
  cases hcollides : identityCollides stage call.payload with
  | true => simp
  | false =>
    rw [if_neg Bool.false_ne_true]
    refine iff_of_false ?_ Bool.false_ne_true
    split
    · simp
    split
    · simp
    split
    · simp
    · simp

lemma identityCollides_iff {payload : ParseOutcome H} :
    identityCollides stage payload = true ↔ ∃ installId browser profileLabel,
      payload.installId = some installId ∧ payload.browser = some browser ∧
        payload.profileLabel = some profileLabel ∧
          installIdentityConflicts stage installId browser profileLabel = true := by
  unfold identityCollides
  split
  next installId browser label hinstall hbrowser hlabel =>
    simp [hinstall, hbrowser, hlabel]
  next habsent =>
    refine iff_of_false Bool.false_ne_true ?_
    rintro ⟨installId, browser, label, hinstall, hbrowser, hlabel, -⟩
    exact habsent installId browser label hinstall hbrowser hlabel

lemma identityCollides_mono (h : stage'.shards ⊆ stage.shards) {payload : ParseOutcome H}
    (hfree : identityCollides stage payload = false) : identityCollides stage' payload = false := by
  rw [Bool.eq_false_iff, Ne, identityCollides_iff] at hfree ⊢
  rintro ⟨installId, browser, label, hinstall, hbrowser, hlabel, hconflicts⟩
  refine hfree ⟨installId, browser, label, hinstall, hbrowser, hlabel, ?_⟩
  obtain ⟨shard, hshard, hconflict⟩ := installIdentityConflicts_iff.mp hconflicts
  exact installIdentityConflicts_iff.mpr ⟨shard, h hshard, hconflict⟩

lemma Checked.mono (h : stage'.shards ⊆ stage.shards) {call : SealCall H}
    (hchecked : Checked stage call) : Checked stage' call := by
  unfold Checked at hchecked ⊢
  split at hchecked
  · exact ⟨hchecked.1, hchecked.2.1, hchecked.2.2.1, identityCollides_mono h hchecked.2.2.2⟩
  · trivial

lemma OneIdentity.mono (h : stage'.shards ⊆ stage.shards) (hone : OneIdentity stage) :
    OneIdentity stage' :=
  fun a ha b hb => hone a (h ha) b (h hb)

lemma checked_of_not_holdsLock {call : SealCall H} (h : call.holdsLock = false) :
    Checked stage call := by
  unfold Checked
  cases hphase : call.phase <;> simp_all [SealCall.holdsLock]

lemma agrees_of_not_collides {payload : ParseOutcome H}
    (hfree : identityCollides stage payload = false) {installId browser label : Text}
    (hpayload : payload.installId = some installId ∧ payload.browser = some browser ∧
      payload.profileLabel = some label) {shard : Shard H} (hshard : shard ∈ stage.shards)
    {saved savedLabel : Text} (hidentified : Identified installId saved savedLabel shard) :
    saved = browser ∧
      (namesAProfile savedLabel = true → namesAProfile label = true → savedLabel = label) := by
  obtain ⟨hinstall, hbrowser, hlabel⟩ := hpayload
  have hnone : ¬ Contradicts installId browser label shard := by
    intro hcontradicts
    simp only [identityCollides, hinstall, hbrowser, hlabel, Bool.eq_false_iff, Ne,
      installIdentityConflicts_iff] at hfree
    exact hfree ⟨shard, hshard, Or.inl hcontradicts⟩
  constructor
  · by_contra hne
    exact hnone ⟨hidentified.listed, hidentified.install, Or.inl ⟨saved, hidentified.browser, hne⟩⟩
  · intro hnamed hnames
    by_contra hne
    exact hnone ⟨hidentified.listed, hidentified.install,
      Or.inr ⟨savedLabel, hidentified.label, hnamed, hnames, hne⟩⟩

lemma OneIdentity.install (hone : OneIdentity stage) {payload : ParseOutcome H}
    (hfree : identityCollides stage payload = false) {shard : Shard H}
    (hinstall : shard.record.installId = payload.installId)
    (hbrowser : shard.record.browser = payload.browser)
    (hlabel : shard.record.profileLabel = payload.profileLabel) :
    OneIdentity (stage.install shard) := by
  have hagrees : ∀ other ∈ stage.shards, ∀ installId saved savedLabel browser label,
      Identified installId saved savedLabel other → Identified installId browser label shard →
        saved = browser ∧
          (namesAProfile savedLabel = true → namesAProfile label = true → savedLabel = label) := by
    intro other hother installId saved savedLabel browser label hsaved hnew
    refine agrees_of_not_collides hfree ⟨?_, ?_, ?_⟩ hother hsaved
    · rw [← hinstall, hnew.install]
    · rw [← hbrowser, hnew.browser]
    · rw [← hlabel, hnew.label]
  have hmem : ∀ other ∈ (stage.install shard).shards, other ∈ stage.shards ∨ other = shard := by
    intro other hother
    rcases List.mem_append.mp hother with hold | hnew
    · exact Or.inl (List.mem_filter.mp hold).1
    · exact Or.inr (List.mem_singleton.mp hnew)
  intro a ha b hb installId browserA labelA browserB labelB hidA hidB
  rcases hmem a ha with hold | rfl
  · rcases hmem b hb with hold' | rfl
    · exact hone a hold b hold' installId browserA labelA browserB labelB hidA hidB
    · exact hagrees a hold installId browserA labelA browserB labelB hidA hidB
  · rcases hmem b hb with hold' | rfl
    · obtain ⟨hsame, hnames⟩ := hagrees b hold' installId browserB labelB browserA labelA hidB hidA
      exact ⟨hsame.symm, fun hnamesA hnamesB => (hnames hnamesB hnamesA).symm⟩
    · refine ⟨Option.some.inj (hidA.browser.symm.trans hidB.browser), fun _ _ => ?_⟩
      exact Option.some.inj (hidA.label.symm.trans hidB.label)

end Check

section Step

/-- What one process may change: its own state, the lock if it is free or its own, and the stage
while it holds the lock. -/
structure IdentityStep (s : InboxSite H) (p : ℕ) (c : Consumer H) (s' : InboxSite H) : Prop where
  consumers : s'.consumers = Function.update s.consumers p c
  lock : Mutex.Turn s.lock p c.holdsLock s'.lock
  others : s'.stage = s.stage ∨ s.lock = some p
  checked : ∀ call, c.call = some call → Checked s'.stage call
  one : OneIdentity s'.stage

lemma IdentityInv.of_identityStep (h : IdentityInv s) {p : ℕ} {c : Consumer H}
    (hstep : IdentityStep s p c s') : IdentityInv s' where
  locked := by
    refine h.locked.turn (p := p) ?_ fun q hq => ?_
    · simpa [hstep.consumers] using hstep.lock
    · simp [hstep.consumers, Function.update_of_ne hq]
  checked q call hcall := by
    rw [hstep.consumers] at hcall
    by_cases hq : q = p
    · subst hq
      rw [Function.update_self] at hcall
      exact hstep.checked call hcall
    · rw [Function.update_of_ne hq] at hcall
      rcases hstep.others with hsame | hown
      · exact hsame ▸ h.checked q call hcall
      · -- the lock is not this process's, so its call has no record yet
        refine checked_of_not_holdsLock (Bool.eq_false_iff.mpr fun hholds => hq ?_)
        exact h.locked.unique (by simp [Consumer.holdsLock, hcall, hholds]) hown
  one := hstep.one

lemma IdentityInv.become (h : IdentityInv s) {p : ℕ} {c : Consumer H}
    (hbefore : (s.consumers p).holdsLock = false) (hafter : c.holdsLock = false) :
    IdentityInv (s.become p c) := by
  refine h.of_identityStep (c := c) ⟨rfl, Or.inr ⟨hafter, ?_⟩, Or.inl rfl, fun call hcall => ?_,
    h.one⟩
  · exact (h.locked.release_of_not hbefore).symm
  · exact checked_of_not_holdsLock (by simpa [Consumer.holdsLock, hcall] using hafter)

lemma checked_advanceSeal {call : SealCall H} (hchecked : Checked stage call)
    (hone : OneIdentity stage) (succeeds : Bool) :
    OneIdentity (advanceSeal R machine stage call succeeds).1 ∧
      ∀ call', (advanceSeal R machine stage call succeeds).2 = .running call' →
        call'.holdsLock = true ∧ (∃ phase, call' = { call with phase }) ∧
          Checked (advanceSeal R machine stage call succeeds).1 call' := by
  unfold advanceSeal
  split
  next =>
    refine ⟨hone, fun call' hcall' => ?_⟩
    obtain rfl := SealNext.running.inj hcall'
    exact ⟨rfl, ⟨_, rfl⟩, trivial⟩
  next => exact ⟨hone, by simp⟩
  next =>
    unfold decideSeal
    cases hcollides : identityCollides stage call.payload with
    | true => exact ⟨hone, by simp⟩
    | false =>
      rw [if_neg Bool.false_ne_true]
      split
      · exact ⟨hone, by simp⟩
      split
      · exact ⟨hone, by simp⟩
      dsimp only
      split
      · exact ⟨hone, by simp⟩
      · refine ⟨hone.mono (List.Subset.refl _), fun call' hcall' => ?_⟩
        obtain rfl := SealNext.running.inj hcall'
        exact ⟨rfl, ⟨_, rfl⟩, rfl, rfl, rfl,
          identityCollides_mono (List.Subset.refl _) hcollides⟩
  next record seq hphase =>
    simp only [Checked, hphase] at hchecked
    obtain ⟨hinstall, hbrowser, hlabel, hfree⟩ := hchecked
    refine ⟨hone.install hfree hinstall hbrowser hlabel, fun call' hcall' => ?_⟩
    obtain rfl := SealNext.running.inj hcall'
    exact ⟨rfl, ⟨_, rfl⟩, trivial⟩
  next => exact ⟨hone, by simp⟩
  next => exact ⟨hone, by simp⟩

lemma IdentityInv.sealWork (h : IdentityInv s) {p : ℕ} {call : SealCall H} {succeeds : Bool}
    {goOn : SealCall H → Consumer H} {after : Except SealError (SealOutcome H) → Consumer H}
    {answers : Except SealError (SealOutcome H) → List (SealCall H × SealOutcome H)}
    (hcall : (s.consumers p).call = some call)
    (hgoOn : ∀ call, (goOn call).call = some call) (hafter : ∀ result, (after result).call = none) :
    IdentityInv (sealWork R machine s p call succeeds goOn after answers) := by
  have hholds : (s.consumers p).holdsLock = call.holdsLock := by
    simp [Consumer.holdsLock, hcall]
  unfold Inbox.sealWork
  split
  · exact h
  next hturn =>
    obtain ⟨hone, hrunning⟩ := @checked_advanceSeal _ R machine s.stage call
      (h.checked p call hcall) h.one succeeds
    have hothers : (advanceSeal R machine s.stage call succeeds).1 = s.stage ∨ s.lock = some p := by
      cases hlock : call.holdsLock with
      | true => exact Or.inr ((h.locked p).mp (hholds.trans hlock))
      | false => exact Or.inl (by rw [advanceSeal_of_not_holdsLock hlock])
    generalize hnext : advanceSeal R machine s.stage call succeeds = next
      at hone hrunning hothers ⊢
    obtain ⟨stage, call' | result⟩ := next
    · obtain ⟨hlocked, -, hchecked⟩ := hrunning call' rfl
      refine h.of_identityStep (p := p) (c := goOn call')
        ⟨rfl, Or.inl ⟨?_, rfl, ?_⟩, hothers, fun other hother => ?_, hone⟩
      · simpa [Consumer.holdsLock, hgoOn] using hlocked
      · cases hlock : call.holdsLock with
        | true => exact Or.inr ((h.locked p).mp (hholds.trans hlock))
        | false =>
          have hsucceeds : succeeds = true := by
            rw [advanceSeal_of_not_holdsLock hlock] at hnext
            cases succeeds <;> simp at hnext ⊢
          exact Or.inl (by simpa [hlock, hsucceeds] using hturn)
      · obtain rfl := Option.some.inj ((hgoOn call').symm.trans hother)
        exact hchecked
    · refine h.of_identityStep (p := p) (c := after result)
        ⟨rfl, Or.inr ⟨?_, rfl⟩, hothers, ?_, hone⟩
      · simp [Consumer.holdsLock, hafter]
      · simp [hafter]

lemma IdentityInv.work (h : IdentityInv s) (p : ℕ) (succeeds : Bool) :
    IdentityInv (work R machine s p succeeds) := by
  unfold Inbox.work
  split
  next => exact h
  next hconsumer =>
    exact h.become (by simp [Consumer.holdsLock, hconsumer, Consumer.call]) rfl
  next hconsumer =>
    have hbefore : (s.consumers p).holdsLock = false := by
      simp [Consumer.holdsLock, hconsumer, Consumer.call]
    split
    · exact h.become hbefore rfl
    · exact h.become hbefore rfl
  next item rest hconsumer =>
    have hbefore : (s.consumers p).holdsLock = false := by
      simp [Consumer.holdsLock, hconsumer, Consumer.call]
    split
    · split
      · exact h.become hbefore rfl
      next call hopen =>
        obtain ⟨-, hphase⟩ := openPayload_spec hopen
        exact h.become hbefore (by simp [Consumer.holdsLock, Consumer.call, SealCall.holdsLock, hphase])
    · have hidle : IdentityInv (s.become p (.ingesting rest)) := h.become hbefore rfl
      dsimp only
      split
      · unfold InboxSite.retire
        split
        · exact hidle
        · exact ⟨hidle.locked, hidle.checked, hidle.one⟩
      · exact hidle
  next hconsumer => exact h.sealWork (by rw [hconsumer]; rfl) (fun _ => rfl) fun _ => rfl
  next hconsumer => exact h.sealWork (by rw [hconsumer]; rfl) (fun _ => rfl) fun _ => rfl

theorem IdentityInv.step (h : IdentityInv s) (a : StageAction H) :
    IdentityInv (stageStep R machine s a) := by
  cases a with
  | reclaim reclaimed =>
    have hkept : (s.stage.reclaim reclaimed).shards ⊆ s.stage.shards := by
      intro shard hshard
      exact (List.mem_filter.mp hshard).1
    exact ⟨h.locked, fun p call hcall => (h.checked p call hcall).mono hkept, h.one.mono hkept⟩
  | inbox action =>
    dsimp only [stageStep]
    cases action with
    | publish name bytes => exact ⟨h.locked, h.checked, h.one⟩
    | ingest p =>
      dsimp only [inboxStep]
      split
      next hidle => exact h.become (by simp [Consumer.holdsLock, hidle, Consumer.call]) rfl
      · exact h
    | deliver p name payload fingerprint accountKey =>
      dsimp only [inboxStep]
      split
      next hidle _ =>
        split
        · exact h.become (by simp [Consumer.holdsLock, hidle, Consumer.call]) rfl
        · exact h
      · exact h
    | work p succeeds => exact h.work p succeeds
    | kill p =>
      exact h.of_identityStep (p := p) (c := .idle) ⟨rfl, Or.inr ⟨rfl, rfl⟩, Or.inl rfl,
        by simp [Consumer.call], h.one⟩

lemma identityInv_empty : IdentityInv (InboxSite.empty : InboxSite H) where
  locked := by simp [InboxSite.empty, Consumer.holdsLock, Consumer.call]
  checked := by simp [InboxSite.empty, Consumer.call]
  one := by simp [OneIdentity, InboxSite.empty, Stage.empty]

end Step

section Runs

/-- After any run of seals and reclaims, a call whose payload lacks an identity field is not
refused; one that has all three is refused where a record contradicts it, and not refused where none
does and every record of its install id names a browser. The identified records agree. -/
theorem install_identity_kept (R : Reader H) (machine : Text) (as : List (StageAction H)) :
    let s := StepRun.exec (stageStep R machine) InboxSite.empty as
    (∀ call : SealCall H, call.payload.installId = none ∨ call.payload.browser = none ∨
      call.payload.profileLabel = none → ¬ refusesIdentity R machine s.stage call) ∧
    (∀ (call : SealCall H) (installId browser profileLabel : Text),
      call.payload.installId = some installId → call.payload.browser = some browser →
      call.payload.profileLabel = some profileLabel →
      ((∃ shard ∈ s.stage.shards, Contradicts installId browser profileLabel shard) →
        refusesIdentity R machine s.stage call) ∧
      ((∀ shard ∈ s.stage.shards, shard.isListed = true →
          shard.record.installId = some installId → shard.record.browser ≠ none) →
        refusesIdentity R machine s.stage call →
        ∃ shard ∈ s.stage.shards, Contradicts installId browser profileLabel shard)) ∧
    OneIdentity s.stage := by
  intro s
  have hinv : IdentityInv s := StepRun.invariant_all (fun _ a hs => hs.step a) identityInv_empty as
  refine ⟨fun call habsent hrefused => ?_, fun call installId browser label hinstall hbrowser hlabel =>
    ⟨fun hcontradicts => ?_, fun hnamed hrefused => ?_⟩, hinv.one⟩
  · rw [refusesIdentity_iff, identityCollides_iff] at hrefused
    obtain ⟨installId, browser, label, hinstall, hbrowser, hlabel, -⟩ := hrefused
    rcases habsent with habsent | habsent | habsent
    · exact Option.some_ne_none _ (hinstall.symm.trans habsent)
    · exact Option.some_ne_none _ (hbrowser.symm.trans habsent)
    · exact Option.some_ne_none _ (hlabel.symm.trans habsent)
  · obtain ⟨shard, hshard, hcontradicts⟩ := hcontradicts
    rw [refusesIdentity_iff]
    simp only [identityCollides, hinstall, hbrowser, hlabel, installIdentityConflicts_iff]
    exact ⟨shard, hshard, Or.inl hcontradicts⟩
  · rw [refusesIdentity_iff] at hrefused
    simp only [identityCollides, hinstall, hbrowser, hlabel, installIdentityConflicts_iff]
      at hrefused
    obtain ⟨shard, hshard, hcontradicts | ⟨hlisted, hsame, hnone⟩⟩ := hrefused
    · exact ⟨shard, hshard, hcontradicts⟩
    · exact absurd hnone (hnamed shard hshard hlisted hsame)

/-- Reads one byte string as a bundle of a named profile and every other one as a bundle of the same
install from another browser that names no profile. -/
def twoBrowserReader : Reader Sha256.verbatim where
  read bytes := .legacy <|
    if bytes = [1] then
      ⟨some ['p'], some ['s'], some (some ⟨[], 0⟩), false, some ['i'], some "chrome".toList,
        some "Work".toList, none⟩
    else
      ⟨some ['p'], some ['t'], some (some ⟨[], 0⟩), false, some ['i'], some "firefox".toList,
        none, none⟩
  lossyText _ := []
  fromBase64 _ := none
  toBase64 _ := []
  hexPrefix _ _ := []

def deliverWhole (payload : Bytes) : List (StageAction Sha256.verbatim) :=
  [.inbox (.deliver 0 [] payload none none), .inbox (.work 0 true), .inbox (.work 0 true),
    .inbox (.work 0 true), .inbox (.work 0 true)]

/-- The second bundle names another browser than the sealed record of its install, is not refused
for want of a label, and leaves the stage with two browsers for one install id. -/
theorem install_identity_unlabelled_bundle :
    let s := StepRun.exec (stageStep twoBrowserReader []) InboxSite.empty
      (deliverWhole [1] ++ deliverWhole [2])
    s.stage.shards.map (fun shard =>
        (shard.isListed, shard.record.installId, shard.record.browser)) =
      [(true, some ['i'], some "chrome".toList), (true, some ['i'], some "firefox".toList)] := by
  decide +kernel

end Runs

end ChatStasher.Inbox
