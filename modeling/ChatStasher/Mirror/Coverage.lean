import ChatStasher.Mirror.CopySpec

/-! When the record a round saves claims no more than the mirror holds. -/
namespace ChatStasher.Mirror

section Closure
variable {H : Sha256} {format : RepositoryFormat H} {mirror : MirrorFiles H.Digest}
  {c : Copying H.Digest} {mirrorOf : String} {opens : Bool} {now : ℕ} {state : MirrorState H.Digest}

lemma completedRecord_eq_some
    (h : completedRecord format mirrorOf mirror c opens now = some state) :
    c.tail = true ∧ c.queue = [] ∧ c.inFlight = [] ∧ c.stop = none ∧ state.mirrorOf = mirrorOf ∧
      state.closureComplete = (closureSnapshotIds format mirror opens).1 := by
  unfold completedRecord at h
  split at h
  next hdone =>
    obtain rfl := Option.some.inj h
    simp only [Bool.and_eq_true, List.isEmpty_iff, Option.isNone_iff_eq_none] at hdone
    obtain ⟨⟨⟨⟨htail, hqueue⟩, hflight⟩, hstop⟩, -⟩ := hdone
    exact ⟨htail, hqueue, hflight, hstop, rfl, rfl⟩
  · cases h

variable (format mirror opens) in
lemma closureSnapshotIds_cases : (closureSnapshotIds format mirror opens).1 = [] ∨
    (closureSnapshotIds format mirror opens).1 = namesIn mirror .snapshot ∧
      ∃ names, mirrorIndexedPackNames format mirror = some names ∧
        ∀ pack ∈ names, pack ∈ namesIn mirror .pack := by
  unfold closureSnapshotIds
  split
  · exact Or.inl rfl
  · split
    · exact Or.inl rfl
    next names hnames =>
      dsimp only
      split
      next habsent =>
        simp only [List.isEmpty_iff, List.filter_eq_nil_iff, decide_eq_true_eq, not_not] at habsent
        exact Or.inr ⟨rfl, names, hnames, habsent⟩
      · exact Or.inl rfl

lemma CopySound.intact (h : CopySound format mirror c) {state : MirrorState H.Digest}
    (hrecord : completedRecord format mirrorOf mirror c opens now = some state)
    {f : PlannedFile H.Digest} (hf : f ∈ c.planned) (hkind : f.kind ≠ .config)
    (hnamed : f.kind = .pack → ∃ index, Intact mirror .index index ∧ NamedBy format index f.id) :
    Intact mirror f.kind f.id := by
  obtain ⟨htail, hqueue, hflight, hstop, -⟩ := completedRecord_eq_some hrecord
  rcases h.files f hf hkind hstop with hintact | hleft | htorn
  · exact hintact
  · simp [Copying.remaining, hqueue, hflight, h.drained htail] at hleft
  · obtain ⟨hpack, hunnamed⟩ := h.torn f htorn
    obtain ⟨index, hindex, hnames⟩ := hnamed hpack
    exact absurd hnames (hunnamed index hindex)

lemma CopySound.covers (h : CopySound format mirror c)
    (hrecord : completedRecord format mirrorOf mirror c opens now = some state)
    (hnames : NamesListed format mirror c.planned) (hdamage : DamageListed format mirror c.planned)
    {snapshot : H.Digest} (hclaimed : snapshot ∈ state.closureComplete) :
    Covers format mirror snapshot := by
  obtain ⟨-, -, -, -, -, hclosure⟩ := completedRecord_eq_some hrecord
  rw [hclosure] at hclaimed
  rcases closureSnapshotIds_cases format mirror opens with
    hnone | ⟨hall, names, hread, hpacks⟩
  · rw [hnone] at hclaimed
    cases hclaimed
  · rw [hall] at hclaimed
    obtain ⟨f, hf, hkind, rfl⟩ := h.snapshots snapshot hclaimed
    have hsnapshot := h.intact hrecord hf (by simp [hkind]) (by simp [hkind])
    rw [hkind] at hsnapshot
    refine ⟨hsnapshot, fun pack hpack => ?_⟩
    have hindexed : ∃ index, Intact mirror .index index ∧ NamedBy format index pack := by
      rcases hnames f hf hkind pack hpack with ⟨g, hg, hgkind, hnamed⟩ | hheld
      · have hintact := h.intact hrecord hg (by simp [hgkind]) (by simp [hgkind])
        rw [hgkind] at hintact
        exact ⟨g.id, hintact, hnamed⟩
      · exact hheld
    refine ⟨hindexed, ?_⟩
    obtain ⟨index, hindex, hnamed⟩ := hindexed
    have hheld := hpacks pack (mem_mirrorIndexedPackNames hread hindex hnamed)
    rcases hdamage f hf hkind pack hpack hheld with hintact | ⟨g, hg, hgkind, rfl⟩
    · exact hintact
    · have hintact := h.intact hrecord hg (by simp [hgkind]) fun _ => ⟨index, hindex, hnamed⟩
      rwa [hgkind] at hintact

lemma CopySound.coheres (h : CopySound format mirror c)
    (hrecord : completedRecord format mirrorOf mirror c opens now = some state)
    (hsome : state.closureComplete ≠ [])
    (hcovers : ∀ snapshot ∈ state.closureComplete, Covers format mirror snapshot) :
    NamesListed format mirror c.planned ∧ DamageListed format mirror c.planned := by
  obtain ⟨-, -, -, -, -, hclosure⟩ := completedRecord_eq_some hrecord
  rcases closureSnapshotIds_cases format mirror opens with
    hnone | ⟨hall, -⟩
  · exact absurd (hclosure.trans hnone) hsome
  · have hlisted : ∀ f ∈ c.planned, f.kind = .snapshot → Covers format mirror f.id := by
      intro f hf hkind
      have hintact := h.intact hrecord hf (by simp [hkind]) (by simp [hkind])
      rw [hkind] at hintact
      exact hcovers f.id (by rw [hclosure, hall]; exact hintact.mem_namesIn)
    exact ⟨fun f hf hkind pack hpack => Or.inr ((hlisted f hf hkind).2 pack hpack).1,
      fun f hf hkind pack hpack _ => Or.inl ((hlisted f hf hkind).2 pack hpack).2⟩

end Closure

section Site
variable {H : Sha256} (format : RepositoryFormat H)

def RoundStage.planned {D : Type} : RoundStage D → List (PlannedFile D)
  | .listing _ planned => planned
  | .copying c => c.planned

def SnapshotsAmong (mirror : MirrorFiles H.Digest) (files : List (PlannedFile H.Digest)) : Prop :=
  ∀ id ∈ namesIn mirror .snapshot, ∃ f ∈ files, f.kind = .snapshot ∧ f.id = id

/-- What a round knows of the mirror, whatever happens on the destination. -/
def StageSound (mirror : MirrorFiles H.Digest) : RoundStage H.Digest → Prop
  | .listing kinds planned =>
    kinds <:+ listingOrder ∧ (.snapshot ∉ kinds → SnapshotsAmong mirror planned)
  | .copying c => CopySound format mirror c

def StageCoheres (mirror : MirrorFiles H.Digest) : RoundStage H.Digest → Prop
  | .listing kinds planned =>
    (.snapshot ∉ kinds → NamesListed format mirror planned) ∧
      (.pack ∉ kinds → DamageListed format mirror planned)
  | .copying c => NamesListed format mirror c.planned ∧ DamageListed format mirror c.planned

/-- Snapshots come from the destination and stay there. -/
structure SiteSound (s : MirrorSite H) : Prop where
  held : SnapshotsAmong s.mirror s.remote
  listed : ∀ stage ∈ s.round, ∀ f ∈ stage.planned, f.kind = .snapshot → f ∈ s.remote
  stage : ∀ stage ∈ s.round, StageSound format s.mirror stage

variable {format} {mirrorOf : String} {s : MirrorSite H}

lemma listing_suffix {kinds : List FileKind} (h : kinds <:+ listingOrder) :
    kinds = listingOrder ∨ kinds = [.key, .index, .snapshot, .pack] ∨
      kinds = [.index, .snapshot, .pack] ∨ kinds = [.snapshot, .pack] ∨ kinds = [.pack] ∨
        kinds = [] := by
  simpa [listingOrder] using (List.mem_tails _ _).mpr h

lemma mem_listKind {remote : List (PlannedFile H.Digest)} {kind : FileKind}
    {f : PlannedFile H.Digest} : f ∈ listKind remote kind ↔ f ∈ remote ∧ f.kind = kind := by
  simp [listKind]

lemma StageSound.list {kind : FileKind} {kinds : List FileKind}
    {planned : List (PlannedFile H.Digest)}
    (h : StageSound format s.mirror (.listing (kind :: kinds) planned))
    (hheld : SnapshotsAmong s.mirror s.remote) :
    StageSound format s.mirror (.listing kinds (planned ++ listKind s.remote kind)) := by
  refine ⟨(List.suffix_cons kind kinds).trans h.1, fun hnot id hid => ?_⟩
  by_cases hkind : kind = .snapshot
  · obtain ⟨f, hf, hsnapshot, rfl⟩ := hheld id hid
    exact ⟨f, List.mem_append_right _ (mem_listKind.mpr ⟨hf, hkind ▸ hsnapshot⟩), hsnapshot, rfl⟩
  · obtain ⟨f, hf, hsame⟩ := h.2 (by simp [Ne.symm hkind, hnot]) id hid
    exact ⟨f, List.mem_append_left _ hf, hsame⟩

@[simp] lemma Copying.claim_planned (c : Copying H.Digest) (roundEnd : Option StopCause) :
    (c.claim roundEnd).planned = c.planned := by
  unfold Copying.claim Copying.setStop
  split
  · rfl
  · split
    · rfl
    · split <;> rfl

@[simp] lemma Copying.nextPhase_planned (c : Copying H.Digest) :
    c.nextPhase.planned = c.planned := by
  unfold Copying.nextPhase
  split <;> rfl

lemma SnapshotsAmong.mono {mirror mirror' : MirrorFiles H.Digest}
    {files files' : List (PlannedFile H.Digest)} (h : SnapshotsAmong mirror files)
    (hnames : namesIn mirror' .snapshot ⊆ namesIn mirror .snapshot)
    (hfiles : ∀ f ∈ files, f.kind = .snapshot → f ∈ files') : SnapshotsAmong mirror' files' := by
  intro id hid
  obtain ⟨f, hf, hkind, rfl⟩ := h id (hnames hid)
  exact ⟨f, hfiles f hf hkind, hkind, rfl⟩

lemma SiteSound.remote (h : SiteSound format s) {remote : List (PlannedFile H.Digest)}
    (hkept : ∀ f ∈ s.remote, f.kind = .snapshot → f ∈ remote)
    (pushes : List (List (PlannedFile H.Digest))) :
    SiteSound format { s with remote := remote, pushes := pushes } where
  held := h.held.mono (List.Subset.refl _) hkept
  listed := fun stage hstage f hf hkind => hkept f (h.listed stage hstage f hf hkind) hkind
  stage := h.stage

lemma SiteSound.local (h : SiteSound format s) (hround : s.round = none)
    {mirror : MirrorFiles H.Digest}
    (hnames : namesIn mirror .snapshot ⊆ namesIn s.mirror .snapshot) :
    SiteSound format { s with mirror := mirror } where
  held := h.held.mono hnames fun f hf _ => hf
  listed := h.listed
  stage := by simp [hround]

lemma siteSound_of_stage {stage : RoundStage H.Digest} {mirror : MirrorFiles H.Digest} (hstage : StageSound format mirror stage)
    (hplanned : ∀ f ∈ stage.planned, f.kind = .snapshot → f ∈ s.remote)
    (hheld : SnapshotsAmong mirror s.remote) :
    SiteSound format { s with mirror := mirror, round := some stage } where
  held := hheld
  listed := fun stage' hstage' => by obtain rfl := Option.some.inj hstage'; exact hplanned
  stage := fun stage' hstage' => by obtain rfl := Option.some.inj hstage'; exact hstage

lemma SiteSound.ended (h : SiteSound format s) (saved : List (MirrorState H.Digest)) :
    SiteSound format { s with round := none, saved := saved } where
  held := h.held
  listed := by simp
  stage := by simp

lemma SiteSound.step (h : SiteSound format s) (a : MirrorAction H) :
    SiteSound format (mirrorStep format mirrorOf s a) := by
  cases a with
  | startRound =>
    rw [mirrorStep]
    split
    · exact h
    · exact siteSound_of_stage ⟨List.suffix_refl _, fun hnot => absurd (by decide) hnot⟩
        (by simp [RoundStage.planned]) h.held
  | list fails =>
    rw [mirrorStep]
    split
    next kind kinds planned hround =>
      split
      · exact h.ended _
      · have hstage := h.stage _ hround
        refine siteSound_of_stage (hstage.list h.held) (fun f hf hkind => ?_) h.held
        rcases List.mem_append.mp hf with hold | hnew
        · exact h.listed _ hround f hold hkind
        · exact (mem_listKind.mp hnew).1
    · exact h
  | startCopy remoteConfig free minFreeBytes =>
    rw [mirrorStep]
    split
    next planned hround =>
      have hstage := h.stage _ hround
      cases hcopy : startCopy s.mirror planned remoteConfig free minFreeBytes with
      | none => exact h.ended _
      | some c =>
        obtain ⟨hplanned, hsound⟩ :=
          startCopy_sound format hcopy (hstage.2 List.not_mem_nil)
        exact siteSound_of_stage hsound (fun f hf => h.listed _ hround f (hplanned ▸ hf)) h.held
    · exact h
  | claim roundEnd =>
    rw [mirrorStep]
    split
    next c hround =>
      have hstage : CopySound format s.mirror c := h.stage _ hround
      refine siteSound_of_stage (hstage.claim roundEnd) (fun f hf => h.listed _ hround f ?_) h.held
      simpa [RoundStage.planned] using hf
    · exact h
  | nextPhase =>
    rw [mirrorStep]
    split
    next c hround =>
      have hstage : CopySound format s.mirror c := h.stage _ hround
      refine siteSound_of_stage hstage.nextPhase (fun f hf => h.listed _ hround f ?_) h.held
      simpa [RoundStage.planned] using hf
    · exact h
  | copyOne i answer opens written =>
    rw [mirrorStep]
    split
    next c hround =>
      have hstage : CopySound format s.mirror c := h.stage _ hround
      have hcopied := copyOne_cases format s.mirror c i answer opens
        written
      have hsound := hstage.copiedOne hcopied
      have hlisted : ∀ f ∈ c.planned, f.kind = .snapshot → f ∈ s.remote := h.listed _ hround
      rw [← (hstage.writes hcopied).1] at hlisted
      exact siteSound_of_stage hsound hlisted
        (SnapshotsAmong.mono hsound.snapshots (List.Subset.refl _) hlisted)
    · exact h
  | close opens written now =>
    rw [mirrorStep]
    split
    · split
      · exact h.ended _
      · split
        · exact h
        · exact h.ended _
    · exact h
  | kill => exact h.ended _
  | startPush packs index snapshot => exact h.remote (fun f hf _ => hf) _
  | publish i =>
    rw [mirrorStep]
    split
    · refine h.remote (fun f hf _ => ?_) _
      unfold addRemote
      split
      · exact hf
      · exact List.mem_append_left _ hf
    · exact h
  | lose kind id =>
    rw [mirrorStep]
    split
    next hkind =>
      refine h.remote (fun f hf hsnapshot => List.mem_filter.mpr ⟨hf, ?_⟩) _
      rcases hkind with rfl | rfl <;> simp [hsnapshot]
    · exact h
  | damage kind id bytes =>
    rw [mirrorStep]
    split
    · exact h
    next hguard =>
      simp only [not_or, Option.not_isSome_iff_eq_none, Option.isNone_iff_eq_none] at hguard
      refine h.local hguard.1 fun id' hid' => ?_
      rcases mem_namesIn_put.mp hid' with hold | ⟨rfl, rfl⟩
      · exact hold
      · exact mem_namesIn.mpr hguard.2
  | remove kind id =>
    rw [mirrorStep]
    split
    · exact h
    next hguard =>
      refine h.local (by simpa using hguard) (List.Subset.trans ?_ (List.Subset.refl _))
      exact List.map_subset _ (((List.filter_sublist).filter _).subset)

lemma NamesListed.list {mirror : MirrorFiles H.Digest} {planned : List (PlannedFile H.Digest)}
    (h : NamesListed format mirror planned) {kind : FileKind} (hkind : kind ≠ .snapshot)
    (remote : List (PlannedFile H.Digest)) :
    NamesListed format mirror (planned ++ listKind remote kind) := by
  intro f hf hsnapshot pack hpack
  rcases List.mem_append.mp hf with hold | hnew
  · refine (h f hold hsnapshot pack hpack).imp_left ?_
    rintro ⟨g, hg, hnames⟩
    exact ⟨g, List.mem_append_left _ hg, hnames⟩
  · exact absurd ((mem_listKind.mp hnew).2.symm.trans hsnapshot) hkind

lemma SiteSound.coheres_step (h : SiteSound format s)
    (hcoheres : ∀ stage ∈ s.round, StageCoheres format s.mirror stage) {a : MirrorAction H}
    (hlist : ListingsCohere format s a) :
    ∀ stage ∈ (mirrorStep format mirrorOf s a).round,
      StageCoheres format (mirrorStep format mirrorOf s a).mirror stage := by
  have hnone : ∀ mirror : MirrorFiles H.Digest,
      ∀ stage ∈ (none : Option (RoundStage H.Digest)), StageCoheres format mirror stage := by simp
  have hone : ∀ {mirror : MirrorFiles H.Digest} {stage : RoundStage H.Digest},
      StageCoheres format mirror stage →
        ∀ stage' ∈ some stage, StageCoheres format mirror stage' :=
    fun hstage _ hsome => Option.some.inj hsome ▸ hstage
  cases a with
  | startRound =>
    rw [mirrorStep]
    split
    · exact hcoheres
    · exact hone ⟨fun hnot => absurd (by decide) hnot, fun hnot => absurd (by decide) hnot⟩
  | list fails =>
    rw [mirrorStep]
    split
    next kind kinds planned hround =>
      split
      · exact hnone _
      · refine hone ?_
        have hstage : StageCoheres format s.mirror (.listing (kind :: kinds) planned) :=
          hcoheres _ hround
        have hsound : StageSound format s.mirror (.listing (kind :: kinds) planned) :=
          h.stage _ hround
        simp only [ListingsCohere, hround] at hlist
        -- Only the last two listings say anything: the snapshots, then the packs.
        rcases listing_suffix hsound.1 with hkinds | hkinds | hkinds | hkinds | hkinds | hkinds <;>
          cases hkinds
        · exact ⟨fun hnot => absurd (by decide) hnot, fun hnot => absurd (by decide) hnot⟩
        · exact ⟨fun hnot => absurd (by decide) hnot, fun hnot => absurd (by decide) hnot⟩
        · exact ⟨fun hnot => absurd (by decide) hnot, fun hnot => absurd (by decide) hnot⟩
        · exact ⟨fun _ => hlist, fun hnot => absurd (by decide) hnot⟩
        · exact ⟨fun _ => (hstage.1 (by decide)).list (by decide) _, fun _ => hlist⟩
    · exact hcoheres
  | startCopy remoteConfig free minFreeBytes =>
    rw [mirrorStep]
    split
    next planned hround =>
      have hstage : StageCoheres format s.mirror (.listing [] planned) := hcoheres _ hround
      have hsound : StageSound format s.mirror (.listing [] planned) := h.stage _ hround
      cases hcopy : startCopy s.mirror planned remoteConfig free minFreeBytes with
      | none => exact hnone _
      | some c =>
        have hplanned := (startCopy_sound format hcopy (hsound.2 List.not_mem_nil)).1
        refine hone ?_
        rw [StageCoheres, hplanned]
        exact ⟨hstage.1 List.not_mem_nil, hstage.2 List.not_mem_nil⟩
    · exact hcoheres
  | claim roundEnd =>
    rw [mirrorStep]
    split
    next c hround =>
      refine hone ?_
      rw [StageCoheres, Copying.claim_planned]
      exact hcoheres _ hround
    · exact hcoheres
  | nextPhase =>
    rw [mirrorStep]
    split
    next c hround =>
      refine hone ?_
      rw [StageCoheres, Copying.nextPhase_planned]
      exact hcoheres _ hround
    · exact hcoheres
  | copyOne i answer opens written =>
    rw [mirrorStep]
    split
    next c hround =>
      have hstage : NamesListed format s.mirror c.planned ∧ DamageListed format s.mirror c.planned :=
        hcoheres _ hround
      have hsound : CopySound format s.mirror c := h.stage _ hround
      have hcopied := copyOne_cases format s.mirror c i answer opens
        written
      generalize copyOne format s.mirror c i answer opens written = next at hcopied ⊢
      obtain ⟨hplanned, hmirror⟩ := hsound.writes hcopied
      obtain ⟨mirror, c'⟩ := next
      dsimp only at hplanned hmirror ⊢
      refine hone ?_
      rw [StageCoheres, hplanned]
      rcases hmirror with hmirror | ⟨f, hf, bytes, hbytes, hmirror⟩
      · rw [hmirror]
        exact hstage
      · rw [hmirror, namesListed_put hf hbytes, damageListed_put hf]
        exact hstage
    · exact hcoheres
  | close opens written now =>
    rw [mirrorStep]
    split
    · split
      · exact hnone _
      · split
        · exact hcoheres
        · exact hnone _
    · exact hcoheres
  | kill => exact hnone _
  | startPush packs index snapshot => exact hcoheres
  | publish i =>
    rw [mirrorStep]
    split <;> exact hcoheres
  | lose kind id =>
    rw [mirrorStep]
    split <;> exact hcoheres
  | damage kind id bytes =>
    rw [mirrorStep]
    split
    · exact hcoheres
    next hguard =>
      simp only [not_or, Option.not_isSome_iff_eq_none] at hguard
      rw [hguard.1]
      exact hnone _
  | remove kind id =>
    rw [mirrorStep]
    split
    · exact hcoheres
    next hguard =>
      rw [Option.not_isSome_iff_eq_none] at hguard
      rw [hguard]
      exact hnone _

lemma siteSound_fresh (remote : List (PlannedFile H.Digest)) :
    SiteSound format (MirrorSite.fresh remote) where
  held := by simp [SnapshotsAmong, MirrorSite.fresh, namesIn]
  listed := by simp [MirrorSite.fresh]
  stage := by simp [MirrorSite.fresh]

lemma mirrorStep_saved (s : MirrorSite H) (a : MirrorAction H) :
    (mirrorStep format mirrorOf s a).saved = s.saved ∨ ∃ c opens now state,
      s.round = some (.copying c) ∧ a = .close opens true now ∧
        completedRecord format mirrorOf s.mirror c opens now = some state ∧
        mirrorStep format mirrorOf s a = { s with round := none, saved := s.saved ++ [state] } := by
  cases a with
  | close opens written now =>
    simp only [mirrorStep]
    split
    next c hround =>
      split
      · exact Or.inl rfl
      · split
        · exact Or.inl rfl
        next state hrecord =>
          cases written with
          | false => exact Or.inl rfl
          | true => exact Or.inr ⟨c, opens, now, state, hround, rfl, hrecord, rfl⟩
    · exact Or.inl rfl
  | _ =>
    left
    simp only [mirrorStep]
    repeat' split
    all_goals rfl

end Site

section Records
variable {H : Sha256}

/-- The last save names only what the mirror holds exactly when the listings cohere; a round that
does not reach it leaves the records as they were. -/
theorem mirror_record_covers_iff (format : RepositoryFormat H) (mirrorOf : String)
    (remote : List (PlannedFile H.Digest)) (actions : List (MirrorAction H)) :
    let start : MirrorSite H := MirrorSite.fresh remote
    let s := StepRun.exec (mirrorStep format mirrorOf) start actions
    (∀ a, (mirrorStep format mirrorOf s a).saved = s.saved ∨ ∃ c opens now state,
      s.round = some (.copying c) ∧ a = .close opens true now ∧
        completedRecord format mirrorOf s.mirror c opens now = some state ∧
        mirrorStep format mirrorOf s a = { s with round := none, saved := s.saved ++ [state] }) ∧
    (∀ c opens now state, s.round = some (.copying c) →
      completedRecord format mirrorOf s.mirror c opens now = some state →
        state.closureComplete ≠ [] →
          ((∀ snapshot, snapshotCovered (.present state) mirrorOf snapshot = true →
            Covers format s.mirror snapshot) ↔
              NamesListed format s.mirror c.planned ∧ DamageListed format s.mirror c.planned)) ∧
    (StepRun.Along (mirrorStep format mirrorOf) (ListingsCohere format) start actions →
      ∀ c opens now state, s.round = some (.copying c) →
        completedRecord format mirrorOf s.mirror c opens now = some state →
          ∀ snapshot, snapshotCovered (.present state) mirrorOf snapshot = true →
            Covers format s.mirror snapshot) := by
  intro start s
  have hsite : SiteSound format s :=
    StepRun.invariant_all (fun _ a h => h.step a) (siteSound_fresh remote) actions
  have hclaimed : ∀ {c opens now state snapshot},
      completedRecord format mirrorOf s.mirror c opens now = some state →
        (snapshotCovered (.present state) mirrorOf snapshot = true ↔
          snapshot ∈ state.closureComplete) := by
    intro c opens now state snapshot hrecord
    obtain ⟨-, -, -, -, hmirrorOf, -⟩ := completedRecord_eq_some hrecord
    simp [snapshotCovered, hmirrorOf]
  refine ⟨fun a => mirrorStep_saved s a, fun c opens now state hround hrecord hsome => ?_,
    fun hlistings c opens now state hround hrecord snapshot hcovered => ?_⟩
  · have hsound : CopySound format s.mirror c := hsite.stage _ hround
    constructor
    · exact fun hcovers => hsound.coheres hrecord hsome fun snapshot hin =>
        hcovers snapshot ((hclaimed hrecord).mpr hin)
    · exact fun ⟨hnames, hdamage⟩ snapshot hcovered =>
        hsound.covers hrecord hnames hdamage ((hclaimed hrecord).mp hcovered)
  · have hstep : ∀ (s : MirrorSite H) (a : MirrorAction H),
        (SiteSound format s ∧ ∀ stage ∈ s.round, StageCoheres format s.mirror stage) →
          ListingsCohere format s a →
            SiteSound format (mirrorStep format mirrorOf s a) ∧
              ∀ stage ∈ (mirrorStep format mirrorOf s a).round,
                StageCoheres format (mirrorStep format mirrorOf s a).mirror stage :=
      fun _ a h hlist => ⟨h.1.step a, h.1.coheres_step h.2 hlist⟩
    have hcoheres := (StepRun.invariant hstep
      ⟨siteSound_fresh remote, by simp [MirrorSite.fresh]⟩ hlistings).2 _ hround
    have hsound : CopySound format s.mirror c := hsite.stage _ hround
    exact hsound.covers hrecord hcoheres.1 hcoheres.2 ((hclaimed hrecord).mp hcovered)

end Records

/-- Index files and snapshots list packs of one-byte names after a first byte. -/
def byteFormat : RepositoryFormat Sha256.verbatim where
  readIndex bytes := some (bytes.tail.map fun b => [b])
  packsOf snapshot := List.map (fun b => [b]) (List.tail snapshot)
  headerReads _ _ := false

/-- A push that publishes its index file and its snapshot between the two listings; and a pack that
the destination has lost while the mirror holds it damaged. -/
theorem mirror_record_overclaims :
    let start : MirrorSite .verbatim := MirrorSite.fresh [⟨.config, [0], 1⟩, ⟨.key, [5], 1⟩]
    let push : MirrorAction .verbatim := .startPush [([9], 1)] ([1, 9], 2) ([2, 9], 2)
    let list : MirrorAction .verbatim := .list false
    let copyMeta : List (MirrorAction .verbatim) := [.startCopy (some [0]) (some 100) 0, .claim none,
      .claim none, .copyOne 0 (some [0]) true true, .copyOne 0 (some [5]) true true]
    let copyTail : List (MirrorAction .verbatim) := [.nextPhase, .claim none, .claim none,
      .copyOne 0 (some [2, 9]) true true, .copyOne 0 (some [9]) true true, .close true true 0]
    let raced := [push, .startRound, list, list, list, .publish 0, .publish 0, .publish 0, list, list]
      ++ copyMeta ++ copyTail
    let damaged := [push, .publish 0, .publish 0, .publish 0, .startRound, list, list, list, list, list]
      ++ copyMeta ++ [.claim none, .copyOne 0 (some [1, 9]) true true] ++ copyTail
      ++ [.damage .pack [9] [7], .lose .pack [9], .startRound, list, list, list, list, list,
        .startCopy (some [0]) (some 100) 0, .nextPhase, .close true true 0]
    ∀ actions ∈ [raced, damaged],
      let s := StepRun.exec (mirrorStep byteFormat "cos") start actions
      (s.saved.getLast?.any fun state => snapshotCovered (.present state) "cos" [2, 9]) = true ∧
        ¬ Covers byteFormat s.mirror [2, 9] := by
  intro start push list copyMeta copyTail raced damaged actions hactions s
  rcases List.mem_pair.mp hactions with rfl | rfl
  · refine ⟨by decide +kernel, fun hcovers => ?_⟩
    obtain ⟨⟨index, hindex, -⟩, -⟩ := hcovers.2 [9] (List.mem_singleton_self _)
    have hnone : namesIn s.mirror .index = [] := by decide +kernel
    have hin := hindex.mem_namesIn
    rw [hnone] at hin
    cases hin
  · refine ⟨by decide +kernel, fun hcovers => ?_⟩
    obtain ⟨bytes, hbytes, hdigest⟩ := (hcovers.2 [9] (List.mem_singleton_self _)).2
    have hheld : fileAt s.mirror .pack [9] = some [7] := by decide +kernel
    rw [hheld] at hbytes
    obtain rfl := Option.some.inj hbytes
    cases hdigest

end ChatStasher.Mirror
