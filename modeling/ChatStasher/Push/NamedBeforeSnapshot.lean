import ChatStasher.Library.StepRun
import ChatStasher.Library.Tasks
import ChatStasher.Push.Pushes

/-! Adopted packs are named by index files before a snapshot can depend on them. -/
namespace ChatStasher

def Named (index : List IndexFile) (id : Ident) : Prop := ∃ f ∈ index, id ∈ f.names

def Complete (packs : List PackFile) (id : Ident) : Prop :=
  ∃ p, packs.find? (fun q => q.id = id) = some p ∧ p.state = .complete

def Adoptable : Except PackError Unit → Prop
  | .ok _ | .error (.unreadableHeader _) => True
  | .error (.unusable _) => False

section Grow
variable {packs : List PackFile} {index index' : List IndexFile} {id : Ident}

lemma Named.mono (h : Named index id) (hsub : index ⊆ index') : Named index' id := by
  obtain ⟨f, hf, hid⟩ := h
  exact ⟨f, hsub hf, hid⟩

lemma Complete.putPack (h : Complete packs id) (p : PackFile) : Complete (putPack packs p) id := by
  obtain ⟨old, hold, hstate⟩ := h
  unfold ChatStasher.putPack
  cases hfind : packs.find? fun q => q.id = p.id with
  | none =>
    refine ⟨old, ?_, hstate⟩
    dsimp only
    rw [List.find?_append, hold, Option.some_or]
  | some q =>
    dsimp only
    cases hq : q.state with
    | complete => exact ⟨old, hold, hstate⟩
    | damaged why => exact ⟨old, hold, hstate⟩
    | torn why =>
      -- The replaced pack is torn, so it is another one.
      have hne : p.id ≠ id := by
        rintro rfl
        rw [hfind] at hold
        rw [Option.some.inj hold, hstate] at hq
        cases hq
      refine ⟨old, ?_, hstate⟩
      dsimp only
      have hsame : ((fun q : PackFile => decide (q.id = id)) ∘
          fun q => if q.id = p.id then p else q) = fun q => decide (q.id = id) := by
        funext q
        by_cases hq' : q.id = p.id
        · simp [hq', hne]
        · simp [hq']
      have hid : old.id = id := by
        have hfound := List.find?_some hold
        exact of_decide_eq_true hfound
      rw [List.find?_map, hsame, hold, Option.map_some, if_neg fun h => hne (h.symm.trans hid)]

lemma Complete.foldl (h : Complete packs id) (new : List PackFile) :
    Complete (new.foldl ChatStasher.putPack packs) id := by
  induction new generalizing packs with
  | nil => exact h
  | cons p new ih => exact ih (h.putPack p)

lemma complete_of_verifyPack {fault : Option PackError} (h : verifyPack packs id fault = .ok ()) :
    Complete packs id := by
  unfold verifyPack at h
  split at h
  next => cases h
  next => cases h
  next p hp =>
    split at h
    next hstate => exact ⟨p, hp, hstate⟩
    next => cases h
    next => cases h

end Grow

/-- Every candidate of the open has verified or was torn debris. -/
structure Checked (push : PackPush) : Prop where
  all : push.verdicts.map Prod.fst = push.unindexed.map Prod.fst
  adoptable : ∀ v ∈ push.verdicts, Adoptable v.2

/-- Before its index is built an open has adopted nothing. -/
structure Opening (push : PackPush) : Prop where
  verified : push.verified = []
  inMemory : push.inMemory = []

/-- An open that verifies candidates, `todo` being those to come. -/
structure Verifying (packs : List PackFile) (index : List IndexFile) (push : PackPush)
    (initial : Survey) (verified : List Ident) (todo : List (Ident × ℕ)) : Prop where
  opening : Opening push
  complete : ∀ id ∈ verified, Complete packs id
  named : ∀ id ∈ initial.indexedPacks, Named index id
  all : push.verdicts.map Prod.fst ++ todo.map Prod.fst = push.unindexed.map Prod.fst
  adoptable : ∀ v ∈ push.verdicts, Adoptable v.2

/-- A push may publish a snapshot over adopted packs. -/
structure Covered (index : List IndexFile) (push : PackPush) : Prop where
  named : ∀ id ∈ push.verified, Named index id
  persisted : ∃ outcome, push.persisted = some outcome ∧ outcome.coversDependency = true

/-- What a push has found out, by where it stands. -/
def PhaseOk (packs : List PackFile) (index : List IndexFile) (push : PackPush) : PushPhase → Prop
  | .listing | .readingIndex _ => Opening push ∧ push.verdicts = []
  | .indexingPlain _ => Opening push
  | .verifying initial todo verified => Verifying packs index push initial verified todo
  | .relisting initial verified | .rereadingIndex initial verified _ | .indexing initial verified =>
    Verifying packs index push initial verified []
  | .appending _ survivors => ∀ id ∈ push.verified, Named index id ∨ id ∈ survivors
  | .publishing => push.verified ≠ [] → Covered index push
  | .backingUp | .persistListing _ | .persistReading _ _ | .finished _ => True

structure PushOk (packs : List PackFile) (index : List IndexFile) (push : PackPush) : Prop where
  complete : ∀ id ∈ push.verified, Complete packs id
  inMemory : ∀ id ∈ push.inMemory, Named index id ∨ id ∈ push.verified
  checked : push.verified ≠ [] → Checked push
  phase : PhaseOk packs index push push.phase

/-- A snapshot was published when index files named all that its push could reuse. -/
structure SnapshotOk (snap : PublishedSnapshot) : Prop where
  inMemory : ∀ id ∈ snap.push.inMemory, Named snap.index id
  checked : snap.push.verified ≠ [] → Checked snap.push
  covered : snap.push.verified ≠ [] → Covered snap.index snap.push

lemma named_of_mem_packs {index : List IndexFile} {id : Ident}
    (h : id ∈ index.flatMap IndexFile.packs) : Named index id := by
  obtain ⟨f, hf, hid⟩ := List.mem_flatMap.mp h
  exact ⟨f, hf, List.mem_append_left _ hid⟩

section Turns
variable {packs packs' : List PackFile} {index index' : List IndexFile} {push : PackPush}

lemma Verifying.mono {initial : Survey} {verified : List Ident} {todo : List (Ident × ℕ)}
    (h : Verifying packs index push initial verified todo)
    (hpacks : ∀ id, Complete packs id → Complete packs' id) (hindex : index ⊆ index') :
    Verifying packs' index' push initial verified todo :=
  { h with
    complete := fun id hid => hpacks id (h.complete id hid)
    named := fun id hid => (h.named id hid).mono hindex }

lemma Covered.mono (h : Covered index push) (hindex : index ⊆ index') : Covered index' push :=
  { h with named := fun id hid => (h.named id hid).mono hindex }

lemma PushOk.mono (h : PushOk packs index push) (hpacks : ∀ id, Complete packs id → Complete packs' id)
    (hindex : index ⊆ index') : PushOk packs' index' push where
  complete id hid := hpacks id (h.complete id hid)
  inMemory id hid := (h.inMemory id hid).imp_left (·.mono hindex)
  checked := h.checked
  phase := by
    have hphase := h.phase
    cases hcase : push.phase <;> rw [hcase] at hphase
    case verifying => exact hphase.mono hpacks hindex
    case relisting => exact hphase.mono hpacks hindex
    case rereadingIndex => exact hphase.mono hpacks hindex
    case indexing => exact hphase.mono hpacks hindex
    case appending => exact fun id hid => (hphase id hid).imp_left (·.mono hindex)
    case publishing => exact fun hne => (hphase hne).mono hindex
    all_goals exact hphase

lemma PushOk.opening (h : Opening push) (hphase : PhaseOk packs index push push.phase) :
    PushOk packs index push where
  complete id hid := by rw [h.verified] at hid; cases hid
  inMemory id hid := by rw [h.inMemory] at hid; cases hid
  checked hne := absurd h.verified hne
  phase := hphase

lemma Verifying.withPhase {initial : Survey} {verified : List Ident} {todo : List (Ident × ℕ)}
    (h : Verifying packs index push initial verified todo) (phase : PushPhase) :
    Verifying packs index { push with phase } initial verified todo :=
  { h with opening := ⟨h.opening.verified, h.opening.inMemory⟩ }

lemma PushOk.moveOn (h : PushOk packs index push) {phase : PushPhase}
    (hphase : PhaseOk packs index push phase) : PushOk packs index { push with phase } where
  complete := h.complete
  inMemory := h.inMemory
  checked hne := ⟨(h.checked hne).all, (h.checked hne).adoptable⟩
  phase := by
    cases phase
    case listing => exact ⟨⟨hphase.1.verified, hphase.1.inMemory⟩, hphase.2⟩
    case readingIndex => exact ⟨⟨hphase.1.verified, hphase.1.inMemory⟩, hphase.2⟩
    case indexingPlain => exact ⟨hphase.verified, hphase.inMemory⟩
    case verifying => exact hphase.withPhase _
    case relisting => exact hphase.withPhase _
    case rereadingIndex => exact hphase.withPhase _
    case indexing => exact hphase.withPhase _
    case publishing => exact fun hne => ⟨(hphase hne).named, (hphase hne).persisted⟩
    all_goals exact hphase

structure TurnOk (s : PackRepo) (r : PackRepo × PackPush) : Prop where
  push : PushOk r.1.packs r.1.index r.2
  packs : ∀ id, Complete s.packs id → Complete r.1.packs id
  index : s.index ⊆ r.1.index
  pushes : r.1.pushes = s.pushes
  snapshots : ∀ snap ∈ r.1.snapshots, snap ∈ s.snapshots ∨ SnapshotOk snap

variable {s : PackRepo}

lemma TurnOk.stay {push' : PackPush} (h : PushOk s.packs s.index push') : TurnOk s (s, push') :=
  ⟨h, fun _ => id, List.Subset.refl _, rfl, fun _ => Or.inl⟩

lemma TurnOk.fail (h : PushOk s.packs s.index push) (error : Option String) :
    TurnOk s (s, push.finish error) := .stay (h.moveOn trivial)

lemma PushOk.settle (h : PushOk packs index push) (gate : Bool) (outcome : PersistOutcome)
    (hnamed : outcome.coversDependency = true → ∀ id ∈ push.verified, Named index id) :
    PushOk packs index (push.settle gate outcome) where
  complete := h.complete
  inMemory := h.inMemory
  checked hne := ⟨(h.checked hne).all, (h.checked hne).adoptable⟩
  phase := by
    unfold PackPush.settle
    cases gate with
    | false => trivial
    | true =>
      cases outcome with
      | notWritten why => trivial
      | named n => exact fun _ => ⟨hnamed rfl, _, rfl, rfl⟩
      | alreadyNamed n => exact fun _ => ⟨hnamed rfl, _, rfl, rfl⟩

lemma PushOk.snapshot (h : PushOk s.packs s.index push)
    (hcovered : push.verified ≠ [] → Covered s.index push) : SnapshotOk ⟨push, s.index⟩ where
  inMemory id hid := by
    rcases h.inMemory id hid with hnamed | hverified
    · exact hnamed
    · exact (hcovered (List.ne_nil_of_mem hverified)).named id hverified
  checked := h.checked
  covered := hcovered

lemma verifying_turn {initial : Survey} {verified : List Ident} {id : Ident} {bytes : ℕ}
    {todo : List (Ident × ℕ)} (hphase : push.phase = .verifying initial ((id, bytes) :: todo) verified)
    (h : Verifying s.packs s.index push initial verified ((id, bytes) :: todo)) (reply : PushReply) :
    TurnOk s (pushTurn s push reply) := by
  have hall : ∀ check : Except PackError Unit, (push.verdicts ++ [(id, check)]).map Prod.fst ++
      todo.map Prod.fst = push.unindexed.map Prod.fst := by
    intro check
    rw [← h.all, List.map_append, List.append_assoc]
    rfl
  have hadoptable : ∀ check : Except PackError Unit, Adoptable check →
      ∀ v ∈ push.verdicts ++ [(id, check)], Adoptable v.2 := by
    intro check hcheck v hv
    rcases List.mem_append.mp hv with hv | hv
    · exact h.adoptable v hv
    · exact List.mem_singleton.mp hv ▸ hcheck
  unfold pushTurn
  rw [hphase]
  dsimp only
  cases hcheck : verifyPack s.packs id reply.fault with
  | ok u =>
    refine .stay (.opening ⟨h.opening.verified, h.opening.inMemory⟩ ?_)
    refine ⟨⟨h.opening.verified, h.opening.inMemory⟩, fun x hx => ?_, h.named, hall _,
      hadoptable _ trivial⟩
    rcases List.mem_append.mp hx with hx | hx
    · exact h.complete x hx
    · exact List.mem_singleton.mp hx ▸ complete_of_verifyPack hcheck
  | error e =>
    cases e with
    | unreadableHeader why =>
      exact .stay (.opening ⟨h.opening.verified, h.opening.inMemory⟩
        ⟨⟨h.opening.verified, h.opening.inMemory⟩, h.complete, h.named, hall _,
          hadoptable _ trivial⟩)
    | unusable why =>
      exact .stay (.opening ⟨h.opening.verified, h.opening.inMemory⟩
        ⟨h.opening.verified, h.opening.inMemory⟩)

theorem pushTurn_ok (h : PushOk s.packs s.index push) (reply : PushReply) :
    TurnOk s (pushTurn s push reply) := by
  have hphase := h.phase
  cases hcase : push.phase <;> rw [hcase] at hphase
  case verifying initial todo verified =>
    cases todo with
    | cons c todo => exact verifying_turn hcase hphase reply
    | nil =>
      unfold pushTurn
      rw [hcase]
      exact .stay (h.moveOn hphase)
  case listing =>
    unfold pushTurn
    rw [hcase]
    cases reply.error with
    | some e => exact .fail h _
    | none => exact .stay (h.moveOn hphase)
  case readingIndex listed =>
    unfold pushTurn
    rw [hcase]
    cases reply.error with
    | some e => exact .fail h _
    | none =>
      have hopening : Opening { push with
          unindexed := (surveyInventory listed s.index).report.unindexed } :=
        ⟨hphase.1.verified, hphase.1.inMemory⟩
      dsimp only
      split
      next =>
        exact .stay (.opening ⟨hopening.verified, hopening.inMemory⟩
          ⟨hopening.verified, hopening.inMemory⟩)
      next =>
        split
        next =>
          exact .stay (.opening ⟨hopening.verified, hopening.inMemory⟩
            ⟨hopening.verified, hopening.inMemory⟩)
        next =>
          refine .stay (.opening ⟨hopening.verified, hopening.inMemory⟩
            ⟨⟨hopening.verified, hopening.inMemory⟩, (fun _ hid => by cases hid), fun id hid => ?_,
              ?_, fun v hv => ?_⟩)
          · exact named_of_mem_packs hid
          · rw [hphase.2]
            rfl
          · rw [hphase.2] at hv
            cases hv
  case indexingPlain adoption =>
    unfold pushTurn
    rw [hcase]
    cases reply.error with
    | some e => exact .fail h _
    | none =>
      exact .stay {
        complete := h.complete
        inMemory := fun id hid => Or.inl (named_of_mem_packs hid)
        checked := fun hne => absurd hphase.verified hne
        phase := trivial }
  case relisting initial verified =>
    unfold pushTurn
    rw [hcase]
    cases reply.error with
    | some e => exact .fail h _
    | none => exact .stay (h.moveOn hphase)
  case rereadingIndex initial verified listed =>
    unfold pushTurn
    rw [hcase]
    cases reply.error with
    | some e => exact .fail h _
    | none =>
      dsimp only
      split
      next =>
        exact .stay (.opening ⟨hphase.opening.verified, hphase.opening.inMemory⟩
          ⟨hphase.opening.verified, hphase.opening.inMemory⟩)
      next => exact .stay (h.moveOn hphase)
  case indexing initial verified =>
    unfold pushTurn
    rw [hcase]
    cases reply.error with
    | some e => exact .fail h _
    | none =>
      exact .stay {
        complete := hphase.complete
        inMemory := fun id hid => (List.mem_append.mp hid).imp_left (hphase.named id)
        checked := fun _ => ⟨by simpa using hphase.all, hphase.adoptable⟩
        phase := trivial }
  case backingUp =>
    have hpacks : ∀ id, Complete s.packs id → Complete (reply.packs.foldl putPack s.packs) id :=
      fun _ hid => hid.foldl reply.packs
    have hindex : s.index ⊆ s.index ++ reply.index := List.subset_append_left _ _
    have hgrown := h.mono hpacks hindex
    have hturn : ∀ push', PushOk (reply.packs.foldl putPack s.packs) (s.index ++ reply.index) push' →
        TurnOk s ({ s with
          packs := reply.packs.foldl putPack s.packs
          index := s.index ++ reply.index }, push') :=
      fun _ hok => ⟨hok, hpacks, hindex, rfl, fun _ => Or.inl⟩
    unfold pushTurn
    rw [hcase]
    cases reply.error with
    | some e => exact hturn _ (hgrown.moveOn trivial)
    | none =>
      dsimp only
      cases hunchanged : reply.unchanged with
      | true =>
        rw [if_pos rfl]
        split
        all_goals exact hturn _ (hgrown.moveOn trivial)
      | false =>
        rw [if_neg Bool.false_ne_true]
        split
        next hempty =>
          exact hturn _ (hgrown.moveOn fun hne => absurd (List.isEmpty_iff.mp hempty) hne)
        next => exact hturn _ (hgrown.moveOn trivial)
  case persistListing gate =>
    unfold pushTurn
    rw [hcase]
    cases reply.error with
    | some e => exact .stay (h.settle gate _ fun hcovers => by cases hcovers)
    | none => exact .stay (h.moveOn trivial)
  case persistReading gate listed =>
    unfold pushTurn
    rw [hcase]
    cases reply.error with
    | some e => exact .stay (h.settle gate _ fun hcovers => by cases hcovers)
    | none =>
      dsimp only
      cases hplan : persistPlan push.verified (surveyInventory listed s.index) with
      | error outcome =>
        exact .stay (h.settle gate outcome fun hcovers id hid =>
          mem_indexed.mp (persistPlan_error hplan hcovers id hid))
      | ok survivors =>
        exact .stay (h.moveOn fun id hid => (persistPlan_ok hplan id hid).imp_left mem_indexed.mp)
  case appending gate survivors =>
    have hindex : s.index ⊆ s.index ++ [⟨survivors, []⟩] := List.subset_append_left _ _
    have hgrown := h.mono (fun _ hid => hid) hindex
    have hnamed : ∀ id ∈ push.verified, Named (s.index ++ [⟨survivors, []⟩]) id := by
      intro id hid
      rcases hphase id hid with hold | hnew
      · exact hold.mono hindex
      · exact ⟨⟨survivors, []⟩, List.mem_append_right _ (List.mem_singleton_self _),
          List.mem_append_left _ hnew⟩
    have hwritten : ∀ outcome, TurnOk s
        ({ s with index := s.index ++ [⟨survivors, []⟩] }, push.settle gate outcome) := fun outcome =>
      ⟨hgrown.settle gate outcome fun _ => hnamed, fun _ hid => hid, hindex, rfl, fun _ => Or.inl⟩
    unfold pushTurn
    rw [hcase]
    cases reply.error with
    | some e =>
      cases hlanded : reply.landed with
      | true =>
        exact hwritten _
      | false =>
        exact .stay (h.settle gate _ fun hcovers => by cases hcovers)
    | none =>
      exact hwritten _
  case publishing =>
    have hpublished : ∀ error, TurnOk s ({ s with snapshots := s.snapshots ++ [⟨push, s.index⟩] },
        push.finish error) := by
      intro error
      refine ⟨h.moveOn trivial, fun _ hid => hid, List.Subset.refl _, rfl, fun snap hsnap => ?_⟩
      rcases List.mem_append.mp hsnap with hold | hnew
      · exact Or.inl hold
      · exact Or.inr (List.mem_singleton.mp hnew ▸ h.snapshot hphase)
    unfold pushTurn
    rw [hcase]
    cases reply.error with
    | some e =>
      cases hlanded : reply.landed with
      | true =>
        exact hpublished _
      | false =>
        exact .fail h _
    | none => exact hpublished _
  case finished error =>
    unfold pushTurn
    rw [hcase]
    exact .stay h

end Turns

section Runs

structure RepoOk (s : PackRepo) : Prop where
  pushes : ∀ push ∈ s.pushes, PushOk s.packs s.index push
  snapshots : ∀ snap ∈ s.snapshots, SnapshotOk snap

lemma RepoOk.found (packs : List PackFile) (index : List IndexFile) :
    RepoOk (.found packs index) :=
  ⟨(fun _ h => by cases h), fun _ h => by cases h⟩

theorem packRepoStep_ok {s : PackRepo} (h : RepoOk s) (a : PackRepoAction) :
    RepoOk (packRepoStep s a) := by
  cases a with
  | start =>
    refine ⟨fun push hpush => ?_, h.snapshots⟩
    rcases List.mem_append.mp hpush with hold | hnew
    · exact h.pushes push hold
    · rw [List.mem_singleton.mp hnew]
      exact .opening ⟨rfl, rfl⟩ ⟨⟨rfl, rfl⟩, rfl⟩
  | kill i => exact ⟨fun push hpush => h.pushes push (List.mem_of_mem_eraseIdx hpush), h.snapshots⟩
  | putPack p =>
    exact ⟨fun push hpush => (h.pushes push hpush).mono (fun _ hid => hid.putPack p)
      (List.Subset.refl _), h.snapshots⟩
  | writeIndex f =>
    exact ⟨fun push hpush => (h.pushes push hpush).mono (fun _ hid => hid)
      (List.subset_append_left _ _), h.snapshots⟩
  | proceed i reply =>
    unfold packRepoStep
    dsimp only
    split
    next => exact h
    next push hi =>
      have hturn := pushTurn_ok (h.pushes push (TaskList.mem_of_getElem? hi)) reply
      refine ⟨fun push' hpush' => ?_, fun snap hsnap => ?_⟩
      · dsimp only at hpush'
        rw [hturn.pushes] at hpush'
        rcases TaskList.mem_set hpush' with rfl | ⟨j, -, hj⟩
        · exact hturn.push
        · exact (h.pushes push' (TaskList.mem_of_getElem? hj)).mono hturn.packs hturn.index
      · exact (hturn.snapshots snap hsnap).elim (h.snapshots snap) fun hok => hok

/-- In every run, whatever a published snapshot's push could reuse was named by an index file when
the snapshot was published; a push that reused adopted packs had checked every candidate and named
the packs first; and adopted packs are whole. -/
theorem adopted_packs_named_before_snapshot (packs : List PackFile) (index : List IndexFile)
    (actions : List PackRepoAction) :
    let s := StepRun.exec packRepoStep (.found packs index) actions
    (∀ snap ∈ s.snapshots, (∀ id ∈ snap.push.verified ++ snap.push.inMemory, Named snap.index id) ∧
      (snap.push.verified ≠ [] →
        (snap.push.verdicts.map Prod.fst = snap.push.unindexed.map Prod.fst ∧
          ∀ v ∈ snap.push.verdicts, Adoptable v.2) ∧
        ∃ outcome, snap.push.persisted = some outcome ∧ outcome.coversDependency = true)) ∧
      ∀ push ∈ s.pushes, ∀ id ∈ push.verified, Complete s.packs id := by
  intro s
  have hstep : ∀ s a, RepoOk s → RepoOk (packRepoStep s a) := fun _ a h => packRepoStep_ok h a
  have h : RepoOk s := StepRun.invariant_all hstep (.found packs index) actions
  refine ⟨fun snap hsnap => ⟨fun id hid => ?_, fun hne => ?_⟩, fun push hpush =>
    (h.pushes push hpush).complete⟩
  · rcases List.mem_append.mp hid with hverified | hmemory
    · exact ((h.snapshots snap hsnap).covered (List.ne_nil_of_mem hverified)).named id hverified
    · exact (h.snapshots snap hsnap).inMemory id hmemory
  · have hchecked := (h.snapshots snap hsnap).checked hne
    exact ⟨⟨hchecked.all, hchecked.adoptable⟩, ((h.snapshots snap hsnap).covered hne).persisted⟩

/-- A stranded pack beside torn debris: the push adopts the one, names it and publishes. -/
example :
    let packs : List PackFile := [⟨['a'], 40, .complete⟩, ⟨['b'], 9, .torn ""⟩]
    let ok : PushReply := ⟨none, false, none, [], [], false⟩
    let s := StepRun.exec packRepoStep (.found packs [])
      (.start :: List.replicate 13 (.proceed 0 ok))
    s.snapshots.map (fun snap => (snap.push.verified, snap.index)) = [([['a']], [⟨[['a']], []⟩])] := by
  decide +kernel

end Runs

end ChatStasher
