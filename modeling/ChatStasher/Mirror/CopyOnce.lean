import ChatStasher.Mirror.CopyLedger

/-! A copy round whatever its two workers' interleaving: what is read when, what the counters count,
what an unstopped round has settled, and when a file is copied only once. -/
namespace ChatStasher.Mirror

variable {H : Sha256} {s s' : CopyRound H} {w : Bool}

def MissingFiles.phase (missing : MissingFiles H) (tail : Bool) : List (PlannedFile H.Digest) :=
  missing.queue.filter fun file => inMetaPhase file != tail

/-- Where a write belongs in the round: its phase and its place in the phase's queue. -/
def writePlace (x : Bool × Claim H.Digest × Bytes) : Bool × ℕ := (x.1, x.2.1.index)

def WorkerAt.isRecording {D : Type} : WorkerAt D → Bool
  | .recording _ => true
  | _ => false

/-- No worker takes a claim between another one's release of a claim and the stop it records. -/
def Orderly (s : CopyRound H) : CopyAction → Prop
  | .turn w _ => s.workers w = .idle → ∀ v, (s.workers v).isRecording = false
  | .join => True

instance Orderly.decidable (s : CopyRound H) : ∀ a, Decidable (Orderly s a)
  | .turn w _ => inferInstanceAs
    (Decidable (s.workers w = .idle → ∀ v, (s.workers v).isRecording = false))
  | .join => inferInstanceAs (Decidable True)

section Start

lemma spawnWorkers_cases (files : ℕ) (v : Bool) :
    spawnWorkers files v = (.idle : WorkerAt H.Digest) ∨
      spawnWorkers files v = (.done : WorkerAt H.Digest) := by
  unfold spawnWorkers
  split
  · exact Or.inl rfl
  · exact Or.inr rfl

@[simp] lemma spawnWorkers_claim? (files : ℕ) (v : Bool) :
    (spawnWorkers files v : WorkerAt H.Digest).claim? = none := by
  rcases @spawnWorkers_cases H files v with h | h <;> rw [h] <;> rfl

@[simp] lemma spawnWorkers_content? (files : ℕ) (v : Bool) :
    (spawnWorkers files v : WorkerAt H.Digest).content? = none := by
  rcases @spawnWorkers_cases H files v with h | h <;> rw [h] <;> rfl

@[simp] lemma spawnWorkers_uncounted (files : ℕ) (v : Bool) :
    (spawnWorkers files v : WorkerAt H.Digest).uncounted = 0 ∧
      (spawnWorkers files v : WorkerAt H.Digest).uncountedBytes = 0 := by
  rcases @spawnWorkers_cases H files v with h | h <;> rw [h] <;> exact ⟨rfl, rfl⟩

lemma spawnWorkers_ne (files : ℕ) (v : Bool) :
    (∀ claim bytes, spawnWorkers files v ≠ (.moving claim bytes : WorkerAt H.Digest)) ∧
      ∀ cause, spawnWorkers files v ≠ (.releasing cause : WorkerAt H.Digest) := by
  rcases @spawnWorkers_cases H files v with h | h <;> rw [h] <;> exact ⟨nofun, nofun⟩

lemma spawnWorkers_drained (files : ℕ) :
    (∃ v, spawnWorkers files v ≠ (.done : WorkerAt H.Digest)) ∨ files ≤ 0 := by
  rcases Nat.eq_zero_or_pos files with rfl | hpos
  · exact Or.inr le_rfl
  · refine Or.inl ⟨false, ?_⟩
    have hspawned : false.toNat < min mirrorConnections files := lt_min (by decide) hpos
    rw [spawnWorkers, if_pos hspawned]
    nofun

lemma MissingFiles.keys_nodup (missing : MissingFiles H) :
    ((missing.phase false ++ missing.phase true).map PlannedFile.key).Nodup := by
  have hperm : (missing.phase false ++ missing.phase true).Perm missing.files := by
    have hpart := List.filter_append_perm (fun file => inMetaPhase file) missing.queue
    have hfalse : missing.phase false = missing.queue.filter fun file => inMetaPhase file := by
      simp [MissingFiles.phase]
    have htrue : missing.phase true = missing.queue.filter fun file => !inMetaPhase file := by
      simp [MissingFiles.phase]
    rw [hfalse, htrue]
    exact hpart.trans (List.perm_insertionSort _ _)
  exact (hperm.map _).nodup_iff.mpr missing.nodup

lemma MissingFiles.mem_phase (missing : MissingFiles H) {file : PlannedFile H.Digest} {tail : Bool} :
    file ∈ missing.phase tail ↔ file ∈ missing.files ∧ inMetaPhase file = !tail := by
  rw [MissingFiles.phase, List.mem_filter, MissingFiles.queue, List.mem_insertionSort]
  cases inMetaPhase file <;> cases tail <;> simp

lemma MissingFiles.place_unique (missing : MissingFiles H) {t t' : Bool} {i j : ℕ}
    {file file' : PlannedFile H.Digest} (hfile : (missing.phase t)[i]? = some file)
    (hfile' : (missing.phase t')[j]? = some file') (hkey : file.key = file'.key) :
    t = t' ∧ i = j := by
  have hnodup := missing.keys_nodup
  rw [List.map_append] at hnodup
  obtain ⟨hmeta, htail, hdisjoint⟩ := List.nodup_append.mp hnodup
  have hsame : ∀ t, ((missing.phase t).map PlannedFile.key).Nodup := fun t => by
    cases t
    · exact hmeta
    · exact htail
  have hmem : file.key ∈ (missing.phase t).map PlannedFile.key :=
    List.mem_map_of_mem (List.mem_of_getElem? hfile)
  have hmem' : file.key ∈ (missing.phase t').map PlannedFile.key :=
    hkey ▸ List.mem_map_of_mem (List.mem_of_getElem? hfile')
  have ht : t = t' := by
    cases t <;> cases t'
    · rfl
    · exact absurd rfl (hdisjoint _ hmem _ hmem')
    · exact absurd rfl (hdisjoint _ hmem' _ hmem)
    · rfl
  subst ht
  have hi : i < ((missing.phase t).map PlannedFile.key).length := by
    rw [List.length_map]
    exact (List.getElem?_eq_some_iff.mp hfile).1
  refine ⟨rfl, (List.getElem?_inj hi (hsame t)).mp ?_⟩
  rw [List.getElem?_map, List.getElem?_map, hfile, hfile', Option.map_some, Option.map_some, hkey]

end Start

section Round
variable {missing : MissingFiles H}

/-- What every state of a round keeps, whatever the interleaving. -/
structure RoundSound (missing : MissingFiles H) (s : CopyRound H) : Prop where
  apart : Apart s
  contents : Contents s
  counted : Counted s
  complete : Complete s
  phase : s.phase = missing.phase s.tail
  later : s.later = if s.tail then [] else missing.phase true
  placed : ∀ x ∈ s.written, (missing.phase x.1)[x.2.1.index]? = some x.2.1.file
  ahead : s.tail = false → ∀ x ∈ s.written, x.1 = false
  metaDone : s.tail = true → ∀ file ∈ missing.phase false,
    ∃ x ∈ s.written, x.1 = false ∧ x.2.1.file = file
  skippedPlaced : ∀ x ∈ s.skipped, (missing.phase x.1)[x.2.index]? = some x.2.file

lemma RoundSound.keyed (h : RoundSound missing s) : Keyed s := by
  have hnodup := missing.keys_nodup
  rw [Keyed, h.phase, h.later]
  cases s.tail with
  | false => exact hnodup
  | true =>
    rw [if_pos rfl, List.append_nil]
    rw [List.map_append] at hnodup
    exact (List.nodup_append.mp hnodup).2.1

lemma Turn.written (h : Turn s w s') : (∀ x ∈ s'.written, x ∈ s.written ∨
    x.1 = s.tail ∧ (s.workers w).admitted? = some x.2.1) ∧ ∀ x ∈ s'.skipped, x ∈ s.skipped ∨
      x.1 = s.tail ∧ (s.workers w).claim? = some x.2 := by
  cases h with
  | skip hat =>
    refine ⟨fun x hx => Or.inl hx, fun x hx => (List.mem_append.mp hx).imp_right fun hnew => ?_⟩
    rw [List.mem_singleton.mp hnew, hat]
    exact ⟨rfl, rfl⟩
  | rename hat =>
    refine ⟨fun x hx => (List.mem_append.mp hx).imp_right fun hnew => ?_, fun x hx => Or.inl hx⟩
    rw [List.mem_singleton.mp hnew, hat]
    exact ⟨rfl, rfl⟩
  | _ => exact ⟨fun x hx => Or.inl hx, fun x hx => Or.inl hx⟩

lemma RoundSound.turn (hs : RoundSound missing s) (h : Turn s w s') : RoundSound missing s' := by
  obtain ⟨-, hphase, hlater, htail⟩ := h.frame
  obtain ⟨hwritten, hskipped⟩ := h.written
  have hplaced : ∀ claim, (s.workers w).claim? = some claim →
      (missing.phase s.tail)[claim.index]? = some claim.file := by
    intro claim hclaim
    rw [← hs.phase]
    exact hs.apart.placed w claim hclaim
  exact
    { apart := hs.apart.turn h
      contents := hs.contents.turn hs.apart hs.keyed h
      counted := hs.counted.turn h
      complete := hs.complete.turn h
      phase := by rw [hphase, htail, hs.phase]
      later := by rw [hlater, htail, hs.later]
      placed := fun x hx => by
        rcases hwritten x hx with hold | ⟨ht, hclaim⟩
        · exact hs.placed x hold
        · rw [ht]
          exact hplaced _ (WorkerAt.claim?_of_admitted? hclaim)
      ahead := fun hfalse x hx => by
        rw [htail] at hfalse
        rcases hwritten x hx with hold | ⟨ht, -⟩
        · exact hs.ahead hfalse x hold
        · exact ht.trans hfalse
      metaDone := fun htrue file hfile => by
        rw [htail] at htrue
        obtain ⟨x, hx, hdone⟩ := hs.metaDone htrue file hfile
        exact ⟨x, h.grows.1 hx, hdone⟩
      skippedPlaced := fun x hx => by
        rcases hskipped x hx with hold | ⟨ht, hclaim⟩
        · exact hs.skippedPlaced x hold
        · rw [ht]
          exact hplaced _ hclaim }

lemma RoundSound.settled (hs : RoundSound missing s) (hjoined : s.Joined) (hstop : s.stop = none)
    {i : ℕ} {file : PlannedFile H.Digest} (hfile : s.phase[i]? = some file) :
    Settled s ⟨i, file⟩ := by
  have hclean : Clean s := ⟨hstop, fun v => by rw [hjoined v]; rfl⟩
  have hdrained : s.phase.length ≤ s.next := by
    rcases hs.complete.drained hclean with ⟨v, hv⟩ | hle
    · exact absurd (hjoined v) hv
    · exact hle
  have hi := (List.getElem?_eq_some_iff.mp hfile).1
  rcases hs.complete.settled hclean i file (by omega) hfile with ⟨v, hclaim⟩ | hsettled
  · rw [hjoined v] at hclaim
    cases hclaim
  · exact hsettled

lemma RoundSound.join (hs : RoundSound missing s) : RoundSound missing (joinPhase s) := by
  unfold joinPhase
  split
  next hcond =>
    obtain ⟨hjoined, htail, hstop⟩ := hcond
    have hlater : s.later = missing.phase true := by rw [hs.later, htail]; rfl
    have hmeta : ∀ file ∈ missing.phase false, ∃ x ∈ s.written, x.1 = false ∧ x.2.1.file = file := by
      intro file hfile
      obtain ⟨i, hi⟩ := List.mem_iff_getElem?.mp hfile
      rcases hs.settled hjoined hstop (hs.phase ▸ htail ▸ hi) with ⟨bytes, hmem⟩ | hmem
      · exact ⟨_, hmem, htail, rfl⟩
      · -- only packs are torn debris, and no pack is of this phase
        have hpack := hs.complete.torn _ hmem
        have hphase := (missing.mem_phase.mp hfile).2
        rw [inMetaPhase, hpack] at hphase
        cases hphase
    exact
      { apart := ⟨by simp, by simp, by simp⟩
        contents :=
          { verified := by simp
            temp := fun v claim bytes hat => absurd hat ((spawnWorkers_ne _ _).1 claim bytes)
            written := hs.contents.written }
        counted :=
          { files := by
              have hfiles := hs.counted.files
              rw [hjoined false, hjoined true] at hfiles
              simpa using hfiles
            bytes := by
              have hbytes := hs.counted.bytes
              rw [hjoined false, hjoined true] at hbytes
              simpa [writtenBytes] using hbytes }
        complete :=
          { back := fun v hat => absurd hat ((spawnWorkers_ne _ _).2 none)
            settled := fun _ i file hi => absurd hi (Nat.not_lt_zero i)
            drained := fun _ => spawnWorkers_drained _
            torn := hs.complete.torn }
        phase := hlater
        later := rfl
        placed := hs.placed
        ahead := nofun
        metaDone := fun _ => hmeta
        skippedPlaced := hs.skippedPlaced }
  next => exact hs

theorem roundSound_start (missing : MissingFiles H) (mirror : MirrorFiles H.Digest) :
    RoundSound missing (.start missing mirror) where
  apart := ⟨by simp [CopyRound.start], by simp [CopyRound.start], by simp [CopyRound.start]⟩
  contents :=
    { verified := by simp [CopyRound.start]
      temp := fun v claim bytes hat => absurd hat ((spawnWorkers_ne _ _).1 claim bytes)
      written := nofun }
  counted := ⟨by simp [CopyRound.start], by simp [CopyRound.start, writtenBytes]⟩
  complete :=
    { back := fun v hat => absurd hat ((spawnWorkers_ne _ _).2 none)
      settled := fun _ i file hi => absurd hi (Nat.not_lt_zero i)
      drained := fun _ => spawnWorkers_drained _
      torn := nofun }
  phase := by simp [CopyRound.start, MissingFiles.phase]
  later := by simp [CopyRound.start, MissingFiles.phase]
  placed := nofun
  ahead := nofun
  metaDone := nofun
  skippedPlaced := nofun

theorem roundSound_exec (format : RepositoryFormat H) (missing : MissingFiles H)
    (mirror : MirrorFiles H.Digest) (as : List CopyAction) :
    RoundSound missing (StepRun.exec (copyStep format) (.start missing mirror) as) :=
  @StepRun.invariant_all _ _ _ (fun s => RoundSound missing s) (fun s a hs => match a with
    | .turn w answer => hs.turn (copyTurn_turn format s w answer)
    | .join => hs.join) _ (roundSound_start missing mirror) as

end Round

section Once
variable {missing : MissingFiles H}

/-- No place of the queue was written twice, and what the workers hold was not written, as long as the
counter is above it all. -/
structure Once (s : CopyRound H) : Prop where
  nodup : (s.written.map writePlace).Nodup
  fresh : ∀ v claim, (s.workers v).claim? = some claim →
    (s.stop = none ∨ (s.workers v).admitted? = some claim) →
      (s.tail, claim.index) ∉ s.written.map writePlace
  below : s.stop = none → (∀ v, (s.workers v).isRecording = false) →
    (∀ x ∈ s.written, x.1 = s.tail → x.2.1.index < s.next) ∧
      ∀ v claim, (s.workers v).claim? = some claim → claim.index < s.next

lemma Turn.places (h : Turn s w s') : s'.written = s.written ∨ ∃ claim bytes,
    (s.workers w).admitted? = some claim ∧ s'.written = s.written ++ [(s.tail, claim, bytes)] ∧
      (s'.workers w).claim? = none ∧ s'.next = s.next := by
  cases h with
  | @rename claim bytes hat =>
    exact Or.inr ⟨claim, bytes, by rw [hat]; rfl, rfl, by rw [CopyRound.setWorker_self]; rfl, rfl⟩
  | _ => exact Or.inl rfl

lemma Turn.holds (h : Turn s w s') {claim : Claim H.Digest}
    (hclaim : (s'.workers w).claim? = some claim)
    (hfree : s'.stop = none ∨ (s'.workers w).admitted? = some claim) :
    (s.workers w).claim? = some claim ∧ (s.stop = none ∨ (s.workers w).admitted? = some claim) ∨
      s.workers w = .idle ∧ s.stop = none ∧ claim.index = s.next := by
  cases h with
  | claim hat =>
    rw [CopyRound.setWorker_self] at hclaim hfree
    cases hclaim
    exact Or.inr ⟨hat, hfree.resolve_right nofun, rfl⟩
  | @advance claim' after hclaim' hafter _ hstop =>
    rw [CopyRound.setWorker_self, WorkerAt.claim?_of_admitted? hafter] at hclaim
    cases hclaim
    refine Or.inl ⟨hclaim', ?_⟩
    cases hat : s.workers w with
    | claimed claim'' =>
      rw [hat] at hclaim'
      cases hclaim'
      exact Or.inl (hstop hat)
    | _ =>
      rw [hat] at hclaim'
      exact Or.inr hclaim'
  | verify hat | create hat | fill hat =>
    rw [CopyRound.setWorker_self] at hclaim
    rw [hat]
    exact Or.inl ⟨hclaim, Or.inr hclaim⟩
  | stay => exact Or.inl ⟨hclaim, hfree⟩
  | _ =>
    rw [CopyRound.setWorker_self] at hclaim
    cases hclaim

lemma Turn.quiet (h : Turn s w s') (hs : Complete s) (hnone : s'.stop = none)
    (hquiet : (s'.workers w).isRecording = false) :
    (s.workers w).isRecording = false ∧ s.next ≤ s'.next := by
  cases h with
  | claim hat | drained hat =>
    rw [hat]
    exact ⟨rfl, Nat.le_succ _⟩
  | @advance _ _ hclaim =>
    refine ⟨?_, le_rfl⟩
    cases hat : s.workers w with
    | recording =>
      rw [hat] at hclaim
      cases hclaim
    | _ => rfl
  | @refuse _ _ hclaim =>
    refine ⟨?_, le_rfl⟩
    cases hat : s.workers w with
    | recording =>
      rw [hat] at hclaim
      cases hclaim
    | _ => rfl
  | release hat => exact absurd hnone (hs.back w hat)
  | releaseStop =>
    rw [CopyRound.setWorker_self] at hquiet
    cases hquiet
  | record => cases hnone
  | stay => exact ⟨hquiet, le_rfl⟩
  | verify hat | skip hat | create hat | fill hat | rename hat | count hat | countTorn hat
    | turnBack hat =>
    rw [hat]
    exact ⟨rfl, le_rfl⟩

lemma Once.turn (hs : Once s) (hround : RoundSound missing s) (h : Turn s w s')
    (horder : s.workers w = .idle → ∀ v, (s.workers v).isRecording = false) : Once s' := by
  obtain ⟨hother, -, -, htail⟩ := h.frame
  have hstop : s'.stop = none → s.stop = none := fun hnone => by
    by_contra hne
    exact h.stop_mono hne hnone
  refine ⟨?_, fun v claim hclaim hfree => ?_, fun hnone hquiet => ?_⟩
  · rcases h.places with hsame | ⟨claim, bytes, hadmitted, hnew, -⟩
    · rw [hsame]
      exact hs.nodup
    · rw [hnew, List.map_append, List.nodup_append]
      refine ⟨hs.nodup, List.nodup_singleton _, ?_⟩
      rintro place hplace _ hx rfl
      obtain rfl := List.mem_singleton.mp hx
      exact hs.fresh w claim (WorkerAt.claim?_of_admitted? hadmitted) (Or.inr hadmitted) hplace
  · rw [htail]
    have hbefore : (s.tail, claim.index) ∉ s.written.map writePlace := by
      rcases eq_or_eq_not v w with rfl | rfl
      · rcases h.holds hclaim hfree with ⟨hheld, hfree'⟩ | ⟨hidle, hnone, hindex⟩
        · exact hs.fresh v claim hheld hfree'
        · intro hmem
          obtain ⟨x, hx, hplace⟩ := List.mem_map.mp hmem
          obtain ⟨ht, hi⟩ := Prod.mk.inj hplace
          have hlt := (hs.below hnone (horder hidle)).1 x hx ht
          omega
      · rw [hother] at hclaim hfree
        exact hs.fresh _ claim hclaim (hfree.imp_left hstop)
    rcases h.places with hsame | ⟨claim', bytes, hadmitted, hnew, hgone, -⟩
    · rw [hsame]
      exact hbefore
    · rw [hnew, List.map_append, List.mem_append, not_or]
      refine ⟨hbefore, fun hmem => ?_⟩
      have hindex : claim.index = claim'.index :=
        (Prod.mk.inj (List.mem_singleton.mp hmem)).2
      rcases eq_or_eq_not v w with rfl | rfl
      · rw [hgone] at hclaim
        cases hclaim
      · rw [hother] at hclaim
        exact hround.apart.apart w claim' claim (WorkerAt.claim?_of_admitted? hadmitted) hclaim
          hindex.symm
  · obtain ⟨hquietSelf, hnext⟩ := h.quiet hround.complete hnone (hquiet w)
    have hquietBefore : ∀ v, (s.workers v).isRecording = false := by
      intro v
      rcases eq_or_eq_not v w with rfl | rfl
      · exact hquietSelf
      · rw [← hother]
        exact hquiet _
    obtain ⟨hbelow, hclaims⟩ := hs.below (hstop hnone) hquietBefore
    rw [htail]
    refine ⟨fun x hx ht => ?_, fun v claim hclaim => ?_⟩
    · rcases h.places with hsame | ⟨claim, bytes, hadmitted, hnew, -, -⟩
      · rw [hsame] at hx
        exact (hbelow x hx ht).trans_le hnext
      · rw [hnew] at hx
        rcases List.mem_append.mp hx with hold | hlast
        · exact (hbelow x hold ht).trans_le hnext
        · rw [List.mem_singleton.mp hlast]
          exact (hclaims w claim (WorkerAt.claim?_of_admitted? hadmitted)).trans_le hnext
    · rcases eq_or_eq_not v w with rfl | rfl
      · rcases h.claim? hclaim with ⟨hheld, -⟩ | ⟨-, hindex, -, hnext'⟩
        · exact (hclaims v claim hheld).trans_le hnext
        · omega
      · rw [hother] at hclaim
        exact (hclaims _ claim hclaim).trans_le hnext

lemma Once.join (hs : Once s) (hround : RoundSound missing s) : Once (joinPhase s) := by
  unfold joinPhase
  split
  next hcond =>
    obtain ⟨-, htail, -⟩ := hcond
    refine ⟨hs.nodup, by simp, fun _ _ => ⟨fun x hx htrue => ?_, by simp⟩⟩
    cases (hround.ahead htail x hx).symm.trans htrue
  next => exact hs

lemma once_start (missing : MissingFiles H) (mirror : MirrorFiles H.Digest) :
    Once (.start missing mirror) where
  nodup := List.nodup_nil
  fresh := by simp [CopyRound.start]
  below := fun _ _ => ⟨nofun, by simp [CopyRound.start]⟩

lemma Once.keys_nodup (hs : Once s) (hround : RoundSound missing s) :
    (s.written.map fun x => x.2.1.file.key).Nodup := by
  refine (List.Nodup.of_map _ hs.nodup).map_on fun x hx y hy hkey => ?_
  obtain ⟨ht, hi⟩ := missing.place_unique (hround.placed x hx) (hround.placed y hy) hkey
  exact List.inj_on_of_nodup_map hs.nodup hx hy (Prod.ext ht hi)

end Once

section Claim
variable {missing : MissingFiles H}

/-- What holds in every state of every round. -/
structure CopySettled (missing : MissingFiles H) (s : CopyRound H) : Prop where
  counters : s.Joined → s.files = s.written.length ∧ s.bytes = writtenBytes s
  barrier : ∀ v claim attempt, s.workers v = .reading claim attempt →
    inMetaPhase claim.file = false → ∀ file ∈ missing.files, inMetaPhase file = true →
      ∃ x ∈ s.written, x.2.1.file = file
  settled : s.Joined → s.tail = true → s.stop = none → ∀ file ∈ missing.files,
    (∃ x ∈ s.written, x.2.1.file = file ∧ Verified file x.2.2) ∨ ∃ x ∈ s.skipped, x.2.file = file
  intact : ∀ x ∈ s.written, x.2.1.file.kind ≠ .config →
    ∃ held, s.mirror.lookup x.2.1.file.key = some held ∧ H.digest held = x.2.1.file.id

lemma RoundSound.copySettled (hs : RoundSound missing s) : CopySettled missing s where
  counters hjoined := by
    obtain ⟨hfiles, hbytes⟩ := hs.counted
    rw [hjoined false, hjoined true] at hfiles hbytes
    simpa using And.intro hfiles hbytes
  barrier v claim attempt hat hlate file hfile hmeta := by
    have hplaced := hs.apart.placed v claim (by rw [hat]; rfl)
    rw [hs.phase] at hplaced
    have hphase := (missing.mem_phase.mp (List.mem_of_getElem? hplaced)).2
    rw [hlate] at hphase
    have htail : s.tail = true := by simpa using hphase
    obtain ⟨x, hx, -, hdone⟩ := hs.metaDone htail file (missing.mem_phase.mpr ⟨hfile, by simpa using hmeta⟩)
    exact ⟨x, hx, hdone⟩
  settled hjoined htail hstop file hfile := by
    have hverified : ∀ x ∈ s.written, x.2.1.file = file → Verified file x.2.2 := by
      rintro ⟨t, claim, bytes⟩ hx rfl
      exact (hs.contents.written t claim bytes hx).1
    cases hmeta : inMetaPhase file with
    | true =>
      obtain ⟨x, hx, -, hdone⟩ := hs.metaDone htail file
        (missing.mem_phase.mpr ⟨hfile, by simpa using hmeta⟩)
      exact Or.inl ⟨x, hx, hdone, hverified x hx hdone⟩
    | false =>
      have hmem : file ∈ s.phase := by
        rw [hs.phase, htail]
        exact missing.mem_phase.mpr ⟨hfile, by simpa using hmeta⟩
      obtain ⟨i, hi⟩ := List.mem_iff_getElem?.mp hmem
      rcases hs.settled hjoined hstop hi with ⟨bytes, hwritten⟩ | hskipped
      · exact Or.inl ⟨_, hwritten, rfl, hverified _ hwritten rfl⟩
      · exact Or.inr ⟨_, hskipped, rfl⟩
  intact := by
    rintro ⟨t, claim, bytes⟩ hx hkind
    obtain ⟨-, held, hlookup, hholds⟩ := hs.contents.written t claim bytes hx
    exact ⟨held, hlookup, hholds.resolve_left hkind⟩

/-- Whatever the interleaving of the two workers: the counters count the writes, no snapshot or pack
is read before the files it rests on are written, a round that did not stop has settled every file,
and what was written is what its name says. Each file is copied once at most if no claim is taken
between a release and the stop that follows it. -/
theorem copy_round_settled (format : RepositoryFormat H) (missing : MissingFiles H)
    (mirror : MirrorFiles H.Digest) (as : List CopyAction) :
    CopySettled missing (StepRun.exec (copyStep format) (.start missing mirror) as) ∧
      (StepRun.Along (copyStep format) Orderly (.start missing mirror) as →
        ((StepRun.exec (copyStep format) (.start missing mirror) as).written.map
          fun x => x.2.1.file.key).Nodup) := by
  refine ⟨(roundSound_exec format missing mirror as).copySettled, fun horderly => ?_⟩
  have hboth := @StepRun.invariant _ _ (copyStep format) Orderly
    (fun s => RoundSound missing s ∧ Once s) (fun s a hs horder => match a with
      | .turn w answer => ⟨hs.1.turn (copyTurn_turn format s w answer),
          hs.2.turn hs.1 (copyTurn_turn format s w answer) horder⟩
      | .join => ⟨hs.1.join, hs.2.join hs.1⟩)
    _ ⟨roundSound_start missing mirror, once_start missing mirror⟩ as horderly
  exact hboth.2.keys_nodup hboth.1

/-- A format in which nothing is read, for evaluating rounds. -/
def bareFormat : RepositoryFormat Sha256.verbatim where
  readIndex _ := none
  packsOf _ := []
  headerReads _ _ := false

def packFile (id : Bytes) : PlannedFile Sha256.verbatim.Digest := ⟨.pack, id, id.length⟩

def twoPacks : MissingFiles Sha256.verbatim :=
  ⟨[packFile [0], packFile [1]], by decide⟩

def turns (w : Bool) (read : Bytes) (n : ℕ) : List CopyAction :=
  List.replicate n (.turn w ⟨none, some read, true, true⟩)

/-- One worker copies both packs, the other one finds the queue drained. -/
theorem copy_round_of_two_packs :
    CopySettled twoPacks (StepRun.exec (copyStep bareFormat) (.start twoPacks [])
      (.join :: turns false [0] 8 ++ turns false [1] 9 ++ turns true [] 1)) ∧
    ((StepRun.exec (copyStep bareFormat) (.start twoPacks [])
      (.join :: turns false [0] 8 ++ turns false [1] 9 ++ turns true [] 1)).written.map
        fun x => x.2.1.file.key).Nodup :=
  ⟨(copy_round_settled bareFormat twoPacks [] _).1,
    (copy_round_settled bareFormat twoPacks [] _).2 (by decide +kernel)⟩

def configFile (id : Bytes) : PlannedFile Sha256.verbatim.Digest := ⟨.config, id, 1⟩

def oneConfig : MissingFiles Sha256.verbatim := ⟨[configFile [0]], by decide⟩

/-- A worker that stops gives its place back before the stop is recorded: the other one, done with the
next place, takes it once more and copies its file a second time. And an unstopped round writes a
config whose bytes do not hash to its name. -/
theorem copy_round_unsettled :
    (StepRun.exec (copyStep bareFormat) (.start twoPacks [])
      (.join :: turns false [] 2 ++ turns true [1] 2 ++
        [.turn false ⟨some (.pause .budgetSpent), none, true, true⟩, .turn false ⟨none, none, true, true⟩] ++
        turns true [1] 14)).written.map (fun x => x.2.1.file) = [packFile [1], packFile [1]] ∧
    (StepRun.exec (copyStep bareFormat) (.start oneConfig [])
      (turns false [7] 9 ++ [.join])).Joined ∧
    (StepRun.exec (copyStep bareFormat) (.start oneConfig [])
      (turns false [7] 9 ++ [.join])).tail = true ∧
    (StepRun.exec (copyStep bareFormat) (.start oneConfig [])
      (turns false [7] 9 ++ [.join])).stop = none ∧
    (StepRun.exec (copyStep bareFormat) (.start oneConfig [])
      (turns false [7] 9 ++ [.join])).written.map (fun x => (x.2.1.file, x.2.2)) =
        [(configFile [0], [7])] ∧ Sha256.verbatim.digest [7] ≠ (configFile [0]).id := by
  refine ⟨?_, ?_, ?_, ?_, ?_, ?_⟩ <;> decide +kernel

end Claim

end ChatStasher.Mirror
