import ChatStasher.Mirror.CopyTurns

/-! What the copy workers leave behind: verified files under their names, counters that count every
write, and, without a stop, no file of the queue unsettled. -/
namespace ChatStasher.Mirror

variable {H : Sha256} {s s' : CopyRound H} {w : Bool}

def Keyed (s : CopyRound H) : Prop := ((s.phase ++ s.later).map PlannedFile.key).Nodup

lemma Apart.key_ne (hs : Apart s) (hkeyed : Keyed s) {v : Bool} {claim claim' : Claim H.Digest}
    (hclaim : (s.workers v).claim? = some claim) (hclaim' : (s.workers (!v)).claim? = some claim') :
    claim.file.key ≠ claim'.file.key := by
  intro hkey
  rw [Keyed, List.map_append] at hkeyed
  have hplaced := hs.placed v claim hclaim
  have hplaced' := hs.placed (!v) claim' hclaim'
  refine hs.apart v claim claim' hclaim hclaim' ?_
  obtain ⟨hi, hfile⟩ := List.getElem?_eq_some_iff.mp hplaced
  obtain ⟨hj, hfile'⟩ := List.getElem?_eq_some_iff.mp hplaced'
  refine (List.nodup_iff_injective_get.mp (List.nodup_append.mp hkeyed).1).eq_iff.mp
    (?_ : (s.phase.map PlannedFile.key).get ⟨claim.index, by simpa using hi⟩ =
      (s.phase.map PlannedFile.key).get ⟨claim'.index, by simpa using hj⟩) |> Fin.mk.inj
  simpa [hfile, hfile'] using hkey

/-- What is to be written is verified, the temp file under a rename is the worker's own, and every
file that was written under its name is what the name says. -/
structure Contents (s : CopyRound H) : Prop where
  verified : ∀ v claim bytes, (s.workers v).content? = some (claim, bytes) →
    Verified claim.file bytes
  temp : ∀ v claim bytes, s.workers v = .moving claim bytes →
    s.temps.lookup claim.file.key = some bytes
  written : ∀ t claim bytes, (t, claim, bytes) ∈ s.written → Verified claim.file bytes ∧
    ∃ held, s.mirror.lookup claim.file.key = some held ∧ Verified claim.file held

lemma Turn.temp_other (h : Turn s w s') (hapart : Apart s) (hkeyed : Keyed s)
    {claim : Claim H.Digest} (hclaim : (s.workers (!w)).claim? = some claim) :
    s'.temps.lookup claim.file.key = s.temps.lookup claim.file.key := by
  have hne : ∀ claim', (s.workers w).claim? = some claim' →
      claim.file.key ≠ claim'.file.key :=
    fun claim' h' => (hapart.key_ne hkeyed h' hclaim).symm
  cases h with
  | create hat | fill hat =>
    exact (KeyedList.lookup_put _ _ _).trans (if_neg (hne _ (by rw [hat]; rfl)))
  | rename hat =>
    exact (KeyedList.lookup_filter_ne _ _ _).trans (if_neg (hne _ (by rw [hat]; rfl)))
  | _ => rfl

lemma Contents.turn (hs : Contents s) (hapart : Apart s) (hkeyed : Keyed s) (h : Turn s w s') :
    Contents s' := by
  have hother := h.frame.1
  refine ⟨fun v claim bytes hcontent => ?_, fun v claim bytes hat => ?_,
    fun t claim bytes hmem => ?_⟩
  · rcases eq_or_eq_not v w with rfl | rfl
    · cases h with
      | verify _ hverified =>
        rw [CopyRound.setWorker_self] at hcontent
        cases hcontent
        exact hverified
      | create hat | fill hat =>
        rw [CopyRound.setWorker_self] at hcontent
        exact hs.verified v claim bytes (by rw [hat]; exact hcontent)
      | stay => exact hs.verified v claim bytes hcontent
      | advance _ _ hnone =>
        rw [CopyRound.setWorker_self, hnone] at hcontent
        cases hcontent
      | _ =>
        rw [CopyRound.setWorker_self] at hcontent
        cases hcontent
    · rw [hother] at hcontent
      exact hs.verified _ claim bytes hcontent
  · rcases eq_or_eq_not v w with rfl | rfl
    · cases h with
      | fill =>
        rw [CopyRound.setWorker_self] at hat
        cases hat
        exact (KeyedList.lookup_put _ _ _).trans (if_pos rfl)
      | stay => exact hs.temp v claim bytes hat
      | advance _ _ hnone =>
        rw [CopyRound.setWorker_self] at hat
        rw [hat] at hnone
        cases hnone
      | _ =>
        rw [CopyRound.setWorker_self] at hat
        cases hat
    · rw [hother] at hat
      rw [h.temp_other hapart hkeyed (by rw [hat]; rfl)]
      exact hs.temp _ claim bytes hat
  · cases h with
    | @rename claim' bytes' hat =>
      have hverified : Verified claim'.file bytes' :=
        hs.verified w claim' bytes' (by rw [hat]; rfl)
      have hmoved := hs.temp w claim' bytes' hat
      have hheld : (KeyedList.put s.mirror (claim'.file.key,
          (s.temps.lookup claim'.file.key).getD [])).lookup claim.file.key =
            if claim.file.key = claim'.file.key then some bytes'
            else s.mirror.lookup claim.file.key := by
        rw [KeyedList.lookup_put, hmoved, Option.getD_some]
      rcases List.mem_append.mp hmem with hold | hnew
      · obtain ⟨hbytes, held, hlookup, hholds⟩ := hs.written t claim bytes hold
        refine ⟨hbytes, ?_⟩
        by_cases hkey : claim.file.key = claim'.file.key
        · obtain ⟨hkind, hid⟩ := Prod.mk.inj hkey
          refine ⟨bytes', hheld.trans (if_pos hkey), ?_⟩
          rw [Verified, hkind, hid]
          exact hverified
        · exact ⟨held, (hheld.trans (if_neg hkey)).trans hlookup, hholds⟩
      · cases List.mem_singleton.mp hnew
        exact ⟨hverified, bytes, hheld.trans (if_pos rfl), hverified⟩
    | _ => exact hs.written t claim bytes hmem

section Counters

def writtenBytes (s : CopyRound H) : ℕ := (s.written.map fun x => x.2.2.length).sum

structure Counted (s : CopyRound H) : Prop where
  files : s.files + ((s.workers false).uncounted + (s.workers true).uncounted) = s.written.length
  bytes : s.bytes + ((s.workers false).uncountedBytes + (s.workers true).uncountedBytes) =
    writtenBytes s

lemma WorkerAt.uncounted_of_claim? {D : Type} {at' : WorkerAt D} {claim : Claim D}
    (h : at'.claim? = some claim) : at'.uncounted = 0 ∧ at'.uncountedBytes = 0 := by
  cases at' with
  | counting => cases h
  | _ => exact ⟨rfl, rfl⟩

lemma Turn.counted (h : Turn s w s') :
    s'.files + (s'.workers w).uncounted + s.written.length =
        s.files + (s.workers w).uncounted + s'.written.length ∧
      s'.bytes + (s'.workers w).uncountedBytes + writtenBytes s =
        s.bytes + (s.workers w).uncountedBytes + writtenBytes s' := by
  cases h with
  | advance hclaim hafter =>
    obtain ⟨hbefore, hbefore'⟩ := WorkerAt.uncounted_of_claim? hclaim
    obtain ⟨hafter, hafter'⟩ :=
      WorkerAt.uncounted_of_claim? (WorkerAt.claim?_of_admitted? hafter)
    rw [CopyRound.setWorker_self, hbefore, hbefore', hafter, hafter']
    exact ⟨rfl, rfl⟩
  | refuse hclaim =>
    obtain ⟨hbefore, hbefore'⟩ :=
      WorkerAt.uncounted_of_claim? (WorkerAt.claim?_of_admitted? hclaim)
    rw [CopyRound.setWorker_self, hbefore, hbefore']
    exact ⟨rfl, rfl⟩
  | stay => exact ⟨rfl, rfl⟩
  | @rename claim bytes hat =>
    rw [CopyRound.setWorker_self, hat]
    have hbytes : writtenBytes ({ s with
        mirror := KeyedList.put s.mirror (claim.file.key, (s.temps.lookup claim.file.key).getD [])
        temps := s.temps.filter fun e => e.1 ≠ claim.file.key
        written := s.written ++ [(s.tail, claim, bytes)] }.setWorker w (.counting bytes.length)) =
          writtenBytes s + bytes.length := by
      simp [writtenBytes, CopyRound.setWorker]
    rw [hbytes]
    constructor
    · change s.files + 1 + s.written.length = s.files + 0 + (s.written ++ [_]).length
      rw [List.length_append, List.length_singleton]
      omega
    · change s.bytes + bytes.length + writtenBytes s = s.bytes + 0 + (writtenBytes s + bytes.length)
      omega
  | claim hat | drained hat | verify hat | skip hat | create hat | fill hat | countTorn hat
    | turnBack hat | release hat | releaseStop hat | record hat =>
    rw [CopyRound.setWorker_self, hat]
    exact ⟨rfl, rfl⟩
  | @count length hat =>
    rw [CopyRound.setWorker_self, hat]
    exact ⟨rfl, rfl⟩

lemma Counted.turn (hs : Counted s) (h : Turn s w s') : Counted s' := by
  obtain ⟨hfiles, hbytes⟩ := hs
  obtain ⟨hfiles', hbytes'⟩ := h.counted
  have hother := h.frame.1
  cases w with
  | false =>
    rw [Bool.not_false] at hother
    exact ⟨by rw [hother]; omega, by rw [hother]; omega⟩
  | true =>
    rw [Bool.not_true] at hother
    exact ⟨by rw [hother]; omega, by rw [hother]; omega⟩

end Counters

section Settled

def Clean (s : CopyRound H) : Prop := s.stop = none ∧ ∀ v, (s.workers v).stopping = false

def Settled (s : CopyRound H) (claim : Claim H.Digest) : Prop :=
  (∃ bytes, (s.tail, claim, bytes) ∈ s.written) ∨ (s.tail, claim) ∈ s.skipped

/-- Until the round stops, what was claimed is held or settled, and the workers go on until the queue
is drained. -/
structure Complete (s : CopyRound H) : Prop where
  back : ∀ v, s.workers v = .releasing none → s.stop ≠ none
  settled : Clean s → ∀ i file, i < s.next → s.phase[i]? = some file →
    (∃ v, (s.workers v).claim? = some ⟨i, file⟩) ∨ Settled s ⟨i, file⟩
  drained : Clean s → (∃ v, s.workers v ≠ .done) ∨ s.phase.length ≤ s.next
  torn : ∀ x ∈ s.skipped, x.2.file.kind = .pack

lemma Turn.grows (h : Turn s w s') : s.written ⊆ s'.written ∧ s.skipped ⊆ s'.skipped := by
  cases h with
  | skip => exact ⟨List.Subset.refl _, List.subset_append_left _ _⟩
  | rename => exact ⟨List.subset_append_left _ _, List.Subset.refl _⟩
  | _ => exact ⟨List.Subset.refl _, List.Subset.refl _⟩

lemma Turn.stop_mono (h : Turn s w s') (hstop : s.stop ≠ none) : s'.stop ≠ none := by
  cases h with
  | record => nofun
  | _ => exact hstop

lemma WorkerAt.stopping_of_claim? {D : Type} {at' : WorkerAt D} {claim : Claim D}
    (h : at'.claim? = some claim) : at'.stopping = false := by
  cases at' with
  | releasing => cases h
  | recording => cases h
  | _ => rfl

lemma Turn.clean (h : Turn s w s') (hs : Complete s) (hclean : Clean s') :
    Clean s ∧ s.next ≤ s'.next := by
  obtain ⟨hstop, hworkers⟩ := hclean
  have hstop' : s.stop = none := by
    by_contra hne
    exact h.stop_mono hne hstop
  have hself := hworkers w
  have hothers := hworkers (!w)
  rw [h.frame.1] at hothers
  have hmono : (s.workers w).stopping = false ∧ s.next ≤ s'.next := by
    cases h with
    | claim hat | drained hat =>
      rw [hat]
      exact ⟨rfl, Nat.le_succ _⟩
    | advance hclaim => exact ⟨WorkerAt.stopping_of_claim? hclaim, le_rfl⟩
    | turnBack _ hback => exact absurd hstop' hback
    | release hat => exact absurd hstop' (hs.back w hat)
    | record => cases hstop
    | refuse | releaseStop =>
      rw [CopyRound.setWorker_self] at hself
      cases hself
    | stay => exact ⟨hself, le_rfl⟩
    | verify hat | skip hat | create hat | fill hat | rename hat | count hat | countTorn hat =>
      rw [hat]
      exact ⟨rfl, le_rfl⟩
  refine ⟨⟨hstop', fun v => ?_⟩, hmono.2⟩
  rcases eq_or_eq_not v w with rfl | rfl
  · exact hmono.1
  · exact hothers

lemma Settled.turn {claim : Claim H.Digest} (hs : Settled s claim) (h : Turn s w s') :
    Settled s' claim := by
  obtain ⟨hwritten, hskipped⟩ := h.grows
  rw [Settled, h.frame.2.2.2]
  exact hs.imp (fun ⟨bytes, hmem⟩ => ⟨bytes, hwritten hmem⟩) (fun hmem => hskipped hmem)

lemma Turn.settles (h : Turn s w s') (hclean : Clean s') {claim : Claim H.Digest}
    (hclaim : (s.workers w).claim? = some claim) :
    (s'.workers w).claim? = some claim ∨ Settled s' claim := by
  have hself := hclean.2 w
  cases h with
  | advance hclaim' hafter =>
    rw [CopyRound.setWorker_self, WorkerAt.claim?_of_admitted? hafter]
    exact Or.inl (hclaim'.symm.trans hclaim)
  | verify hat | create hat | fill hat =>
    rw [CopyRound.setWorker_self]
    rw [hat] at hclaim
    exact Or.inl hclaim
  | skip hat =>
    rw [hat] at hclaim
    cases hclaim
    exact Or.inr (Or.inr (List.mem_append_right _ (List.mem_singleton_self _)))
  | rename hat =>
    rw [hat] at hclaim
    cases hclaim
    exact Or.inr (Or.inl ⟨_, List.mem_append_right _ (List.mem_singleton_self _)⟩)
  | stay => exact Or.inl hclaim
  | refuse =>
    rw [CopyRound.setWorker_self] at hself
    cases hself
  | turnBack _ hback => exact absurd hclean.1 hback
  | claim hat | drained hat | count hat | countTorn hat | release hat | releaseStop hat
    | record hat =>
    rw [hat] at hclaim
    cases hclaim

lemma Complete.turn (hs : Complete s) (h : Turn s w s') : Complete s' := by
  obtain ⟨hother, hphase, -, htail⟩ := h.frame
  refine ⟨fun v hat => ?_, fun hclean i file hi hfile => ?_, fun hclean => ?_, fun x hx => ?_⟩
  · rcases eq_or_eq_not v w with rfl | rfl
    · cases h with
      | turnBack _ hback => exact hback
      | stay => exact hs.back v hat
      | advance _ hafter =>
        rw [CopyRound.setWorker_self] at hat
        rw [hat] at hafter
        cases hafter
      | _ =>
        rw [CopyRound.setWorker_self] at hat
        cases hat
    · rw [hother] at hat
      exact h.stop_mono (hs.back _ hat)
  · obtain ⟨hbefore, hnext⟩ := h.clean hs hclean
    rw [hphase] at hfile
    rcases Nat.lt_or_ge i s.next with hlt | hge
    · rcases hs.settled hbefore i file hlt hfile with ⟨v, hclaim⟩ | hsettled
      · rcases eq_or_eq_not v w with rfl | rfl
        · exact (h.settles hclean hclaim).imp_left fun hkept => ⟨v, hkept⟩
        · exact Or.inl ⟨!w, by rw [hother, hclaim]⟩
      · exact Or.inr (hsettled.turn h)
    · -- only the claim just taken is new
      cases h with
      | @claim file' hat hfile' =>
        change i < s.next + 1 at hi
        obtain rfl : i = s.next := by omega
        obtain rfl := Option.some.inj (hfile.symm.trans hfile')
        exact Or.inl ⟨w, by rw [CopyRound.setWorker_self]; rfl⟩
      | drained hat hfile' =>
        change i < s.next + 1 at hi
        obtain rfl : i = s.next := by omega
        rw [hfile'] at hfile
        cases hfile
      | release | releaseStop =>
        change i < s.next - 1 at hi
        omega
      | _ => exact absurd hi (Nat.not_lt.mpr hge)
  · obtain ⟨hbefore, hnext⟩ := h.clean hs hclean
    rw [hphase]
    rcases hs.drained hbefore with ⟨v, hv⟩ | hle
    · rcases eq_or_eq_not v w with rfl | rfl
      · cases h with
        | drained _ hfile =>
          exact Or.inr ((List.getElem?_eq_none_iff.mp hfile).trans (Nat.le_succ _))
        | release hat => exact absurd hbefore.1 (hs.back v hat)
        | record => cases hclean.1
        | stay hat => exact absurd hat hv
        | advance _ hafter =>
          refine Or.inl ⟨v, fun hdone => ?_⟩
          rw [CopyRound.setWorker_self] at hdone
          rw [hdone] at hafter
          cases hafter
        | _ =>
          refine Or.inl ⟨v, fun hdone => ?_⟩
          rw [CopyRound.setWorker_self] at hdone
          cases hdone
      · exact Or.inl ⟨!w, by rw [hother]; exact hv⟩
    · exact Or.inr (hle.trans hnext)
  · cases h with
    | skip _ hpack =>
      rcases List.mem_append.mp hx with hold | hnew
      · exact hs.torn x hold
      · rw [List.mem_singleton.mp hnew]
        exact hpack
    | _ => exact hs.torn x hx

end Settled

end ChatStasher.Mirror
