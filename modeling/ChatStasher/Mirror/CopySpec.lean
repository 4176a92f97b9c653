import ChatStasher.Library.Lists
import ChatStasher.Mirror.Sync

/-! What the copy of a round keeps: listed files end intact, or as debris no index file names. -/
namespace ChatStasher.Mirror

section Files
variable {H : Sha256} {mirror : MirrorFiles H.Digest} {kind : FileKind} {id : H.Digest}

lemma fileAt_put (mirror : MirrorFiles H.Digest) (kind kind' : FileKind) (id id' : H.Digest)
    (bytes : Bytes) : fileAt (KeyedList.put mirror ((kind, id), bytes)) kind' id' =
      if kind' = kind ∧ id' = id then some bytes else fileAt mirror kind' id' := by
  rw [fileAt, KeyedList.lookup_put]
  simp only [Prod.mk.injEq]
  rfl

lemma mem_namesIn : id ∈ namesIn mirror kind ↔ fileAt mirror kind id ≠ none := by
  have hnone : fileAt mirror kind id = none ↔ ∀ f ∈ mirror, f.1 ≠ (kind, id) := by
    rw [fileAt, List.lookup_eq_none_iff]
    exact forall₂_congr fun f _ => by rw [bne_iff_ne, ne_comm]
  rw [ne_eq, hnone]
  simp only [namesIn, List.mem_map, List.mem_filter, decide_eq_true_eq, ne_eq, not_forall, not_not]
  constructor
  · rintro ⟨⟨⟨k, i⟩, bytes⟩, ⟨hmem, rfl⟩, rfl⟩
    exact ⟨_, hmem, rfl⟩
  · rintro ⟨⟨⟨k, i⟩, bytes⟩, hmem, heq⟩
    obtain ⟨rfl, rfl⟩ := Prod.mk.inj heq
    exact ⟨_, ⟨hmem, rfl⟩, rfl⟩

lemma Intact.put {kind' : FileKind} {id' : H.Digest} (h : Intact mirror kind' id') {bytes : Bytes}
    (hbytes : kind' = kind → id' = id → H.digest bytes = id) :
    Intact (KeyedList.put mirror ((kind, id), bytes)) kind' id' := by
  obtain ⟨old, hold, hdigest⟩ := h
  by_cases hsame : kind' = kind ∧ id' = id
  · refine ⟨bytes, by rw [fileAt_put, if_pos hsame], ?_⟩
    rw [hbytes hsame.1 hsame.2, hsame.2]
  · exact ⟨old, by rw [fileAt_put, if_neg hsame, hold], hdigest⟩

lemma intact_put {bytes : Bytes} (hbytes : H.digest bytes = id) :
    Intact (KeyedList.put mirror ((kind, id), bytes)) kind id :=
  ⟨bytes, by rw [fileAt_put, if_pos ⟨rfl, rfl⟩], hbytes⟩

lemma Intact.of_put {kind' : FileKind} {id' : H.Digest} {bytes : Bytes}
    (h : Intact (KeyedList.put mirror ((kind, id), bytes)) kind' id') :
    Intact mirror kind' id' ∨ kind' = kind ∧ id' = id := by
  obtain ⟨new, hnew, hdigest⟩ := h
  rw [fileAt_put] at hnew
  split at hnew
  next hsame => exact Or.inr hsame
  next => exact Or.inl ⟨new, hnew, hdigest⟩

lemma Intact.mem_namesIn (h : Intact mirror kind id) : id ∈ namesIn mirror kind := by
  obtain ⟨bytes, hbytes, -⟩ := h
  rw [Mirror.mem_namesIn, hbytes]
  exact Option.some_ne_none _

lemma mem_namesIn_put {kind' : FileKind} {id' : H.Digest} {bytes : Bytes} :
    id' ∈ namesIn (KeyedList.put mirror ((kind, id), bytes)) kind' ↔
      id' ∈ namesIn mirror kind' ∨ kind' = kind ∧ id' = id := by
  rw [mem_namesIn, mem_namesIn, fileAt_put]
  split
  next hsame => simp [hsame]
  next hother => simp [hother]

end Files

section Survey
variable {H : Sha256} {format : RepositoryFormat H} {mirror : MirrorFiles H.Digest}

lemma mem_mirrorIndexedPackNames {names : List H.Digest} {index pack : H.Digest}
    (hnames : mirrorIndexedPackNames format mirror = some names)
    (hindex : Intact mirror .index index) (hpack : NamedBy format index pack) : pack ∈ names := by
  obtain ⟨bytes, hbytes, hdigest⟩ := hindex
  obtain ⟨bytes', listed, hdigest', hread, hpack⟩ := hpack
  obtain rfl : bytes = bytes' := H.digest_injective (hdigest.trans hdigest'.symm)
  obtain ⟨reads, hreads, rfl⟩ := Option.map_eq_some_iff.mp hnames
  have hin : index ∈ namesIn mirror .index := (Intact.mem_namesIn ⟨bytes, hbytes, hdigest⟩)
  obtain ⟨found, hfound, heq⟩ := Traverse.exists_of_mem hreads hin
  rw [hbytes, Option.bind_some, hread] at heq
  obtain rfl := Option.some.inj heq
  exact List.mem_flatten.mpr ⟨listed, hfound, hpack⟩

end Survey

section Listings
variable {H : Sha256} {format : RepositoryFormat H} {mirror : MirrorFiles H.Digest}
  {planned : List (PlannedFile H.Digest)} {f : PlannedFile H.Digest} {bytes : Bytes}

lemma namesListed_put (hf : f ∈ planned) (hbytes : f.kind = .config ∨ H.digest bytes = f.id) :
    NamesListed format (KeyedList.put mirror ((f.kind, f.id), bytes)) planned ↔
      NamesListed format mirror planned := by
  refine forall₃_congr fun snapshot _ _ => forall₂_congr fun pack _ => ?_
  constructor
  · rintro (hlisted | ⟨index, hindex, hnamed⟩)
    · exact Or.inl hlisted
    · rcases hindex.of_put with hold | ⟨hkind, rfl⟩
      · exact Or.inr ⟨index, hold, hnamed⟩
      · exact Or.inl ⟨f, hf, hkind.symm, hnamed⟩
  · rintro (hlisted | ⟨index, hindex, hnamed⟩)
    · exact Or.inl hlisted
    · refine Or.inr ⟨index, hindex.put fun hkind _ => ?_, hnamed⟩
      exact hbytes.resolve_left fun hconfig => by simp [hconfig] at hkind

lemma damageListed_put (hf : f ∈ planned) :
    DamageListed format (KeyedList.put mirror ((f.kind, f.id), bytes)) planned ↔
      DamageListed format mirror planned := by
  refine forall₃_congr fun snapshot _ _ => forall₂_congr fun pack _ => ?_
  by_cases hsame : FileKind.pack = f.kind ∧ pack = f.id
  · have hlisted : ∃ g ∈ planned, g.kind = .pack ∧ g.id = pack :=
      ⟨f, hf, hsame.1.symm, hsame.2.symm⟩
    exact iff_of_true (fun _ => Or.inr hlisted) fun _ => Or.inr hlisted
  · have hintact : Intact (KeyedList.put mirror ((f.kind, f.id), bytes)) .pack pack ↔
        Intact mirror .pack pack :=
      ⟨fun h => h.of_put.resolve_right hsame, fun h => h.put fun hkind hid => absurd ⟨hkind, hid⟩ hsame⟩
    rw [hintact, mem_namesIn_put, or_iff_left hsame]

end Listings

section Copy
variable {H : Sha256} (format : RepositoryFormat H)

def Copying.remaining {D : Type} (c : Copying D) : List (PlannedFile D) :=
  c.queue ++ c.later ++ c.inFlight.map Prod.fst

/-- A round that copies: what is listed is intact, still to be copied, or debris that no index file
of the mirror names. -/
structure CopySound (mirror : MirrorFiles H.Digest) (c : Copying H.Digest) : Prop where
  snapshots : ∀ id ∈ namesIn mirror .snapshot, ∃ f ∈ c.planned, f.kind = .snapshot ∧ f.id = id
  files : ∀ f ∈ c.planned, f.kind ≠ .config → c.stop = none →
    Intact mirror f.kind f.id ∨ f ∈ c.remaining ∨ f ∈ c.torn
  subset : ∀ f ∈ c.remaining, f ∈ c.planned
  torn : ∀ f ∈ c.torn, f.kind = .pack ∧
    ∀ index, Intact mirror .index index → ¬ NamedBy format index f.id
  inMeta : c.tail = false → c.torn = [] ∧ ∀ f ∈ c.queue ++ c.inFlight.map Prod.fst, f.kind ≠ .pack
  inTail : c.tail = true → ∀ f ∈ c.remaining, f.kind ≠ .index
  later : ∀ f ∈ c.later, f.kind ≠ .index
  drained : c.tail = true → c.later = []

variable {format} {mirror : MirrorFiles H.Digest} {c : Copying H.Digest}

lemma CopySound.setStop (h : CopySound format mirror c) (cause : StopCause) :
    CopySound format mirror (c.setStop cause) :=
  { h with files := fun f _ _ hstop => by simp [Copying.setStop] at hstop }

lemma mem_remaining {f : PlannedFile H.Digest} : f ∈ c.remaining ↔
    f ∈ c.queue ∨ f ∈ c.later ∨ ∃ attempt, (f, attempt) ∈ c.inFlight := by
  simp [Copying.remaining]

lemma mem_remaining_eraseIdx {i : ℕ} {file f : PlannedFile H.Digest} {attempt : ℕ}
    (hfile : c.inFlight[i]? = some (file, attempt)) (hf : f ∈ c.remaining) :
    f = file ∨ f ∈ Copying.remaining { c with inFlight := c.inFlight.eraseIdx i } := by
  rw [mem_remaining] at hf ⊢
  rcases hf with hf | hf | ⟨n, hf⟩
  · exact Or.inr (Or.inl hf)
  · exact Or.inr (Or.inr (Or.inl hf))
  · obtain ⟨j, hj⟩ := List.mem_iff_getElem?.mp hf
    by_cases hij : j = i
    · rw [hij, hfile] at hj
      exact Or.inl (Prod.mk.inj (Option.some.inj hj)).1.symm
    · exact Or.inr (Or.inr (Or.inr ⟨n, List.mem_eraseIdx_iff_getElem?.mpr ⟨j, hij, hj⟩⟩))

lemma CopySound.claim (h : CopySound format mirror c) (roundEnd : Option StopCause) :
    CopySound format mirror (c.claim roundEnd) := by
  unfold Copying.claim
  split
  · exact h
  next file queue hqueue =>
    split
    · exact h
    · split
      · exact h.setStop _
      · have hsame : ∀ f, f ∈ Copying.remaining { c with
            queue := queue, inFlight := c.inFlight ++ [(file, 0)] } ↔ f ∈ c.remaining := by
          intro f
          simp only [Copying.remaining, hqueue, List.map_append, List.map_cons, List.map_nil,
            List.mem_append, List.mem_cons, List.not_mem_nil, or_false]
          tauto
        refine
          { snapshots := h.snapshots, torn := h.torn, later := h.later, drained := h.drained
            files := fun f hf hkind hstop => ?_
            subset := fun f hf => h.subset f ((hsame f).mp hf)
            inMeta := fun htail => ⟨(h.inMeta htail).1, fun f hf => (h.inMeta htail).2 f ?_⟩
            inTail := fun htail f hf => h.inTail htail f ((hsame f).mp hf) }
        · rw [hsame]
          exact h.files f hf hkind hstop
        · rw [hqueue]
          simp only [List.map_append, List.map_cons, List.map_nil, List.mem_append, List.mem_cons,
            List.not_mem_nil, or_false] at hf ⊢
          tauto

lemma CopySound.nextPhase (h : CopySound format mirror c) :
    CopySound format mirror c.nextPhase := by
  unfold Copying.nextPhase
  split
  next hdone =>
    simp only [Bool.and_eq_true, Bool.not_eq_true', List.isEmpty_iff] at hdone
    obtain ⟨⟨⟨htail, hqueue⟩, hflight⟩, -⟩ := hdone
    have hsame : ∀ f, f ∈ Copying.remaining { c with queue := c.later, later := [], tail := true } ↔
        f ∈ c.remaining := by
      intro f
      simp [Copying.remaining, hqueue, hflight]
    refine
      { snapshots := h.snapshots, torn := h.torn, later := by simp, drained := fun _ => rfl
        files := fun f hf hkind hstop => ?_
        subset := fun f hf => h.subset f ((hsame f).mp hf)
        inMeta := by simp
        inTail := fun _ f hf => h.later f ?_ }
    · rw [hsame]
      exact h.files f hf hkind hstop
    · simpa [Copying.remaining, hflight] using hf
  · exact h

lemma classifyFailedPack_eq_none {opens : Bool} {file : PlannedFile H.Digest} {bytes : Bytes}
    (h : classifyFailedPack format mirror opens file bytes = none) (index : H.Digest)
    (hindex : Intact mirror .index index) : ¬ NamedBy format index file.id := by
  intro hnamed
  simp only [classifyFailedPack] at h
  cases opens with
  | false => simp [classifyPack] at h
  | true =>
    cases hnames : mirrorIndexedPackNames format mirror with
    | none => simp [hnames, classifyPack] at h
    | some names =>
      have hin := mem_mirrorIndexedPackNames hnames hindex hnamed
      simp [hnames, hin, classifyPack] at h

/-- The files that are left once one in flight is dropped. -/
structure Released (c : Copying H.Digest) (i : ℕ) (rest : Copying H.Digest) : Prop where
  queue : rest.queue = c.queue
  later : rest.later = c.later
  tail : rest.tail = c.tail
  planned : rest.planned = c.planned
  inFlight : rest.inFlight = c.inFlight.eraseIdx i

lemma Released.subset {i : ℕ} {rest : Copying H.Digest} (h : Released c i rest) :
    rest.inFlight.map Prod.fst ⊆ c.inFlight.map Prod.fst := by
  rw [h.inFlight]
  exact ((c.inFlight.eraseIdx_sublist i).map Prod.fst).subset

lemma CopySound.released (h : CopySound format mirror c) {i : ℕ} {rest : Copying H.Digest}
    (hrest : Released c i rest) {mirror' : MirrorFiles H.Digest}
    (hsnapshots : ∀ id ∈ namesIn mirror' .snapshot, ∃ f ∈ c.planned, f.kind = .snapshot ∧ f.id = id)
    (hfiles : ∀ f ∈ c.planned, f.kind ≠ .config → rest.stop = none →
      Intact mirror' f.kind f.id ∨ f ∈ rest.remaining ∨ f ∈ rest.torn)
    (htorn : ∀ f ∈ rest.torn, c.tail = true ∧ f.kind = .pack ∧
      ∀ index, Intact mirror' .index index → ¬ NamedBy format index f.id) :
    CopySound format mirror' rest where
  snapshots := hrest.planned ▸ hsnapshots
  files := hrest.planned ▸ hfiles
  subset := fun f hf => by
    rw [hrest.planned]
    refine h.subset f ?_
    simp only [Copying.remaining, hrest.queue, hrest.later, List.mem_append] at hf ⊢
    exact hf.imp_right fun hin => hrest.subset hin
  torn := fun f hf => (htorn f hf).2
  inMeta := fun htail => by
    rw [hrest.tail] at htail
    refine ⟨List.eq_nil_iff_forall_not_mem.mpr fun f hf => ?_, fun f hf => ?_⟩
    · exact absurd (htorn f hf).1 (by simp [htail])
    · refine (h.inMeta htail).2 f ?_
      rw [hrest.queue] at hf
      exact (List.mem_append.mp hf).elim (List.mem_append_left _)
        fun hin => List.mem_append_right _ (hrest.subset hin)
  inTail := fun htail f hf => by
    refine h.inTail (hrest.tail ▸ htail) f ?_
    simp only [Copying.remaining, hrest.queue, hrest.later, List.mem_append] at hf ⊢
    exact hf.imp_right fun hin => hrest.subset hin
  later := hrest.later ▸ h.later
  drained := fun htail => hrest.later ▸ h.drained (hrest.tail ▸ htail)

/-- What one read of a file in flight can come to. -/
inductive CopiedOne (format : RepositoryFormat H) (mirror : MirrorFiles H.Digest)
    (c : Copying H.Digest) : MirrorFiles H.Digest × Copying H.Digest → Prop
  | idle : CopiedOne format mirror c (mirror, c)
  | stopped {i : ℕ} {file : PlannedFile H.Digest} {attempt : ℕ}
      (hfile : c.inFlight[i]? = some (file, attempt)) (cause : StopCause) :
      CopiedOne format mirror c
        (mirror, { c with inFlight := c.inFlight.eraseIdx i }.setStop cause)
  | wrote {i : ℕ} {file : PlannedFile H.Digest} {attempt : ℕ}
      (hfile : c.inFlight[i]? = some (file, attempt)) {bytes : Bytes}
      (hbytes : file.kind = .config ∨ H.digest bytes = file.id) :
      CopiedOne format mirror c
        (KeyedList.put mirror ((file.kind, file.id), bytes),
          { c with inFlight := c.inFlight.eraseIdx i, downloaded := c.downloaded + 1 })
  | torn {i : ℕ} {file : PlannedFile H.Digest} {attempt : ℕ}
      (hfile : c.inFlight[i]? = some (file, attempt)) (hkind : file.kind = .pack)
      (hunnamed : ∀ index, Intact mirror .index index → ¬ NamedBy format index file.id) :
      CopiedOne format mirror c
        (mirror, { c with inFlight := c.inFlight.eraseIdx i, torn := c.torn ++ [file] })
  | again {i : ℕ} {file : PlannedFile H.Digest} {attempt : ℕ}
      (hfile : c.inFlight[i]? = some (file, attempt)) :
      CopiedOne format mirror c
        (mirror, { c with inFlight := c.inFlight.set i (file, attempt + 1) })

variable (format mirror c) in
lemma copyOne_cases (i : ℕ) (answer : Option Bytes) (opens written : Bool) :
    CopiedOne format mirror c (copyOne format mirror c i answer opens written) := by
  unfold copyOne
  split
  · exact .idle
  next file attempt hfile =>
    dsimp only
    split
    · exact .stopped hfile _
    · split
      · exact .stopped hfile _
      next bytes =>
        split
        · exact .stopped hfile _
        · split
          next hbytes =>
            split
            · exact .wrote hfile (by simpa using hbytes)
            · exact .stopped hfile _
          next =>
            by_cases hlast : attempt + 1 = if file.kind = .config then 1 else 2
            · rw [if_pos hlast]
              split
              next hkind =>
                split
                · exact .stopped hfile _
                next hnone => exact .torn hfile hkind (classifyFailedPack_eq_none hnone)
              · exact .stopped hfile _
            · rw [if_neg hlast]
              exact .again hfile

lemma CopySound.torn_tail (h : CopySound format mirror c) {f : PlannedFile H.Digest}
    (hf : f ∈ c.torn) : c.tail = true := by
  by_contra htail
  rw [(h.inMeta (by simpa using htail)).1] at hf
  cases hf

lemma mem_remaining_of_inFlight {i : ℕ} {file : PlannedFile H.Digest} {attempt : ℕ}
    (hfile : c.inFlight[i]? = some (file, attempt)) : file ∈ c.remaining :=
  mem_remaining.mpr (Or.inr (Or.inr ⟨attempt, List.mem_of_getElem? hfile⟩))

lemma CopySound.copiedOne (h : CopySound format mirror c)
    {next : MirrorFiles H.Digest × Copying H.Digest} (hnext : CopiedOne format mirror c next) :
    CopySound format next.1 next.2 := by
  have htorn : ∀ f ∈ c.torn, c.tail = true ∧ f.kind = .pack ∧
      ∀ index, Intact mirror .index index → ¬ NamedBy format index f.id :=
    fun f hf => ⟨h.torn_tail hf, h.torn f hf⟩
  cases hnext with
  | idle => exact h
  | @stopped i file attempt hfile cause =>
    refine h.released (i := i) ?_ h.snapshots (fun f _ _ hstop => ?_) htorn
    · exact ⟨rfl, rfl, rfl, rfl, rfl⟩
    · simp [Copying.setStop] at hstop
  | @wrote i file attempt hfile bytes hbytes =>
    have hin := mem_remaining_of_inFlight hfile
    refine h.released (i := i) ?_ (fun id hid => ?_) (fun f hf hkind hstop => ?_)
      fun f hf => ⟨h.torn_tail hf, (h.torn f hf).1, ?_⟩
    · exact ⟨rfl, rfl, rfl, rfl, rfl⟩
    · rcases mem_namesIn_put.mp hid with hold | ⟨hkind, rfl⟩
      · exact h.snapshots id hold
      · exact ⟨file, h.subset file hin, hkind.symm, rfl⟩
    · rcases h.files f hf hkind hstop with hintact | hleft | hdebris
      · refine Or.inl (hintact.put fun hsame _ => hbytes.resolve_left ?_)
        rwa [← hsame]
      · rcases mem_remaining_eraseIdx hfile hleft with rfl | hleft
        · exact Or.inl (intact_put (hbytes.resolve_left hkind))
        · exact Or.inr (Or.inl hleft)
      · exact Or.inr (Or.inr hdebris)
    · -- No index file is written in the phase that finds debris.
      intro index hindex
      rcases hindex.of_put with hold | ⟨hkind, -⟩
      · exact (h.torn f hf).2 index hold
      · exact absurd hkind.symm (h.inTail (h.torn_tail hf) file hin)
  | @torn i file attempt hfile hkind hunnamed =>
    have hin := mem_remaining_of_inFlight hfile
    have htail : c.tail = true := by
      by_contra htail
      refine (h.inMeta (by simpa using htail)).2 file ?_ hkind
      exact List.mem_append_right _ (List.mem_map.mpr ⟨_, List.mem_of_getElem? hfile, rfl⟩)
    refine h.released (i := i) ?_ h.snapshots (fun f hf hkind hstop => ?_) fun f hf => ?_
    · exact ⟨rfl, rfl, rfl, rfl, rfl⟩
    · rcases h.files f hf hkind hstop with hintact | hleft | hdebris
      · exact Or.inl hintact
      · rcases mem_remaining_eraseIdx hfile hleft with rfl | hleft
        · exact Or.inr (Or.inr (List.mem_append_right _ (List.mem_singleton_self _)))
        · exact Or.inr (Or.inl hleft)
      · exact Or.inr (Or.inr (List.mem_append_left _ hdebris))
    · rcases List.mem_append.mp hf with hold | hnew
      · exact htorn f hold
      · obtain rfl := List.mem_singleton.mp hnew
        exact ⟨htail, hkind, hunnamed⟩
  | @again i file attempt hfile =>
    have hsame : (c.inFlight.set i (file, attempt + 1)).map Prod.fst = c.inFlight.map Prod.fst := by
      refine List.ext_getElem? fun j => ?_
      rw [List.getElem?_map, List.getElem?_map, List.getElem?_set]
      split
      next hij =>
        subst hij
        split
        · rw [hfile]; rfl
        next hlen => rw [List.getElem?_eq_none (by omega)] at hfile; cases hfile
      · rfl
    have hleft : Copying.remaining { c with inFlight := c.inFlight.set i (file, attempt + 1) } =
        c.remaining := by rw [Copying.remaining, Copying.remaining, hsame]
    exact
      { snapshots := h.snapshots, torn := h.torn, later := h.later, drained := h.drained
        files := fun f hf hkind hstop => by rw [hleft]; exact h.files f hf hkind hstop
        subset := fun f hf => h.subset f (hleft ▸ hf)
        inMeta := fun htail => by rw [hsame]; exact h.inMeta htail
        inTail := fun htail f hf => h.inTail htail f (hleft ▸ hf) }

lemma CopySound.writes (h : CopySound format mirror c)
    {next : MirrorFiles H.Digest × Copying H.Digest} (hnext : CopiedOne format mirror c next) :
    next.2.planned = c.planned ∧ (next.1 = mirror ∨
      ∃ f ∈ c.planned, ∃ bytes, (f.kind = .config ∨ H.digest bytes = f.id) ∧
        next.1 = KeyedList.put mirror ((f.kind, f.id), bytes)) := by
  cases hnext with
  | wrote hfile hbytes =>
    exact ⟨rfl, Or.inr ⟨_, h.subset _ (mem_remaining_of_inFlight hfile), _, hbytes, rfl⟩⟩
  | _ => exact ⟨rfl, Or.inl rfl⟩

variable (format) in
lemma startCopy_sound {planned : List (PlannedFile H.Digest)} {remoteConfig : Option Bytes}
    {free : Option ℕ} {minFreeBytes : ℕ}
    (h : startCopy mirror planned remoteConfig free minFreeBytes = some c)
    (hsnapshots : ∀ id ∈ namesIn mirror .snapshot,
      ∃ f ∈ planned, f.kind = .snapshot ∧ f.id = id) :
    c.planned = planned ∧ CopySound format mirror c := by
  simp only [startCopy, Option.bind_eq_bind, Option.bind_eq_some_iff, Option.guard_eq_some'] at h
  obtain ⟨-, -, config, -, free, -, -, -, hc⟩ := h
  obtain rfl := Option.some.inj hc
  have hqueue : ∀ f, f ∈ (planned.filter fun f => !isPresent mirror config f).insertionSort
      queueLe ↔ f ∈ planned ∧ isPresent mirror config f = false := fun f => by
    rw [(List.perm_insertionSort _ _).mem_iff, List.mem_filter, Bool.not_eq_true']
  refine ⟨rfl,
    { snapshots := hsnapshots
      files := fun f hf hkind _ => ?_
      subset := fun f hf => ?_
      torn := by simp
      inMeta := fun _ => ⟨rfl, fun f hf hpack => ?_⟩
      inTail := by simp
      drained := by simp
      later := fun f hf hindex => ?_ }⟩
  · cases hpresent : isPresent mirror config f with
    | false =>
      refine Or.inr (Or.inl (mem_remaining.mpr ?_))
      simp only [List.mem_filter, hqueue, hf, hpresent, true_and, Bool.not_eq_true']
      cases inMetaPhase f <;> simp
    | true =>
      left
      unfold isPresent at hpresent
      split at hpresent
      · cases hpresent
      next bytes hbytes =>
        rw [if_neg hkind, decide_eq_true_eq] at hpresent
        exact ⟨bytes, hbytes, hpresent⟩
  · simp only [mem_remaining, List.mem_filter, hqueue, List.not_mem_nil, exists_false,
      or_false] at hf
    tauto
  · simp [inMetaPhase, hpack, FileKind.rank] at hf
  · simp [inMetaPhase, hindex, FileKind.rank] at hf

end Copy

end ChatStasher.Mirror
