import ChatStasher.Readback.SessionRead

/-! The walks that keep every session of a machine: what they hold of one session is what the walk of
that session alone would hold. -/
namespace ChatStasher.Readback
open Activity (DuplicateShardPolicy)

section Projection

def SequencePaths.ofSession (seen : SequencePaths (Ident × ℕ)) (session : Ident) :
    SequencePaths ℕ where
  paths := seen.paths.filterMap fun e => if e.1.1 = session then some (e.1.2, e.2) else none
  ambiguous := seen.ambiguous.filterMap fun e => if e.1 = session then some e.2 else none

lemma lookup_ofSession (seen : SequencePaths (Ident × ℕ)) (session : Ident) (sequence : ℕ) :
    (seen.ofSession session).paths.lookup sequence = seen.paths.lookup (session, sequence) := by
  rw [SequencePaths.ofSession]
  dsimp only
  induction seen.paths with
  | nil => rfl
  | cons e paths ih =>
    obtain ⟨⟨named, n⟩, path⟩ := e
    by_cases hnamed : named = session
    · subst hnamed
      rw [List.filterMap_cons_some (b := (n, path)) (by simp), List.lookup_cons, List.lookup_cons, ih]
      by_cases hn : sequence = n
      · rw [hn, beq_self_eq_true, beq_self_eq_true]
      · have hne : ((named, sequence) == (named, n)) = false :=
          beq_eq_false_iff_ne.mpr fun h => hn (Prod.mk.inj h).2
        rw [beq_eq_false_iff_ne.mpr hn, hne]
    · have hne : ((session, sequence) == (named, n)) = false :=
        beq_eq_false_iff_ne.mpr fun h => hnamed (Prod.mk.inj h).1.symm
      rw [List.filterMap_cons_none (by simp [hnamed]), List.lookup_cons, hne, ih]

lemma mem_ambiguous_ofSession (seen : SequencePaths (Ident × ℕ)) (session : Ident)
    (sequence : ℕ) :
    sequence ∈ (seen.ofSession session).ambiguous ↔ (session, sequence) ∈ seen.ambiguous := by
  simp [SequencePaths.ofSession]

lemma note_ofSession (seen : SequencePaths (Ident × ℕ)) (session : Ident) (sequence : ℕ)
    (path : FileName) : (seen.note (session, sequence) path).ofSession session =
      (seen.ofSession session).note sequence path := by
  rw [SequencePaths.note, SequencePaths.note, lookup_ofSession]
  split
  · simp [SequencePaths.ofSession]
  · simp [SequencePaths.ofSession]

lemma note_ofSession_of_ne (seen : SequencePaths (Ident × ℕ)) {named session : Ident}
    (h : named ≠ session) (sequence : ℕ) (path : FileName) :
    (seen.note (named, sequence) path).ofSession session = seen.ofSession session := by
  rw [SequencePaths.note]
  split
  · simp [SequencePaths.ofSession, h]
  · simp [SequencePaths.ofSession, h]

variable {rules : ReadRules}

def MachineWalk.ofSession (walk : MachineWalk rules) (session : Ident) : SessionWalk rules where
  held := (walk.held.lookup session).getD []
  sequences := walk.sequences.ofSession session
  observations := (walk.observations.lookup session).getD []
  metadataFound := walk.metadataLoaded

lemma lookup_upsert {K V : Type} [BEq K] [LawfulBEq K] [DecidableEq K] (m : List (K × V)) (k key : K)
    (f : Option V → V) : (KeyedList.upsert m k f).lookup key =
      if key = k then some (f (m.lookup k)) else m.lookup key := by
  rw [KeyedList.upsert, KeyedList.lookup_put]

lemma lookup_observations (rows : List rules.Observation) (session : Ident) :
    ((rows.foldl (fun observations row =>
      KeyedList.upsert observations row.sessionId fun held => held.getD [] ++ [row])
        []).lookup session).getD [] = rows.filter fun row => row.sessionId = session := by
  rw [KeyedList.lookup_foldl_upsert]
  generalize rows.filter (fun row => row.sessionId = session) = mine
  suffices hsuff : ∀ held : Option (List rules.Observation),
      (mine.foldl (fun held row => some (held.getD [] ++ [row])) held).getD [] =
        held.getD [] ++ mine from hsuff none
  induction mine with
  | nil => exact fun held => (List.append_nil _).symm
  | cons row mine ih => exact fun held => by simp [ih]

end Projection

section Walk
variable {rules : ReadRules} {archive : Archive} {machine : Ident} {policy : DuplicateShardPolicy}
  {kept : Ident → Bool} {walk walk' : MachineWalk rules} {entries : List (Path × Node)}

/-- A machine's walk that has met these entries, for the sessions that are kept. -/
structure MachineWalk.Holds (archive : Archive) (machine : Ident) (policy : DuplicateShardPolicy)
    (kept : Ident → Bool) (walk : MachineWalk rules) (entries : List (Path × Node)) : Prop where
  sessions : ∀ session, kept session = true →
    (walk.ofSession session).Holds machine session policy archive entries
  nodup : (walk.held.map Prod.fst).Nodup
  kept_of_mem : ∀ x ∈ walk.held, kept x.1 = true ∧ x.2 ≠ []
  fresh : walk.metadataLoaded = false → walk.observations = []

lemma MachineWalk.Holds.start :
    MachineWalk.Holds archive machine policy kept (MachineWalk.start rules) [] :=
  ⟨fun _ _ => SessionWalk.Holds.start, List.nodup_nil, nofun, fun _ => rfl⟩

lemma meetMachineEntry_ofSession {e : Path × Node}
    (hfresh : walk.metadataLoaded = false → walk.observations = [])
    (hmeet : meetMachineEntry archive machine policy kept walk e = .ok walk') {session : Ident}
    (hkept : kept session = true) :
    meetSessionEntry archive machine session policy (walk.ofSession session) e =
      .ok (walk'.ofSession session) := by
  obtain ⟨path, node⟩ := e
  unfold meetMachineEntry at hmeet
  unfold meetSessionEntry
  dsimp only at hmeet ⊢
  split at hmeet
  next hfile =>
    obtain rfl := Except.ok.inj hmeet
    rw [if_pos hfile]
  next hfile =>
    rw [if_neg hfile]
    split at hmeet
    next hprovenance =>
      rw [if_pos hprovenance]
      split at hmeet
      next hloaded =>
        obtain rfl := Except.ok.inj hmeet
        exact if_pos hloaded
      next hloaded =>
        rw [if_neg (show ¬ (walk.ofSession session).metadataFound = true from hloaded)]
        cases hload : loadObservations rules archive node with
        | error err =>
          rw [hload] at hmeet
          cases hmeet
        | ok rows =>
          rw [hload] at hmeet
          obtain rfl := Except.ok.inj hmeet
          rw [hfresh (by simpa using hloaded)]
          simp only [bind, Except.bind, MachineWalk.ofSession, lookup_observations]
    next hprovenance =>
      rw [if_neg hprovenance]
      split at hmeet
      next hpath =>
        obtain rfl := Except.ok.inj hmeet
        rfl
      next foundMachine named shard hpath =>
        split at hmeet
        next hmachine =>
          obtain rfl := Except.ok.inj hmeet
          rw [if_pos (Or.inl hmachine)]
        next hmachine =>
          split at hmeet
          next hnot =>
            obtain rfl := Except.ok.inj hmeet
            have hother : named ≠ session := by
              rintro rfl
              simp [hkept] at hnot
            rw [if_pos (Or.inr hother)]
          next =>
            obtain rfl := Except.ok.inj hmeet
            by_cases hsame : named = session
            · subst hsame
              rw [if_neg (by simpa using hmachine)]
              simp only [MachineWalk.ofSession, lookup_upsert, if_true, Option.getD_some]
              cases (shardIdentity path shard).2 with
              | none => rfl
              | some sequence => simp only [Option.elim_some, note_ofSession]
            · rw [if_pos (Or.inr hsame)]
              simp only [MachineWalk.ofSession, lookup_upsert, Ne.symm hsame, if_false]
              cases (shardIdentity path shard).2 with
              | none => rfl
              | some sequence => simp only [Option.elim_some, note_ofSession_of_ne _ hsame]

lemma meetMachineEntry_cases {e : Path × Node}
    (hmeet : meetMachineEntry archive machine policy kept walk e = .ok walk') :
    (walk'.held = walk.held ∨ ∃ named held, kept named = true ∧ held ≠ [] ∧
      walk'.held = KeyedList.put walk.held (named, held)) ∧
    (walk'.metadataLoaded = true ∨
      walk'.metadataLoaded = walk.metadataLoaded ∧ walk'.observations = walk.observations) := by
  obtain ⟨path, node⟩ := e
  unfold meetMachineEntry at hmeet
  dsimp only at hmeet
  split at hmeet
  · obtain rfl := Except.ok.inj hmeet
    exact ⟨Or.inl rfl, Or.inr ⟨rfl, rfl⟩⟩
  split at hmeet
  · split at hmeet
    · obtain rfl := Except.ok.inj hmeet
      exact ⟨Or.inl rfl, Or.inr ⟨rfl, rfl⟩⟩
    · cases hload : loadObservations rules archive node with
      | error err =>
        rw [hload] at hmeet
        cases hmeet
      | ok rows =>
        rw [hload] at hmeet
        obtain rfl := Except.ok.inj hmeet
        exact ⟨Or.inl rfl, Or.inl rfl⟩
  split at hmeet
  · obtain rfl := Except.ok.inj hmeet
    exact ⟨Or.inl rfl, Or.inr ⟨rfl, rfl⟩⟩
  next foundMachine named shard hpath =>
    split at hmeet
    · obtain rfl := Except.ok.inj hmeet
      exact ⟨Or.inl rfl, Or.inr ⟨rfl, rfl⟩⟩
    split at hmeet
    · obtain rfl := Except.ok.inj hmeet
      exact ⟨Or.inl rfl, Or.inr ⟨rfl, rfl⟩⟩
    next hkept =>
      obtain rfl := Except.ok.inj hmeet
      refine ⟨Or.inr ⟨named, _, by simpa using hkept, ?_, rfl⟩, Or.inr ⟨rfl, rfl⟩⟩
      intro hnil
      dsimp only at hnil
      have hmem := KeyedList.key_mem_orInsert ((walk.held.lookup named).getD [])
        ((shardIdentity path shard).1,
          (⟨(shardIdentity path shard).2, shard, node⟩ : HeldShard))
      rw [hnil] at hmem
      cases hmem

lemma meetMachineEntry_ok {e : Path × Node} (walk : MachineWalk rules)
    (hload : isMetadata machine policy e = true →
      ∃ rows, loadObservations rules archive e.2 = .ok rows) :
    ∃ walk', meetMachineEntry archive machine policy kept walk e = .ok walk' := by
  obtain ⟨path, node⟩ := e
  unfold meetMachineEntry
  dsimp only
  split
  · exact ⟨_, rfl⟩
  split
  · split
    · exact ⟨_, rfl⟩
    · obtain ⟨rows, hrows⟩ := hload (by simp_all [isMetadata])
      rw [hrows]
      exact ⟨_, rfl⟩
  split
  · exact ⟨_, rfl⟩
  split
  · exact ⟨_, rfl⟩
  split
  · exact ⟨_, rfl⟩
  · exact ⟨_, rfl⟩

lemma MachineWalk.Holds.meet (h : walk.Holds archive machine policy kept entries)
    {e : Path × Node}
    (hmeet : meetMachineEntry archive machine policy kept walk e = .ok walk') :
    walk'.Holds archive machine policy kept (entries ++ [e]) := by
  obtain ⟨hheld, hmetadata⟩ := meetMachineEntry_cases hmeet
  refine ⟨fun session hkept =>
    (h.sessions session hkept).meet (meetMachineEntry_ofSession h.fresh hmeet hkept), ?_, ?_, ?_⟩
  · obtain hheld | ⟨named, held, -, -, hheld⟩ := hheld
    · exact hheld ▸ h.nodup
    · exact hheld ▸ KeyedList.put_nodup h.nodup
  · obtain hheld | ⟨named, held, hnamed, hne, hheld⟩ := hheld
    · exact hheld ▸ h.kept_of_mem
    · intro x hx
      rw [hheld, KeyedList.mem_put] at hx
      obtain rfl | ⟨hx, -⟩ := hx
      · exact ⟨hnamed, hne⟩
      · exact h.kept_of_mem x hx
  · intro hloaded
    obtain htrue | ⟨hsame, hobservations⟩ := hmetadata
    · rw [htrue] at hloaded
      cases hloaded
    · exact hobservations.trans (h.fresh (hsame ▸ hloaded))

lemma MachineWalk.Holds.meetAll (h : walk.Holds archive machine policy kept entries)
    {listing : List (Path × Node)} (hload : ∀ e ∈ listing, isMetadata machine policy e = true →
      ∃ rows, loadObservations rules archive e.2 = .ok rows) :
    ∃ walk', listing.foldlM (meetMachineEntry archive machine policy kept) walk = .ok walk' ∧
      walk'.Holds archive machine policy kept (entries ++ listing) := by
  induction listing generalizing walk entries with
  | nil => exact ⟨walk, rfl, by rwa [List.append_nil]⟩
  | cons e listing ih =>
    obtain ⟨met, hmet⟩ := @meetMachineEntry_ok _ _ _ _ kept _ walk (hload e List.mem_cons_self)
    obtain ⟨walk', hwalk', hholds⟩ := ih (h.meet hmet) fun x hx => hload x (List.mem_cons_of_mem e hx)
    refine ⟨walk', ?_, by simpa using hholds⟩
    rw [List.foldlM_cons, hmet]
    exact hwalk'

end Walk

section Sessions
variable {rules : ReadRules} {archive : Archive} {machine session : Ident}
  {policy : DuplicateShardPolicy} {kept : Ident → Bool} {walk : MachineWalk rules}
  {entries : List (Path × Node)}

def bodyAmong (rules : ReadRules) (archive : Archive) (machine session : Ident)
    (policy : DuplicateShardPolicy) (entries : List (Path × Node)) : Option Bytes :=
  sessionBody session policy
    (observationsOf session rules archive (entries.find? (isMetadata machine policy)))
    [entries.filterMap (archiveEntry machine session policy)]

def bodyPair (e : ArchiveEntry) : Option ℕ × Bytes := (parseShardSeq e.shard, e.body)

lemma MachineWalk.Holds.shardBodies_eq (h : walk.Holds archive machine policy kept entries)
    (hdump : ∀ e ∈ entries, archive.dumpError e.2 = none) (hkept : kept session = true) :
    shardBodies archive ((walk.held.lookup session).getD []) = .ok
      ((heldEntries [entries.filterMap (archiveEntry machine session policy)]).map bodyPair) := by
  have hholds := h.sessions session hkept
  rw [shardBodies, ← hholds.heldEntries_eq, List.map_map]
  refine mapM_ok fun x hx => ?_
  obtain ⟨hsequence, hfile, hmem⟩ := hholds.shards x (KeyedList.mem_inKeyOrder.mp hx)
  obtain ⟨e, he, hnode⟩ := List.mem_map.mp hmem
  obtain ⟨key, held⟩ := x
  dsimp only at hsequence hfile hnode ⊢
  have hbody := dump_eq_ok (hnode ▸ hdump e he) hfile
  rw [hbody, hsequence]
  rfl

lemma published_eq (walk : MachineWalk rules) (session : Ident) (sequence : Option ℕ) :
    walk.published session sequence =
      sequence.filter (· ∉ (walk.ofSession session).sequences.ambiguous) := by
  rw [MachineWalk.published]
  simp only [MachineWalk.ofSession, mem_ambiguous_ofSession]

lemma observedSequences_eq (walk : MachineWalk rules) (session : Ident)
    (held : List ArchiveEntry) :
    walk.observedSequences session (held.map bodyPair) =
      verifiedObservationSequences session (walk.ofSession session).observations
        (held.map fun e => ((parseShardSeq e.shard).filter
          (· ∉ (walk.ofSession session).sequences.ambiguous), e.body)) := by
  rw [MachineWalk.observedSequences, List.map_map]
  simp only [Function.comp_def, published_eq, bodyPair]
  rfl

lemma MachineWalk.Holds.bodyAmong_eq (h : walk.Holds archive machine policy kept entries)
    (hkept : kept session = true) :
    bodyAmong rules archive machine session policy entries =
      (walk.held.lookup session).map fun _ =>
        ((ChatStasher.dumpCumulativeSession
          (verifiedObservationSequences session (walk.ofSession session).observations)
          policy.collapses [entries.filterMap (archiveEntry machine session policy)]).map
            ArchiveEntry.body).flatten := by
  have hholds := h.sessions session hkept
  rw [bodyAmong, sessionBody, ← hholds.observations]
  cases hlookup : walk.held.lookup session with
  | none =>
    have hnil : (walk.ofSession session).held = [] := by simp [MachineWalk.ofSession, hlookup]
    rw [if_pos (hholds.heldEntries_eq_nil.mpr hnil), Option.map_none]
  | some held =>
    have hmem := (KeyedList.lookup_eq_some_iff_mem h.nodup).mp hlookup
    have hne : (walk.ofSession session).held ≠ [] := by
      simpa [MachineWalk.ofSession, hlookup] using (h.kept_of_mem _ hmem).2
    rw [if_neg fun hnil => hne (hholds.heldEntries_eq_nil.mp hnil), Option.map_some]

lemma MachineWalk.Holds.visitedShards_eq (h : walk.Holds archive machine policy kept entries)
    (hkept : kept session = true) :
    ((visitedShards policy walk session
      ((heldEntries [entries.filterMap (archiveEntry machine session policy)]).map bodyPair)).map
        Prod.snd) =
      (ChatStasher.dumpCumulativeSession
        (verifiedObservationSequences session (walk.ofSession session).observations)
        policy.collapses [entries.filterMap (archiveEntry machine session policy)]).map
          ArchiveEntry.body := by
  have hambiguous := (h.sessions session hkept).ambiguous_eq
  rw [visitedShards, ChatStasher.dumpCumulativeSession]
  cases hpolicy : policy.collapses with
  | false =>
    simp only [Bool.false_eq_true, if_false, List.map_map, List.contains_nil, Bool.false_and,
      Bool.not_false, List.filter_true, List.zipIdx_map_fst]
    rfl
  | true =>
    simp only [if_true, observedSequences_eq, hambiguous, published_eq, List.map_map,
      List.zipIdx_map, List.filter_map]
    refine congrArg₂ List.map rfl (List.filter_congr fun x _ => ?_)
    have hpair : bodyPair = fun e => (parseShardSeq e.shard, e.body) := rfl
    simp [Bool.not_and, hpair]

lemma Concatenation.append_concat (row : Concatenation rules) (sequence : Option ℕ)
    (body : Bytes) : (row.append sequence body).concat = row.concat ++ body := rfl

lemma addShard_concat (walk : MachineWalk rules) (wouldFold observedSequences : List ℕ)
    (row : Concatenation rules) (shard : (Option ℕ × Bytes) × ℕ) :
    (addShard policy walk session wouldFold observedSequences row shard).concat =
      row.concat ++ if policy.collapses && (wouldFold.contains shard.2 &&
        !(walk.published session shard.1.1).any (observedSequences.contains ·)) then []
      else shard.1.2 := by
  obtain ⟨⟨raw, body⟩, index⟩ := shard
  unfold addShard
  dsimp only
  generalize (wouldFold.contains index &&
    !(walk.published session raw).any (observedSequences.contains ·)) = folds
  cases folds with
  | false => simp [Concatenation.append_concat]
  | true =>
    cases policy.collapses with
    | false => simp [Concatenation.append_concat]
    | true => simp

lemma foldl_addShard_concat (walk : MachineWalk rules) (wouldFold observedSequences : List ℕ)
    (shards : List ((Option ℕ × Bytes) × ℕ)) (row : Concatenation rules) :
    (shards.foldl (addShard policy walk session wouldFold observedSequences) row).concat =
      row.concat ++ ((shards.filter fun shard => !(policy.collapses && (wouldFold.contains shard.2 &&
        !(walk.published session shard.1.1).any (observedSequences.contains ·)))).map fun shard =>
          shard.1.2).flatten := by
  induction shards generalizing row with
  | nil => simp
  | cons shard shards ih =>
    rw [List.foldl_cons, ih, addShard_concat, List.filter_cons]
    generalize (policy.collapses && (wouldFold.contains shard.2 &&
      !(walk.published session shard.1.1).any (observedSequences.contains ·))) = folds
    cases folds with
    | false => simp
    | true => simp

lemma MachineWalk.Holds.sessionBackedUp_sha256 (h : walk.Holds archive machine policy kept entries)
    (hkept : kept session = true) :
    (sessionBackedUp policy machine walk session
      ((heldEntries [entries.filterMap (archiveEntry machine session policy)]).map bodyPair)).sha256 =
      rules.H.digest ((ChatStasher.dumpCumulativeSession
        (verifiedObservationSequences session (walk.ofSession session).observations)
        policy.collapses [entries.filterMap (archiveEntry machine session policy)]).map
          ArchiveEntry.body).flatten := by
  have hambiguous := (h.sessions session hkept).ambiguous_eq
  rw [sessionBackedUp]
  dsimp only
  rw [foldl_addShard_concat, List.nil_append, ChatStasher.dumpCumulativeSession]
  refine congrArg (fun bodies : List Bytes => rules.H.digest bodies.flatten) ?_
  simp only [observedSequences_eq, hambiguous, published_eq, List.map_map, List.zipIdx_map,
    List.filter_map]
  have hpair : bodyPair = fun e => (parseShardSeq e.shard, e.body) := rfl
  refine congrArg₂ List.map rfl (List.filter_congr fun x _ => ?_)
  cases policy.collapses with
  | false => simp
  | true => simp [hpair]

end Sessions

end ChatStasher.Readback
