import ChatStasher.Collect.LinesKept
import ChatStasher.Collect.FactSpec

/-! A source that only grows is sealed exactly once, whichever destination reads it. -/
namespace ChatStasher

variable {H : Sha256}

/-- A debt whose cursor stands inside the sealed bytes and whose shards are leading shards. -/
structure DebtExact (H : Sha256) (machine : Ident) (shards : List (ℕ × Bytes))
    (e : DebtEntry H.Digest) : Prop where
  machine_eq : e.machine = machine
  cursor : ∃ n ≤ (shardBytes shards).length, e.cursor = cursorAt H (shardBytes shards) n ∧
    Terminated ((shardBytes shards).take n)
  shards : ∃ part, part <+: readable shards ∧ e.shards = factOf H part

lemma DebtExact.mono {machine : Ident} {shards shards' : List (ℕ × Bytes)}
    {e : DebtEntry H.Digest} (h : DebtExact H machine shards e) (hgrow : shards <+: shards') :
    DebtExact H machine shards' e := by
  obtain ⟨rest, rfl⟩ := hgrow
  obtain ⟨n, hn, hcursor, hterm⟩ := h.cursor
  obtain ⟨part, hpart, hshards⟩ := h.shards
  refine ⟨h.machine_eq, ⟨n, ?_, ?_, ?_⟩, part, hpart.trans ?_, hshards⟩
  · rw [shardBytes_append, List.length_append]
    exact Nat.le_add_right_of_le hn
  · rw [hcursor, shardBytes_append, cursorAt_of_isPrefix (List.prefix_append _ _) hn]
  · rwa [shardBytes_append, List.take_append_of_le_length hn]
  · rw [readable, readable, List.filter_append]
    exact List.prefix_append _ _

/-- The stage holds a prefix of the source, and every debt stands inside it. -/
structure SealsExactly {ι : Type} (machine : Ident) (s : CollectState H ι)
    (shards : List (ℕ × Bytes)) : Prop where
  staged : Staged s.dir shards
  sealed_isPrefix : shardBytes shards <+: s.source.bytes
  debts : ∀ dest, ∀ e ∈ s.debts dest, DebtExact H machine shards e
  grown : ∀ v ∈ s.versions, v.bytes <+: s.source.bytes
  cache : CacheSound H s.versions s.cache
  current : s.source ∈ s.versions

/-- Where a pass starts is not left to shards that no reader can name: all are readable, or the
destination's own cursor already stands behind everything sealed. -/
def StartsBehindAll {ι : Type} (s : CollectState H ι) (dest : ι) : Prop :=
  (∀ p ∈ installedShards s.dir, p.1 < 10 ^ 6) ∨
    ∃ e ∈ s.debts dest, e.cursor.offset = (shardBytes (installedShards s.dir)).length

section Pass
variable {ι : Type} {machine : Ident} {s : CollectState H ι} {shards : List (ℕ × Bytes)}

lemma SealsExactly.unaliased (h : SealsExactly machine s shards) : Unaliased s.versions := by
  rintro u hu v hv hid -
  have hlen : u.bytes.length = v.bytes.length := congrArg FileIdentity.size hid
  exact (List.prefix_of_prefix_length_le (h.grown u hu) (h.grown v hv) hlen.le).eq_of_length hlen

lemma shardBytes_eq_nil {d : SessionDir} (h : Staged d shards) :
    shardBytes shards = [] ↔ shards = [] := by
  constructor
  · intro hnil
    cases shards with
    | nil => rfl
    | cons p rest =>
      have hp := h.nonempty p List.mem_cons_self
      simp [shardBytes, hp] at hnil
  · rintro rfl
    rfl

lemma Staged.readable_of_length {d : SessionDir} (h : Staged d shards)
    (hlen : (shardBytes (readable shards)).length = (shardBytes shards).length) {p : ℕ × Bytes}
    (hp : p ∈ shards) : p.1 < 10 ^ 6 := by
  obtain ⟨rest, hrest⟩ := readable_isPrefix h.sorted
  have hsum : (shardBytes shards).length =
      (shardBytes (readable shards)).length + (shardBytes rest).length := by
    rw [← List.length_append, ← shardBytes_append, hrest]
  rw [← hrest] at hp
  rcases List.mem_append.mp hp with hp | hp
  · exact of_decide_eq_true (List.mem_filter.mp hp).2
  · have hnil := length_le_shardBytes hp
    have hne := h.nonempty p (hrest ▸ List.mem_append_right _ hp)
    exact absurd (List.eq_nil_of_length_eq_zero (by omega)) hne

lemma Staged.stagePosition_eq {d : SessionDir} {source : SourceFile} (h : Staged d shards)
    (hpre : shardBytes (readable shards) <+: source.bytes) (hne : readable shards ≠ []) :
    stagePosition H source d none =
      some (cursorAt H source.bytes (shardBytes (readable shards)).length) := by
  have hframed : ∀ p ∈ readable shards, Terminated p.2 := fun p hp =>
    h.framed p (List.mem_of_mem_filter hp)
  have hnil : (readable shards).map Prod.snd ≠ [] := by simpa using hne
  have hpos : shardBytes (readable shards) ≠ [] := by
    obtain ⟨p, rest, hcons⟩ := List.exists_cons_of_ne_nil hne
    have hp : p ∈ shards := List.mem_of_mem_filter (hcons ▸ List.mem_cons_self)
    simp [hcons, shardBytes, h.nonempty p hp]
  have hprobe : source.bytes.take (min source.bytes.length (shardBytes (readable shards)).length) =
      shardBytes (readable shards) := by
    rw [Nat.min_eq_right hpre.length_le]
    exact (List.prefix_iff_eq_take.mp hpre).symm
  have hcovered : coveredSourcePrefix (shardBytes (readable shards))
      (shardBytes (readable shards)) = (shardBytes (readable shards)).length := by
    rw [coveredSourcePrefix_spec]
    have hall : (linesOf (shardBytes (readable shards))).length ≤ PrefixScan.longestPrefixRun
        (linesOf (shardBytes (readable shards))) (linesOf (shardBytes (readable shards))) :=
      PrefixScan.le_longestPrefixRun le_rfl (by simp)
    rw [List.take_of_length_le hall]
    exact congrArg List.length (terminated_shardBytes hframed)
  rw [stagePosition, h.stageSealedShards_eq, if_neg hnil, ← shardBytes, jsonlPrefixEntryFromShards]
  simp only [hprobe, hcovered, List.length_eq_zero_iff, if_neg hpos, List.take_length]
  rw [cursorAt, ← List.prefix_iff_eq_take.mp hpre]

lemma Holds.stagePosition_nil {d : SessionDir} (h : Holds d shards) (source : SourceFile)
    (hnil : readable shards = []) : stagePosition H source d none = none := by
  rw [stagePosition, if_pos (by rw [h.stageSealedShards_eq, hnil]; rfl), Option.bind_none]

/-- How far the readable shards and the destination's own cursor vouch for the source. -/
def vouched (s : CollectState H ι) (shards : List (ℕ × Bytes)) (dest : ι) : ℕ :=
  max (shardBytes (readable shards)).length ((s.debts dest).elim 0 fun e => e.cursor.offset)

lemma SealsExactly.vouched_le (h : SealsExactly machine s shards) (dest : ι) :
    vouched s shards dest ≤ (shardBytes shards).length := by
  refine max_le (shardBytes_isPrefix (readable_isPrefix h.staged.sorted)).length_le ?_
  cases hdebt : s.debts dest with
  | none => exact Nat.zero_le _
  | some e =>
    obtain ⟨n, hn, hcursor, -⟩ := (h.debts dest e hdebt).cursor
    rw [Option.elim_some, hcursor]
    exact hn

lemma SealsExactly.terminated_vouched (h : SealsExactly machine s shards) (dest : ι) :
    Terminated (s.source.bytes.take (vouched s shards dest)) := by
  have htake : s.source.bytes.take (vouched s shards dest) =
      (shardBytes shards).take (vouched s shards dest) := by
    obtain ⟨rest, hrest⟩ := h.sealed_isPrefix
    rw [← hrest, List.take_append_of_le_length (h.vouched_le dest)]
  rw [htake]
  rcases max_choice (shardBytes (readable shards)).length
    ((s.debts dest).elim 0 fun e => e.cursor.offset) with hmax | hmax
  · have hpre := shardBytes_isPrefix (readable_isPrefix h.staged.sorted)
    rw [vouched, hmax, ← List.prefix_iff_eq_take.mp hpre]
    exact terminated_shardBytes fun p hp => h.staged.framed p (List.mem_of_mem_filter hp)
  · rw [vouched, hmax]
    cases hdebt : s.debts dest with
    | none => exact Framing.terminated_nil newline
    | some e =>
      obtain ⟨n, -, hcursor, hterm⟩ := (h.debts dest e hdebt).cursor
      rw [Option.elim_some, hcursor]
      exact hterm

lemma SealsExactly.startsBehindAll_iff (h : SealsExactly machine s shards) (dest : ι) :
    StartsBehindAll s dest ↔ vouched s shards dest = (shardBytes shards).length := by
  rw [StartsBehindAll, h.staged.installed]
  constructor
  · intro hstart
    refine le_antisymm (h.vouched_le dest) ?_
    rcases hstart with hall | ⟨e, he, hend⟩
    · have hreadable : readable shards = shards :=
        List.filter_eq_self.mpr fun p hp => decide_eq_true (hall p hp)
      rw [vouched, hreadable]
      exact le_max_left _ _
    · rw [vouched, he, Option.elim_some, hend]
      exact le_max_right _ _
  · intro hvouched
    rcases max_choice (shardBytes (readable shards)).length
      ((s.debts dest).elim 0 fun e => e.cursor.offset) with hmax | hmax
    · rw [vouched, hmax] at hvouched
      exact Or.inl fun p hp => h.staged.readable_of_length hvouched hp
    · rw [vouched, hmax] at hvouched
      cases hdebt : s.debts dest with
      | none =>
        rw [hdebt, Option.elim_none] at hvouched
        have hnil := (shardBytes_eq_nil h.staged).mp
          (List.eq_nil_of_length_eq_zero hvouched.symm)
        exact Or.inl (by simp [hnil])
      | some e =>
        rw [hdebt, Option.elim_some] at hvouched
        exact Or.inr ⟨e, rfl, hvouched⟩

lemma SealsExactly.startCursor_eq (h : SealsExactly machine s shards) (dest : ι)
    {record : SessionRecord} (hrecord : byteEqualityEstablishesEventIdentity record = true) :
    startCursor H record s.source (s.debts dest) false s.dir none =
        some (cursorAt H s.source.bytes (vouched s shards dest)) ∨
      (startCursor H record s.source (s.debts dest) false s.dir none = none ∧
        vouched s shards dest = 0) := by
  have hpre : shardBytes (readable shards) <+: s.source.bytes :=
    (shardBytes_isPrefix (readable_isPrefix h.staged.sorted)).trans h.sealed_isPrefix
  cases hdebt : s.debts dest with
  | none =>
    have hflag : (record.hasProvenance && !record.movableRoot) = false := by
      rw [byteEqualityEstablishesEventIdentity] at hrecord
      cases hp : record.hasProvenance <;> simp_all
    simp only [startCursor, hflag, Bool.false_eq_true, if_false, vouched, hdebt, Option.elim_none,
      Nat.max_zero]
    by_cases hnil : readable shards = []
    · exact Or.inr ⟨h.staged.stagePosition_nil s.source hnil, by rw [hnil]; rfl⟩
    · exact Or.inl (h.staged.stagePosition_eq hpre hnil)
  | some e =>
    obtain ⟨n, hn, hcursor, -⟩ := (h.debts dest e hdebt).cursor
    have hoffset : e.cursor.offset = n := by rw [hcursor]; rfl
    rw [cursorAt_of_isPrefix h.sealed_isPrefix hn] at hcursor
    left
    simp only [startCursor, Bool.not_false, Bool.true_and, Option.any_none, vouched, hdebt,
      Option.elim_some, h.staged.sessionStageLen_eq, hoffset]
    by_cases hle : (shardBytes (readable shards)).length ≤ n
    · simp [hle, hcursor]
    · have hlt := Nat.lt_of_not_le hle
      have hnil : readable shards ≠ [] := by
        intro hnil
        simp [hnil, shardBytes] at hlt
      rw [if_neg hle, h.staged.stagePosition_eq hpre hnil, Nat.max_eq_left hlt.le]
      simp [Option.filter, cursorAt, hlt]

theorem SealsExactly.start (h : SealsExactly machine s shards) {dest : ι}
    {record : SessionRecord} (hrecord : byteEqualityEstablishesEventIdentity record = true)
    {base : ℕ} {reset : Bool}
    (hread : ReadStart H s.source.bytes
      (startCursor H record s.source (s.debts dest) false s.dir none) false base reset) :
    base = vouched s shards dest ∧ reset = false ∧
      (startCursor H record s.source (s.debts dest) false s.dir none).getD (zeroCursor H) =
        cursorAt H s.source.bytes base := by
  have hle := h.vouched_le dest
  rcases h.startCursor_eq dest hrecord with hold | ⟨hold, hzero⟩
  · rw [hold] at hread ⊢
    have hreuse : Reusable H s.source.bytes (cursorAt H s.source.bytes (vouched s shards dest)) :=
      ⟨rfl, rfl, hle.trans h.sealed_isPrefix.length_le, rfl⟩
    cases hread with
    | cursor e he _ _ =>
      obtain rfl := Option.some.inj he
      exact ⟨rfl, rfl, rfl⟩
    | beginning hnot => exact absurd hreuse (hnot _ rfl rfl)
  · rw [hold] at hread ⊢
    cases hread with
    | cursor e he => cases he
    | beginning => exact ⟨hzero.symm, rfl, rfl⟩

lemma SealsExactly.verified (h : SealsExactly machine s shards) {dest : ι}
    {input : PassInput H.Digest} (hmachine : input.machine = machine) :
    (s.debts dest).any (fun e =>
      (verifyDebt H e input.machine s.dir input.remoteFacts none).isUnverifiable) = false := by
  cases hdebt : s.debts dest with
  | none => rfl
  | some e =>
    have he := h.debts dest e hdebt
    obtain ⟨part, hpart, hshards⟩ := he.shards
    rw [Option.any_some, h.staged.verifyDebt_owed (he.machine_eq.trans hmachine.symm) hshards hpart]
    rfl

/-- One pass that starts behind everything sealed: it seals exactly the complete lines behind
that, as at most one shard under the next number. -/
theorem SealsExactly.passResult_eq (h : SealsExactly machine s shards) {dest : ι}
    (hstart : StartsBehindAll s dest) {input : PassInput H.Digest}
    (hmachine : input.machine = machine)
    (hrecord : byteEqualityEstablishesEventIdentity input.record = true) :
    ∃ out dir cache shards', passResult H s dest input = (some out, dir, cache) ∧
      Staged dir shards' ∧ shards <+: shards' ∧
      shardBytes shards' = completePart s.source.bytes ∧
      (dir = s.dir ∧ shards' = shards ∨
        shards' = shards ++ [(s.dir.lastSeq + 1, completePart (s.source.bytes.drop
          (shardBytes shards).length))] ∧ dir.lastSeq = s.dir.lastSeq + 1) ∧
      Staged { s.dir with counter := dir.counter } shards ∧
      DebtExact H machine shards' out.entry ∧ CacheSound H s.versions cache := by
  obtain ⟨manifestFact, processed, dir, cache, base, reset, facts, hmanifest, hrun, hcache, hread,
    heffect, hfacts⟩ := processRecordInner_spec h.unaliased h.current h.cache h.staged.toHolds input
      none none (s.debts dest)
  obtain rfl : manifestFact = none := by simpa using hmanifest
  rw [h.verified hmachine] at hread heffect hfacts
  obtain ⟨hbase, rfl, hold⟩ := h.start hrecord hread
  obtain rfl := hbase.trans ((h.startsBehindAll_iff dest).mp hstart)
  have htake : s.source.bytes.take (shardBytes shards).length = shardBytes shards :=
    (List.prefix_iff_eq_take.mp h.sealed_isPrefix).symm
  have hterm := terminated_shardBytes h.staged.framed
  have hcomplete := (completePart_split (htake.symm ▸ hterm)).2
  have hlen := length_completePart_split (htake.symm ▸ hterm) h.sealed_isPrefix.length_le
  rw [htake] at hcomplete
  have hcursor : ∀ shards', shardBytes shards' = completePart s.source.bytes →
      cursorAt H s.source.bytes (completePart s.source.bytes).length =
        cursorAt H (shardBytes shards') (shardBytes shards').length := by
    intro shards' hbytes
    rw [hbytes, cursorAt_of_isPrefix (completePart_isPrefix _) le_rfl]
  cases heffect with
  | archived fact hfact => cases hfact
  | quiet state hnone hstate =>
    have hsame : shardBytes shards = completePart s.source.bytes := by
      rw [hcomplete, linesOf_eq_nil.mp hnone, List.append_nil]
    obtain rfl : state = cursorAt H s.source.bytes (shardBytes shards).length := by
      rcases hstate with ⟨-, rfl⟩ | ⟨hbad, -⟩
      · exact hold
      · cases hbad
    refine ⟨_, _, cache, shards, hrun, h.staged, List.prefix_refl _, hsame, Or.inl ⟨rfl, rfl⟩,
      h.staged, ⟨hmachine, ⟨_, le_rfl, ?_, by rwa [List.take_length]⟩, ?_⟩, hcache⟩
    · exact (cursorAt_of_isPrefix h.sealed_isPrefix le_rfl).symm
    · rcases hfacts with rfl | ⟨e, he, rfl, -⟩
      · exact ⟨readable shards, List.prefix_refl _, h.staged.shardFactInDir_eq⟩
      · exact (h.debts dest e he).shards
  | seals hsome data hbase hreset write d' hwrite =>
    have hne : completePart (s.source.bytes.drop (shardBytes shards).length) ≠ [] := fun hnil =>
      hsome (linesOf_eq_nil.mpr hnil)
    rcases h.staged.write (completePart_terminated _) hne hwrite with
      ⟨-, hallow, p, hp, -⟩ | ⟨rfl, hd'⟩
    · -- the deduplicating writer is only asked while nothing is sealed
      have hzero : (shardBytes shards).length = 0 := by
        by_contra hpos
        simp [allowsExactRepeat, hbase, hreset, Nat.pos_of_ne_zero hpos] at hallow
      have hnil := (shardBytes_eq_nil h.staged).mp (List.eq_nil_of_length_eq_zero hzero)
      rw [hnil] at hp
      cases hp
    · have hbytes : shardBytes (shards ++ [(s.dir.lastSeq + 1,
          completePart (s.source.bytes.drop (shardBytes shards).length))]) =
            completePart s.source.bytes := by
        rw [shardBytes_append, hcomplete]
        simp [shardBytes]
      rw [hlen] at hrun
      refine ⟨_, _, cache, _, hrun, hd', List.prefix_append _ _, hbytes, Or.inr ⟨rfl, rfl⟩,
        ⟨h.staged.skip, h.staged.framed, h.staged.nonempty⟩,
        ⟨hmachine, ⟨_, le_rfl, hcursor _ hbytes, ?_⟩, ?_⟩, hcache⟩
      · rw [List.take_length]
        exact terminated_shardBytes hd'.framed
      rcases hfacts with rfl | ⟨e, -, -, hbad, -⟩
      · exact ⟨_, List.prefix_refl _, hd'.shardFactInDir_eq⟩
      · cases hbad

theorem SealsExactly.passResult_reseals (h : SealsExactly machine s shards) {dest : ι}
    (hstart : ¬ StartsBehindAll s dest) {input : PassInput H.Digest}
    (hmachine : input.machine = machine)
    (hrecord : byteEqualityEstablishesEventIdentity input.record = true) :
    ∃ out dir cache shards', passResult H s dest input = (some out, dir, cache) ∧
      Staged dir shards' ∧
      (completePart s.source.bytes).length < (shardBytes shards').length := by
  obtain ⟨manifestFact, processed, dir, cache, base, reset, facts, hmanifest, hrun, -, hread,
    heffect, -⟩ := processRecordInner_spec h.unaliased h.current h.cache h.staged.toHolds input
      none none (s.debts dest)
  obtain rfl : manifestFact = none := by simpa using hmanifest
  rw [h.verified hmachine] at hread heffect
  obtain ⟨hvouched, rfl, -⟩ := h.start hrecord hread
  have hterm : Terminated (s.source.bytes.take base) := hvouched ▸ h.terminated_vouched dest
  have hearly : base < (shardBytes shards).length := by
    refine lt_of_le_of_ne (hvouched ▸ h.vouched_le dest) fun heq => hstart ?_
    exact (h.startsBehindAll_iff dest).mpr (hvouched ▸ heq)
  have hlen := length_completePart_split hterm hread.le_length
  have hsealed : (shardBytes shards).length ≤ (completePart s.source.bytes).length := by
    obtain ⟨rest, hrest⟩ := h.sealed_isPrefix
    rw [← hrest, completePart_append (terminated_shardBytes h.staged.framed), List.length_append]
    exact Nat.le_add_right _ _
  have hne : completePart (s.source.bytes.drop base) ≠ [] := by
    intro hnil
    rw [hnil, List.length_nil] at hlen
    omega
  cases heffect with
  | archived fact hfact => cases hfact
  | quiet state hnone => exact absurd (linesOf_eq_nil.mp hnone) hne
  | seals hsome data hbase hreset write d' hwrite =>
    rcases h.staged.write (completePart_terminated _) hne hwrite with
      ⟨-, hallow, p, hp, -⟩ | ⟨rfl, hd'⟩
    · -- a repeat is only looked for from the beginning, and then nothing is readable
      have hzero : base = 0 := by
        by_contra hpos
        simp [allowsExactRepeat, hbase, hreset, Nat.pos_of_ne_zero hpos] at hallow
      have hnil : p.2.length ≤ vouched s shards dest :=
        (length_le_shardBytes hp).trans (le_max_left _ _)
      rw [← hvouched, hzero, Nat.le_zero] at hnil
      exact absurd (List.eq_nil_of_length_eq_zero hnil)
        (h.staged.nonempty p (List.mem_of_mem_filter hp))
    · refine ⟨_, _, cache, _, hrun, hd', ?_⟩
      rw [shardBytes_append, List.length_append, ← hlen]
      simp only [shardBytes, List.map_cons, List.map_nil, List.flatten_cons, List.flatten_nil,
        List.append_nil]
      exact Nat.add_lt_add_right hearly _

end Pass

section Runs
variable {ι : Type}

lemma SealsExactly.fresh (machine : Ident) (source : SourceFile) :
    SealsExactly machine (CollectState.fresh H ι source) [] :=
  ⟨.empty, List.nil_prefix, by simp [CollectState.fresh],
    fun _ hv => List.mem_singleton.mp hv ▸ List.prefix_refl _,
    by simp [CollectState.fresh, CacheSound], List.mem_singleton_self _⟩

variable [DecidableEq ι]

/-- Writes only append, and passes are for this machine and for records whose bytes identify their
events. -/
def AppendsOnly (machine : Ident) (s : CollectState H ι) : CollectAction H ι → Prop
  | .write version => s.source.bytes <+: version.bytes
  | .pass _ input _ =>
    input.machine = machine ∧ byteEqualityEstablishesEventIdentity input.record = true

def PassesStart (s : CollectState H ι) : CollectAction H ι → Prop
  | .write _ => True
  | .pass dest _ _ => StartsBehindAll s dest

instance AppendsOnly.decidable (machine : Ident) (s : CollectState H ι) :
    ∀ a, Decidable (AppendsOnly machine s a)
  | .write version => inferInstanceAs (Decidable (s.source.bytes <+: version.bytes))
  | .pass _ input _ => inferInstanceAs (Decidable (input.machine = machine ∧
      byteEqualityEstablishesEventIdentity input.record = true))

instance PassesStart.decidable (s : CollectState H ι) : ∀ a, Decidable (PassesStart s a)
  | .write _ => inferInstanceAs (Decidable True)
  | .pass dest _ _ => inferInstanceAs (Decidable ((∀ p ∈ installedShards s.dir, p.1 < 10 ^ 6) ∨
      ∃ e ∈ s.debts dest, e.cursor.offset = (shardBytes (installedShards s.dir)).length))

/-- A step together with the source as the latest sealing pass saw it. -/
def watchStep (t : CollectState H ι × Bytes) (a : CollectAction H ι) : CollectState H ι × Bytes :=
  let s := collectStep H t.1 a
  (s, if s.dir.files = t.1.dir.files then t.2 else t.1.source.bytes)

/-- The run's invariant: the stage is exact, and holds what the latest sealing pass saw. -/
def WatchInv (machine : Ident) (t : CollectState H ι × Bytes) : Prop :=
  ∃ shards, SealsExactly machine t.1 shards ∧ shardBytes shards = completePart t.2

lemma SealsExactly.write {machine : Ident} {s : CollectState H ι} {shards : List (ℕ × Bytes)}
    (h : SealsExactly machine s shards) {version : SourceFile}
    (hgrow : s.source.bytes <+: version.bytes) :
    SealsExactly machine (collectStep H s (.write version)) shards := by
  refine ⟨h.staged, h.sealed_isPrefix.trans hgrow, h.debts, fun v hv => ?_,
    h.cache.mono (List.subset_cons_self _ _), List.mem_cons_self⟩
  rcases List.mem_cons.mp hv with rfl | hv
  · exact List.prefix_refl _
  · exact (h.grown v hv).trans hgrow

/-- A pass keeps the stage exact wherever it dies, and brings it up to date if it gets to seal. -/
theorem SealsExactly.pass {machine : Ident} {s : CollectState H ι} {shards : List (ℕ × Bytes)}
    (h : SealsExactly machine s shards) {dest : ι} {input : PassInput H.Digest} (fate : PassFate)
    (hok : AppendsOnly machine s (.pass dest input fate)) (hstart : StartsBehindAll s dest) :
    ∃ shards', SealsExactly machine (collectStep H s (.pass dest input fate)) shards' ∧
      ((collectStep H s (.pass dest input fate)).dir.files = s.dir.files ∧ shards' = shards ∨
        (collectStep H s (.pass dest input fate)).dir.files ≠ s.dir.files ∧
          shardBytes shards' = completePart s.source.bytes) ∧
      (fate ≠ .diesNumbered → shardBytes shards' = completePart s.source.bytes) := by
  obtain ⟨out, dir, cache, shards', hrun, hd', hgrow, hbytes, hcases, hskip, hentry, hcache⟩ :=
    h.passResult_eq hstart hok.1 hok.2
  have hsealed : shardBytes shards' <+: s.source.bytes := hbytes ▸ completePart_isPrefix _
  have hold : ∀ dest, ∀ e ∈ s.debts dest, DebtExact H machine shards' e :=
    fun dest e he => (h.debts dest e he).mono hgrow
  have hnew : ∀ dest', ∀ e ∈ Function.update s.debts dest (some out.entry) dest',
      DebtExact H machine shards' e := by
    intro dest' e he
    by_cases heq : dest' = dest
    · subst heq
      rw [Function.update_self] at he
      obtain rfl := Option.some.inj he
      exact hentry
    · rw [Function.update_of_ne heq] at he
      exact hold dest' e he
  have hfiles : dir.files = s.dir.files ∧ shards' = shards ∨
      dir.files ≠ s.dir.files ∧ shardBytes shards' = completePart s.source.bytes := by
    rcases hcases with ⟨rfl, rfl⟩ | ⟨rfl, -⟩
    · exact Or.inl ⟨rfl, rfl⟩
    · refine Or.inr ⟨fun heq => ?_, hbytes⟩
      have hlen := congrArg List.length heq
      rw [hd'.files_length, h.staged.files_length] at hlen
      simp at hlen
  simp only [collectStep, hrun]
  cases fate with
  | completes =>
    exact ⟨shards', ⟨hd', hsealed, hnew, h.grown, hcache, h.current⟩, hfiles, fun _ => hbytes⟩
  | diesNumbered =>
    exact ⟨shards, ⟨hskip, h.sealed_isPrefix, h.debts, h.grown, h.cache, h.current⟩,
      Or.inl ⟨rfl, rfl⟩, fun hne => absurd rfl hne⟩
  | diesSealed =>
    exact ⟨shards', ⟨hd', hsealed, hold, h.grown, h.cache, h.current⟩, hfiles, fun _ => hbytes⟩
  | diesFlushing =>
    exact ⟨shards', ⟨hd', hsealed, hnew, h.grown, h.cache, h.current⟩, hfiles, fun _ => hbytes⟩

theorem watchStep_inv {machine : Ident} (t : CollectState H ι × Bytes) (a : CollectAction H ι)
    (h : WatchInv machine t) (hok : AppendsOnly machine t.1 a ∧ PassesStart t.1 a) :
    WatchInv machine (watchStep t a) := by
  obtain ⟨shards, hinv, hseen⟩ := h
  cases a with
  | write version =>
    refine ⟨shards, hinv.write hok.1, ?_⟩
    have hsame : (collectStep H t.1 (.write version)).dir.files = t.1.dir.files := rfl
    rw [watchStep, if_pos hsame]
    exact hseen
  | pass dest input fate =>
    obtain ⟨shards', hinv', hfiles, -⟩ := hinv.pass fate hok.1 hok.2
    refine ⟨shards', hinv', ?_⟩
    rcases hfiles with ⟨hsame, rfl⟩ | ⟨hgrown, hbytes⟩
    · rw [watchStep, if_pos hsame]
      exact hseen
    · rw [watchStep, if_neg hgrown]
      exact hbytes

/-- An append-only source is sealed exactly once: the sealed shards are the complete lines the
latest sealing pass saw. A pass that gets to seal brings them up to its own version if and only if
it may start behind all of them. -/
theorem appended_source_sealed_once (machine : Ident) (source : SourceFile)
    (actions : List (CollectAction H ι))
    (hok : StepRun.Along watchStep (fun t a => AppendsOnly machine t.1 a ∧ PassesStart t.1 a)
      (.fresh H ι source, []) actions) :
    let t := StepRun.exec watchStep (.fresh H ι source, []) actions
    shardBytes (installedShards t.1.dir) = completePart t.2 ∧
      ∀ dest input fate, AppendsOnly machine t.1 (.pass dest input fate) → fate ≠ .diesNumbered →
        (shardBytes (installedShards (collectStep H t.1 (.pass dest input fate)).dir) =
          completePart t.1.source.bytes ↔ StartsBehindAll t.1 dest) := by
  intro t
  have hfresh : WatchInv machine (CollectState.fresh H ι source, []) :=
    ⟨[], SealsExactly.fresh machine source, rfl⟩
  obtain ⟨shards, hinv, hseen⟩ : WatchInv machine t :=
    StepRun.invariant watchStep_inv hfresh hok
  refine ⟨by rw [hinv.staged.installed, hseen], fun dest input fate hpass hfate => ?_⟩
  constructor
  · intro heq
    by_contra hstart
    obtain ⟨out, dir, cache, shards', hrun, hd', hlen⟩ :=
      hinv.passResult_reseals hstart hpass.1 hpass.2
    have hdir : (collectStep H t.1 (.pass dest input fate)).dir = dir := by
      simp only [collectStep, hrun]
      cases fate with
      | diesNumbered => exact absurd rfl hfate
      | completes | diesSealed | diesFlushing => rfl
    rw [hdir, hd'.installed] at heq
    rw [heq] at hlen
    exact lt_irrefl _ hlen
  · intro hstart
    obtain ⟨shards', hinv', -, hbytes⟩ := hinv.pass fate hpass hstart
    rw [hinv'.staged.installed, hbytes hfate]

/-- A crash after sealing, a second destination and a repeated turn. -/
theorem appended_source_sealed_once_across_crash :
    let input : PassInput Sha256.verbatim.Digest := ⟨⟨['s'], false, false⟩, ['m'], 20, none⟩
    let t := StepRun.exec watchStep (.fresh .verbatim ℕ ⟨[97, 10, 98], some 0, 1⟩, [])
      [.pass 0 input .diesSealed, .write ⟨[97, 10, 98, 10, 97, 10], some 1, 1⟩,
        .pass 1 input .diesNumbered]
    shardBytes (installedShards t.1.dir) = completePart t.2 ∧ t.2 = [97, 10, 98] ∧
      shardBytes (installedShards (collectStep .verbatim t.1 (.pass 0 input .completes)).dir) =
        completePart t.1.source.bytes := by
  intro input t
  have hok : StepRun.Along watchStep (fun t a => AppendsOnly ['m'] t.1 a ∧ PassesStart t.1 a)
      (.fresh .verbatim ℕ ⟨[97, 10, 98], some 0, 1⟩, [])
      [.pass 0 input .diesSealed, .write ⟨[97, 10, 98, 10, 97, 10], some 1, 1⟩,
        .pass 1 input .diesNumbered] := by decide +kernel
  have hrun := appended_source_sealed_once ['m'] ⟨[97, 10, 98], some 0, 1⟩ _ hok
  have hstart : StartsBehindAll t.1 0 :=
    (by decide +kernel : PassesStart t.1 (.pass 0 input .completes))
  subst t
  exact ⟨hrun.1, by decide +kernel,
    (hrun.2 0 input .completes ⟨rfl, rfl⟩ (by decide)).mpr hstart⟩

section Rounds

def blankLines (n : ℕ) : SourceFile := ⟨List.replicate n newline, some n, 1⟩

def blankRounds (input : PassInput H.Digest) : ℕ → List (CollectAction H ℕ)
  | 0 => []
  | n + 1 => blankRounds input n ++ [.write (blankLines (n + 1)), .pass 0 input .completes]

lemma completePart_blankLines (n : ℕ) : completePart (blankLines n).bytes = (blankLines n).bytes := by
  have hframe : (blankLines n).bytes = sealFramedLines (List.replicate n []) := by
    rw [blankLines, sealFramedLines, Framing.frame, List.flatMap_replicate]
    simp
  rw [hframe]
  refine Framing.terminated_frame newline fun r hr => ?_
  simp [List.eq_of_mem_replicate hr]

/-- After `n` rounds the stage holds shards 1 to `n`, one empty line each. -/
structure BlankRound (machine : Ident) (n : ℕ) (s : CollectState H ℕ)
    (shards : List (ℕ × Bytes)) : Prop where
  exact : SealsExactly machine s shards
  source : s.source = blankLines n
  bytes : shardBytes shards = (blankLines n).bytes
  numbers : shards.map Prod.fst = List.range' 1 n
  last : s.dir.lastSeq = n
  unread : s.debts 1 = none

theorem BlankRound.next {machine : Ident} {n : ℕ} {s : CollectState H ℕ}
    {shards : List (ℕ × Bytes)} (h : BlankRound machine n s shards) (hn : n < 10 ^ 6)
    {input : PassInput H.Digest} (hmachine : input.machine = machine)
    (hrecord : byteEqualityEstablishesEventIdentity input.record = true) :
    s.source.bytes <+: (blankLines (n + 1)).bytes ∧
      ∃ shards', BlankRound machine (n + 1) (StepRun.exec (collectStep H) s
        [.write (blankLines (n + 1)), .pass 0 input .completes]) shards' := by
  have hgrow : s.source.bytes <+: (blankLines (n + 1)).bytes := by
    rw [h.source]
    exact ⟨[newline], by simp [blankLines, List.replicate_succ']⟩
  refine ⟨hgrow, ?_⟩
  have hwritten := h.exact.write hgrow
  rw [StepRun.exec_cons, StepRun.exec_cons, StepRun.exec_nil]
  have hsource : (collectStep H s (.write (blankLines (n + 1)))).source = blankLines (n + 1) := rfl
  have hlast : (collectStep H s (.write (blankLines (n + 1)))).dir.lastSeq = n := h.last
  have hunread : (collectStep H s (.write (blankLines (n + 1)))).debts 1 = none := h.unread
  generalize collectStep H s (.write (blankLines (n + 1))) = s at hwritten hsource hlast hunread
  have hstart : StartsBehindAll s 0 := by
    left
    intro p hp
    rw [hwritten.staged.installed] at hp
    have hle := hwritten.staged.le_lastSeq hp
    omega
  obtain ⟨out, dir, cache, shards', hrun, hd', -, hbytes, hcases, -, -, -⟩ :=
    hwritten.passResult_eq hstart hmachine hrecord
  obtain ⟨shards'', hexact, -⟩ := hwritten.pass .completes ⟨hmachine, hrecord⟩ hstart
  have hstep : collectStep H s (.pass 0 input .completes) = { s with
      dir, cache, debts := Function.update s.debts 0 (some out.entry) } := by
    simp only [collectStep, hrun]
  rw [hstep] at hexact ⊢
  obtain rfl : shards'' = shards' := by rw [← hexact.staged.installed, hd'.installed]
  rw [hsource, completePart_blankLines] at hbytes
  rcases hcases with ⟨-, rfl⟩ | ⟨rfl, hlast'⟩
  · have hlen := congrArg List.length (h.bytes.symm.trans hbytes)
    simp [blankLines] at hlen
  · refine ⟨_, hexact, hsource, hbytes, ?_, by rw [hlast', hlast], ?_⟩
    · rw [List.map_append, h.numbers, List.range'_concat, hlast]
      simp [Nat.add_comm]
    · change Function.update s.debts 0 (some out.entry) 1 = none
      rw [Function.update_of_ne one_ne_zero]
      exact hunread

theorem blankRounds_spec {machine : Ident} {input : PassInput H.Digest}
    (hmachine : input.machine = machine)
    (hrecord : byteEqualityEstablishesEventIdentity input.record = true) (n : ℕ)
    (hn : n ≤ 10 ^ 6) :
    StepRun.Along (collectStep H) (AppendsOnly machine) (.fresh H ℕ (blankLines 0))
        (blankRounds input n) ∧
      ∃ shards, BlankRound machine n
        (StepRun.exec (collectStep H) (.fresh H ℕ (blankLines 0)) (blankRounds input n)) shards := by
  induction n with
  | zero => exact ⟨trivial, [], SealsExactly.fresh machine _, rfl, rfl, rfl, rfl, rfl⟩
  | succ n ih =>
    obtain ⟨halong, shards, hround⟩ := ih (Nat.le_of_succ_le hn)
    obtain ⟨hgrow, hnext⟩ := hround.next hn hmachine hrecord
    rw [blankRounds, StepRun.along_append, StepRun.exec_append]
    exact ⟨⟨halong, hgrow, ⟨hmachine, hrecord⟩, trivial⟩, hnext⟩

/-- After the round that reaches the limit, the first pass for another destination seals the last
line again. -/
theorem BlankRound.sealed_again {machine : Ident} {n : ℕ} {s : CollectState H ℕ}
    {shards : List (ℕ × Bytes)} (h : BlankRound machine n s shards) (hn : n = 10 ^ 6)
    {input : PassInput H.Digest} (hmachine : input.machine = machine)
    (hrecord : byteEqualityEstablishesEventIdentity input.record = true) :
    (passResult H s 1 input).1.isSome ∧
      shardBytes (installedShards (collectStep H s (.pass 1 input .completes)).dir) ≠
        completePart s.source.bytes := by
  have hstart : ¬ StartsBehindAll s 1 := by
    rw [StartsBehindAll, h.exact.staged.installed]
    rintro (hall | ⟨e, he, -⟩)
    · have hlast : n ∈ shards.map Prod.fst := by
        rw [h.numbers, List.mem_range'_1]
        omega
      obtain ⟨p, hp, hnumber⟩ := List.mem_map.mp hlast
      have := hall p hp
      omega
    · rw [h.unread] at he
      cases he
  obtain ⟨out, dir, cache, shards', hrun, hd', hlen⟩ :=
    h.exact.passResult_reseals hstart hmachine hrecord
  simp only [collectStep, hrun]
  refine ⟨rfl, fun heq => ?_⟩
  rw [hd'.installed] at heq
  rw [heq] at hlen
  exact lt_irrefl _ hlen

lemma blankRounds_sealed_again (n : ℕ) (hn : n = 10 ^ 6) {machine : Ident}
    {input : PassInput H.Digest} (hmachine : input.machine = machine)
    (hrecord : byteEqualityEstablishesEventIdentity input.record = true) :
    StepRun.Along (collectStep H) (AppendsOnly machine) (.fresh H ℕ (blankLines 0))
        (blankRounds input n ++ [.pass 1 input .completes]) ∧
      (passResult H (StepRun.exec (collectStep H) (.fresh H ℕ (blankLines 0))
        (blankRounds input n)) 1 input).1.isSome ∧
      shardBytes (installedShards (StepRun.exec (collectStep H) (.fresh H ℕ (blankLines 0))
          (blankRounds input n ++ [.pass 1 input .completes])).dir) ≠
        completePart (StepRun.exec (collectStep H) (.fresh H ℕ (blankLines 0))
          (blankRounds input n)).source.bytes := by
  obtain ⟨halong, shards, hround⟩ := blankRounds_spec hmachine hrecord n hn.le
  rw [StepRun.along_append, StepRun.exec_concat]
  exact ⟨⟨halong, ⟨hmachine, hrecord⟩, trivial⟩, hround.sealed_again hn hmachine hrecord⟩

/-- A million one-line shards, then the first pass for a second destination: shard 1000000 has a
name no reader accepts, and its line is sealed a second time. -/
theorem unreadable_shard_is_sealed_again :
    let input : PassInput Sha256.verbatim.Digest := ⟨⟨['s'], false, false⟩, ['m'], 20, none⟩
    let start := CollectState.fresh .verbatim ℕ (blankLines 0)
    StepRun.Along (collectStep .verbatim) (AppendsOnly ['m']) start
        (blankRounds input (10 ^ 6) ++ [.pass 1 input .completes]) ∧
      (passResult .verbatim (StepRun.exec (collectStep .verbatim) start
        (blankRounds input (10 ^ 6))) 1 input).1.isSome ∧
      shardBytes (installedShards (StepRun.exec (collectStep .verbatim) start
          (blankRounds input (10 ^ 6) ++ [.pass 1 input .completes])).dir) ≠
        completePart (StepRun.exec (collectStep .verbatim) start
          (blankRounds input (10 ^ 6))).source.bytes :=
  blankRounds_sealed_again (10 ^ 6) rfl rfl rfl

end Rounds

end Runs

end ChatStasher
