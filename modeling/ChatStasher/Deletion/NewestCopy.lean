import ChatStasher.Deletion.Control

/-! Which copies of the control streams a destination's policy is read from. -/
namespace ChatStasher.Deletion
open Inbox (Text)

variable {R : StreamReader}

/-- The control stream that an entry of a tree is, under its machine. -/
def streamOf (node : Node) : List (Text × Node) :=
  if node.isFile then
    ((controlStreamMachine node.path).map fun machine => (machine, node)).toList
  else []

def carried (entries : List Node) : List (Text × Node) := entries.flatMap streamOf

def copyOf (machine : Text) (entries : List Node) : Option Node :=
  (carried entries).lookup machine

namespace Node

def events (R : StreamReader) (node : Node) : Option (List ControlEvent) :=
  node.data.bind fun bytes => (parseEvents R bytes).toOption

end Node

namespace Host

def listed (host : Host) : List Node := (host.snapshots.findSome? Snapshot.tree).getD []

end Host

/-- The copy that governs a machine: that of the first host whose newest listable snapshot carries
one. -/
def governing (hosts : List Host) (machine : Text) : Option Node :=
  hosts.findSome? fun host => copyOf machine host.listed

def Carries (hosts : List Host) (machine : Text) (time : ℤ) (node : Node) : Prop :=
  ∃ host ∈ hosts, ∃ snap ∈ host.snapshots, snap.time = time ∧
    ∃ entries, snap.tree = some entries ∧ copyOf machine entries = some node

/-- A copy of a machine's stream that no listable snapshot has a newer one of. -/
def NewestCopy (hosts : List Host) (machine : Text) (node : Node) : Prop :=
  ∃ time, Carries hosts machine time node ∧
    ∀ time' node', Carries hosts machine time' node' → time' ≤ time

/-- The records read hold, for each machine, all of the newest listable copy of its stream. -/
def Complete (R : StreamReader) (hosts : List Host) : Prop :=
  ∀ out, collectArchiveControl R hosts = .ok out →
    ∀ machine node events, NewestCopy hosts machine node → node.events R = some events →
      events ⊆ out.events

/-- Every record of a newest listable copy stands in a copy that governs a machine. -/
def GoverningHoldNewest (R : StreamReader) (hosts : List Host) : Prop :=
  ∀ machine node events, NewestCopy hosts machine node → node.events R = some events →
    ∀ e ∈ events, ∃ machine' node' events', governing hosts machine' = some node' ∧
      node'.events R = some events' ∧ e ∈ events'

/-- What was read from some entries on top of what had been read before. -/
structure Reads (R : StreamReader) (w : Walk) (copies : List (Text × Node)) (w' : Walk) :
    Prop where
  seen : ∀ machine, machine ∈ w'.seenMachines ↔
    machine ∈ w.seenMachines ∨ machine ∈ copies.map Prod.fst
  events : ∀ e, e ∈ w'.out.events ↔ e ∈ w.out.events ∨
    ∃ machine node events, machine ∉ w.seenMachines ∧ copies.lookup machine = some node ∧
      node.events R = some events ∧ e ∈ events
  dumped : ∀ machine node, machine ∉ w.seenMachines → copies.lookup machine = some node →
    node.data.isSome

def Fails (w : Walk) (copies : List (Text × Node)) : Prop :=
  ∃ machine node, machine ∉ w.seenMachines ∧ copies.lookup machine = some node ∧
    node.data = none

lemma Reads.refl (w : Walk) : Reads R w [] w := ⟨by simp, by simp, by simp⟩

lemma lookup_append_of_not_mem {copies copies' : List (Text × Node)} {machine : Text}
    (h : machine ∉ copies.map Prod.fst) :
    (copies ++ copies').lookup machine = copies'.lookup machine := by
  have hnone : copies.lookup machine = none := List.lookup_eq_none_iff.mpr fun x hx => by
    simpa using fun heq => h (List.mem_map.mpr ⟨x, hx, heq.symm⟩)
  rw [List.lookup_append, hnone, Option.none_or]

lemma key_mem_of_lookup {copies : List (Text × Node)} {machine : Text} {node : Node}
    (h : copies.lookup machine = some node) : machine ∈ copies.map Prod.fst := by
  obtain ⟨l₁, l₂, rfl, -⟩ := List.lookup_eq_some_iff.mp h
  simp

lemma lookup_append_left {copies copies' : List (Text × Node)} {machine : Text} {node : Node}
    (h : copies.lookup machine = some node) : (copies ++ copies').lookup machine = some node := by
  rw [List.lookup_append, h, Option.some_or]

lemma lookup_append_cases {copies copies' : List (Text × Node)} {machine : Text} {node : Node}
    (h : (copies ++ copies').lookup machine = some node) :
    copies.lookup machine = some node ∨
      machine ∉ copies.map Prod.fst ∧ copies'.lookup machine = some node := by
  by_cases hmem : machine ∈ copies.map Prod.fst
  · cases hlookup : copies.lookup machine with
    | none =>
      obtain ⟨x, hx, hkey⟩ := List.mem_map.mp hmem
      have := List.lookup_eq_none_iff.mp hlookup x hx
      simp [hkey] at this
    | some node' => exact Or.inl ((lookup_append_left hlookup).symm.trans h)
  · exact Or.inr ⟨hmem, (lookup_append_of_not_mem hmem).symm.trans h⟩

lemma Reads.trans {w w' w'' : Walk} {copies copies' : List (Text × Node)} (h : Reads R w copies w')
    (h' : Reads R w' copies' w'') : Reads R w (copies ++ copies') w'' where
  seen machine := by
    rw [h'.seen, h.seen, List.map_append, List.mem_append, or_assoc]
  events e := by
    rw [h'.events, h.events]
    constructor
    · rintro ((hold | ⟨machine, node, events, hnew, hlookup, hev, he⟩) |
        ⟨machine, node, events, hnew, hlookup, hev, he⟩)
      · exact Or.inl hold
      · exact Or.inr ⟨machine, node, events, hnew, lookup_append_left hlookup, hev, he⟩
      · rw [h.seen, not_or] at hnew
        exact Or.inr ⟨machine, node, events, hnew.1,
          (lookup_append_of_not_mem hnew.2).trans hlookup, hev, he⟩
    · rintro (hold | ⟨machine, node, events, hnew, hlookup, hev, he⟩)
      · exact Or.inl (Or.inl hold)
      · rcases lookup_append_cases hlookup with hfirst | ⟨hnot, hsecond⟩
        · exact Or.inl (Or.inr ⟨machine, node, events, hnew, hfirst, hev, he⟩)
        · exact Or.inr ⟨machine, node, events, by rw [h.seen, not_or]; exact ⟨hnew, hnot⟩,
            hsecond, hev, he⟩
  dumped machine node hnew hlookup := by
    rcases lookup_append_cases hlookup with hfirst | ⟨hnot, hsecond⟩
    · exact h.dumped machine node hnew hfirst
    · exact h'.dumped machine node (by rw [h.seen, not_or]; exact ⟨hnew, hnot⟩) hsecond

lemma Fails.append {w : Walk} {copies : List (Text × Node)} (h : Fails w copies)
    (copies' : List (Text × Node)) : Fails w (copies ++ copies') := by
  obtain ⟨machine, node, hnew, hlookup, hdata⟩ := h
  exact ⟨machine, node, hnew, lookup_append_left hlookup, hdata⟩

lemma Reads.fails {w w' : Walk} {copies copies' : List (Text × Node)} (h : Reads R w copies w')
    (h' : Fails w' copies') : Fails w (copies ++ copies') := by
  obtain ⟨machine, node, hnew, hlookup, hdata⟩ := h'
  rw [h.seen, not_or] at hnew
  exact ⟨machine, node, hnew.1, (lookup_append_of_not_mem hnew.2).trans hlookup, hdata⟩

def Outcome (R : StreamReader) (w : Walk) (copies : List (Text × Node)) :
    Except Text Walk → Prop
  | .ok w' => Reads R w copies w'
  | .error _ => Fails w copies

lemma foldlM_outcome {A : Type*} {f : Walk → A → Except Text Walk}
    {copies : A → List (Text × Node)} (hstep : ∀ w a, Outcome R w (copies a) (f w a))
    (as : List A) (w : Walk) : Outcome R w (as.flatMap copies) (as.foldlM f w) := by
  induction as generalizing w with
  | nil => exact Reads.refl w
  | cons a as ih =>
    rw [List.flatMap_cons, List.foldlM_cons]
    have hhead := hstep w a
    cases hf : f w a with
    | error machine =>
      rw [hf] at hhead
      exact Fails.append hhead _
    | ok w' =>
      rw [hf] at hhead
      have htail := ih w'
      change Outcome R w _ (as.foldlM f w')
      cases hrest : as.foldlM f w' with
      | error machine =>
        rw [hrest] at htail
        exact Reads.fails hhead htail
      | ok w'' =>
        rw [hrest] at htail
        exact Reads.trans hhead htail

lemma Reads.of_seen {w : Walk} {machine : Text} {node : Node} (h : machine ∈ w.seenMachines) :
    Reads R w [(machine, node)] w where
  seen machine' := by
    rw [List.map_singleton, List.mem_singleton]
    exact ⟨Or.inl, fun hm => hm.elim id fun heq => heq ▸ h⟩
  events e := by
    refine ⟨Or.inl, fun he => he.elim id ?_⟩
    rintro ⟨machine', node', events, hnew, hlookup, -⟩
    obtain rfl : machine' = machine := by simpa using key_mem_of_lookup hlookup
    exact absurd h hnew
  dumped machine' node' hnew hlookup := by
    obtain rfl : machine' = machine := by simpa using key_mem_of_lookup hlookup
    exact absurd h hnew

lemma Reads.of_new {w : Walk} {machine : Text} {node : Node} {out : ArchiveControlRead}
    (hnew : machine ∉ w.seenMachines) (hdata : node.data.isSome)
    (hout : ∀ e, e ∈ out.events ↔ e ∈ w.out.events ∨
      ∃ events, node.events R = some events ∧ e ∈ events) :
    Reads R w [(machine, node)] ⟨out, machine :: w.seenMachines⟩ where
  seen machine' := by
    rw [List.map_singleton, List.mem_singleton, List.mem_cons, or_comm]
  events e := by
    rw [hout]
    refine or_congr_right ⟨?_, ?_⟩
    · rintro ⟨events, hev, he⟩
      exact ⟨machine, node, events, hnew, by simp, hev, he⟩
    · rintro ⟨machine', node', events, -, hlookup, hev, he⟩
      obtain rfl : machine' = machine := by simpa using key_mem_of_lookup hlookup
      obtain rfl : node = node' := by simpa using hlookup
      exact ⟨events, hev, he⟩
  dumped machine' node' _ hlookup := by
    obtain rfl : machine' = machine := by simpa using key_mem_of_lookup hlookup
    obtain rfl : node = node' := by simpa using hlookup
    exact hdata

lemma readEntry_outcome (w : Walk) (node : Node) :
    Outcome R w (streamOf node) (readEntry R w node) := by
  rw [readEntry, streamOf]
  cases hfile : node.isFile with
  | false => exact Reads.refl w
  | true =>
    cases hmachine : controlStreamMachine node.path with
    | none => exact Reads.refl w
    | some machine =>
      by_cases hseen : machine ∈ w.seenMachines
      · have hreads : Reads R w [(machine, node)] w := Reads.of_seen hseen
        simpa [hseen, Outcome] using hreads
      · cases hdata : node.data with
        | none =>
          have hfails : Fails w [(machine, node)] := ⟨machine, node, hseen, by simp, hdata⟩
          simpa [hseen, Outcome] using hfails
        | some bytes =>
          cases hparse : parseEvents R bytes with
          | ok events =>
            have hev : node.events R = some events := by
              simp [Node.events, hdata, hparse, Except.toOption]
            simpa [hseen, hparse, Outcome] using Reads.of_new hseen (by simp [hdata]) fun e => by
              simp [hev]
          | error why =>
            have hev : node.events R = none := by
              simp [Node.events, hdata, hparse, Except.toOption]
            simpa [hseen, hparse, Outcome] using Reads.of_new hseen (by simp [hdata]) fun e => by
              simp [hev]

lemma Outcome.of_notes {w w₁ : Walk} {copies : List (Text × Node)} {r : Except Text Walk}
    (hseen : w₁.seenMachines = w.seenMachines) (hevents : w₁.out.events = w.out.events)
    (h : Outcome R w₁ copies r) : Outcome R w copies r := by
  cases r with
  | error machine =>
    obtain ⟨machine, node, hnew, hrest⟩ := h
    exact ⟨machine, node, hseen ▸ hnew, hrest⟩
  | ok w' =>
    exact ⟨fun machine => hseen ▸ h.seen machine, fun e => hseen ▸ hevents ▸ h.events e,
      fun machine node => hseen ▸ h.dumped machine node⟩

lemma readHost_outcome (host : Text) (snaps : List Snapshot) (w : Walk) :
    Outcome R w (carried ((snaps.findSome? Snapshot.tree).getD [])) (readHost R host w snaps) := by
  induction snaps generalizing w with
  | nil =>
    refine Outcome.of_notes ?_ ?_ (Reads.refl _)
    · rfl
    · rfl
  | cons snap snaps ih =>
    rw [readHost, List.findSome?_cons]
    cases htree : snap.tree with
    | none =>
      dsimp only
      refine Outcome.of_notes ?_ ?_ (ih _)
      · rfl
      · rfl
    | some entries => exact foldlM_outcome readEntry_outcome entries w

lemma hosts_outcome (hosts : List Host) : Outcome R Walk.start
    (hosts.flatMap fun host => carried host.listed)
    (hosts.foldlM (fun w host => readHost R host.name w host.snapshots) Walk.start) :=
  foldlM_outcome (fun w host => readHost_outcome host.name host.snapshots w) hosts Walk.start

lemma lookup_carried_eq_governing (hosts : List Host) (machine : Text) :
    (hosts.flatMap fun host => carried host.listed).lookup machine = governing hosts machine := by
  induction hosts with
  | nil => rfl
  | cons host hosts ih =>
    rw [List.flatMap_cons, List.lookup_append, ih, governing, governing, List.findSome?_cons]
    cases hcopy : copyOf machine host.listed with
    | none => rw [copyOf] at hcopy; rw [hcopy, Option.none_or]
    | some node => rw [copyOf] at hcopy; rw [hcopy, Option.some_or]

lemma collect_error_iff (hosts : List Host) :
    (∃ machine, collectArchiveControl R hosts = .error machine) ↔
      ∃ machine node, governing hosts machine = some node ∧ node.data = none := by
  have houtcome := hosts_outcome (R := R) hosts
  rw [collectArchiveControl]
  cases hwalk : hosts.foldlM (fun w host => readHost R host.name w host.snapshots) Walk.start with
  | error machine =>
    rw [hwalk] at houtcome
    obtain ⟨machine', node, -, hlookup, hdata⟩ := houtcome
    rw [lookup_carried_eq_governing] at hlookup
    exact ⟨fun _ => ⟨machine', node, hlookup, hdata⟩, fun _ => ⟨machine, rfl⟩⟩
  | ok w =>
    rw [hwalk] at houtcome
    constructor
    · rintro ⟨machine, h⟩
      cases h
    · rintro ⟨machine, node, hgoverns, hdata⟩
      rw [← lookup_carried_eq_governing] at hgoverns
      have := houtcome.dumped machine node (by simp [Walk.start]) hgoverns
      rw [hdata] at this
      cases this

lemma mem_collect_events {hosts : List Host} {out : ArchiveControlRead}
    (h : collectArchiveControl R hosts = .ok out) (e : ControlEvent) : e ∈ out.events ↔
      ∃ machine node events, governing hosts machine = some node ∧
        node.events R = some events ∧ e ∈ events := by
  have houtcome := hosts_outcome (R := R) hosts
  rw [collectArchiveControl] at h
  cases hwalk : hosts.foldlM (fun w host => readHost R host.name w host.snapshots) Walk.start with
  | error machine =>
    rw [hwalk] at h
    cases h
  | ok w =>
    rw [hwalk] at houtcome h
    obtain rfl := Except.ok.inj h
    rw [houtcome.events]
    simp [Walk.start, lookup_carried_eq_governing]

/-- Every machine's newest listable copy is read in full exactly when the copies that govern hold it,
or when one of these cannot be dumped and nothing is returned. -/
theorem complete_iff (R : StreamReader) (hosts : List Host) : Complete R hosts ↔
    (∃ machine node, governing hosts machine = some node ∧ node.data = none) ∨
      GoverningHoldNewest R hosts := by
  rw [← collect_error_iff (R := R)]
  cases hcollect : collectArchiveControl R hosts with
  | error machine =>
    refine ⟨fun _ => Or.inl ⟨machine, rfl⟩, fun _ out hok => ?_⟩
    rw [hcollect] at hok
    cases hok
  | ok out =>
    constructor
    · intro hcomplete
      exact Or.inr fun machine node events hnewest hev e he =>
        (mem_collect_events hcollect e).mp (hcomplete out hcollect machine node events hnewest hev he)
    · rintro (⟨machine, herr⟩ | hhold)
      · cases herr
      · intro out' hok machine node events hnewest hev e he
        exact (mem_collect_events hok e).mpr (hhold machine node events hnewest hev e he)

def hideLine : Text :=
  "\x7b\"schema\":\"chat-stasher/deletion-control/1\",\"operation_id\":\"op-1\",".toList ++
    "\"recorded_at\":\"2026-01-01T00:00:00Z\",\"action\":\"hide\",".toList ++
    "\"target_machine\":\"laptop\",\"session_id\":\"claude-0001\",".toList ++
    "\"actor_machine\":\"laptop\",\"scope\":\x7b\"scope\":\"session\"\x7d\x7d".toList

def hideEvent : ControlEvent where
  schema := controlSchema
  operationId := "op-1".toList
  recordedAt := "2026-01-01T00:00:00Z".toList
  action := .hide
  targetMachine := "laptop".toList
  sessionId := "claude-0001".toList
  actorMachine := "laptop".toList
  scope := .session
  reason := none

def asciiReader : StreamReader where
  decodeUtf8 bytes :=
    if bytes.all (· < 128) then some (bytes.map fun b => Char.ofNat b.toNat) else none
  record line := if line = hideLine then some hideEvent else none
  instant text := if text = "2026-01-01T00:00:00Z".toList then some 1767225600 else none

def fullTree : List Node :=
  [⟨["stage".toList, metaDir, "laptop".toList, fileName], true,
    some (Inbox.utf8 (hideLine ++ ['\n']))⟩]

/-- A laptop whose newest snapshot was taken of a stage without its stream. -/
def laptop : Host where
  name := "laptop".toList
  snapshots := [⟨"b2".toList, 2, some []⟩, ⟨"a1".toList, 1, some fullTree⟩]
  newestFirst := by decide

/-- The hide that the older snapshot holds is not among the records read. -/
theorem older_hide_missed : ¬ Complete asciiReader [laptop] := by
  intro hcomplete
  have hcollect : collectArchiveControl asciiReader [laptop] = .ok Walk.start.out := by
    decide +kernel
  have hcopy : copyOf "laptop".toList fullTree = fullTree.head? := by decide +kernel
  have hevents : ∀ node ∈ fullTree, node.events asciiReader = some [hideEvent] := by
    decide +kernel
  obtain ⟨node, hnode⟩ : ∃ node, fullTree = [node] := ⟨_, rfl⟩
  rw [hnode, List.head?_cons] at hcopy
  have hnewest : NewestCopy [laptop] "laptop".toList node := by
    refine ⟨1, ⟨laptop, by simp, ⟨"a1".toList, 1, some fullTree⟩, by simp [laptop], rfl, fullTree,
      rfl, hnode ▸ hcopy⟩, ?_⟩
    rintro time' node' ⟨host, hhost, snap, hsnap, rfl, entries, htree, hlookup⟩
    obtain rfl := List.mem_singleton.mp hhost
    rcases List.mem_pair.mp hsnap with rfl | rfl
    · obtain rfl := Option.some.inj htree
      cases hlookup
    · exact le_refl 1
  have := hcomplete _ hcollect _ node [hideEvent] hnewest (hevents node (by simp [hnode]))
  simpa [Walk.start] using this List.mem_cons_self

end ChatStasher.Deletion
