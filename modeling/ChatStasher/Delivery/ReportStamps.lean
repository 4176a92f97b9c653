import ChatStasher.Backfill.TickRotation
import ChatStasher.Inbox.Bundle
import Mathlib.Data.Nat.Pairing

/-! The sequence numbers and nonces that an extension instance stamps its reports with, one stamp of
the chain at a time, and the copies of a browser profile that do so each for itself. -/
namespace ChatStasher.Stamps
open Inbox (Text)

/-- The value under the key: nothing, the bare number of an older build, an object with these members
where they are a number and a string, or anything else. -/
inductive StoredSeq
  | null
  | number (n : StoredNumber)
  | object (seq : Option StoredNumber) (nonce : Option Text)
  | other

structure ReportStamp where
  seq : ℕ
  nonce : Text
  deriving DecidableEq

inductive StampRead
  | absent
  | known (seq : ℕ) (nonce : Option Text)
  | unknown
  deriving DecidableEq

def isNonceChar (c : Char) : Bool := c.isAlphanum || c = '_' || c = '-'

def isNonce (t : Text) : Bool := t ≠ [] && decide (t.length ≤ 128) && t.all isNonceChar

/-- `readStamp`, of a storage that can be read or not. -/
def readStamp (readable : Bool) (saved : StoredSeq) : StampRead :=
  if readable then
    match saved with
    | .null => .absent
    | .number n =>
      match n.stamp with
      | some seq => .known seq none
      | none => .unknown
    | .object seq nonce =>
      match seq.bind StoredNumber.stamp, nonce.filter isNonce with
      | some seq, some nonce => .known seq (some nonce)
      | _, _ => .unknown
    | .other => .unknown
  else .unknown

/-- The number that follows a reading, if it is a safe integer. -/
def nextSeq : StampRead → Option ℕ
  | .absent => some 1
  | .known seq _ => if ((seq + 1 : ℕ) : ℤ) ≤ maxSafeInteger then some (seq + 1) else none
  | .unknown => none

def ReportStamp.stored (stamp : ReportStamp) : StoredSeq :=
  .object (some (.integer stamp.seq)) (some stamp.nonce)

def StoredSeq.confirms (stamp : ReportStamp) : StoredSeq → Bool
  | .object (some (.integer n)) (some nonce) => n = stamp.seq && nonce = stamp.nonce
  | _ => false

/-- A call that takes a link of the chain: `withReportSeq`, `nextReportStamp` or `resetReportSeq`. -/
inductive Task
  | send
  | reserve
  | reset
  deriving DecidableEq

/-- Where the link that has its turn stands; `sends` tells the two allocations apart. -/
inductive Phase
  | reading (sends : Bool)
  | writing (sends : Bool) (stamp : ReportStamp)
  | confirming (sends : Bool) (stamp : ReportStamp)
  | sending
  | resetting
  deriving DecidableEq

/-- What an instance did: a send began, with its stamp if there is one, or ended, a stamp was handed
to a caller that sends nothing, the value was reset, the worker was restarted. -/
inductive Mark
  | began (stamp : Option ReportStamp)
  | ended
  | reserved (stamp : Option ReportStamp)
  | reset
  | restarted
  deriving DecidableEq

/-- The storage of one copy of the profile, the chain of its worker, and what it did so far, the
newest first. -/
structure Instance where
  stored : StoredSeq
  waiting : List Task
  running : Option Phase
  log : List Mark
  /-- The nonces drawn so far. -/
  draws : ℕ

def Instance.start (stored : StoredSeq) : Instance := ⟨stored, [], none, [], 0⟩

/-- How an operation comes out: whether it fails, whether a write that fails took effect, and whether
the random source answers. -/
structure Answer where
  fails : Bool
  wrote : Bool
  random : Bool
  deriving DecidableEq

inductive Event
  | call (task : Task)
  | turn (answer : Answer)
  | restart
  deriving DecidableEq

namespace Instance

def handOver (s : Instance) (sends : Bool) (stamp : Option ReportStamp) : Instance :=
  if sends then { s with running := some .sending, log := .began stamp :: s.log }
  else { s with running := none, log := .reserved stamp :: s.log }

/-- The link that has its turn goes on by one operation. -/
def turn (fresh : ℕ → Text) (s : Instance) (answer : Answer) : Phase → Instance
  | .reading sends =>
    match nextSeq (readStamp (!answer.fails) s.stored) with
    | none => s.handOver sends none
    | some seq =>
      if answer.random then
        { s with running := some (.writing sends ⟨seq, fresh s.draws⟩), draws := s.draws + 1 }
      else s.handOver sends none
  | .writing sends stamp =>
    let stored := if answer.fails && !answer.wrote then s.stored else stamp.stored
    if answer.fails then { s with stored }.handOver sends none
    else { s with stored, running := some (.confirming sends stamp) }
  | .confirming sends stamp =>
    s.handOver sends (if !answer.fails && s.stored.confirms stamp then some stamp else none)
  | .sending => { s with running := none, log := .ended :: s.log }
  | .resetting =>
    if answer.fails && !answer.wrote then { s with running := none }
    else { s with stored := .null, running := none, log := .reset :: s.log }

end Instance

/-- The first operation of a task. -/
def Task.begin : Task → Phase
  | .send => .reading true
  | .reserve => .reading false
  | .reset => .resetting

/-- A call joins the chain, whose next link gets its turn when the one before has settled either way. -/
def step (fresh : ℕ → Text) (s : Instance) : Event → Instance
  | .call task => { s with waiting := s.waiting ++ [task] }
  | .turn answer =>
    match s.running with
    | some phase => s.turn fresh answer phase
    | none =>
      match s.waiting with
      | [] => s
      | task :: rest => { s with waiting := rest, running := some task.begin }
  | .restart => { s with waiting := [], running := none, log := .restarted :: s.log }

/-- A copy does something, or a copy of it is made as its storage is now. -/
inductive ProfileEvent
  | within (i : ℕ) (e : Event)
  | copy (i : ℕ)
  deriving DecidableEq

def profilesStep (fresh : ℕ → ℕ → Text) (P : List Instance) : ProfileEvent → List Instance
  | .within i e => P.modify i fun s => step (fresh i) s e
  | .copy i => P ++ (P[i]?.map fun s => Instance.start s.stored).toList

def Mark.stamp : Mark → Option ReportStamp
  | .began stamp | .reserved stamp => stamp
  | _ => none

def stamps (log : List Mark) : List ReportStamp := log.filterMap Mark.stamp

def recent (log : List Mark) : List ReportStamp := stamps (log.takeWhile (· ≠ .reset))

/-- The stamp of the allocation under way. -/
def Instance.inFlight (s : Instance) : Option ReportStamp :=
  match s.running with
  | some (.writing _ stamp) | some (.confirming _ stamp) => some stamp
  | _ => none

section Readings

lemma nextSeq_stored {stamp : ReportStamp} {n : ℕ}
    (h : nextSeq (readStamp true stamp.stored) = some n) : n = stamp.seq + 1 := by
  by_cases hsafe : (stamp.seq : ℤ) ≤ maxSafeInteger
  · by_cases hnonce : isNonce stamp.nonce
    · simp [readStamp, ReportStamp.stored, StoredNumber.stamp, hsafe, hnonce, nextSeq,
        Option.filter] at h
      exact h.2.symm
    · simp [readStamp, ReportStamp.stored, StoredNumber.stamp, hsafe, hnonce, nextSeq,
        Option.filter] at h
  · simp [readStamp, ReportStamp.stored, StoredNumber.stamp, hsafe, nextSeq] at h

lemma eq_stored_of_confirms {saved : StoredSeq} {stamp : ReportStamp}
    (h : saved.confirms stamp) : saved = stamp.stored := by
  unfold StoredSeq.confirms at h
  split at h
  · simp only [Bool.and_eq_true, decide_eq_true_eq] at h
    rw [ReportStamp.stored, h.1, h.2]
  · exact absurd h Bool.false_ne_true

lemma readStamp_of_nextSeq {readable : Bool} {saved : StoredSeq} {n : ℕ}
    (h : nextSeq (readStamp readable saved) = some n) :
    nextSeq (readStamp true saved) = some n ∧ readStamp true saved ≠ .unknown := by
  cases readable with
  | false => simp [readStamp, nextSeq] at h
  | true =>
    refine ⟨h, fun hunknown => ?_⟩
    simp [hunknown, nextSeq] at h

end Readings

section Log

variable {log : List Mark} {m : Mark}

lemma stamps_cons : stamps (m :: log) = m.stamp.toList ++ stamps log := by
  cases h : m.stamp <;> simp [stamps, h]

lemma recent_cons (hm : m ≠ .reset) : recent (m :: log) = m.stamp.toList ++ recent log := by
  rw [recent, List.takeWhile_cons_of_pos (by simpa using hm), stamps_cons, recent]

lemma mem_recent_of_isPrefix {l : List Mark} (hl : l <+: log) (hreset : .reset ∉ l) {x : ReportStamp}
    (hx : x ∈ stamps l) : x ∈ recent log := by
  obtain ⟨rest, rfl⟩ := hl
  have hall : ∀ a ∈ l, decide (a ≠ Mark.reset) = true := fun a ha =>
    decide_eq_true fun heq => hreset (heq ▸ ha)
  rw [recent, List.takeWhile_append_of_pos hall, stamps, List.filterMap_append]
  exact List.mem_append_left _ hx

end Log

/-- The invariant of one copy. -/
structure Sound (fresh : ℕ → Text) (s : Instance) : Prop where
  rising : ∀ l, l <:+: s.log → .reset ∉ l →
    (stamps l).Pairwise fun later earlier => earlier.seq < later.seq
  bounded : ∀ x ∈ recent s.log, ∀ n ∈ nextSeq (readStamp true s.stored), x.seq < n
  above : ∀ stamp ∈ s.inFlight, ∀ x ∈ recent s.log, x.seq < stamp.seq
  legible : ∀ sends stamp, s.running = some (.writing sends stamp) →
    readStamp true s.stored ≠ .unknown
  distinct : ((s.inFlight.toList ++ stamps s.log).map ReportStamp.nonce).Nodup
  drawn : ∀ x ∈ s.inFlight.toList ++ stamps s.log, ∃ k < s.draws, x.nonce = fresh k
  idle : s.running ≠ some .sending →
    ∀ l x, l ++ [.began x] <+: s.log → .ended ∈ l ∨ .restarted ∈ l
  apart : ∀ l x y, .began x :: (l ++ [.began y]) <:+: s.log → .ended ∈ l ∨ .restarted ∈ l

namespace Sound

variable {fresh : ℕ → Text} {s : Instance}

lemma start (stored : StoredSeq) : Sound fresh (Instance.start stored) := by
  constructor <;> simp [Instance.start, Instance.inFlight, recent, stamps]

lemma push (h : Sound fresh s) {m : Mark} {running : Option Phase} {stored : StoredSeq}
    (hrunning : running = none ∨ running = some .sending)
    (hstamp : m.stamp = none ∨ m.stamp = s.inFlight)
    (hbounded : ∀ x ∈ recent (m :: s.log), ∀ n ∈ nextSeq (readStamp true stored), x.seq < n)
    (hclose : m = .ended ∨ m = .restarted ∨ s.running ≠ some .sending)
    (hbegan : ∀ x, m = .began x → running = some .sending) :
    Sound fresh { s with stored, running, log := m :: s.log } := by
  have hflight : Instance.inFlight { s with stored, running, log := m :: s.log } = none := by
    rcases hrunning with rfl | rfl <;> rfl
  have hsub : (stamps (m :: s.log)).Sublist (s.inFlight.toList ++ stamps s.log) := by
    rw [stamps_cons]
    refine List.Sublist.append_right ?_ _
    rcases hstamp with hnone | hsame
    · simp [hnone]
    · rw [hsame]
  refine ⟨?_, hbounded, ?_, ?_, ?_, ?_, ?_, ?_⟩
  · intro l hl hreset
    rcases List.infix_cons_iff.mp hl with hl | hl
    · rcases List.prefix_cons_iff.mp hl with rfl | ⟨t, rfl, ht⟩
      · exact List.Pairwise.nil
      · have htail : .reset ∉ t := fun hmem => hreset (List.mem_cons_of_mem _ hmem)
        rw [stamps_cons, List.pairwise_append]
        refine ⟨by cases m.stamp <;> simp, h.rising t ht.isInfix htail, fun x hx y hy => ?_⟩
        have hx : m.stamp = some x := by simpa using hx
        rcases hstamp with hnone | hsame
        · exact nomatch hnone.symm.trans hx
        · exact h.above x (hsame.symm.trans hx) y (mem_recent_of_isPrefix ht htail hy)
    · exact h.rising l hl hreset
  · intro stamp hmem
    exact nomatch hflight.symm.trans hmem
  · rintro sends stamp rfl
    rcases hrunning with hrunning | hrunning <;> exact nomatch hrunning
  · rw [hflight]
    exact h.distinct.sublist (hsub.map _)
  · rw [hflight]
    exact fun x hx => h.drawn x (hsub.subset hx)
  · intro hidle l x hl
    rcases List.prefix_cons_iff.mp hl with hnil | ⟨t, ht, htl⟩
    · simp at hnil
    · cases l with
      | nil =>
        obtain ⟨rfl, -⟩ := List.cons.inj ht
        exact absurd (hbegan x rfl) hidle
      | cons a l =>
        obtain ⟨rfl, rfl⟩ := List.cons.inj ht
        rcases hclose with rfl | rfl | hclose
        · exact .inl List.mem_cons_self
        · exact .inr List.mem_cons_self
        · exact (h.idle hclose l x htl).imp (List.mem_cons_of_mem _) (List.mem_cons_of_mem _)
  · intro l x y hl
    rcases List.infix_cons_iff.mp hl with hl | hl
    · obtain ⟨rfl, htail⟩ := List.cons_prefix_cons.mp hl
      rcases hclose with hclose | hclose | hclose
      · exact nomatch hclose
      · exact nomatch hclose
      · exact h.idle hclose l y htail
    · exact h.apart l x y hl

lemma handOver (h : Sound fresh s) {sends : Bool} {stamp : Option ReportStamp}
    {stored : StoredSeq} (hrunning : s.running ≠ some .sending)
    (hstamp : stamp = none ∨ stamp = s.inFlight)
    (hbounded : ∀ x ∈ stamp.toList ++ recent s.log,
      ∀ n ∈ nextSeq (readStamp true stored), x.seq < n) :
    Sound fresh (({ s with stored } : Instance).handOver sends stamp) := by
  unfold Instance.handOver
  split
  · refine h.push (.inr rfl) hstamp ?_ (.inr (.inr hrunning)) fun _ _ => rfl
    rwa [recent_cons (m := .began stamp) nofun]
  · refine h.push (.inl rfl) hstamp ?_ (.inr (.inr hrunning)) nofun
    rwa [recent_cons (m := .reserved stamp) nofun]

lemma go (h : Sound fresh s) {running : Option Phase} {waiting : List Task}
    (hrunning : s.running ≠ some .sending)
    (hflight : Instance.inFlight { s with running, waiting } = none) :
    Sound fresh { s with running, waiting } := by
  have hsub : (stamps s.log).Sublist (s.inFlight.toList ++ stamps s.log) :=
    List.sublist_append_right _ _
  refine ⟨h.rising, h.bounded, ?_, ?_, ?_, ?_, fun _ => h.idle hrunning, h.apart⟩
  · intro stamp hmem
    exact nomatch hflight.symm.trans hmem
  · rintro sends stamp rfl
    exact nomatch hflight
  · rw [hflight]
    exact h.distinct.sublist (hsub.map _)
  · rw [hflight]
    exact fun x hx => h.drawn x (hsub.subset hx)

lemma draw (h : Sound fresh s) (hfresh : Function.Injective fresh) {sends readable : Bool} {seq : ℕ}
    (hreading : s.running = some (.reading sends))
    (hseq : nextSeq (readStamp readable s.stored) = some seq) :
    Sound fresh { s with
      running := some (.writing sends ⟨seq, fresh s.draws⟩)
      draws := s.draws + 1 } := by
  obtain ⟨hnext, hlegible⟩ := readStamp_of_nextSeq hseq
  have hflight : s.inFlight = none := by simp [Instance.inFlight, hreading]
  have hdrawn := h.drawn
  have hdistinct := h.distinct
  rw [hflight] at hdrawn hdistinct
  refine ⟨h.rising, h.bounded, ?_, fun _ _ _ => hlegible, ?_, ?_, fun _ => h.idle ?_, h.apart⟩
  · rintro stamp hmem x hx
    obtain rfl := Option.some.inj hmem
    exact h.bounded x hx seq hnext
  · refine List.nodup_cons.mpr ⟨fun hmem => ?_, hdistinct⟩
    obtain ⟨x, hx, heq⟩ := List.mem_map.mp hmem
    obtain ⟨k, hk, hnonce⟩ := hdrawn x hx
    exact hk.ne (hfresh (hnonce.symm.trans heq))
  · intro x hx
    rcases List.mem_cons.mp hx with rfl | hx
    · exact ⟨s.draws, Nat.lt_succ_self _, rfl⟩
    · obtain ⟨k, hk, hnonce⟩ := hdrawn x hx
      exact ⟨k, hk.trans (Nat.lt_succ_self _), hnonce⟩
  · simp [hreading]

lemma write (h : Sound fresh s) {sends : Bool} {stamp : ReportStamp}
    (hwriting : s.running = some (.writing sends stamp)) :
    Sound fresh { s with
      stored := stamp.stored
      running := some (.confirming sends stamp) } := by
  have hflight : s.inFlight = some stamp := by simp [Instance.inFlight, hwriting]
  refine ⟨h.rising, ?_, ?_, nofun, ?_, ?_, fun _ => h.idle (by simp [hwriting]), h.apart⟩
  · intro x hx n hn
    rw [nextSeq_stored hn]
    exact (h.above stamp hflight x hx).trans (Nat.lt_succ_self _)
  · rintro y hy
    obtain rfl := Option.some.inj hy
    exact h.above _ hflight
  · have hdistinct := h.distinct
    rw [hflight] at hdistinct
    exact hdistinct
  · have hdrawn := h.drawn
    rw [hflight] at hdrawn
    exact hdrawn

lemma turn (h : Sound fresh s) (hfresh : Function.Injective fresh) {phase : Phase}
    (hphase : s.running = some phase) (answer : Answer) :
    Sound fresh (s.turn fresh answer phase) := by
  cases phase with
  | reading sends =>
    have hidle : s.running ≠ some .sending := by simp [hphase]
    unfold Instance.turn
    dsimp only
    split
    · exact h.handOver hidle (.inl rfl) h.bounded
    next seq hseq =>
      split
      · exact h.draw hfresh hphase hseq
      · exact h.handOver hidle (.inl rfl) h.bounded
  | writing sends stamp =>
    have hidle : s.running ≠ some .sending := by simp [hphase]
    have hflight : s.inFlight = some stamp := by simp [Instance.inFlight, hphase]
    unfold Instance.turn
    dsimp only
    split
    next hfails =>
      refine h.handOver hidle (.inl rfl) ?_
      split
      · exact h.bounded
      · intro x hx n hn
        rw [nextSeq_stored hn]
        exact (h.above stamp hflight x hx).trans (Nat.lt_succ_self _)
    next hfails =>
      simp only [hfails, Bool.false_and, Bool.false_eq_true, if_false]
      exact h.write hphase
  | confirming sends stamp =>
    have hidle : s.running ≠ some .sending := by simp [hphase]
    have hflight : s.inFlight = some stamp := by simp [Instance.inFlight, hphase]
    unfold Instance.turn
    dsimp only
    split
    next hconfirmed =>
      refine h.handOver hidle (.inr hflight.symm) ?_
      have hstored := eq_stored_of_confirms (Bool.and_eq_true_iff.mp hconfirmed).2
      intro x hx n hn
      rcases List.mem_cons.mp hx with rfl | hx
      · rw [hstored] at hn
        rw [nextSeq_stored hn]
        exact Nat.lt_succ_self _
      · exact h.bounded x hx n hn
    · exact h.handOver hidle (.inl rfl) h.bounded
  | sending =>
    unfold Instance.turn
    refine h.push (.inl rfl) (.inl rfl) ?_ (.inl rfl) nofun
    rw [recent_cons (m := .ended) nofun]
    exact h.bounded
  | resetting =>
    have hidle : s.running ≠ some .sending := by simp [hphase]
    unfold Instance.turn
    dsimp only
    split
    · exact h.go hidle rfl
    · refine h.push (m := .reset) (.inl rfl) (.inl rfl) ?_ (.inr (.inr hidle)) nofun
      simp [recent, stamps]

lemma step (h : Sound fresh s) (hfresh : Function.Injective fresh) (e : Event) :
    Sound fresh (Stamps.step fresh s e) := by
  cases e with
  | call task =>
    exact ⟨h.rising, h.bounded, h.above, h.legible, h.distinct, h.drawn, h.idle, h.apart⟩
  | turn answer =>
    unfold Stamps.step
    dsimp only
    split
    next phase hphase => exact h.turn hfresh hphase answer
    next hnone =>
      split
      · exact h
      next task rest hwaiting =>
        refine h.go (by simp [hnone]) ?_
        cases task <;> rfl
  | restart =>
    have hrecent : recent (.restarted :: s.log) = recent s.log := recent_cons nofun
    have hpushed := h.push (m := .restarted) (.inl rfl) (.inl rfl) (hrecent ▸ h.bounded)
      (.inr (.inl rfl)) nofun
    exact ⟨hpushed.rising, hpushed.bounded, hpushed.above, hpushed.legible, hpushed.distinct,
      hpushed.drawn, hpushed.idle, hpushed.apart⟩

lemma stored_of_unknown (h : Sound fresh s) (hunknown : readStamp true s.stored = .unknown)
    (hreset : s.running ≠ some .resetting) (e : Event) :
    (Stamps.step fresh s e).stored = s.stored := by
  have hhand : ∀ sends stamp, (s.handOver sends stamp).stored = s.stored := by
    intro sends stamp
    unfold Instance.handOver
    split <;> rfl
  cases e with
  | call task => rfl
  | restart => rfl
  | turn answer =>
    unfold Stamps.step
    dsimp only
    split
    next phase hphase =>
      cases phase with
      | reading sends =>
        unfold Instance.turn
        dsimp only
        split
        · exact hhand _ _
        · split
          · rfl
          · exact hhand _ _
      | writing sends stamp => exact absurd hunknown (h.legible sends stamp hphase)
      | confirming sends stamp => exact hhand _ _
      | sending => rfl
      | resetting => exact absurd hphase hreset
    next => split <;> rfl

end Sound

def AllSound (fresh : ℕ → ℕ → Text) (P : List Instance) : Prop :=
  ∀ i s, P[i]? = some s → Sound (fresh i) s

section Profiles

variable {fresh : ℕ → ℕ → Text} {P : List Instance}

lemma AllSound.start (stored : StoredSeq) : AllSound fresh [Instance.start stored] := by
  intro i s hs
  obtain rfl := List.mem_singleton.mp (List.mem_of_getElem? hs)
  exact Sound.start stored

lemma AllSound.step (hfresh : Function.Injective2 fresh) (h : AllSound fresh P) (e : ProfileEvent) :
    AllSound fresh (profilesStep fresh P e) := by
  intro i s hs
  cases e with
  | within j e =>
    rw [profilesStep, List.getElem?_modify] at hs
    obtain ⟨t, ht, rfl⟩ := Option.map_eq_some_iff.mp hs
    split
    next heq =>
      subst heq
      exact (h j t ht).step (fun a b hab => (hfresh hab).2) e
    next => exact h i t ht
  | copy j =>
    rw [profilesStep, List.getElem?_append] at hs
    split at hs
    · exact h i s hs
    · have hmem := List.mem_of_getElem? hs
      obtain ⟨t, -, rfl⟩ := Option.map_eq_some_iff.mp (Option.mem_toList.mp hmem)
      exact Sound.start t.stored

lemma AllSound.disjoint (hfresh : Function.Injective2 fresh) (h : AllSound fresh P) {i j : ℕ}
    {s t : Instance} (hs : P[i]? = some s) (ht : P[j]? = some t) (hij : i ≠ j) {x y : ReportStamp}
    (hx : x ∈ stamps s.log) (hy : y ∈ stamps t.log) : x.nonce ≠ y.nonce := by
  obtain ⟨k, -, hk⟩ := (h i s hs).drawn x (List.mem_append_right _ hx)
  obtain ⟨l, -, hl⟩ := (h j t ht).drawn y (List.mem_append_right _ hy)
  intro heq
  exact hij (hfresh (hk.symm.trans (heq.trans hl))).1

end Profiles

/-- With nonces that are never drawn twice, in every run of the copies of a profile: the stamps that a
copy hands out between two resets rise, and no two of its stamps share a nonce; its sends begin one
after the other's end; only a reset overwrites a value that cannot be read; and two copies never
hand out one nonce. -/
theorem report_stamps (fresh : ℕ → ℕ → Text) (hfresh : Function.Injective2 fresh)
    (stored : StoredSeq) (es : List ProfileEvent) :
    let P := StepRun.exec (profilesStep fresh) [Instance.start stored] es
    (∀ i s, P[i]? = some s →
      (∀ l, l <:+: s.log → .reset ∉ l →
        (stamps l).Pairwise fun later earlier => earlier.seq < later.seq) ∧
      ((stamps s.log).map ReportStamp.nonce).Nodup ∧
      (∀ l x y, .began x :: (l ++ [.began y]) <:+: s.log → .ended ∈ l ∨ .restarted ∈ l) ∧
      ∀ e, readStamp true s.stored = .unknown → s.running ≠ some .resetting →
        (step (fresh i) s e).stored = s.stored) ∧
      ∀ (i j : ℕ) (s t : Instance), P[i]? = some s → P[j]? = some t → i ≠ j →
        ∀ x ∈ stamps s.log, ∀ y ∈ stamps t.log, x.seq = y.seq → x.nonce ≠ y.nonce := by
  intro P
  have hsound : AllSound fresh P :=
    @StepRun.invariant_all _ _ (profilesStep fresh) (AllSound fresh)
      (fun _ e hs => hs.step hfresh e) _ (AllSound.start stored) es
  refine ⟨fun i s hs => ?_, fun i j s t hs ht hij x hx y hy _ =>
    hsound.disjoint hfresh hs ht hij hx hy⟩
  have h := hsound i s hs
  refine ⟨h.rising, ?_, h.apart, fun e hunknown hreset => h.stored_of_unknown hunknown hreset e⟩
  exact h.distinct.sublist ((List.sublist_append_right _ _).map _)

section Sample

def lettered (i k : ℕ) : Text := List.replicate (Nat.pair i k + 1) 'a'

lemma lettered_injective : Function.Injective2 lettered := by
  intro i j k l heq
  have hlength := congrArg List.length heq
  simp only [lettered, List.length_replicate, Nat.add_right_cancel_iff] at hlength
  exact Nat.pair_eq_pair.mp hlength

def sendReport (i : ℕ) : List ProfileEvent :=
  .within i (.call .send) :: List.replicate 5 (.within i (.turn ⟨false, false, true⟩))

def copiedProfile : List ProfileEvent :=
  sendReport 0 ++ [.copy 0] ++ sendReport 0 ++ sendReport 1

/-- Both copies stamp their next report with the same number, and the nonces differ. -/
theorem report_stamps_copied :
    let P := StepRun.exec (profilesStep lettered) [Instance.start .null] copiedProfile
    P.map (fun s => stamps s.log) =
        [[⟨2, lettered 0 1⟩, ⟨1, lettered 0 0⟩], [⟨2, lettered 1 0⟩]] ∧
      lettered 0 1 ≠ lettered 1 0 :=
  ⟨by decide, (report_stamps lettered lettered_injective .null copiedProfile).2 0 1 _ _ rfl rfl
    (by decide) ⟨2, lettered 0 1⟩ (by decide) ⟨2, lettered 1 0⟩ (by decide) rfl⟩

end Sample

end ChatStasher.Stamps
