import ChatStasher.Library.StepRun
import ChatStasher.Outbox.Queue

/-! A capture stays queued until a delivery of it is acknowledged, and the byte counter is the sum of
what is queued. -/
namespace ChatStasher

section Entries
variable {H : Sha256} {outbox : Outbox H.Digest} {entries : List (OutboxEntry H.Digest)}
  {entry : OutboxEntry H.Digest} {sha256 : H.Digest}

lemma getEntry_eq_some (h : getEntry outbox sha256 = some entry) :
    entry ∈ outbox.entries ∧ entry.sha256 = sha256 :=
  ⟨List.mem_of_find?_eq_some h, by simpa using List.find?_some h⟩

lemma getEntry_eq_none (h : getEntry outbox sha256 = none) :
    ∀ e ∈ outbox.entries, e.sha256 ≠ sha256 := by
  simpa using List.find?_eq_none.mp h

lemma mem_withoutEntry : entry ∈ withoutEntry entries sha256 ↔
    entry ∈ entries ∧ entry.sha256 ≠ sha256 := by
  simp [withoutEntry]

lemma withoutEntry_eq_self (h : ∀ e ∈ entries, e.sha256 ≠ sha256) :
    withoutEntry entries sha256 = entries :=
  List.filter_eq_self.mpr fun e he => decide_eq_true (h e he)

lemma withoutEntry_keys (h : (entries.map fun e => e.sha256).Nodup) (sha256 : H.Digest) :
    ((withoutEntry entries sha256).map fun e => e.sha256).Nodup :=
  h.sublist (List.filter_sublist.map _)

lemma putEntry_keys (h : (entries.map fun e => e.sha256).Nodup) (entry : OutboxEntry H.Digest) :
    ((putEntry entries entry).map fun e => e.sha256).Nodup := by
  rw [putEntry, List.map_append, List.nodup_append]
  refine ⟨withoutEntry_keys h _, List.nodup_singleton _, fun a ha b hb heq => ?_⟩
  obtain ⟨e, he, rfl⟩ := List.mem_map.mp ha
  obtain rfl : b = entry.sha256 := by simpa using hb
  exact (mem_withoutEntry.mp he).2 heq

lemma storedBytes_append (entries entries' : List (OutboxEntry H.Digest)) :
    storedBytes (entries ++ entries') = storedBytes entries + storedBytes entries' := by
  simp [storedBytes]

lemma storedBytes_withoutEntry (h : (entries.map fun e => e.sha256).Nodup)
    (hentry : entry ∈ entries) : storedBytes entries =
      storedBytes (withoutEntry entries entry.sha256) + entry.storageBytes := by
  induction entries with
  | nil => cases hentry
  | cons e entries ih =>
    obtain ⟨hnew, h⟩ := List.nodup_cons.mp h
    have hrest : storedBytes (e :: entries) = e.storageBytes + storedBytes entries := rfl
    rcases List.mem_cons.mp hentry with rfl | hentry
    · have hgone : withoutEntry (entry :: entries) entry.sha256 = entries := by
        rw [withoutEntry, List.filter_cons_of_neg (by simp)]
        exact withoutEntry_eq_self fun e he heq => hnew (List.mem_map.mpr ⟨e, he, heq⟩)
      rw [hgone, hrest, Nat.add_comm]
    · have hne : e.sha256 ≠ entry.sha256 := fun heq => hnew (List.mem_map.mpr ⟨entry, hentry, heq.symm⟩)
      have hkept : withoutEntry (e :: entries) entry.sha256 =
          e :: withoutEntry entries entry.sha256 := List.filter_cons_of_pos (by simpa using hne)
      have hkeptBytes : storedBytes (e :: withoutEntry entries entry.sha256) =
          e.storageBytes + storedBytes (withoutEntry entries entry.sha256) := rfl
      rw [hkept, hrest, hkeptBytes, ih h hentry, Nat.add_assoc]

/-- What the transactions keep of the queue. -/
structure QueueSound (outbox : Outbox H.Digest) : Prop where
  keys : (outbox.entries.map fun e => e.sha256).Nodup
  entry : ∀ e ∈ outbox.entries, e.sha256 = H.digest e.payload ∧ e.bytes = e.payload.length ∧
    e.accountId ≠ some []
  counter : outbox.used = storedBytes outbox.entries

def Outbox.Holds (outbox : Outbox H.Digest) (payload : Bytes) : Prop :=
  ∃ e ∈ outbox.entries, e.payload = payload

lemma QueueSound.empty : QueueSound (Outbox.empty H.Digest) :=
  ⟨List.nodup_nil, by simp [Outbox.empty], rfl⟩

lemma markDelivered_sound (h : QueueSound outbox) (payload : Bytes) :
    QueueSound (markDelivered outbox (H.digest payload)) ∧
      (markDelivered outbox (H.digest payload)).used ≤ outbox.used ∧
      ∀ p, outbox.Holds p → p ≠ payload → (markDelivered outbox (H.digest payload)).Holds p := by
  unfold markDelivered
  split
  next => exact ⟨h, le_rfl, fun p hp _ => hp⟩
  next existing hget =>
    obtain ⟨hmem, hsha⟩ := getEntry_eq_some hget
    have htotal := storedBytes_withoutEntry h.keys hmem
    rw [hsha, OutboxEntry.storageBytes, ← h.counter] at htotal
    refine ⟨⟨withoutEntry_keys h.keys _, fun e he => h.entry e (mem_withoutEntry.mp he).1, ?_⟩, ?_, ?_⟩
    · change outbox.used - existing.bytes - accountIdBytes existing.accountId =
        storedBytes (withoutEntry outbox.entries (H.digest payload))
      omega
    · change outbox.used - existing.bytes - accountIdBytes existing.accountId ≤ _
      omega
    · rintro p ⟨e, he, rfl⟩ hne
      refine ⟨e, mem_withoutEntry.mpr ⟨he, fun heq => hne ?_⟩, rfl⟩
      exact H.digest_injective ((h.entry e he).1.symm.trans heq)

lemma putEntry_sound (h : QueueSound outbox) {existing next : OutboxEntry H.Digest}
    (hmem : existing ∈ outbox.entries) (hsha : next.sha256 = existing.sha256)
    (hpayload : next.payload = existing.payload) (hbytes : next.bytes = existing.bytes)
    (haccount : next.accountId = existing.accountId) :
    QueueSound { outbox with entries := putEntry outbox.entries next } ∧
      ∀ p, outbox.Holds p → Outbox.Holds { outbox with entries := putEntry outbox.entries next } p := by
  have hsize : next.storageBytes = existing.storageBytes := by
    rw [OutboxEntry.storageBytes, OutboxEntry.storageBytes, hbytes, haccount]
  refine ⟨⟨putEntry_keys h.keys next, fun e he => ?_, ?_⟩, ?_⟩
  · rcases List.mem_append.mp he with he | he
    · exact h.entry e (mem_withoutEntry.mp he).1
    · obtain rfl := List.mem_singleton.mp he
      rw [hsha, hpayload, hbytes, haccount]
      exact h.entry existing hmem
  · have hlast : storedBytes [next] = next.storageBytes := by simp [storedBytes]
    change outbox.used = storedBytes (putEntry outbox.entries next)
    rw [h.counter, storedBytes_withoutEntry h.keys hmem, putEntry, storedBytes_append, hlast, hsha,
      hsize]
  · rintro p ⟨e, he, rfl⟩
    by_cases heq : e.sha256 = next.sha256
    · refine ⟨next, List.mem_append_right _ List.mem_cons_self, ?_⟩
      have hsame : e = existing := List.inj_on_of_nodup_map h.keys he hmem (heq.trans hsha)
      rw [hpayload, hsame]
    · exact ⟨e, List.mem_append_left _ (mem_withoutEntry.mpr ⟨he, heq⟩), rfl⟩

lemma recordFailure_sound (h : QueueSound outbox) (sha256 : H.Digest) (input : FailureInput) :
    QueueSound (recordFailure outbox sha256 input).1 ∧
      (recordFailure outbox sha256 input).1.used = outbox.used ∧
      ∀ p, outbox.Holds p → (recordFailure outbox sha256 input).1.Holds p := by
  unfold recordFailure
  split
  next => exact ⟨h, rfl, fun p hp => hp⟩
  next existing hget =>
    obtain ⟨hmem, -⟩ := getEntry_eq_some hget
    dsimp only
    refine And.imp_right (fun hholds => ⟨rfl, hholds⟩) (putEntry_sound h hmem ?_ ?_ ?_ ?_)
    all_goals split <;> rfl

lemma account_ne_nil (c : Capture) : c.account ≠ some [] := by
  intro heq
  have := Option.filter_eq_some_iff.mp heq
  simp at this

lemma enqueue_sound (h : QueueSound outbox) (c : Capture) :
    QueueSound (enqueue H outbox c).1 ∧
      (∀ p, outbox.Holds p → (enqueue H outbox c).1.Holds p) ∧
      match (enqueue H outbox c).2 with
      | .accepted duplicate _ => (enqueue H outbox c).1.Holds c.payload ∧
          (enqueue H outbox c).1.used ≤ if duplicate then outbox.used else c.capacityBytes
      | .refused .. => (enqueue H outbox c).1 = outbox := by
  unfold enqueue
  split
  · exact ⟨h, fun p hp => hp, rfl⟩
  split
  · exact ⟨h, fun p hp => hp, rfl⟩
  dsimp only
  split
  next existing hget =>
    obtain ⟨hmem, hsha⟩ := getEntry_eq_some hget
    refine ⟨h, fun p hp => hp, ⟨existing, hmem, ?_⟩, le_rfl⟩
    exact H.digest_injective ((h.entry existing hmem).1.symm.trans hsha)
  next hget =>
    have hnew := getEntry_eq_none hget
    split
    · exact ⟨h, fun p hp => hp, rfl⟩
    next hfits =>
      have hentries : ∀ e : OutboxEntry H.Digest, e.sha256 = H.digest c.payload →
          putEntry outbox.entries e = outbox.entries ++ [e] := fun e he => by
        rw [putEntry, he, withoutEntry_eq_self hnew]
      refine ⟨⟨putEntry_keys h.keys _, fun e he => ?_, ?_⟩, ?_, ?_, ?_⟩
      · rw [hentries _ rfl] at he
        rcases List.mem_append.mp he with he | he
        · exact h.entry e he
        · obtain rfl := List.mem_singleton.mp he
          exact ⟨rfl, rfl, account_ne_nil c⟩
      · rw [hentries _ rfl, storedBytes_append, ← h.counter]
        simp [Outbox.used, storedBytes, OutboxEntry.storageBytes]
      · rintro p ⟨e, he, rfl⟩
        rw [Outbox.Holds, hentries _ rfl]
        exact ⟨e, List.mem_append_left _ he, rfl⟩
      · exact ⟨_, List.mem_append_right _ List.mem_cons_self, rfl⟩
      · exact Nat.le_of_not_lt hfits

end Entries

section Drains
variable {H : Sha256} {hexLe : H.Digest → H.Digest → Bool} {delivered : List Bytes}

/-- A drain works on entries under the digests of their payloads, and an answer it has to settle was
given. -/
def DrainSound (delivered : List Bytes) : DrainRun H.Digest → Prop
  | .inFlight _ rest answered _ => (∀ e ∈ rest, e.sha256 = H.digest e.payload) ∧
      (answered = some .delivered → ∀ e ∈ rest.head?, e.payload ∈ delivered)
  | _ => True

lemma DrainSound.mono {delivered' : List Bytes} (h : delivered ⊆ delivered')
    {run : DrainRun H.Digest} (hrun : DrainSound delivered run) : DrainSound delivered' run := by
  cases run with
  | inFlight maxPerRun rest answered report =>
    exact ⟨hrun.1, fun hanswered e he => h (hrun.2 hanswered e he)⟩
  | _ => trivial

lemma drainNext_sound {rest : List (OutboxEntry H.Digest)}
    (h : ∀ e ∈ rest, e.sha256 = H.digest e.payload) (maxPerRun : Option ℕ) (report : DrainReport) :
    DrainSound delivered (drainNext maxPerRun rest report) := by
  unfold drainNext
  split
  · trivial
  · split
    · trivial
    · exact ⟨h, by simp⟩

lemma startDrain_sound {outbox : Outbox H.Digest} (h : QueueSound outbox) (opened : Bool)
    (maxPerRun : Option ℕ) (clock : ℕ → ℕ) :
    DrainSound delivered (startDrain hexLe outbox opened maxPerRun clock) := by
  unfold startDrain
  split
  · trivial
  dsimp only
  split
  · trivial
  · refine drainNext_sound (fun e he => ?_) _ _
    obtain ⟨⟨e', i⟩, hp, rfl⟩ := List.mem_map.mp he
    have hpending := List.fst_mem_of_mem_zipIdx (List.mem_filter.mp hp).1
    have hread := (List.mem_filter.mp hpending).1
    exact (h.entry _ ((List.mem_insertionSort _).mp hread)).1

variable (delivered) in
lemma settleAnswer_sound {outbox : Outbox H.Digest} (h : QueueSound outbox)
    {entry : OutboxEntry H.Digest} {rest : List (OutboxEntry H.Digest)}
    (hentry : ∀ e ∈ entry :: rest, e.sha256 = H.digest e.payload) (opened : Bool) (now : ℕ)
    (maxPerRun : Option ℕ) (result : DeliverResult) (report : DrainReport) :
    let r := settleAnswer outbox opened now maxPerRun entry rest result report
    QueueSound r.1 ∧ r.1.used ≤ outbox.used ∧ DrainSound delivered r.2 ∧
      ∀ p, outbox.Holds p → ¬ r.1.Holds p → result = .delivered ∧ entry.payload = p := by
  have hrest : ∀ e ∈ rest, e.sha256 = H.digest e.payload :=
    fun e he => hentry e (List.mem_cons_of_mem _ he)
  have hsha := hentry entry List.mem_cons_self
  cases result with
  | delivered =>
    dsimp only [settleAnswer]
    refine ⟨?_, ?_, drainNext_sound hrest _ _, fun p hp hgone => ⟨rfl, ?_⟩⟩
    all_goals
      cases opened
    · exact h
    · rw [if_pos rfl, hsha]
      exact (markDelivered_sound h _).1
    · exact le_rfl
    · rw [if_pos rfl, hsha]
      exact (markDelivered_sound h _).2.1
    · exact absurd hp hgone
    · rw [if_pos rfl, hsha] at hgone
      by_contra hne
      exact hgone ((markDelivered_sound h _).2.2 p hp (Ne.symm hne))
  | notDelivered reason kind detail retryable =>
    have hrecorded : ∀ input : FailureInput,
        let next := if opened then (recordFailure outbox entry.sha256 input).1 else outbox
        QueueSound next ∧ next.used ≤ outbox.used ∧ ∀ p, outbox.Holds p → next.Holds p := by
      intro input
      cases opened
      · exact ⟨h, le_rfl, fun p hp => hp⟩
      · obtain ⟨hsound, hused, hholds⟩ := recordFailure_sound h entry.sha256 input
        exact ⟨hsound, hused.le, hholds⟩
    obtain ⟨hsound, hused, hholds⟩ := hrecorded
      ⟨reason, now, !isItemRejected (.notDelivered reason kind detail retryable), kind, detail⟩
    dsimp only [settleAnswer]
    split
    · exact ⟨hsound, hused, drainNext_sound hrest _ _, fun p hp hgone => absurd (hholds p hp) hgone⟩
    · exact ⟨hsound, hused, trivial, fun p hp hgone => absurd (hholds p hp) hgone⟩

end Drains

section Site
variable {H : Sha256} {hexLe : H.Digest → H.Digest → Bool} {s : DeliverySite H}

/-- What every step of the workers keeps. -/
structure Kept (s : DeliverySite H) : Prop where
  queue : QueueSound s.outbox
  bound : s.outbox.used ≤ s.largest
  drains : ∀ worker, DrainSound s.delivered (s.workers worker)
  accepted : ∀ p ∈ s.accepted, s.outbox.Holds p ∨ p ∈ s.delivered

/-- The step is the transaction that follows an acknowledged delivery of the payload. -/
def FollowsDelivery (s : DeliverySite H) (payload : Bytes) : DeliveryAction H → Prop
  | .settle worker _ _ => ∃ maxPerRun entry rest report, entry.payload = payload ∧
      s.workers worker = .inFlight maxPerRun (entry :: rest) (some .delivered) report
  | .markDelivered delivered => delivered = payload ∧ payload ∈ s.delivered
  | _ => False

lemma Kept.fresh : Kept (.fresh H) :=
  ⟨.empty, le_rfl, fun _ => trivial, by simp [DeliverySite.fresh]⟩

lemma Kept.setRun (h : Kept s) (worker : ℕ) {run : DrainRun H.Digest}
    (hrun : DrainSound s.delivered run) : Kept (s.setRun worker run) where
  queue := h.queue
  bound := h.bound
  drains := fun w => by
    by_cases hw : w = worker
    · subst hw
      simpa [DeliverySite.setRun] using hrun
    · simpa [DeliverySite.setRun, Function.update_of_ne hw] using h.drains w
  accepted := h.accepted

lemma Kept.acknowledged (h : Kept s) (payload : Bytes) :
    Kept { s with delivered := s.delivered ++ [payload] } where
  queue := h.queue
  bound := h.bound
  drains := fun w => (h.drains w).mono (List.subset_append_left _ _)
  accepted := fun p hp => (h.accepted p hp).imp_right fun hin => List.mem_append_left _ hin

lemma Kept.requeued (h : Kept s) {outbox : Outbox H.Digest} (hqueue : QueueSound outbox)
    (hused : outbox.used ≤ s.outbox.used)
    (hholds : ∀ p, s.outbox.Holds p → ¬ outbox.Holds p → p ∈ s.delivered) :
    Kept { s with outbox } where
  queue := hqueue
  bound := hused.trans h.bound
  drains := h.drains
  accepted := fun p hp => by
    rcases h.accepted p hp with hin | hin
    · exact or_iff_not_imp_left.mpr (hholds p hin)
    · exact Or.inr hin

theorem deliveryStep_kept (h : Kept s) (a : DeliveryAction H) :
    Kept (deliveryStep hexLe s a) ∧ ∀ p, s.outbox.Holds p →
      ¬ (deliveryStep hexLe s a).outbox.Holds p → FollowsDelivery s p a := by
  cases a with
  | enqueue c =>
    obtain ⟨hqueue, hholds, hresult⟩ := enqueue_sound h.queue c
    have hstays : ∀ p, s.outbox.Holds p → ¬ (enqueue H s.outbox c).1.Holds p → False :=
      fun p hp hgone => hgone (hholds p hp)
    dsimp only [deliveryStep]
    split
    next outbox duplicate entry heq =>
      rw [heq] at hqueue hresult hstays
      obtain ⟨hheld, hused⟩ := hresult
      refine ⟨⟨hqueue, ?_, h.drains, fun p hp => ?_⟩, fun p hp hgone => hstays p hp hgone⟩
      · have hbound := h.bound
        cases duplicate
        · exact hused.trans (le_max_right _ _)
        · exact hused.trans hbound
      · rcases List.mem_append.mp hp with hp | hp
        · exact (h.accepted p hp).imp_left fun hin => by_contra fun hgone => hstays p hin hgone
        · exact Or.inl (List.mem_singleton.mp hp ▸ hheld)
    next outbox reason sha256 summary heq =>
      rw [heq] at hresult
      obtain rfl : outbox = s.outbox := hresult
      exact ⟨h, fun p hp hgone => absurd hp hgone⟩
  | drainOutbox worker opened maxPerRun clock =>
    refine ⟨?_, fun p hp hgone => ?_⟩
    all_goals dsimp only [deliveryStep] at *
    · split
      · exact h
      · exact h.setRun worker (startDrain_sound h.queue opened maxPerRun clock)
    · split at hgone <;> exact absurd hp hgone
  | deliver worker result =>
    dsimp only [deliveryStep]
    split
    next maxPerRun entry rest report hrun =>
      obtain ⟨hrest, -⟩ : DrainSound s.delivered (.inFlight maxPerRun (entry :: rest) none report) :=
        hrun ▸ h.drains worker
      refine ⟨?_, fun p hp hgone => absurd hp hgone⟩
      by_cases hresult : result = .delivered
      · rw [if_pos hresult]
        refine (h.acknowledged entry.payload).setRun worker ⟨hrest, fun _ e he => ?_⟩
        obtain rfl : entry = e := by simpa using he
        exact List.mem_append_right _ List.mem_cons_self
      · rw [if_neg hresult]
        exact h.setRun worker ⟨hrest, fun heq => absurd (Option.some.inj heq) hresult⟩
    · exact ⟨h, fun p hp hgone => absurd hp hgone⟩
  | settle worker opened now =>
    dsimp only [deliveryStep]
    split
    next maxPerRun entry rest result report hrun =>
      obtain ⟨hrest, hanswered⟩ : DrainSound s.delivered
        (.inFlight maxPerRun (entry :: rest) (some result) report) := hrun ▸ h.drains worker
      obtain ⟨hqueue, hused, hnext, hgone⟩ :=
        settleAnswer_sound s.delivered h.queue hrest opened now maxPerRun result report
      refine ⟨(h.requeued hqueue hused fun p hp hleft => ?_).setRun worker hnext,
        fun p hp hleft => ?_⟩
      · obtain ⟨rfl, rfl⟩ := hgone p hp hleft
        exact hanswered rfl entry rfl
      · obtain ⟨rfl, heq⟩ := hgone p hp hleft
        exact ⟨maxPerRun, entry, rest, report, heq, hrun⟩
    · exact ⟨h, fun p hp hgone => absurd hp hgone⟩
  | recordFailure sha256 input =>
    obtain ⟨hqueue, hused, hholds⟩ := recordFailure_sound h.queue sha256 input
    exact ⟨h.requeued hqueue hused.le fun p hp hgone => absurd (hholds p hp) hgone,
      fun p hp hgone => absurd (hholds p hp) hgone⟩
  | acknowledged payload => exact ⟨h.acknowledged payload, fun p hp hgone => absurd hp hgone⟩
  | markDelivered payload =>
    dsimp only [deliveryStep]
    split
    next hin =>
      obtain ⟨hqueue, hused, hholds⟩ := markDelivered_sound h.queue payload
      have honly : ∀ p, s.outbox.Holds p →
          ¬ (markDelivered s.outbox (H.digest payload)).Holds p → payload = p :=
        fun p hp hgone => by_contra fun hne => hgone (hholds p hp (Ne.symm hne))
      refine ⟨h.requeued hqueue hused fun p hp hgone => honly p hp hgone ▸ hin,
        fun p hp hgone => ?_⟩
      obtain rfl := honly p hp hgone
      exact ⟨rfl, hin⟩
    · exact ⟨h, fun p hp hgone => absurd hp hgone⟩
  | restart worker => exact ⟨h.setRun worker trivial, fun p hp hgone => absurd hp hgone⟩

end Site

section Runs

lemma storedBytes_eq_summary {H : Sha256} (outbox : Outbox H.Digest) (capacityBytes : ℕ) :
    storedBytes outbox.entries = (summary outbox capacityBytes).bytes +
      (outbox.entries.map fun e => accountIdBytes e.accountId).sum := by
  change (outbox.entries.map fun e => e.bytes + accountIdBytes e.accountId).sum = _
  exact List.sum_map_add

lemma accountIdBytes_eq_zero {accountId : Option Bytes} (h : accountId ≠ some []) :
    accountIdBytes accountId = 0 ↔ accountId = none := by
  cases accountId with
  | none => simp [accountIdBytes]
  | some id => simpa [accountIdBytes] using h

lemma QueueSound.summary_iff {H : Sha256} {outbox : Outbox H.Digest} (h : QueueSound outbox) :
    (∀ capacityBytes, (summary outbox capacityBytes).bytes = outbox.used ∧
      ((summary outbox capacityBytes).full = true ↔ capacityBytes ≤ outbox.used)) ↔
      ∀ e ∈ outbox.entries, e.accountId = none := by
  have hzero : (outbox.entries.map fun e => accountIdBytes e.accountId).sum = 0 ↔
      ∀ e ∈ outbox.entries, e.accountId = none := by
    rw [List.sum_eq_zero_iff_forall_eq_nat]
    simp only [List.mem_map, forall_exists_index, and_imp, forall_apply_eq_imp_iff₂]
    exact forall₂_congr fun e he => accountIdBytes_eq_zero (h.entry e he).2.2
  constructor
  · intro hall
    have htotal := storedBytes_eq_summary outbox 0
    rw [(hall 0).1, h.counter] at htotal
    exact hzero.mp (by omega)
  · intro hnone capacityBytes
    have htotal := storedBytes_eq_summary outbox capacityBytes
    rw [hzero.mpr hnone, Nat.add_zero, ← h.counter] at htotal
    rw [htotal]
    exact ⟨rfl, decide_eq_true_iff⟩

/-- Whatever the workers do, a capture goes only after a delivery of it is acknowledged and the
counter is the sum of what is queued; the summary tells that counter as long as nothing queued has
an account id. -/
theorem outbox_keeps_captures_iff (H : Sha256) (hexLe : H.Digest → H.Digest → Bool)
    (actions : List (DeliveryAction H)) :
    let s := StepRun.exec (deliveryStep hexLe) (.fresh H) actions
    (∀ p ∈ s.accepted, s.outbox.Holds p ∨ p ∈ s.delivered) ∧
    (∀ a p, s.outbox.Holds p → ¬ (deliveryStep hexLe s a).outbox.Holds p →
      FollowsDelivery s p a) ∧
    s.outbox.used = storedBytes s.outbox.entries ∧ s.outbox.used ≤ s.largest ∧
    ((∀ capacityBytes, (summary s.outbox capacityBytes).bytes = s.outbox.used ∧
      ((summary s.outbox capacityBytes).full = true ↔ capacityBytes ≤ s.outbox.used)) ↔
      ∀ e ∈ s.outbox.entries, e.accountId = none) := by
  intro s
  have hstep : ∀ (s : DeliverySite H) a, Kept s → Kept (deliveryStep hexLe s a) :=
    fun s a h => (deliveryStep_kept h a).1
  have h : Kept s := StepRun.invariant_all hstep .fresh actions
  exact ⟨h.accepted, fun a => (deliveryStep_kept h a).2, h.queue.counter, h.bound,
    h.queue.summary_iff⟩

/-- With an account id queued, the counter has reached a capacity at which the next capture is
refused, and the summary says neither. -/
theorem summary_misses_account_ids :
    let capture (payload : Bytes) : Capture :=
      ⟨['k'], payload, some [65, 66], 5, 0, true, true⟩
    let s := StepRun.exec (deliveryStep fun _ _ => true) (.fresh .verbatim)
      [.enqueue (capture [1, 2, 3])]
    s.outbox.used = 5 ∧ (summary s.outbox 5).bytes = 3 ∧ (summary s.outbox 5).full = false ∧
      (enqueue .verbatim s.outbox (capture [4])).2 =
        .refused .outboxFull (some [4]) (some ⟨1, 0, 5, 5, true, true⟩) := by
  decide +kernel

end Runs

end ChatStasher
