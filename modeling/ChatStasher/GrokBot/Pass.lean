import ChatStasher.Inbox.Bundle
import ChatStasher.Library.GroupedUnion
import Mathlib.Data.List.Range

/-! Grok Bot replicas: the union of the observed windows and the pass that delivers its rows. -/
namespace ChatStasher.GrokBot
open Inbox (Text)
open KeyedList

/-- Raw replica records: the unsigned `seq` of one with a string kind, its canonical JSON, and the
other texts a pass writes. -/
structure ReplicaFormat where
  Raw : Type
  decEq : DecidableEq Raw
  sequence : Raw → Option ℕ
  encode : Raw → Bytes
  encode_injective : Function.Injective encode
  encodeUnion : List (ℕ × Raw) → Bytes
  encodeMetadata : Option Text → List ℕ → Option ℕ → Option ℕ → Bytes

instance ReplicaFormat.decidableEq (F : ReplicaFormat) : DecidableEq F.Raw := F.decEq

variable {F : ReplicaFormat} {H : Sha256} {Dest : Type}

/-- A record carries the sequence that its raw value names. -/
structure ReplicaRecord (F : ReplicaFormat) where
  sequence : ℕ
  raw : F.Raw
  sequence_eq : F.sequence raw = some sequence

lemma ReplicaRecord.eq_of_raw {a b : ReplicaRecord F} (h : a.raw = b.raw) : a = b := by
  obtain ⟨n, x, hx⟩ := a
  obtain ⟨m, y, hy⟩ := b
  obtain rfl : x = y := h
  obtain rfl := Option.some.inj (hx.symm.trans hy)
  rfl

instance : DecidableEq (ReplicaRecord F) := fun a b =>
  decidable_of_iff (a.raw = b.raw) ⟨ReplicaRecord.eq_of_raw, fun h => by rw [h]⟩

def addVariant (variants : List (ReplicaRecord F)) (record : ReplicaRecord F) :
    List (ReplicaRecord F) :=
  if record.raw ∈ variants.map ReplicaRecord.raw then variants else variants ++ [record]

/-- Merge observations from successive local reads into one ordered union. -/
def mergeReplicaRecords (previous observed : List (ReplicaRecord F)) : List (ReplicaRecord F) :=
  let bySequence := (previous ++ observed).foldl
    (fun m record => upsert m record.sequence fun variants =>
      addVariant (variants.getD []) record) []
  (inKeyOrder bySequence).flatMap Prod.snd

/-- Missing sequence numbers from 1 through the highest observed value. -/
def sequenceGaps (sequences : List ℕ) : List ℕ :=
  match sequences.max? with
  | none => []
  | some max => (List.range' 1 max).filter fun sequence => sequence ∉ sequences

/-- The cursor of one destination; an entry from before rows were counted has no delivered set. -/
structure OffsetEntry (D : Type) where
  offset : ℕ
  prefixLen : ℕ
  prefixSha256 : D
  grokBotRowDigests : Option (List D)

def grokBotRowDigest (H : Sha256) (record : ReplicaRecord F) : H.Digest :=
  H.digest (F.encode record.raw)

/-- Which union rows a delivery must hand over, and the delivered set it leaves behind. -/
def planGrokBotRows (union : List (ReplicaRecord F)) (delivered : List H.Digest)
    (deliverAll : Bool) : List (ReplicaRecord F) × List H.Digest :=
  union.foldl (fun plan item =>
    let digest := grokBotRowDigest H item
    if deliverAll || digest ∉ delivered then
      (plan.1 ++ [item], if digest ∈ plan.2 then plan.2 else plan.2 ++ [digest])
    else plan) ([], delivered)

def grokBotDeliveryMetadata (agentName : Option Text) (union : List (ReplicaRecord F)) : Bytes :=
  let sequences := union.map ReplicaRecord.sequence
  F.encodeMetadata agentName (sequenceGaps sequences) sequences.head? sequences.getLast?

def grokBotDeliveryCursor (sourceBytes : ℕ) (union : List (ReplicaRecord F))
    (deliveredNow : List H.Digest) : OffsetEntry H.Digest where
  offset := deliveredNow.length
  prefixLen := sourceBytes
  prefixSha256 := H.digest (F.encodeUnion (union.map fun r => (r.sequence, r.raw)))
  grokBotRowDigests := some deliveredNow

/-- What one read of the persistence shows of an agent. -/
structure Observed (F : ReplicaFormat) where
  name : Option Text
  records : List (ReplicaRecord F)
  sourceBytes : ℕ

/-- What a pass that has rows to deliver makes durable, in the order of the fields: the shard, as the
lines of its payload, the union state and the cursor. -/
structure Delivery (F : ReplicaFormat) (H : Sha256) where
  rows : List (ReplicaRecord F)
  shard : List Bytes
  union : List (ReplicaRecord F)
  state : OffsetEntry H.Digest

/-- One pass over an agent; without rows to deliver it leaves everything as it is. -/
def processGrokBot (previous : List (ReplicaRecord F)) (observed : Observed F)
    (old : Option (OffsetEntry H.Digest)) (forceReset : Bool) : Option (Delivery F H) :=
  let union := mergeReplicaRecords previous observed.records
  let delivered := (old.bind OffsetEntry.grokBotRowDigests).getD []
  let deliverAll := forceReset || old.isNone || old.any fun e => e.grokBotRowDigests.isNone
  let plan := planGrokBotRows union delivered deliverAll
  if plan.1.isEmpty && old.isSome && !forceReset then none
  else some {
    rows := plan.1
    shard := plan.1.map (fun item => F.encode item.raw) ++
      [grokBotDeliveryMetadata observed.name union]
    union := union
    state := grokBotDeliveryCursor observed.sourceBytes union plan.2 }

/-- How far a pass gets: it fails or crashes before or after one of its durable steps, or completes
with its debt entry saved. -/
inductive Fate
  | beforeSeal
  | afterSeal
  | afterUnion
  | completes
  deriving DecidableEq

/-- The sealed shards of an agent's session, its union state and the debt entry of every
destination. -/
structure Site (F : ReplicaFormat) (H : Sha256) (Dest : Type) where
  shards : List (List Bytes)
  union : Option (List (ReplicaRecord F))
  debts : Dest → Option (OffsetEntry H.Digest)

/-- Nothing sealed and no union yet; the debt entries, if any, are from before rows were counted. -/
def Site.start (legacy : Dest → Option (OffsetEntry H.Digest)) : Site F H Dest where
  shards := []
  union := none
  debts dest := (legacy dest).map fun e => { e with grokBotRowDigests := none }

/-- A pass for a destination; its debt entry may have been found unverifiable. -/
structure Pass (F : ReplicaFormat) (Dest : Type) where
  dest : Dest
  observed : Observed F
  forceReset : Bool
  fate : Fate

inductive Action (F : ReplicaFormat) (Dest : Type)
  | pass (p : Pass F Dest)
  | loseDebt (dest : Dest)

/-- What a pass is about to deliver; a missing union file is an empty union. -/
def delivery (s : Site F H Dest) (p : Pass F Dest) : Option (Delivery F H) :=
  processGrokBot (s.union.getD []) p.observed (s.debts p.dest) p.forceReset

section Step
variable [DecidableEq Dest]

def passStep (s : Site F H Dest) (p : Pass F Dest) : Site F H Dest :=
  match delivery s p, p.fate with
  | none, _ => s
  | some _, .beforeSeal => s
  | some d, .afterSeal => { s with shards := s.shards ++ [d.shard] }
  | some d, .afterUnion => { s with
      shards := s.shards ++ [d.shard]
      union := some d.union }
  | some d, .completes => {
      shards := s.shards ++ [d.shard]
      union := some d.union
      debts := Function.update s.debts p.dest (some d.state) }

def step (s : Site F H Dest) : Action F Dest → Site F H Dest
  | .pass p => passStep s p
  | .loseDebt dest => { s with debts := Function.update s.debts dest none }

end Step

end ChatStasher.GrokBot
