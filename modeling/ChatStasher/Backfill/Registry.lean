import ChatStasher.Backfill.Ledger

/-! The backfill's target registry: registrations, the cap on its rows, and the headers that a row
which loses its seat takes with it. -/
namespace ChatStasher

deriving instance DecidableEq for ScopeKey

abbrev BackfillTarget := ScopeKey

def maxTargetEntries : ℕ := 8

inductive TargetDropReason
  | nonOrganization
  | registryCap
  deriving DecidableEq

structure DroppedTarget where
  target : BackfillTarget
  reason : TargetDropReason
  deriving DecidableEq

def capEvictions (withIncoming : List BackfillTarget) : List DroppedTarget :=
  (withIncoming.drop maxTargetEntries).map fun target => ⟨target, .registryCap⟩

def partitionTargetsByChannel (active : String → Bool) (targets : List BackfillTarget) :
    List BackfillTarget × List BackfillTarget :=
  targets.partition fun t => active t.platform

/-- A registry write: what is stored, what it dropped, and the rows it kept. -/
structure RegistryWrite where
  stored : List BackfillTarget
  dropped : List DroppedTarget
  next : List BackfillTarget

/-- The scopes whose headers are removed, in order: a dropped row that holds no other seat. -/
def removeDroppedHeaders (w : RegistryWrite) : List ScopeKey :=
  (w.dropped.map DroppedTarget.target).filter fun target => target ∉ w.next

/-- Record one target, most recent first; a platform of another channel is not recorded. -/
def rememberTarget (active : String → Bool) (stored : List BackfillTarget)
    (target : BackfillTarget) : Option RegistryWrite :=
  if !active target.platform then none
  else
    let rows := partitionTargetsByChannel active stored
    let withIncoming := target :: rows.1.filter fun t => t ≠ target
    let next := withIncoming.take maxTargetEntries
    some ⟨next ++ rows.2, capEvictions withIncoming, next⟩

/-- Record one target of a platform whose scopes are organizations: its other rows that name no
organization are dropped, and such an incoming one only takes a seat while there is none. -/
def rememberOrganizationScopedTarget (active isOrganizationScope : String → Bool)
    (stored : List BackfillTarget) (target : BackfillTarget) : RegistryWrite :=
  let rows := partitionTargetsByChannel active stored
  let collapses := fun t : BackfillTarget =>
    t.platform == target.platform && !isOrganizationScope t.scope
  let dropped := (rows.1.filter collapses).map fun t => ⟨t, .nonOrganization⟩
  let kept := rows.1.filter fun t => !collapses t
  let platformHasOrg := kept.any fun t =>
    t.platform == target.platform && isOrganizationScope t.scope
  if !isOrganizationScope target.scope && platformHasOrg then ⟨kept ++ rows.2, dropped, kept⟩
  else
    let withIncoming := target :: kept.filter fun t => t ≠ target
    let next := withIncoming.take maxTargetEntries
    ⟨next ++ rows.2, dropped ++ capEvictions withIncoming, next⟩

/-- The registry beside the storage and the open ledger of one scope. -/
structure RegisteredSite where
  targets : List BackfillTarget
  site : BackfillSite
  deriving DecidableEq

/-- Steps of the worker. A registration may be cut by the worker's death after so many of its writes:
the registry first, then one header after the other. -/
inductive RegisteredAction
  | backfill (a : BackfillAction)
  | rememberTarget (active : String → Bool) (target : BackfillTarget) (diesAfter : Option ℕ)
  | rememberOrganizationScopedTarget (active isOrganizationScope : String → Bool)
      (target : BackfillTarget) (diesAfter : Option ℕ)

/-- A registry write up to where the worker died. -/
def commitRegistry (key : ScopeKey) (s : RegisteredSite) (w : RegistryWrite)
    (diesAfter : Option ℕ) : RegisteredSite :=
  let removed := match diesAfter with
    | none => removeDroppedHeaders w
    | some writes => (removeDroppedHeaders w).take (writes - 1)
  { targets := if diesAfter = some 0 then s.targets else w.stored
    site := {
      storage := { s.site.storage with
        header := if key ∈ removed then none else s.site.storage.header }
      session := if diesAfter.isNone then s.site.session else none } }

def registeredStep (key : ScopeKey) (s : RegisteredSite) : RegisteredAction → RegisteredSite
  | .backfill a => { s with site := backfillStep key s.site a }
  | .rememberTarget active target diesAfter =>
    match rememberTarget active s.targets target with
    | none => s
    | some w => commitRegistry key s w diesAfter
  | .rememberOrganizationScopedTarget active isOrganizationScope target diesAfter =>
    commitRegistry key s
      (rememberOrganizationScopedTarget active isOrganizationScope s.targets target) diesAfter

/-- A profile whose debt store holds nothing for the scope; a record of the old layout, with each id
once, may still be there. -/
def RegisteredSite.start (targets : List BackfillTarget)
    (legacy : Option { r : LegacyBackfillState // (r.pending ++ r.archived).Nodup }) :
    RegisteredSite :=
  ⟨targets, ⟨⟨[], none, legacy.map Subtype.val⟩, none⟩⟩

end ChatStasher
