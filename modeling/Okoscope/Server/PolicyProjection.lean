import Okoscope.Server.PolicyTables

/-!
# Evaluations at ingestion and in the background

An ingested event puts its behaviour and its group under the policies of the
moment. A recomputation worker does the same, in batches, for the groups and
sightings of a behaviour whose policies changed. The digests of an event are
those of its group and of its inventory item; whether a restart also makes a
restart-loop group is decided by the restarts counted elsewhere.
-/
namespace Okoscope.Server.PolicyProjection

open Lib.Bytes Lib.ReadCommitted
open Deployments (SqlError)
open Inventory (InventoryKind currentInventoryIdentityVersion)
open Policy PolicyTables

variable {δ : Type}

/-! ## Evaluations -/

structure MaterializedEvaluation where
  stateVersion : Nat
  evaluation : Evaluation

/-- A revision as the evaluation sees it. -/
def candidateOf (scope : PolicyScope) (r : Revision) : ScopedPolicyCandidate where
  scope
  behavior := r.behavior
  candidate := ⟨r.id, r.placement, r.insideEffect, r.outsideEffect⟩

/-- The identity, the version and the revisions are read by a statement each, in this order. -/
def evaluateItem (scope : PolicyScope) (itemId : Nat) (placement : Placement) :
    Tx (Db δ) (Write δ) Lock Failure MaterializedEvaluation := do
  match ← .query fun db : Db δ => db.identityKey scope itemId with
  | none => .fail (.database .rowNotFound)
  | some behavior =>
    let stateVersion ← .query fun db : Db δ => db.stateVersion scope
    let rows ← .query fun db : Db δ => db.enabledRevisionsForIdentity scope behavior
    pure {
      stateVersion := stateVersion.getD 0
      evaluation := evaluateScoped ⟨scope, behavior, placement⟩ (rows.map (candidateOf scope)) }

def storeGroup (scope : PolicyScope) (groupId : Nat) (value : MaterializedEvaluation) :
    Tx (Db δ) (Write δ) Lock Failure Unit :=
  storeGroupEvaluation ⟨scope, groupId, value.stateVersion, policyEvaluatorVersion, value.evaluation⟩

def storeSighting (scope : PolicyScope) (key : SightingKey) (value : MaterializedEvaluation) :
    Tx (Db δ) (Write δ) Lock Failure Unit :=
  storeSightingEvaluation ⟨scope, key, value.stateVersion, policyEvaluatorVersion, value.evaluation⟩

def projectExistingGroup (scope : PolicyScope) (itemId groupId : Nat) (placement : Placement) :
    Tx (Db δ) (Write δ) Lock Failure Unit := do
  let value ← evaluateItem scope itemId placement
  storeGroup scope groupId value

def projectExistingSighting (scope : PolicyScope) (key : SightingKey) : Tx (Db δ) (Write δ) Lock Failure Unit := do
  let value ← evaluateItem scope key.itemId key.placement
  storeSighting scope key value

/-! ## Ingestion -/

/-- What ingestion makes of an event, and the ids it draws for the rows it may have to make. -/
structure Observation where
  agentId : Nat
  eventId : Nat
  observedAt : Int
  placement : Placement
  podUid : String
  containerName : String
  fingerprintDigest : ByteVec 32
  kind : InventoryKind
  identityDigest : ByteVec 32
  seedable : Bool
  restartLoop : Option (ByteVec 32)
  groupId : Nat
  itemId : Nat
  restartLoopGroupId : Nat

def fingerprintVersion : Nat := 1
def derivedGroupFingerprintVersion : Nat := 101

def Observation.groupKey (o : Observation) (scope : PolicyScope) : GroupKey where
  scope
  placement := o.placement
  fingerprintVersion
  fingerprintDigest := o.fingerprintDigest

def Observation.itemKey (o : Observation) (scope : PolicyScope) : ItemKey where
  scope
  kind := o.kind
  behavior := ⟨currentInventoryIdentityVersion, o.identityDigest⟩

def Observation.sightingKey (o : Observation) (itemId : Nat) : SightingKey :=
  ⟨itemId, o.placement, o.podUid, o.containerName⟩

/-- The inventory item with the identity of the event, which is made where there is none. -/
def ensureItem (scope : PolicyScope) (o : Observation) : Tx (Db δ) (Write δ) Lock Failure Nat := do
  if ← insertItem ⟨o.itemId, o.itemKey scope, o.seedable⟩ then pure o.itemId
  else itemIdByIdentity (o.itemKey scope)

def assignEvent (scope : PolicyScope) (o : Observation) : Tx (Db δ) (Write δ) Lock Failure Nat := do
  if ← insertGroupIfAbsent ⟨o.groupId, o.groupKey scope⟩ then pure o.groupId
  else lockExistingGroup (o.groupKey scope)

def projectEvent (scope : PolicyScope) (o : Observation) (groupId : Nat) :
    Tx (Db δ) (Write δ) Lock Failure Nat := do
  let itemId ← ensureItem scope o
  linkGroup ⟨scope, itemId, groupId⟩
  recordSighting ⟨scope, o.sightingKey itemId⟩
  pure itemId

def projectCurrentEvaluation (scope : PolicyScope) (o : Observation) (groupId itemId : Nat) :
    Tx (Db δ) (Write δ) Lock Failure Unit := do
  let value ← evaluateItem scope itemId o.placement
  storeGroup scope groupId value
  storeSighting scope (o.sightingKey itemId) value

/-- A restart-loop group is linked to the item of the restart and is not evaluated. -/
def upsertRestartLoopGroup (scope : PolicyScope) (o : Observation) (itemId : Nat) :
    Tx (Db δ) (Write δ) Lock Failure Unit :=
  match o.restartLoop with
  | none => pure ()
  | some digest => do
    let groupId ← upsertDerivedGroup
      ⟨o.restartLoopGroupId, ⟨scope, o.placement, derivedGroupFingerprintVersion, digest⟩⟩
    linkGroup ⟨scope, itemId, groupId⟩

def persistEvent (scope : PolicyScope) (o : Observation) : Tx (Db δ) (Write δ) Lock Failure Nat := do
  let owned ← .query fun db : Db δ => db.applications.contains scope
  .ensure owned .invalidOwnership
  if ← insertEvent o.agentId o.eventId then
    let groupId ← assignEvent scope o
    let itemId ← projectEvent scope o groupId
    projectCurrentEvaluation scope o groupId itemId
    upsertRestartLoopGroup scope o itemId
    pure 1
  else pure 0

/-- How many events were accepted and how many had come too late. -/
def persistEvents (scope : PolicyScope) (closed : Option Int) :
    List Observation → Tx (Db δ) (Write δ) Lock Failure (Nat × Nat)
  | [] => pure (0, 0)
  | o :: rest =>
    if closed.any (o.observedAt < ·) then do
      let (accepted, expired) ← persistEvents scope closed rest
      pure (accepted, expired + 1)
    else do
      let one ← persistEvent scope o
      let (accepted, expired) ← persistEvents scope closed rest
      pure (accepted + one, expired)

def persistApplicationBatchOutcome (scope : PolicyScope) (events : List Observation) :
    Tx (Db δ) (Write δ) Lock Failure (Nat × Nat) := do
  let closed ← lockProject scope.organizationId scope.projectId
  persistEvents scope closed events

/-! ## Recomputation -/

def maxBatchSize : Nat := 1000

/-- What is left of a batch is for sightings. -/
def remainingSightings (scope : PolicyScope) (behavior : BehaviorKey) (batchSize groups : Nat) :
    Tx (Db δ) (Write δ) Lock Failure (List Sighting) :=
  if groups < batchSize then .query fun db : Db δ => db.sightingsToEvaluate scope behavior (batchSize - groups)
  else pure []

/-- A batch that was not full was the last. -/
def settleRecomputation (id owner batchSize processed : Nat) : Tx (Db δ) (Write δ) Lock Failure Unit :=
  if processed < batchSize then completeRecomputation id owner else releaseRecomputation id owner

/-- Evaluates the next groups and sightings of a behaviour, and ends the lease. -/
def recomputeBatch (operation : Recomputation) (owner batchSize : Nat) : Tx (Db δ) (Write δ) Lock Failure Unit := do
  let groups ← .query fun db : Db δ => db.groupsToEvaluate operation.scope operation.behavior batchSize
  .each (fun r => projectExistingGroup operation.scope r.1 r.2.id r.2.key.placement) groups
  let sightings ← remainingSightings operation.scope operation.behavior batchSize groups.length
  .each (fun s => projectExistingSighting operation.scope s.key) sightings
  settleRecomputation operation.id owner batchSize (groups.length + sightings.length)

def runOneBatch (now : Int) (owner batchSize : Nat) : Tx (Db δ) (Write δ) Lock Failure Bool := do
  .ensure (1 ≤ batchSize && batchSize ≤ maxBatchSize)
    (.database (.protocol "policy recomputation batch_size must be 1..=1000"))
  match ← claimRecomputation now owner with
  | none => pure false
  | some operation =>
    recomputeBatch operation owner batchSize
    pure true

end Okoscope.Server.PolicyProjection
