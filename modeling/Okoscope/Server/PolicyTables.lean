import Okoscope.Lib.ReadCommitted
import Okoscope.Lib.Table
import Okoscope.Server.Deployments
import Okoscope.Server.Inventory
import Okoscope.Server.Policy

/-!
# Policies and their evaluations in the database

The policy, revision, suppression, command and recomputation tables, the groups
and inventory items that policies are about, and the statements of their
repositories. A statement is one step of a transaction: it reads what is
committed at that moment and what its own transaction wrote, and it waits for
rows that other transactions hold. Row ids are drawn at random and handed to the
statement that uses them; an id that is taken violates the primary key.

What a request is recognised by is the digest of its body; digests are of an
arbitrary type.
-/
namespace Okoscope.Server.PolicyTables

open Lib.Bytes Lib.Table Lib.ReadCommitted
open Deployments (SqlError)
open Inventory (InventoryKind)
open Policy

/-! ## Rows -/

structure Project where
  organizationId : Nat
  id : Nat
  runtimeClosedBefore : Option Int

/-- What the unique index on groups compares. -/
structure GroupKey where
  scope : PolicyScope
  placement : Placement
  fingerprintVersion : Nat
  fingerprintDigest : ByteVec 32
  deriving DecidableEq

structure Group where
  id : Nat
  key : GroupKey
  deriving DecidableEq

/-- What the unique index on inventory items compares. -/
structure ItemKey where
  scope : PolicyScope
  kind : InventoryKind
  behavior : BehaviorKey
  deriving DecidableEq

structure Item where
  id : Nat
  key : ItemKey
  /-- Whether the stored summary describes a behaviour that a policy can be made for. -/
  seedable : Bool
  deriving DecidableEq

structure Link where
  scope : PolicyScope
  itemId : Nat
  groupId : Nat
  deriving DecidableEq

structure SightingKey where
  itemId : Nat
  placement : Placement
  podUid : String
  containerName : String
  deriving DecidableEq

/-- Sightings are listed column by column, texts by their characters. -/
def SightingKey.precedes (a b : SightingKey) : Bool :=
  ((compare a.itemId b.itemId).then <| (compare a.placement.clusterId b.placement.clusterId).then <|
    (compare a.placement.namespace b.placement.namespace).then <|
    (compare a.placement.workloadKind b.placement.workloadKind).then <|
    (compare a.placement.workloadName b.placement.workloadName).then <|
    (compare a.podUid b.podUid).then (compare a.containerName b.containerName)).isLE

structure Sighting where
  scope : PolicyScope
  key : SightingKey

structure GroupEvaluation where
  scope : PolicyScope
  groupId : Nat
  policyStateVersion : Nat
  evaluatorVersion : Nat
  evaluation : Evaluation
  deriving DecidableEq

structure SightingEvaluation where
  scope : PolicyScope
  key : SightingKey
  policyStateVersion : Nat
  evaluatorVersion : Nat
  evaluation : Evaluation

structure Policy where
  id : Nat
  scope : PolicyScope
  name : String
  currentRevisionId : Option Nat
  deriving DecidableEq

structure Revision where
  id : Nat
  policyId : Nat
  scope : PolicyScope
  revisionNumber : Nat
  priorRevisionId : Option Nat
  enabled : Bool
  kind : InventoryKind
  behavior : BehaviorKey
  placement : PlacementMatcher
  insideEffect : PolicyEffect
  outsideEffect : Option PolicyEffect
  sourceInventoryItemId : Nat
  sourceRuntimeGroupId : Option Nat
  deriving DecidableEq

inductive RecomputeState where
  | pending
  | running (leaseOwner : Nat) (leaseExpiresAt : Int)
  | completed
  deriving DecidableEq

structure Recomputation where
  id : Nat
  scope : PolicyScope
  behavior : BehaviorKey
  requestedPolicyRevisionId : Nat
  state : RecomputeState
  attemptCount : Nat
  createdAt : Int

structure Suppression where
  id : Nat
  scope : PolicyScope
  kind : InventoryKind
  behavior : BehaviorKey
  placement : PlacementMatcher
  reason : String
  expiresAt : Int
  cancelledAt : Option Int
  sourceInventoryItemId : Nat
  sourceRuntimeGroupId : Option Nat
  createdAt : Int
  deriving DecidableEq

inductive CommandKind where
  | create
  | replace
  | enable
  | disable
  | suppress
  | cancelSuppression
  deriving DecidableEq

structure MutationResult where
  resourceId : Nat
  revisionId : Option Nat
  recomputationId : Option Nat
  policyStateVersion : Nat
  deriving DecidableEq

structure Command (δ : Type) where
  scope : PolicyScope
  idempotencyKey : Nat
  kind : CommandKind
  requestDigest : δ
  resultResourceId : Nat
  result : MutationResult

structure Db (δ : Type) where
  projects : List Project
  applications : List PolicyScope
  /-- The agent and the id of each raw event. -/
  events : List (Nat × Nat)
  groups : List Group
  items : List Item
  links : List Link
  sightings : List Sighting
  groupEvaluations : List GroupEvaluation
  sightingEvaluations : List SightingEvaluation
  policies : List Policy
  revisions : List Revision
  states : List (PolicyScope × Nat)
  recomputations : List Recomputation
  suppressions : List Suppression
  commands : List (Command δ)

/-- A database with projects and applications and nothing observed in them yet. -/
def Db.fresh {δ : Type} (projects : List Project) (applications : List PolicyScope) : Db δ where
  projects
  applications
  events := []
  groups := []
  items := []
  links := []
  sightings := []
  groupEvaluations := []
  sightingEvaluations := []
  policies := []
  revisions := []
  states := []
  recomputations := []
  suppressions := []
  commands := []

/-! ## Writes -/

inductive Write (δ : Type) where
  | event (agentId eventId : Nat)
  | group (g : Group)
  | item (i : Item)
  | link (l : Link)
  | sighting (s : Sighting)
  | groupEvaluation (e : GroupEvaluation)
  | sightingEvaluation (e : SightingEvaluation)
  | policy (p : Policy)
  | rename (policyId : Nat) (name : String)
  | revision (r : Revision)
  | currentRevision (scope : PolicyScope) (policyId revisionId : Nat)
  | stateVersion (scope : PolicyScope) (version : Nat)
  | recomputation (r : Recomputation)
  | recomputationState (id : Nat) (state : RecomputeState) (attemptCount : Nat)
  | suppression (s : Suppression)
  | cancelSuppression (scope : PolicyScope) (id : Nat) (now : Int)
  | command (c : Command δ)

def apply {δ : Type} (db : Db δ) : Write δ → Db δ
  | .event agentId eventId => { db with events := db.events ++ [(agentId, eventId)] }
  | .group g => { db with groups := db.groups ++ [g] }
  | .item i => { db with items := db.items ++ [i] }
  | .link l => { db with links := db.links ++ [l] }
  | .sighting s => { db with sightings := put Sighting.key s db.sightings }
  | .groupEvaluation e => { db with groupEvaluations := put GroupEvaluation.groupId e db.groupEvaluations }
  | .sightingEvaluation e => { db with sightingEvaluations := put SightingEvaluation.key e db.sightingEvaluations }
  | .policy p => { db with policies := db.policies ++ [p] }
  | .rename policyId name =>
    { db with policies := updateWhere (·.id = policyId) (fun p => { p with name }) db.policies }
  | .revision r => { db with revisions := db.revisions ++ [r] }
  | .currentRevision scope policyId revisionId =>
    { db with
      policies := updateWhere (fun p => p.scope = scope && p.id = policyId)
        (fun p => { p with currentRevisionId := some revisionId }) db.policies }
  | .stateVersion scope version => { db with states := put Prod.fst (scope, version) db.states }
  | .recomputation r => { db with recomputations := db.recomputations ++ [r] }
  | .recomputationState id state attemptCount =>
    { db with
      recomputations := updateWhere (·.id = id) (fun r => { r with state, attemptCount }) db.recomputations }
  | .suppression s => { db with suppressions := db.suppressions ++ [s] }
  | .cancelSuppression scope id now =>
    { db with
      suppressions := updateWhere (fun s => s.scope = scope && s.id = id)
        (fun s => { s with cancelledAt := s.cancelledAt.or (some now) }) db.suppressions }
  | .command c => { db with commands := db.commands ++ [c] }

/-! ## Reads -/

namespace Db
variable {δ : Type}

def stateVersion (db : Db δ) (scope : PolicyScope) : Option Nat := (get? Prod.fst scope db.states).map Prod.snd

/-- The version that readers take: zero where there is none. -/
def version (db : Db δ) (scope : PolicyScope) : Nat := (db.stateVersion scope).getD 0

/-- The current revision of each policy of the application, if it is enabled. -/
def enabledRevisions (db : Db δ) (scope : PolicyScope) : List Revision :=
  db.policies.filterMap fun p =>
    if p.scope = scope then
      (p.currentRevisionId.bind fun id => get? Revision.id id db.revisions).filter Revision.enabled
    else none

def enabledRevisionsForIdentity (db : Db δ) (scope : PolicyScope) (behavior : BehaviorKey) : List Revision :=
  (db.enabledRevisions scope).filter fun r => r.behavior = behavior

def identity (db : Db δ) (scope : PolicyScope) (itemId : Nat) : Option Item :=
  (get? Item.id itemId db.items).filter fun i => i.key.scope = scope

def identityKey (db : Db δ) (scope : PolicyScope) (itemId : Nat) : Option BehaviorKey :=
  (db.identity scope itemId).map fun i => i.key.behavior

def itemLinkedToGroup (db : Db δ) (scope : PolicyScope) (itemId groupId : Nat) : Bool :=
  db.links.contains ⟨scope, itemId, groupId⟩

/-- A group's evaluation is missing, older than the policies or by another evaluator. -/
def groupPending (db : Db δ) (g : Group) : Bool :=
  match get? GroupEvaluation.groupId g.id db.groupEvaluations with
  | none => true
  | some e => e.policyStateVersion < db.version g.key.scope || e.evaluatorVersion ≠ policyEvaluatorVersion

def sightingPending (db : Db δ) (s : Sighting) : Bool :=
  match get? SightingEvaluation.key s.key db.sightingEvaluations with
  | none => true
  | some e => e.policyStateVersion < db.version s.scope || e.evaluatorVersion ≠ policyEvaluatorVersion

/-- The item and the group of a link, if the item has the behaviour. -/
def linkedGroup (db : Db δ) (behavior : BehaviorKey) (l : Link) : Option (Nat × Group) := do
  let i ← get? Item.id l.itemId db.items
  let g ← get? Group.id l.groupId db.groups
  if i.key.behavior = behavior then some (i.id, g) else none

/-- The linked groups of a behaviour in the application that are to be evaluated. -/
def pendingGroups (db : Db δ) (scope : PolicyScope) (behavior : BehaviorKey) : List (Nat × Group) :=
  ((db.links.filter fun l => l.scope = scope).filterMap (db.linkedGroup behavior)).filter fun r => db.groupPending r.2

def groupsToEvaluate (db : Db δ) (scope : PolicyScope) (behavior : BehaviorKey) (limit : Nat) : List (Nat × Group) :=
  ((db.pendingGroups scope behavior).insertionSort fun a b => a.2.id ≤ b.2.id).take limit

/-- The sightings of a behaviour in the application that are to be evaluated. -/
def pendingSightings (db : Db δ) (scope : PolicyScope) (behavior : BehaviorKey) : List Sighting :=
  db.sightings.filter fun s => s.scope = scope && db.sightingPending s &&
    ((get? Item.id s.key.itemId db.items).any fun i => i.key.behavior = behavior)

def sightingsToEvaluate (db : Db δ) (scope : PolicyScope) (behavior : BehaviorKey) (limit : Nat) : List Sighting :=
  ((db.pendingSightings scope behavior).insertionSort fun a b => a.key.precedes b.key).take limit

def claimable (now : Int) (r : Recomputation) : Bool :=
  match r.state with
  | .pending => true
  | .running _ leaseExpiresAt => leaseExpiresAt < now
  | .completed => false

def currentRevision (db : Db δ) (scope : PolicyScope) (policyId : Nat) : Option Revision := do
  let p ← (get? Policy.id policyId db.policies).filter fun p => p.scope = scope
  let id ← p.currentRevisionId
  get? Revision.id id db.revisions

end Db

/-! ## Statements -/

/-- What a statement can wait for. -/
inductive Lock where
  | command (organizationId key : Nat)
  | project (organizationId id : Nat)
  | event (agentId eventId : Nat)
  | group (id : Nat)
  | item (id : Nat)
  | sighting (key : SightingKey)
  | groupEvaluation (groupId : Nat)
  | sightingEvaluation (key : SightingKey)
  | policy (id : Nat)
  | revision (id : Nat)
  | state (scope : PolicyScope)
  | recomputation (id : Nat)
  | suppression (id : Nat)
  deriving DecidableEq

inductive Failure where
  | invalid (message : String)
  | notFound
  | conflict (message : String)
  | invalidOwnership
  | database (e : SqlError)
  deriving DecidableEq

section
variable {δ : Type}

/-- Inserts a row unless one that it conflicts with is present, and whether it did. -/
def insertUnless (present taken : Db δ → Bool) (lock : Lock) (w : Write δ) (index : String) :
    Tx (Db δ) (Write δ) Lock Failure Bool := do
  let (present, taken) ← .exec (fun db => if present db then [] else [lock])
    (fun db => if present db || taken db then [] else [w]) fun db => (present db, taken db)
  if present then pure false
  else
    .ensure (!taken) (.database (.unique index))
    pure true

def insertRow (taken : Db δ → Bool) (lock : Lock) (w : Write δ) (index : String) :
    Tx (Db δ) (Write δ) Lock Failure Unit := do
  let _ ← insertUnless (fun _ => false) taken lock w index

/-- The oldest claimable row that no other transaction holds. -/
def nextClaimable (now : Int) (v : View (Db δ) Lock) : Option Recomputation :=
  ((v.state.recomputations.filter fun r => Db.claimable now r && !v.busy.contains (.recomputation r.id)).insertionSort
    fun a b => a.createdAt < b.createdAt ∨ (a.createdAt = b.createdAt ∧ a.id ≤ b.id)).head?

/-- Leases the next claimable row, whose lock is held to the end of the batch. -/
def claimRecomputation (now : Int) (owner : Nat) : Tx (Db δ) (Write δ) Lock Failure (Option Recomputation) :=
  .stmt (fun v => (nextClaimable now v).toList.map fun r => .recomputation r.id)
    (fun v => (nextClaimable now v).toList.map fun r =>
      .recomputationState r.id (.running owner (now + 30000000)) (r.attemptCount + 1))
    fun v => .done (nextClaimable now v)

def leasedTo (owner : Nat) (r : Recomputation) : Bool :=
  match r.state with
  | .running leaseOwner _ => leaseOwner = owner
  | _ => false

/-- Ends a lease; a recomputation leased to someone else is left alone. -/
def setRecomputation (id owner : Nat) (state : RecomputeState) : Tx (Db δ) (Write δ) Lock Failure Unit :=
  .exec (fun _ => [.recomputation id])
    (fun db => ((get? Recomputation.id id db.recomputations).filter (leasedTo owner)).toList.map fun r =>
      .recomputationState id state r.attemptCount)
    fun _ => ()

def completeRecomputation (id owner : Nat) : Tx (Db δ) (Write δ) Lock Failure Unit :=
  setRecomputation id owner .completed

def releaseRecomputation (id owner : Nat) : Tx (Db δ) (Write δ) Lock Failure Unit :=
  setRecomputation id owner .pending

/-- Takes the next version, starting at one. -/
def bumpStateVersion (scope : PolicyScope) : Tx (Db δ) (Write δ) Lock Failure Nat :=
  .exec (fun _ => [.state scope]) (fun db => [.stateVersion scope (db.version scope + 1)])
    fun db => db.version scope + 1

/-- The version, which is created where there is none. -/
def currentStateVersion (scope : PolicyScope) : Tx (Db δ) (Write δ) Lock Failure Nat :=
  .exec (fun _ => [.state scope])
    (fun db => if (db.stateVersion scope).isNone then [.stateVersion scope 0] else []) fun db => db.version scope

/-- Locks the policy before its current revision is read. -/
def currentRevisionForUpdate (scope : PolicyScope) (policyId : Nat) :
    Tx (Db δ) (Write δ) Lock Failure (Option Revision) := do
  let found ← .exec (fun _ => [.policy policyId]) (fun _ => []) fun db : Db δ =>
    db.policies.any fun p => p.scope = scope && p.id = policyId
  if found then .query fun db => db.currentRevision scope policyId else pure none

def insertPolicy (p : Policy) : Tx (Db δ) (Write δ) Lock Failure Unit :=
  insertRow (fun db => db.policies.any (·.id = p.id)) (.policy p.id) (.policy p) "runtime_policies_pkey"

def rename (policyId : Nat) (name : String) : Tx (Db δ) (Write δ) Lock Failure Unit :=
  .exec (fun _ => [.policy policyId]) (fun _ => [.rename policyId name]) fun _ => ()

def insertRevision (r : Revision) : Tx (Db δ) (Write δ) Lock Failure Unit :=
  insertRow
    (fun db => db.revisions.any fun q => q.id = r.id || (q.policyId = r.policyId && q.revisionNumber = r.revisionNumber))
    (.revision r.id) (.revision r) "runtime_policy_revisions_pkey"

def setCurrentRevision (scope : PolicyScope) (revisionId policyId : Nat) : Tx (Db δ) (Write δ) Lock Failure Unit :=
  .exec (fun _ => [.policy policyId]) (fun _ => [.currentRevision scope policyId revisionId]) fun _ => ()

def requestRecomputation (r : Recomputation) : Tx (Db δ) (Write δ) Lock Failure Unit :=
  insertRow (fun db => db.recomputations.any (·.id = r.id)) (.recomputation r.id) (.recomputation r)
    "runtime_policy_recomputations_pkey"

def insertSuppression (s : Suppression) : Tx (Db δ) (Write δ) Lock Failure Unit :=
  insertRow (fun db => db.suppressions.any (·.id = s.id)) (.suppression s.id) (.suppression s)
    "runtime_policy_suppressions_pkey"

/-- Cancels a suppression, and whether there is one. -/
def cancelSuppressionRow (scope : PolicyScope) (id : Nat) (now : Int) : Tx (Db δ) (Write δ) Lock Failure Bool :=
  .exec (fun _ => [.suppression id]) (fun _ => [.cancelSuppression scope id now]) fun db =>
    db.suppressions.any fun s => s.scope = scope && s.id = id

/-- The command stored under a key; the advisory lock makes a repeated command wait for the first. -/
def lockedCommand (organizationId key : Nat) : Tx (Db δ) (Write δ) Lock Failure (Option (Command δ)) := do
  .exec (fun _ => [.command organizationId key]) (fun _ => []) fun _ => ()
  .query fun db => db.commands.find? fun c => c.scope.organizationId = organizationId && c.idempotencyKey = key

def recordCommandRow (c : Command δ) : Tx (Db δ) (Write δ) Lock Failure Unit :=
  insertRow
    (fun db => db.commands.any fun d =>
      d.scope.organizationId = c.scope.organizationId && d.idempotencyKey = c.idempotencyKey)
    (.command c.scope.organizationId c.idempotencyKey) (.command c) "runtime_policy_commands_organization_id_idempotency_key_key"

/-- The closed horizon of a project, whose row stays locked. -/
def lockProject (organizationId projectId : Nat) : Tx (Db δ) (Write δ) Lock Failure (Option Int) := do
  let project ← .exec (fun _ => [.project organizationId projectId]) (fun _ => []) fun db : Db δ =>
    db.projects.find? fun p => p.organizationId = organizationId && p.id = projectId
  match project with
  | none => .fail (.database .rowNotFound)
  | some p => pure p.runtimeClosedBefore

/-- Stores a raw event unless its agent has sent it before. -/
def insertEvent (agentId eventId : Nat) : Tx (Db δ) (Write δ) Lock Failure Bool :=
  insertUnless (fun db => db.events.contains (agentId, eventId)) (fun _ => false) (.event agentId eventId)
    (.event agentId eventId) "runtime_events_pkey"

/-- Makes a group under the given id, unless one has the key. -/
def insertGroupIfAbsent (g : Group) : Tx (Db δ) (Write δ) Lock Failure Bool :=
  insertUnless (fun db => db.groups.any (·.key = g.key)) (fun db => db.groups.any (·.id = g.id)) (.group g.id) (.group g)
    "runtime_event_groups_pkey"

def lockExistingGroup (key : GroupKey) : Tx (Db δ) (Write δ) Lock Failure Nat := do
  let group ← .exec (fun db : Db δ => (db.groups.find? (·.key = key)).toList.map fun g => .group g.id) (fun _ => [])
    fun db => db.groups.find? (·.key = key)
  match group with
  | none => .fail (.database .rowNotFound)
  | some g => pure g.id

/-- The id of the group with the key, which is made under the given id where there is none. -/
def upsertDerivedGroup (g : Group) : Tx (Db δ) (Write δ) Lock Failure Nat := do
  let (existing, taken) ← .exec (fun db => [.group (((db.groups.find? (·.key = g.key)).map Group.id).getD g.id)])
    (fun db => if db.groups.any (·.key = g.key) || db.groups.any (·.id = g.id) then [] else [.group g])
    fun db : Db δ => (db.groups.find? (·.key = g.key), db.groups.any (·.id = g.id))
  match existing with
  | some existing => pure existing.id
  | none =>
    .ensure (!taken) (.database (.unique "runtime_event_groups_pkey"))
    pure g.id

/-- Makes an inventory item under the given id, unless one has the key. -/
def insertItem (i : Item) : Tx (Db δ) (Write δ) Lock Failure Bool :=
  insertUnless (fun db => db.items.any (·.key = i.key)) (fun db => db.items.any (·.id = i.id)) (.item i.id) (.item i)
    "runtime_inventory_items_pkey"

def itemIdByIdentity (key : ItemKey) : Tx (Db δ) (Write δ) Lock Failure Nat := do
  match ← .query fun db : Db δ => db.items.find? (·.key = key) with
  | none => .fail (.database .rowNotFound)
  | some i => pure i.id

def linkGroup (l : Link) : Tx (Db δ) (Write δ) Lock Failure Unit :=
  .exec (fun _ => []) (fun db => if db.links.contains l then [] else [.link l]) fun _ => ()

def recordSighting (s : Sighting) : Tx (Db δ) (Write δ) Lock Failure Unit :=
  .exec (fun _ => [.sighting s.key]) (fun _ => [.sighting s]) fun _ => ()

def storeGroupEvaluation (e : GroupEvaluation) : Tx (Db δ) (Write δ) Lock Failure Unit :=
  .exec (fun _ => [.groupEvaluation e.groupId]) (fun _ => [.groupEvaluation e]) fun _ => ()

def storeSightingEvaluation (e : SightingEvaluation) : Tx (Db δ) (Write δ) Lock Failure Unit :=
  .exec (fun _ => [.sightingEvaluation e.key]) (fun _ => [.sightingEvaluation e]) fun _ => ()

end

end Okoscope.Server.PolicyTables
