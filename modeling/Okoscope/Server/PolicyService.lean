import Okoscope.Server.PolicyProjection

/-!
# Policy commands

Creating, replacing, enabling and disabling policies, and suppressions. Every
command carries an idempotency key. The result of a command is stored under its
key with a digest of the request body, and a command whose key and digest are
found gets that result and does nothing else. The principal has passed the access
check of the project.
-/
namespace Okoscope.Server.PolicyService

open Lib Lib.ReadCommitted
open Deployments (SqlError)
open Policy PolicyTables PolicyProjection

/-! ## Requests -/

structure RevisionInput where
  sourceInventoryItemId : Nat
  sourceRuntimeGroupId : Option Nat
  placement : PlacementMatcher
  insideEffect : PolicyEffect
  outsideEffect : Option PolicyEffect
  deriving DecidableEq

structure CreatePolicyInput where
  name : String
  revision : RevisionInput

structure ReplacePolicyInput where
  name : Option String
  revision : RevisionInput

structure SuppressionInput where
  sourceInventoryItemId : Nat
  sourceRuntimeGroupId : Option Nat
  placement : PlacementMatcher
  reason : String
  expiresAt : Int
  deriving DecidableEq

/-- What a request is serialized to before it is digested. A name is a text or null, so that the
bodies of a creation and of a replacement may be the same. -/
inductive RequestBody where
  | policy (name : Option String) (revision : RevisionInput)
  | enabled (policyId : Nat) (enabled : Bool)
  | suppression (input : SuppressionInput)
  | suppressionId (id : Nat)
  deriving DecidableEq

/-- The ids drawn for the rows of a new revision. -/
structure RevisionIds where
  revisionId : Nat
  recomputationId : Nat

def normalizedName (value : String) : Except Failure String :=
  let value := Text.trim value
  if 1 ≤ value.length ∧ value.length ≤ 160 then .ok value
  else .error (.invalid "policy name must contain between 1 and 160 characters")

def parseIdempotencyKey (header : Option Nat) : Except Failure Nat :=
  match header with
  | some key => .ok key
  | none => .error (.invalid "Idempotency-Key must be a canonical UUID")

/-! ## Shared steps -/

section
variable {δ : Type} [DecidableEq δ]

/-- The stored result of the same request, or nothing if the key is new. -/
def beginCommand (organizationId key : Nat) (digest : δ) :
    Tx (Db δ) (Write δ) Lock Failure (Option MutationResult) := do
  match ← lockedCommand organizationId key with
  | none => pure none
  | some stored =>
    if stored.requestDigest = digest then pure (some stored.result)
    else .fail (.conflict "idempotency key was already used for another request")

def ensureApplication (scope : PolicyScope) : Tx (Db δ) (Write δ) Lock Failure Unit := do
  let present ← .query fun db : Db δ => db.applications.contains scope
  .ensure present .notFound

/-- The checks of a revision that look at nothing but the request. -/
def normalizeRevision (input : RevisionInput) : Except Failure RevisionInput :=
  match input.placement.normalize with
  | .error message => .error (.invalid message)
  | .ok placement =>
    if input.outsideEffect = some .expected then .error (.invalid "outside_effect may only be requires_review")
    else .ok { input with placement }

/-- A source group has to be one of those linked to the item. -/
def ensureLinked (scope : PolicyScope) (itemId : Nat) (groupId : Option Nat) : Tx (Db δ) (Write δ) Lock Failure Unit :=
  match groupId with
  | none => pure ()
  | some groupId => do
    let linked ← .query fun db : Db δ => db.itemLinkedToGroup scope itemId groupId
    .ensure linked .notFound

/-- The item a revision is made for. -/
def loadRevisionIdentity (scope : PolicyScope) (input : RevisionInput) :
    Tx (Db δ) (Write δ) Lock Failure (RevisionInput × Item) := do
  let input ← .ofExcept (normalizeRevision input)
  match ← .query fun db : Db δ => db.identity scope input.sourceInventoryItemId with
  | none => .fail .notFound
  | some item =>
    ensureLinked scope item.id input.sourceRuntimeGroupId
    .ensure item.seedable (.invalid "inventory item cannot seed a managed policy")
    pure (input, item)

/-- A replacement may leave the name as it is. -/
def renameTo (policyId : Nat) (name : Option String) : Tx (Db δ) (Write δ) Lock Failure Unit :=
  match name with
  | some name => rename policyId name
  | none => pure ()

/-- Appends a revision and makes it the current one, takes the next state version and requests the
recomputation of the behaviour of the new revision. -/
def appendRevision (now : Int) (scope : PolicyScope) (ids : RevisionIds) (policyId revisionNumber : Nat)
    (priorRevisionId : Option Nat) (enabled : Bool) (input : RevisionInput) (identity : Item) :
    Tx (Db δ) (Write δ) Lock Failure MutationResult := do
  insertRevision {
    id := ids.revisionId
    policyId
    scope
    revisionNumber
    priorRevisionId
    enabled
    kind := identity.key.kind
    behavior := identity.key.behavior
    placement := input.placement
    insideEffect := input.insideEffect
    outsideEffect := input.outsideEffect.map fun _ => .requiresReview
    sourceInventoryItemId := identity.id
    sourceRuntimeGroupId := input.sourceRuntimeGroupId }
  setCurrentRevision scope ids.revisionId policyId
  let version ← bumpStateVersion scope
  requestRecomputation {
    id := ids.recomputationId
    scope
    behavior := identity.key.behavior
    requestedPolicyRevisionId := ids.revisionId
    state := .pending
    attemptCount := 0
    createdAt := now }
  pure ⟨policyId, some ids.revisionId, some ids.recomputationId, version⟩

def recordCommand (scope : PolicyScope) (key : Nat) (kind : CommandKind) (digest : δ) (result : MutationResult) :
    Tx (Db δ) (Write δ) Lock Failure Unit :=
  recordCommandRow ⟨scope, key, kind, digest, result.resourceId, result⟩

/-- Runs a command under its key: a request that was made before gets the stored result, and any
other is performed and its result is stored. -/
def underKey (scope : PolicyScope) (key : Nat) (kind : CommandKind) (digest : δ)
    (perform : Tx (Db δ) (Write δ) Lock Failure MutationResult) : Tx (Db δ) (Write δ) Lock Failure MutationResult := do
  match ← beginCommand scope.organizationId key digest with
  | some result => pure result
  | none =>
    let result ← perform
    recordCommand scope key kind digest result
    pure result

end

/-! ## Commands -/

section
variable {δ : Type} [DecidableEq δ] (digest : RequestBody → δ)

def performCreate (now : Int) (scope : PolicyScope) (policyId : Nat) (ids : RevisionIds) (name : String)
    (input : RevisionInput) : Tx (Db δ) (Write δ) Lock Failure MutationResult := do
  let (revision, identity) ← loadRevisionIdentity scope input
  insertPolicy ⟨policyId, scope, name, none⟩
  appendRevision now scope ids policyId 1 none true revision identity

def createPolicy (now : Int) (scope : PolicyScope) (header : Option Nat) (policyId : Nat) (ids : RevisionIds)
    (input : CreatePolicyInput) : Tx (Db δ) (Write δ) Lock Failure MutationResult := do
  ensureApplication scope
  let name ← .ofExcept (normalizedName input.name)
  let key ← .ofExcept (parseIdempotencyKey header)
  underKey scope key .create (digest (.policy (some name) input.revision))
    (performCreate now scope policyId ids name input.revision)

def performReplace (now : Int) (scope : PolicyScope) (policyId : Nat) (ids : RevisionIds) (name : Option String)
    (input : RevisionInput) : Tx (Db δ) (Write δ) Lock Failure MutationResult := do
  match ← currentRevisionForUpdate scope policyId with
  | none => .fail .notFound
  | some current =>
    renameTo policyId name
    let (revision, identity) ← loadRevisionIdentity scope input
    appendRevision now scope ids policyId (current.revisionNumber + 1) (some current.id) true revision identity

def replacePolicy (now : Int) (scope : PolicyScope) (policyId : Nat) (header : Option Nat) (ids : RevisionIds)
    (input : ReplacePolicyInput) : Tx (Db δ) (Write δ) Lock Failure MutationResult := do
  let key ← .ofExcept (parseIdempotencyKey header)
  let name ← .ofExcept (Outcome.transpose normalizedName input.name)
  underKey scope key .replace (digest (.policy name input.revision))
    (performReplace now scope policyId ids name input.revision)

/-- The current revision again, enabled or not. -/
def performSetEnabled (now : Int) (scope : PolicyScope) (policyId : Nat) (ids : RevisionIds) (enabled : Bool) :
    Tx (Db δ) (Write δ) Lock Failure MutationResult := do
  match ← currentRevisionForUpdate scope policyId with
  | none => .fail .notFound
  | some current =>
    let (revision, identity) ← loadRevisionIdentity scope
      ⟨current.sourceInventoryItemId, current.sourceRuntimeGroupId, current.placement, current.insideEffect,
        current.outsideEffect⟩
    appendRevision now scope ids policyId (current.revisionNumber + 1) (some current.id) enabled revision identity

def setPolicyEnabled (now : Int) (scope : PolicyScope) (policyId : Nat) (header : Option Nat) (ids : RevisionIds)
    (enabled : Bool) : Tx (Db δ) (Write δ) Lock Failure MutationResult := do
  let key ← .ofExcept (parseIdempotencyKey header)
  underKey scope key (if enabled then .enable else .disable) (digest (.enabled policyId enabled))
    (performSetEnabled now scope policyId ids enabled)

def microsPerDay : Int := 86400000000

def suppressionDays : Int := 90

/-- The checks of a suppression that look at nothing but the request and the time. -/
def normalizeSuppression (now : Int) (input : SuppressionInput) : Except Failure SuppressionInput :=
  let reason := Text.trim input.reason
  match input.placement.normalize with
  | .error message => .error (.invalid message)
  | .ok placement =>
    if ¬ (1 ≤ reason.length ∧ reason.length ≤ 500) ∨ input.expiresAt ≤ now ∨
        now + suppressionDays * microsPerDay < input.expiresAt then
      .error (.invalid "suppression requires a reason and an expiry within 90 days")
    else .ok { input with reason, placement }

def performSuppress (now : Int) (scope : PolicyScope) (id : Nat) (input : SuppressionInput) :
    Tx (Db δ) (Write δ) Lock Failure MutationResult := do
  let (_, identity) ← loadRevisionIdentity scope
    ⟨input.sourceInventoryItemId, input.sourceRuntimeGroupId, input.placement, .expected, none⟩
  insertSuppression {
    id
    scope
    kind := identity.key.kind
    behavior := identity.key.behavior
    placement := input.placement
    reason := input.reason
    expiresAt := input.expiresAt
    cancelledAt := none
    sourceInventoryItemId := input.sourceInventoryItemId
    sourceRuntimeGroupId := input.sourceRuntimeGroupId
    createdAt := now }
  let version ← currentStateVersion scope
  pure ⟨id, none, none, version⟩

def createSuppression (now : Int) (scope : PolicyScope) (header : Option Nat) (id : Nat) (input : SuppressionInput) :
    Tx (Db δ) (Write δ) Lock Failure MutationResult := do
  ensureApplication scope
  let input ← .ofExcept (normalizeSuppression now input)
  let key ← .ofExcept (parseIdempotencyKey header)
  underKey scope key .suppress (digest (.suppression input)) (performSuppress now scope id input)

def performCancel (now : Int) (scope : PolicyScope) (id : Nat) : Tx (Db δ) (Write δ) Lock Failure MutationResult := do
  let updated ← cancelSuppressionRow scope id now
  .ensure updated .notFound
  let version ← currentStateVersion scope
  pure ⟨id, none, none, version⟩

def cancelSuppression (now : Int) (scope : PolicyScope) (id : Nat) (header : Option Nat) :
    Tx (Db δ) (Write δ) Lock Failure MutationResult := do
  let key ← .ofExcept (parseIdempotencyKey header)
  underKey scope key .cancelSuppression (digest (.suppressionId id)) (performCancel now scope id)

/-! ## Requests to the system -/

inductive Request where
  | createPolicy (now : Int) (scope : PolicyScope) (header : Option Nat) (policyId : Nat) (ids : RevisionIds)
      (input : CreatePolicyInput)
  | replacePolicy (now : Int) (scope : PolicyScope) (policyId : Nat) (header : Option Nat) (ids : RevisionIds)
      (input : ReplacePolicyInput)
  | setPolicyEnabled (now : Int) (scope : PolicyScope) (policyId : Nat) (header : Option Nat) (ids : RevisionIds)
      (enabled : Bool)
  | createSuppression (now : Int) (scope : PolicyScope) (header : Option Nat) (id : Nat) (input : SuppressionInput)
  | cancelSuppression (now : Int) (scope : PolicyScope) (id : Nat) (header : Option Nat)
  | ingest (scope : PolicyScope) (events : List Observation)
  | recompute (now : Int) (owner batchSize : Nat)

inductive Reply where
  | changed (result : MutationResult)
  | ingested (accepted expired : Nat)
  | worked (found : Bool)
  deriving DecidableEq

/-- The transaction that serves a request. -/
def transaction : Request → Tx (Db δ) (Write δ) Lock Failure Reply
  | .createPolicy now scope header policyId ids input =>
    return .changed (← createPolicy digest now scope header policyId ids input)
  | .replacePolicy now scope policyId header ids input =>
    return .changed (← replacePolicy digest now scope policyId header ids input)
  | .setPolicyEnabled now scope policyId header ids enabled =>
    return .changed (← setPolicyEnabled digest now scope policyId header ids enabled)
  | .createSuppression now scope header id input =>
    return .changed (← createSuppression digest now scope header id input)
  | .cancelSuppression now scope id header => return .changed (← cancelSuppression digest now scope id header)
  | .ingest scope events => do
    let (accepted, expired) ← persistApplicationBatchOutcome scope events
    return .ingested accepted expired
  | .recompute now owner batchSize => return .worked (← runOneBatch now owner batchSize)

/-- Serves a request with no other beside it; one that fails is rolled back. -/
def serve (db : Db δ) (request : Request) : Except Failure Reply × Db δ :=
  match (transaction digest request).alone apply db with
  | .ok (reply, db') => (.ok reply, db')
  | .error e => (.error e, db)

end

end Okoscope.Server.PolicyService
