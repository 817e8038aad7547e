import Okoscope.Lib.Tally
import Okoscope.Lib.Watermark
import Okoscope.Server.Deployments
import Okoscope.Server.Grouping
import Okoscope.Server.Ingestion

/-!
# Runtime events and their groups in the database

A batch of events is stored in one transaction. An event that an agent sends again is
recognised by its id and left alone; a new one becomes a member of the group of its
fingerprint and raises its occurrence count, and a restart may become a member of a
restart-loop group as well. Row ids are random; here they are drawn in turn. Instants
are stored as whole microseconds since the start of the year 2000.

Releases, inventory, policies, correlations and thread windows are kept in other tables.
What they answer comes with the event.
-/
namespace Okoscope.Server.RuntimeEvents

open Lib Lib.Bytes Lib.Table Lib.Watermark
open EventModel Grouping
open Deployments (storedAt SqlError)
open Ingestion (IngestionError validateDnsEvent validateTerminationEvent)

/-! ## Rows -/

structure ApplicationScope where
  organizationId : Uuid
  projectId : Uuid
  applicationId : Uuid
  deriving DecidableEq

/-- A retention policy that passes the checks of its columns. Without history days, history is
kept for ever. -/
structure RetentionPolicy where
  enabled : Bool
  rawDays : Nat
  historyDays : Option Nat
  raw_bounded : 1 ≤ rawDays ∧ rawDays ≤ 3650
  history_bounded : historyDays.all (fun days => rawDays ≤ days && days ≤ 3650)

structure Organization where
  id : Uuid
  retention : RetentionPolicy

/-- A project overrides the policy of its organization as a whole or not at all. -/
structure Project where
  id : Uuid
  organizationId : Uuid
  retention : Option RetentionPolicy
  closedBefore : Option Int
  historyExpiredBefore : Option Int

structure Event where
  id : Nat
  eventId : Uuid
  scope : ApplicationScope
  clusterId : Uuid
  agentId : Uuid
  observedAt : Int
  podUid : String
  containerId : String
  containerName : String
  workloadUid : String
  eventKind : String

/-- The columns of the unique index on groups. -/
structure GroupKey where
  scope : TrustedGroupingScope
  fingerprintVersion : Nat
  fingerprintDigest : ByteVec 32
  deriving DecidableEq

structure EventGroup where
  id : Nat
  key : GroupKey
  eventKind : String
  firstSeenAt : Int
  lastSeenAt : Int
  occurrenceCount : Nat

structure Membership where
  scope : ApplicationScope
  eventId : Nat
  groupId : Nat
  fingerprintVersion : Nat
  releaseId : Option Nat
  deriving DecidableEq

/-- A restart that counts towards a restart loop. -/
structure Restart where
  organizationId : Uuid
  projectId : Uuid
  projectionVersion : Nat
  eventId : Nat
  restartDelta : Nat

structure SnapshotKey where
  scope : ApplicationScope
  groupId : Nat
  releaseId : Option Nat
  day : Int
  deriving DecidableEq

/-- The unique indexes on snapshots, of which one is for snapshots without a release. -/
structure SnapshotIndex where
  groupId : Nat
  releaseId : Option Nat
  day : Int
  deriving DecidableEq

def SnapshotKey.index (key : SnapshotKey) : SnapshotIndex := ⟨key.groupId, key.releaseId, key.day⟩

/-- What is left of the events of a group, a release and a day. -/
structure HistorySnapshot where
  key : SnapshotKey
  occurrenceCount : Nat
  firstObservedAt : Int
  lastObservedAt : Int

def HistorySnapshot.index (snapshot : HistorySnapshot) : SnapshotIndex := snapshot.key.index

/-! ## The ledger -/

/-- Where the count of an occurrence has gone: the event is still there, a snapshot counts it, or
nothing does any more. -/
inductive Place where
  | raw (membership : Membership) (observedAt : Int)
  | compacted (releaseId : Option Nat) (day : Int)
  | gone
  deriving DecidableEq

/-- An event that was counted in a group. -/
structure Occurrence where
  agentId : Uuid
  eventId : Uuid
  key : GroupKey
  groupId : Nat
  place : Place

/-- Which event was counted, and in which group. -/
structure Contribution where
  agentId : Uuid
  eventId : Uuid
  key : GroupKey

def Occurrence.contribution (o : Occurrence) : Contribution := ⟨o.agentId, o.eventId, o.key⟩

def Occurrence.membership? (o : Occurrence) : Option Membership :=
  match o.place with
  | .raw membership _ => some membership
  | _ => none

/-- The snapshot that counts the occurrence. -/
def Occurrence.index? (o : Occurrence) : Option SnapshotIndex :=
  match o.place with
  | .compacted releaseId day => some ⟨o.groupId, releaseId, day⟩
  | _ => none

/-- Whether the occurrence is part of the count of the group. -/
def Occurrence.countsFor (groupId : Nat) (o : Occurrence) : Bool := o.groupId = groupId && o.place ≠ .gone

/-- The tables. The ledger is not one of them: it keeps account of every occurrence that was ever
counted, and no statement reads it. -/
structure Db where
  nextId : Nat
  organizations : List Organization
  projects : List Project
  applications : List ApplicationScope
  events : List Event
  groups : List EventGroup
  memberships : List Membership
  snapshots : List HistorySnapshot
  restarts : List Restart
  ledger : List Occurrence

/-- Before the first event. -/
def Db.start (organizations : List Organization) (projects : List Project) (applications : List ApplicationScope) :
    Db :=
  ⟨0, organizations, projects, applications, [], [], [], [], [], []⟩

/-! ## Projects -/

/-- Locks a project of the organization and reads how far it is closed. -/
def lockProject (db : Db) (organizationId projectId : Uuid) : Except SqlError (Option Int) :=
  match get? Project.id projectId db.projects with
  | some project =>
    if project.organizationId = organizationId then .ok project.closedBefore else .error .rowNotFound
  | none => .error .rowNotFound

/-- How far the project is closed. -/
def Db.closedBefore (db : Db) (projectId : Uuid) : Option Int :=
  (get? Project.id projectId db.projects).bind Project.closedBefore

/-- Whether the instant, in full precision, lies before the stored boundary. -/
def isExpired (closed : Option Int) (observedAt : DateTime) : Bool :=
  past (closed.map fun boundary => Deployments.postgresEpoch + boundary * 1000) observedAt

/-! ## Groups -/

inductive PersistError where
  | event (error : IngestionError)
  | unsupportedSchema (version : UInt32)
  | invalidOwnership
  | revokedCredential
  | cgroupOverflow
  | lifecycleCounterOverflow
  | invalidReleaseIdentity
  | database (error : SqlError)
  deriving DecidableEq

structure NewEventGroup where
  key : GroupKey
  eventKind : String
  observedAt : Int

def NewEventGroup.row (input : NewEventGroup) (id : Nat) : EventGroup :=
  ⟨id, input.key, input.eventKind, input.observedAt, input.observedAt, 1⟩

/-- Inserts a group of one occurrence unless its key is taken. -/
def insertIfAbsent (db : Db) (input : NewEventGroup) : Option Nat × Db :=
  if db.groups.any fun g => g.key = input.key then (none, db)
  else (some db.nextId, { db with nextId := db.nextId + 1, groups := db.groups ++ [input.row db.nextId] })

def lockExisting (db : Db) (key : GroupKey) : Except SqlError Nat :=
  match get? EventGroup.key key db.groups with
  | some g => .ok g.id
  | none => .error .rowNotFound

/-- A group that retention has emptied starts a new window. -/
def EventGroup.occurred (observedAt : Int) (g : EventGroup) : EventGroup :=
  { g with
    firstSeenAt := if g.occurrenceCount = 0 then observedAt else min g.firstSeenAt observedAt
    lastSeenAt := if g.occurrenceCount = 0 then observedAt else max g.lastSeenAt observedAt
    occurrenceCount := g.occurrenceCount + 1 }

def recordOccurrence (db : Db) (groupId : Nat) (observedAt : Int) : Db :=
  { db with groups := updateWhere (fun g => g.id = groupId) (EventGroup.occurred observedAt) db.groups }

/-- Makes the event a member of the group under the fingerprint version, once. -/
def addMembership (db : Db) (event : Event) (key : GroupKey) (membership : Membership) : Bool × Db :=
  if db.memberships.any fun m =>
      m.eventId = membership.eventId && m.fingerprintVersion = membership.fingerprintVersion then
    (false, db)
  else
    (true, { db with
      memberships := db.memberships ++ [membership]
      ledger := db.ledger ++
        [⟨event.agentId, event.eventId, key, membership.groupId, .raw membership event.observedAt⟩] })

def fingerprintErrorText : FingerprintError → String
  | .emptyField field => "fingerprint field " ++ field ++ " must not be empty"
  | .unsupportedEventKind => "event kind is not eligible for Runtime Group identity"

structure GroupingOutcome where
  groupId : Nat
  groupCreated : Bool
  membershipCreated : Bool

/-- The group of the key: the one just inserted, or the one that has the key. -/
def groupOf (created : Option Nat) (db : Db) (key : GroupKey) : Except SqlError Nat :=
  match created with
  | some id => .ok id
  | none => lockExisting db key

/-- Makes the event a member of the group and counts it, unless the group was created with it. -/
def joinGroup (db : Db) (event : Event) (key : GroupKey) (releaseId : Option Nat) (groupId : Nat)
    (groupCreated : Bool) : GroupingOutcome × Db :=
  let membership := ⟨event.scope, event.id, groupId, key.fingerprintVersion, releaseId⟩
  let (membershipCreated, db) := addMembership db event key membership
  (⟨groupId, groupCreated, membershipCreated⟩,
    if membershipCreated && !groupCreated then recordOccurrence db groupId event.observedAt else db)

/-- Puts a stored event into the group of its fingerprint. -/
def assignEvent (db : Db) (raw : Event) (releaseId : Option Nat) (scope : TrustedGroupingScope)
    (event : RuntimeEvent) : Except SqlError (GroupingOutcome × Db) := do
  let fingerprint ← (fingerprintV1 scope event).mapError fun e => .protocol (fingerprintErrorText e)
  let key := ⟨scope, fingerprint.version.number, fingerprint.digest⟩
  let (created, db) := insertIfAbsent db ⟨key, fingerprint.summary.eventKind, storedAt event.observedAt⟩
  let groupId ← groupOf created db key
  return joinGroup db raw key releaseId groupId created.isSome

/-! ## Restart loops -/

def microsPerSecond : Int := 1000000

/-- Ten minutes, in microseconds. -/
def restartWindow : Int := 600 * microsPerSecond

def restartThresholdV1 : Nat := 3

def restartProjectionVersion : Nat := 1

def derivedGroupFingerprintVersion : Nat := 101

/-- Adds a restart to the projection, once for each event. -/
def addRestart (db : Db) (restart : Restart) : Bool × Db :=
  if db.restarts.any fun r => r.organizationId = restart.organizationId &&
      r.projectionVersion = restart.projectionVersion && r.eventId = restart.eventId then
    (false, db)
  else (true, { db with restarts := db.restarts ++ [restart] })

/-- The restarts of the container of an event in a window, with their events. -/
def restartsOf (db : Db) (raw : Event) (start «end» : Int) : List (Restart × Event) :=
  (db.restarts.filterMap fun r => (get? Event.id r.eventId db.events).map (r, ·)).filter fun p =>
    p.1.organizationId = raw.scope.organizationId && p.1.projectId = raw.scope.projectId &&
      p.2.scope.applicationId = raw.scope.applicationId && p.2.clusterId = raw.clusterId &&
      p.2.podUid = raw.podUid && p.2.containerName = raw.containerName && p.2.containerId = raw.containerId &&
      p.1.projectionVersion = restartProjectionVersion && start ≤ p.2.observedAt && p.2.observedAt ≤ «end»

/-- The latest restart within ten minutes after the observation, or the observation itself. -/
def restartWindowEnd (db : Db) (raw : Event) (observedAt : DateTime) : Int :=
  let start := storedAt observedAt
  let restarts := restartsOf db raw start (storedAt (observedAt + restartWindow * 1000))
  (restarts.map (·.2.observedAt)).max?.getD start

def restartsInWindow (db : Db) (raw : Event) (start «end» : Int) : Nat :=
  ((restartsOf db raw start «end»).map (·.1.restartDelta)).sum

/-- Inserts a group of one occurrence, or moves its window if the key is taken; gives the id of
the group. -/
def upsertDerived (db : Db) (input : NewEventGroup) : Nat × Db :=
  match get? EventGroup.key input.key db.groups with
  | some g =>
    (g.id, { db with
      groups := updateWhere (fun g => g.key = input.key)
        (fun g => { g with lastSeenAt := max g.lastSeenAt input.observedAt }) db.groups })
  | none => (db.nextId, { db with nextId := db.nextId + 1, groups := db.groups ++ [input.row db.nextId] })

def incrementOccurrence (db : Db) (groupId : Nat) : Db :=
  { db with
    groups := updateWhere (fun g => g.id = groupId) (fun g => { g with occurrenceCount := g.occurrenceCount + 1 })
      db.groups }

def restartLoopDigest (scope : TrustedGroupingScope) (containerName : String) : ByteVec 32 :=
  digestFields ([scope.organizationId.toText, scope.projectId.toText, scope.applicationId.toText,
    scope.clusterId.toText, scope.namespace, scope.workloadKind, scope.workloadName, containerName,
    toString restartProjectionVersion].map utf8Bytes)

/-- Counts a restart in the group of the restart loops of its container. A group whose id is the
next one was created by the statement. -/
def upsertRestartLoopGroup (db : Db) (raw : Event) (scope : TrustedGroupingScope) : Db :=
  let key := ⟨scope, derivedGroupFingerprintVersion, restartLoopDigest scope raw.containerName⟩
  let candidate := db.nextId
  let (groupId, db) := upsertDerived db ⟨key, "container.restart_loop", raw.observedAt⟩
  let membership := ⟨raw.scope, raw.id, groupId, derivedGroupFingerprintVersion, none⟩
  let (membershipCreated, db) := addMembership db raw key membership
  if membershipCreated && groupId ≠ candidate then incrementOccurrence db groupId else db

/-- Adds a restart, and counts it as part of a restart loop once its container has restarted
often enough. -/
def projectRestartLoop (db : Db) (raw : Event) (scope : TrustedGroupingScope) (observedAt : DateTime)
    (restart : ContainerRestart) : Db :=
  let delta := min restart.restartDelta.toNat (2 ^ 31 - 1)
  let (inserted, db) := addRestart db
    ⟨raw.scope.organizationId, raw.scope.projectId, restartProjectionVersion, raw.id, delta⟩
  if inserted then
    let projectionEnd := restartWindowEnd db raw observedAt
    if restartThresholdV1 ≤ restartsInWindow db raw (projectionEnd - restartWindow) projectionEnd then
      upsertRestartLoopGroup db raw scope
    else db
  else db

def projectDurableEvidence (db : Db) (raw : Event) (scope : TrustedGroupingScope) (event : RuntimeEvent) : Db :=
  match event.payload with
  | .containerRestart restart => projectRestartLoop db raw scope event.observedAt restart
  | _ => db

/-! ## Batches -/

structure SessionScope where
  organizationId : Uuid
  clusterId : Uuid

structure IngestionContext where
  scope : SessionScope
  agentId : Uuid

/-- An event of a batch, with what the other tables answer: the release it belongs to, whether its
thread window was new, and whether the projections of it succeed. -/
structure Arrival where
  event : RuntimeEvent
  release : Except PersistError (Option Nat)
  window : Except PersistError Bool
  projected : Except PersistError Unit

def Arrival.scope (arrival : Arrival) (context : IngestionContext) : ApplicationScope :=
  ⟨context.scope.organizationId, arrival.event.attribution.projectId, arrival.event.attribution.applicationId⟩

def checkEvent (db : Db) (context : IngestionContext) (arrival : Arrival) : Except PersistError Unit := do
  (validateDnsEvent arrival.event).mapError .event
  (validateTerminationEvent arrival.event).mapError .event
  if arrival.event.schemaVersion ≠ eventSchemaVersion then
    .error (.unsupportedSchema arrival.event.schemaVersion)
  else if arrival.scope context ∉ db.applications then .error .invalidOwnership
  else .ok ()

def newEvent (context : IngestionContext) (arrival : Arrival) (id : Nat) : Event where
  id := id
  eventId := arrival.event.id
  scope := arrival.scope context
  clusterId := context.scope.clusterId
  agentId := context.agentId
  observedAt := storedAt arrival.event.observedAt
  podUid := arrival.event.attribution.podUid
  containerId := arrival.event.attribution.containerId
  containerName := arrival.event.attribution.containerName
  workloadUid := arrival.event.attribution.workloadUid
  eventKind := arrival.event.kind

/-- Stores an event once for each id that its agent gave. -/
def insertEvent (db : Db) (event : Event) : Option Event × Db :=
  if db.events.any fun e => e.agentId = event.agentId && e.eventId = event.eventId then (none, db)
  else (some event, { db with nextId := db.nextId + 1, events := db.events ++ [event] })

def groupingScope (context : IngestionContext) (arrival : Arrival) : TrustedGroupingScope where
  organizationId := context.scope.organizationId
  projectId := arrival.event.attribution.projectId
  applicationId := arrival.event.attribution.applicationId
  clusterId := context.scope.clusterId
  «namespace» := arrival.event.attribution.namespace
  workloadKind := arrival.event.attribution.workloadKind
  workloadName := arrival.event.attribution.workloadName

/-- Groups and projects an event that was just stored. -/
def projectEvent (db : Db) (context : IngestionContext) (arrival : Arrival) (raw : Event) (releaseId : Option Nat) :
    Except PersistError (Nat × Db) := do
  let scope := groupingScope context arrival
  let (_, db) ← (assignEvent db raw releaseId scope arrival.event).mapError .database
  arrival.projected
  return (1, projectDurableEvidence db raw scope arrival.event)

def storeEvent (db : Db) (context : IngestionContext) (arrival : Arrival) : Except PersistError (Nat × Db) := do
  let releaseId ← arrival.release
  if 2 ^ 63 ≤ arrival.event.process.cgroupId.toNat then .error .cgroupOverflow
  else
    match insertEvent db (newEvent context arrival db.nextId) with
    | (none, db) => .ok (0, db)
    | (some raw, db) => projectEvent db context arrival raw releaseId

/-- How many events are new: one or none. Thread windows are kept elsewhere and not grouped. -/
def persistEvent (db : Db) (context : IngestionContext) (arrival : Arrival) : Except PersistError (Nat × Db) := do
  checkEvent db context arrival
  match arrival.event.payload with
  | .threadActivityWindow _ => arrival.window.map fun inserted => (if inserted then 1 else 0, db)
  | _ => storeEvent db context arrival

structure Progress where
  accepted : Nat
  expired : Nat
  db : Db

def saturatingAdd32 (a b : Nat) : Nat := min (a + b) (2 ^ 32 - 1)

/-- An event of a batch: skipped if it lies before the boundary, stored otherwise. -/
def persistNext (context : IngestionContext) (closed : Option Int) (progress : Progress) (arrival : Arrival) :
    Except PersistError Progress :=
  if isExpired closed arrival.event.observedAt then .ok { progress with expired := progress.expired + 1 }
  else do
    let (accepted, db) ← persistEvent progress.db context arrival
    return { progress with accepted := saturatingAdd32 progress.accepted accepted, db := db }

structure ApplicationCredentialScope where
  organizationId : Uuid
  projectId : Uuid
  applicationId : Uuid

/-- The event under the project and application of the credential it was sent with. -/
def Arrival.attributed (credential : ApplicationCredentialScope) (arrival : Arrival) : Arrival :=
  { arrival with
    event := { arrival.event with
      attribution := { arrival.event.attribution with
        projectId := credential.projectId, applicationId := credential.applicationId } } }

/-- Stores a batch sent with an application credential, which is active or revoked. The boundary
of the project is read once, under its lock. -/
def persistApplicationBatch (db : Db) (scope : SessionScope) (credential : ApplicationCredentialScope) (active : Bool)
    (agentId : Uuid) (arrivals : List Arrival) : Except PersistError Progress := do
  if credential.organizationId ≠ scope.organizationId then .error .invalidOwnership
  else if !active then .error .revokedCredential
  else
    let closed ← (lockProject db scope.organizationId credential.projectId).mapError .database
    (arrivals.map (Arrival.attributed credential)).foldlM (persistNext ⟨scope, agentId⟩ closed) ⟨0, 0, db⟩

/-- Locks every project of the batch. -/
def lockProjects (db : Db) (organizationId : Uuid) (arrivals : List Arrival) : Except PersistError Unit :=
  arrivals.forM fun arrival =>
    match lockProject db organizationId arrival.event.attribution.projectId with
    | .ok _ => .ok ()
    | .error _ => .error .invalidOwnership

/-- An event of a batch for several projects: the boundary of its project is read for each. -/
def persistNextOf (context : IngestionContext) (progress : Progress) (arrival : Arrival) :
    Except PersistError Progress :=
  persistNext context (progress.db.closedBefore arrival.event.attribution.projectId) progress arrival

def persistBatch (db : Db) (context : IngestionContext) (arrivals : List Arrival) : Except PersistError Progress := do
  lockProjects db context.scope.organizationId arrivals
  arrivals.foldlM (persistNextOf context) ⟨0, 0, db⟩

end Okoscope.Server.RuntimeEvents
