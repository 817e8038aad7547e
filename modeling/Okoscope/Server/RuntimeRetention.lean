import Mathlib.Data.Prod.Lex
import Okoscope.Lib.Paging
import Okoscope.Lib.Run
import Okoscope.Server.RuntimeEvents

/-!
# Retention of runtime events

A pass over a project first closes it up to a day and then drains events from before that
day, some at a time: their counts go into snapshots of their day, the events and their
memberships are deleted, and the groups are counted anew. Snapshots expire in turn, and
a group that nothing is left of is deleted. The boundary of a closed project never goes
back, whatever its policy becomes.
-/
namespace Okoscope.Server.RuntimeEvents

open Lib Lib.Table Lib.Watermark Lib.Tally
open Deployments (storedAt SqlError)

/-! ## Policies -/

/-- The policy of the project, or of its organization if it has none of its own. -/
def policy (db : Db) (projectId : Uuid) : Except SqlError RetentionPolicy :=
  match get? Project.id projectId db.projects with
  | none => .error .rowNotFound
  | some project =>
    match get? Organization.id project.organizationId db.organizations with
    | none => .error .rowNotFound
    | some organization => .ok (project.retention.getD organization.retention)

def setOrganizationPolicy (db : Db) (organizationId : Uuid) (retention : RetentionPolicy) : Db :=
  { db with
    organizations := updateWhere (fun o => o.id = organizationId) (fun o => { o with retention }) db.organizations }

/-- Overrides the policy for a project, or inherits it again. -/
def setProjectOverride (db : Db) (organizationId projectId : Uuid) (retention : Option RetentionPolicy) : Db :=
  { db with
    projects := updateWhere (fun p => p.organizationId = organizationId && p.id = projectId)
      (fun p => { p with retention }) db.projects }

def nanosPerDay : Int := 86400 * DateTime.nanosPerSecond

/-- The start of the day so many days ago. -/
def dayCutoff (now : DateTime) (days : Nat) : DateTime := (now - days * nanosPerDay) / nanosPerDay * nanosPerDay

/-- Moves the boundaries of the project forward, never back. -/
def advanceHorizons (db : Db) (projectId : Uuid) (closedBefore : Int) (historyExpiredBefore : Option Int) : Db :=
  { db with
    projects := updateWhere (fun p => p.id = projectId)
      (fun p => { p with
        closedBefore := greatest p.closedBefore (some closedBefore)
        historyExpiredBefore := greatest p.historyExpiredBefore historyExpiredBefore })
      db.projects }

/-- The first transaction of a pass. -/
def closeProject (db : Db) (organizationId projectId : Uuid) (now : DateTime) : Except SqlError Db := do
  let _ ← lockProject db organizationId projectId
  let policy ← policy db projectId
  if !policy.enabled then return db
  else
    return advanceHorizons db projectId (storedAt (dayCutoff now policy.rawDays))
      (policy.historyDays.map fun days => storedAt (dayCutoff now days))

/-! ## Compaction -/

/-- The events that get ten more minutes, so that what they belong with can arrive. -/
def lifecycleKinds : List String := ["container.restart", "container.terminated", "process.exit"]

def isClosed (db : Db) (projectId : Uuid) (closedBefore : Option Int) (e : Event) : Bool :=
  e.scope.projectId = projectId &&
    (db.memberships.any fun m => m.eventId = e.id && m.fingerprintVersion = 1) && past closedBefore e.observedAt &&
    (e.eventKind ∉ lifecycleKinds || past (closedBefore.map (· - restartWindow)) e.observedAt)

/-- Some grouped events of the project from before the boundary, oldest first. -/
def closedEvents (db : Db) (projectId : Uuid) (closedBefore : Option Int) (limit : Nat) : List Nat :=
  ((Paging.inOrder (fun e : Event => toLex (e.observedAt, e.id))
    (db.events.filter (isClosed db projectId closedBefore))).take limit).map Event.id

def microsPerDay : Int := 86400 * microsPerSecond

/-- The day of a stored instant. -/
def dayOf (observedAt : Int) : Int := observedAt / microsPerDay

/-- The memberships with the events they are of. -/
def memberEvents (db : Db) : List (Membership × Event) :=
  db.memberships.filterMap fun m => (get? Event.id m.eventId db.events).map (m, ·)

def groupsOfEvents (db : Db) (eventIds : List Nat) : List Nat :=
  ((db.memberships.filter fun m => m.eventId ∈ eventIds).map Membership.groupId).dedup

def snapshotKey (p : Membership × Event) : SnapshotKey := ⟨p.1.scope, p.1.groupId, p.1.releaseId, dayOf p.2.observedAt⟩

/-- The snapshot of events of the same group, release and day. -/
def snapshotOf (rows : SnapshotKey × List (Membership × Event)) : HistorySnapshot where
  key := rows.1
  occurrenceCount := rows.2.length
  firstObservedAt := (rows.2.map (·.2.observedAt)).min?.getD 0
  lastObservedAt := (rows.2.map (·.2.observedAt)).max?.getD 0

/-- Adds a snapshot to the one there is. -/
def HistorySnapshot.merge (excluded snapshot : HistorySnapshot) : HistorySnapshot :=
  { snapshot with
    occurrenceCount := snapshot.occurrenceCount + excluded.occurrenceCount
    firstObservedAt := min snapshot.firstObservedAt excluded.firstObservedAt
    lastObservedAt := max snapshot.lastObservedAt excluded.lastObservedAt }

/-- The memberships that are folded into snapshots: those of the events, without the ones whose
history has expired, and with or without a release. -/
def foldedMembers (db : Db) (eventIds : List Nat) (expiredBefore : Option Int) (released : Bool) :
    List (Membership × Event) :=
  (memberEvents db).filter fun p =>
    p.2.id ∈ eventIds && !past expiredBefore p.2.observedAt && p.1.releaseId.isSome = released

def foldIntoHistorySnapshots (db : Db) (eventIds : List Nat) (expiredBefore : Option Int) (released : Bool) : Db :=
  { db with
    snapshots := (groupBy snapshotKey (foldedMembers db eventIds expiredBefore released)).foldl
      (fun rows g => upsert HistorySnapshot.index HistorySnapshot.merge (snapshotOf g) rows) db.snapshots }

/-- Where the count of an occurrence goes when its event is compacted. -/
def Occurrence.compact (eventIds : List Nat) (expiredBefore : Option Int) (o : Occurrence) : Occurrence :=
  match o.place with
  | .raw m observedAt =>
    if m.eventId ∈ eventIds then
      { o with place := if past expiredBefore observedAt then .gone else .compacted m.releaseId (dayOf observedAt) }
    else o
  | _ => o

/-- Deletes the events. Their memberships and restarts go with them. -/
def deleteEvents (db : Db) (eventIds : List Nat) (expiredBefore : Option Int) : Db :=
  { db with
    events := db.events.filter fun e => e.id ∉ eventIds
    memberships := db.memberships.filter fun m => m.eventId ∉ eventIds
    restarts := db.restarts.filter fun r => r.eventId ∉ eventIds
    ledger := db.ledger.map (Occurrence.compact eventIds expiredBefore) }

/-- What is known of a group: when it was seen first and last, and how often. -/
structure Evidence where
  firstAt : Int
  lastAt : Int
  n : Nat

def evidence (db : Db) (groupId : Nat) : List Evidence :=
  ((memberEvents db).filter fun p => p.1.groupId = groupId).map (fun p => ⟨p.2.observedAt, p.2.observedAt, 1⟩) ++
    (db.snapshots.filter fun s => s.key.groupId = groupId).map
      fun s => ⟨s.firstObservedAt, s.lastObservedAt, s.occurrenceCount⟩

def EventGroup.recount (found : List Evidence) (g : EventGroup) : EventGroup :=
  { g with
    occurrenceCount := (found.map Evidence.n).sum
    firstSeenAt := (found.map Evidence.firstAt).min?.getD g.firstSeenAt
    lastSeenAt := (found.map Evidence.lastAt).max?.getD g.lastSeenAt }

def recountGroup (db : Db) (groupId : Nat) : Db :=
  { db with
    groups := updateWhere (fun g => g.id = groupId) (EventGroup.recount (evidence db groupId)) db.groups }

def recountGroups (db : Db) (groupIds : List Nat) : Db := groupIds.foldl recountGroup db

def compact (db : Db) (eventIds : List Nat) (expiredBefore : Option Int) : Db :=
  let groups := groupsOfEvents db eventIds
  let unreleased := foldIntoHistorySnapshots db eventIds expiredBefore false
  let folded := foldIntoHistorySnapshots unreleased eventIds expiredBefore true
  recountGroups (deleteEvents folded eventIds expiredBefore) groups

/-! ## Expiry -/

/-- Some snapshots of the project from before the day, oldest first. -/
def expiredSnapshots (db : Db) (projectId : Uuid) (expiredBefore : Option Int) (limit : Nat) : List SnapshotIndex :=
  ((Paging.inOrder (fun s : HistorySnapshot => s.key.day)
    (db.snapshots.filter fun s => s.key.scope.projectId = projectId && past (expiredBefore.map dayOf) s.key.day)).take
      limit).map HistorySnapshot.index

/-- The count of an occurrence goes with the snapshot it is in. -/
def Occurrence.expire (indexes : List SnapshotIndex) (o : Occurrence) : Occurrence :=
  match o.index? with
  | some index => if index ∈ indexes then { o with place := .gone } else o
  | none => o

/-- Deletes snapshots, which are named here by their unique index. -/
def deleteSnapshots (db : Db) (indexes : List SnapshotIndex) : Db :=
  { db with
    snapshots := db.snapshots.filter fun s => s.index ∉ indexes
    ledger := db.ledger.map (Occurrence.expire indexes) }

def expire (db : Db) (projectId : Uuid) (expiredBefore : Option Int) (limit : Nat) : Db :=
  let indexes := expiredSnapshots db projectId expiredBefore limit
  recountGroups (deleteSnapshots db indexes) (indexes.map SnapshotIndex.groupId)

/-- Deletes groups of the project without an occurrence, with all that refers to them. Which of
them no policy and no message refers to, and which come first, is not up to these tables. -/
def deleteEmptyGroups (db : Db) (projectId : Uuid) (removable : List Nat) (limit : Nat) : Db :=
  let removed := ((db.groups.filter fun g =>
    g.key.scope.projectId = projectId && g.occurrenceCount = 0 && g.id ∈ removable).take limit).map EventGroup.id
  { db with
    groups := db.groups.filter fun g => g.id ∉ removed
    memberships := db.memberships.filter fun m => m.groupId ∉ removed
    snapshots := db.snapshots.filter fun s => s.key.groupId ∉ removed }

/-! ## Passes -/

def clampLimit (limit : Int) : Nat := (max 1 (min limit 1000)).toNat

/-- The second transaction of a pass: the policy is read again, since it may have been disabled
in between. -/
def drainProject (db : Db) (organizationId projectId : Uuid) (now : DateTime) (limit : Int) (removable : List Nat) :
    Except SqlError (Nat × Db) := do
  let watermark ← lockProject db organizationId projectId
  let policy ← policy db projectId
  let expired := policy.historyDays.map fun days => storedAt (dayCutoff now days)
  if !policy.enabled then return (0, db)
  else
    let eventIds := closedEvents db projectId watermark (clampLimit limit)
    let compacted := compact db eventIds expired
    let drained := expire compacted projectId expired (clampLimit limit)
    return (eventIds.length, deleteEmptyGroups drained projectId removable (clampLimit limit))

inductive Step where
  | persistApplicationBatch (scope : SessionScope) (credential : ApplicationCredentialScope) (active : Bool)
      (agentId : Uuid) (arrivals : List Arrival)
  | persistBatch (context : IngestionContext) (arrivals : List Arrival)
  | closeProject (organizationId projectId : Uuid) (now : DateTime)
  | drainProject (organizationId projectId : Uuid) (now : DateTime) (limit : Int) (removable : List Nat)
  | setOrganizationPolicy (organizationId : Uuid) (retention : RetentionPolicy)
  | setProjectOverride (organizationId projectId : Uuid) (retention : Option RetentionPolicy)

/-- A pass is two transactions. Others may come between them. -/
def processProject (organizationId projectId : Uuid) (now : DateTime) (limit : Int) (removable : List Nat) :
    List Step :=
  [.closeProject organizationId projectId now, .drainProject organizationId projectId now limit removable]

inductive Answer where
  | stored (accepted expired : Nat)
  | refused (error : PersistError)
  | drained (events : Nat)
  | failed (error : SqlError)
  | done
  deriving DecidableEq

/-- A transaction that fails changes nothing. -/
def stored (db : Db) : Except PersistError Progress → Answer × Db
  | .ok progress => (.stored progress.accepted progress.expired, progress.db)
  | .error e => (.refused e, db)

def step (db : Db) : Step → Answer × Db
  | .persistApplicationBatch scope credential active agentId arrivals =>
    stored db (persistApplicationBatch db scope credential active agentId arrivals)
  | .persistBatch context arrivals => stored db (persistBatch db context arrivals)
  | .closeProject organizationId projectId now =>
    match closeProject db organizationId projectId now with
    | .ok db => (.done, db)
    | .error e => (.failed e, db)
  | .drainProject organizationId projectId now limit removable =>
    match drainProject db organizationId projectId now limit removable with
    | .ok (events, db) => (.drained events, db)
    | .error e => (.failed e, db)
  | .setOrganizationPolicy organizationId retention => (.done, setOrganizationPolicy db organizationId retention)
  | .setProjectOverride organizationId projectId retention =>
    (.done, setProjectOverride db organizationId projectId retention)

end Okoscope.Server.RuntimeEvents
