import Mathlib.Data.Prod.Lex
import Okoscope.EventModel.Resource
import Okoscope.Lib.Paging
import Okoscope.Lib.Run
import Okoscope.Server.RuntimeEvents

/-!
# Resource aggregates in the database

An aggregate is stored as a contribution and added to the points of its metrics, one for
its minute and one for its hour. An aggregate that is sent again is recognised by its
contribution. Cleanup deletes contributions after the days of detail, minute points with
them, and hour points after the days of rollups.

Whether an aggregate is too old is decided before its transaction begins, by the days of
detail at that time. The boundary that cleanup records in the project is not looked at.
-/
namespace Okoscope.Server.Resources

open Lib Lib.Bytes Lib.Table Lib.Watermark
open EventModel
open Deployments (storedAt postgresEpoch hasNul)
open RuntimeEvents (ApplicationScope SessionScope ApplicationCredentialScope microsPerSecond)

/-- Double precision numbers, as far as metrics and rollups use them. -/
class Doubles (F : Type) where
  ofNat : Nat → F
  add : F → F → F
  sub : F → F → F
  mul : F → F → F
  div : F → F → F
  least : F → F → F
  greatest : F → F → F
  positive : F → Bool

/-! ## Metrics -/

structure MetricContribution (F : Type) where
  name : String
  unit : String
  value : F
  limit : Option F

section
variable {F : Type} [Doubles F]

open Doubles

def u64AsF64 (value : UInt64) : F := ofNat value.toNat

def pushRatio (name unit : String) (numerator denominator : Option UInt64) : List (MetricContribution F) :=
  match numerator, denominator with
  | some numerator, some denominator =>
    if 0 < denominator then [⟨name, unit, div (u64AsF64 numerator) (u64AsF64 denominator), none⟩] else []
  | _, _ => []

def pushScaled (name unit : String) (value : Option UInt64) (scale : F) : List (MetricContribution F) :=
  match value with
  | some value => [⟨name, unit, div (u64AsF64 value) scale, none⟩]
  | none => []

def pushGauge (name unit : String) (sum limit : Option UInt64) (divisor : F) : List (MetricContribution F) :=
  match sum with
  | some value => [⟨name, unit, div (u64AsF64 value) divisor, limit.map u64AsF64⟩]
  | none => []

def perSecond (value : UInt64) (covered : F) : F :=
  div (mul (u64AsF64 value) (ofNat 1000000)) covered

def pushRate (name unit : String) (value : Option UInt64) (covered : F) : List (MetricContribution F) :=
  match value with
  | some value => if positive covered then [⟨name, unit, perSecond value covered, none⟩] else []
  | none => []

/-- Unlike other rates, these are pushed for an interval of which nothing was covered. -/
def pushIoRates (values : ResourceValues) (covered : F) : List (MetricContribution F) :=
  [("io_read_operations", values.ioReadOperations), ("io_write_operations", values.ioWriteOperations)].flatMap
    fun (name, value) =>
      match value with
      | some value => [⟨name, "operations_per_second", perSecond value covered, none⟩]
      | none => []

def pushCpuQuota (values : ResourceValues) (covered : UInt64) : List (MetricContribution F) :=
  match values.cpuUsageUsec, values.cpuQuotaUsec, values.cpuPeriodUsec with
  | some usage, some quota, some period =>
    if 0 < quota ∧ 0 < period ∧ 0 < covered then
      let usageCores := div (u64AsF64 usage) (u64AsF64 covered)
      let quotaCores := div (u64AsF64 quota) (u64AsF64 period)
      [⟨"cpu_quota_ratio", "ratio", div usageCores quotaCores, some quotaCores⟩]
    else []
  | _, _, _ => []

/-- What is left of the memory limit, on average. -/
def pushMemoryHeadroom (values : ResourceValues) (samples : F) : List (MetricContribution F) :=
  match values.memoryCurrentSumBytes, values.memoryLimitBytes with
  | some sum, some limit =>
    if 0 < limit then
      let average := div (u64AsF64 sum) samples
      let headroom := div (sub (u64AsF64 limit) average) (u64AsF64 limit)
      [⟨"memory_headroom_ratio", "ratio", greatest headroom (ofNat 0), some (u64AsF64 limit)⟩]
    else []
  | _, _ => []

def pushMemoryMetrics (values : ResourceValues) (samples : F) : List (MetricContribution F) :=
  pushGauge "memory_current_bytes" "bytes" values.memoryCurrentSumBytes values.memoryLimitBytes samples ++
  pushGauge "memory_anon_bytes" "bytes" values.memoryAnonSumBytes none samples ++
  pushGauge "memory_file_bytes" "bytes" values.memoryFileSumBytes none samples ++
  pushMemoryHeadroom values samples

def pushCountMetrics (values : ResourceValues) : List (MetricContribution F) :=
  [("memory_high_events", values.memoryHighEvents), ("memory_max_events", values.memoryMaxEvents),
    ("oom_events", values.memoryOomEvents), ("oom_kill_events", values.memoryOomKillEvents)].flatMap
    fun (name, value) => pushScaled name "count" value (ofNat 1)

def pushPressureMetrics (values : ResourceValues) (covered : UInt64) : List (MetricContribution F) :=
  [("cpu_psi_some_ratio", values.cpuPsiSomeUsec), ("cpu_psi_full_ratio", values.cpuPsiFullUsec),
    ("memory_psi_some_ratio", values.memoryPsiSomeUsec), ("memory_psi_full_ratio", values.memoryPsiFullUsec),
    ("io_psi_some_ratio", values.ioPsiSomeUsec), ("io_psi_full_ratio", values.ioPsiFullUsec)].flatMap
    fun (name, value) => pushRatio name "ratio" value (some covered)

def metricContributions (values : ResourceValues) (coveredUsec : UInt64) (sampleCount : UInt32) :
    List (MetricContribution F) :=
  let covered := u64AsF64 coveredUsec
  let samples := ofNat (max sampleCount.toNat 1)
  pushRatio "cpu_usage_cores" "cores" values.cpuUsageUsec (some coveredUsec) ++
  pushCpuQuota values coveredUsec ++
  pushRatio "cpu_throttled_period_ratio" "ratio" values.cpuNrThrottled values.cpuNrPeriods ++
  pushScaled "cpu_throttled_seconds" "seconds" values.cpuThrottledUsec (ofNat 1000000) ++
  pushMemoryMetrics values samples ++
  pushCountMetrics values ++
  pushPressureMetrics values coveredUsec ++
  pushRate "io_read_bytes" "bytes_per_second" values.ioReadBytes covered ++
  pushRate "io_write_bytes" "bytes_per_second" values.ioWriteBytes covered ++
  pushIoRates values covered ++
  pushGauge "pids_current" "count" values.pidsCurrentSum values.pidsLimit samples ++
  pushRatio "pids_limit_ratio" "ratio" values.pidsCurrentMax values.pidsLimit ++
  pushScaled "pids_max_events" "count" values.pidsMaxEvents (ofNat 1)

end

/-! ## Rows -/

structure RetentionDays where
  detail : Int
  rollup : Int

/-- Days of retention that pass the checks of their columns. -/
structure ResourceDays extends RetentionDays where
  detail_bounded : 1 ≤ detail ∧ detail ≤ 31
  rollup_bounded : detail ≤ rollup ∧ rollup ≤ 366

structure Organization where
  id : Uuid
  days : ResourceDays

/-- The days that a project overrides. The check of the columns passes where a comparison is with a missing
number, so one number alone may be there. -/
structure ProjectDays where
  detail : Option Int
  rollup : Option Int
  detail_bounded : ∀ d ∈ detail, 1 ≤ d ∧ d ≤ 31
  rollup_bounded : ∀ r ∈ rollup, r ≤ 366 ∧ ∀ d ∈ detail, d ≤ r

structure Project where
  id : Uuid
  organizationId : Uuid
  days : ProjectDays
  closedBefore : Option Int
  rollupExpiredBefore : Option Int

/-- The applications, each in one project. -/
structure Applications where
  rows : List ApplicationScope
  unique : (rows.map ApplicationScope.applicationId).Nodup

structure Agent where
  organizationId : Uuid
  clusterId : Uuid
  id : Uuid
  deriving DecidableEq

structure Release where
  id : Uuid
  scope : ApplicationScope
  identityVersion : Nat
  identityDigest : ByteVec 32

/-- The primary key of a contribution: what an aggregate is recognised by. -/
structure ContributionKey where
  organizationId : Uuid
  applicationId : Uuid
  id : Uuid
  deriving DecidableEq

structure Contribution where
  scope : ApplicationScope
  clusterId : Uuid
  agentId : Uuid
  releaseId : Option Uuid
  aggregate : ResourceAggregate

def Contribution.key (c : Contribution) : ContributionKey :=
  ⟨c.scope.organizationId, c.scope.applicationId, c.aggregate.id⟩

def Contribution.intervalStart (c : Contribution) : Int := storedAt c.aggregate.intervalStart

def Contribution.intervalEnd (c : Contribution) : Int := storedAt c.aggregate.intervalEnd

structure PointKey where
  applicationId : Uuid
  releaseKey : Uuid
  containerName : String
  bucketStart : Int
  stepSeconds : Nat
  metric : String
  deriving DecidableEq

structure RollupPoint (F : Type) where
  organizationId : Uuid
  projectId : Uuid
  releaseId : Option Uuid
  key : PointKey
  unit : String
  valueSum : F
  valueMin : F
  valueMax : F
  valueWeight : F
  limitValue : Option F
  coveredUsec : Int
  expectedUsec : Int
  sampleCount : Int
  contributorCount : Nat
  observedReplicas : Int
  readyReplicas : Int
  unavailableSources : Nat

/-- That an aggregate was added to a point, and whether the point is still there. -/
structure Addition where
  contribution : ContributionKey
  point : PointKey
  held : Bool

/-- The tables. The list of additions is kept for the record, and no statement reads it. -/
structure Db (F : Type) where
  organizations : List Organization
  projects : List Project
  applications : Applications
  agents : List Agent
  releases : List Release
  contributions : List Contribution
  points : List (RollupPoint F)
  additions : List Addition

def Db.start (F : Type) (organizations : List Organization) (projects : List Project) (applications : Applications)
    (agents : List Agent) (releases : List Release) : Db F :=
  ⟨organizations, projects, applications, agents, releases, [], [], []⟩

inductive SqlError where
  | rowNotFound
  | invalidText
  | check
  | foreignKey
  | outOfRange
  deriving DecidableEq

variable {F : Type}

/-! ## Retention days -/

/-- Each number of days is that of the project, or of its organization if the project has none of its own. -/
def retentionDays (db : Db F) (projectId : Uuid) : Except SqlError RetentionDays :=
  match get? Project.id projectId db.projects with
  | none => .error .rowNotFound
  | some project =>
    match get? Organization.id project.organizationId db.organizations with
    | none => .error .rowNotFound
    | some organization =>
      .ok ⟨project.days.detail.getD organization.days.detail, project.days.rollup.getD organization.days.rollup⟩

def daysBefore (now : DateTime) (days : Int) : DateTime := now - days * (86400 * DateTime.nanosPerSecond)

def setOrganizationDays (db : Db F) (organizationId : Uuid) (days : ResourceDays) : Db F :=
  { db with
    organizations := updateWhere (fun o => o.id = organizationId) (fun o => { o with days }) db.organizations }

def setProjectDays (db : Db F) (projectId : Uuid) (days : ProjectDays) : Db F :=
  { db with projects := updateWhere (fun p => p.id = projectId) (fun p => { p with days }) db.projects }

/-! ## Storing an aggregate -/

structure Request where
  scope : SessionScope
  application : ApplicationCredentialScope
  agentId : Uuid
  aggregate : ResourceAggregate

def Request.applicationScope (r : Request) : ApplicationScope :=
  ⟨r.application.organizationId, r.application.projectId, r.application.applicationId⟩

def Request.contribution (r : Request) (releaseId : Option Uuid) : Contribution :=
  ⟨r.applicationScope, r.scope.clusterId, r.agentId, releaseId, r.aggregate⟩

/-- Whether the aggregate ended before the days of detail began. -/
def isExpired (db : Db F) (r : Request) (now : DateTime) : Except SqlError Bool := do
  let days ← retentionDays db r.application.projectId
  return r.aggregate.intervalEnd < daysBefore now days.detail

def resolveRelease (db : Db F) (r : Request) : Option Uuid :=
  r.aggregate.releaseIdentity.bind fun identity =>
    (db.releases.find? fun release => release.scope = r.applicationScope &&
      release.identityVersion = min identity.version.toNat (2 ^ 15 - 1) &&
      release.identityDigest = identity.digest).map Release.id

def hasCharacters (max : Nat) (text : String) : Bool := 1 ≤ text.length && text.length ≤ max

def fiveMinutes : Int := 300 * microsPerSecond

/-- The checks on the columns of a contribution. Counts that do not fit are stored as the greatest
that do. -/
def Contribution.checked (c : Contribution) : Bool :=
  c.aggregate.schemaVersion = 1 && 0 < c.aggregate.sampleCount && 0 < c.aggregate.contributingContainers &&
    hasCharacters 253 c.aggregate.namespace && hasCharacters 253 c.aggregate.workloadUid &&
    hasCharacters 64 c.aggregate.workloadKind && hasCharacters 253 c.aggregate.workloadName &&
    hasCharacters 256 c.aggregate.containerName && hasCharacters 253 c.aggregate.nodeName &&
    c.intervalStart < c.intervalEnd && c.intervalEnd - c.intervalStart ≤ fiveMinutes

def Contribution.texts (c : Contribution) : List String :=
  [c.aggregate.namespace, c.aggregate.workloadUid, c.aggregate.workloadKind, c.aggregate.workloadName,
    c.aggregate.containerName, c.aggregate.nodeName]

def Db.hasRelease (db : Db F) (scope : ApplicationScope) (releaseId : Option Uuid) : Bool :=
  releaseId.all fun id => db.releases.any fun release => release.id = id && release.scope = scope

/-- The rows a contribution refers to are there. -/
def Contribution.linked (c : Contribution) (db : Db F) : Bool :=
  c.scope ∈ db.applications.rows && ⟨c.scope.organizationId, c.clusterId, c.agentId⟩ ∈ db.agents &&
    db.hasRelease c.scope c.releaseId

/-- Stores a contribution, once: a repeated id affects no row. -/
def insertContribution (db : Db F) (c : Contribution) : Except SqlError (Bool × Db F) :=
  if c.texts.any hasNul then .error .invalidText
  else if !c.checked then .error .check
  else if db.contributions.any fun d => d.key = c.key then .ok (false, db)
  else if !c.linked db then .error .foreignKey
  else .ok (true, { db with contributions := db.contributions ++ [c] })

/-- The start of the bucket of so many seconds that a stored instant is in. Buckets are counted
from the Unix epoch. -/
def bucketStart (start : Int) (step : Nat) : Int :=
  let epoch := postgresEpoch / 1000
  (start + epoch) / (step * microsPerSecond) * (step * microsPerSecond) - epoch

def bigintMax : Int := 2 ^ 63 - 1

/-- The whole microseconds between two instants, nothing if they do not fit 64 bits. -/
def intervalUsec (aggregate : ResourceAggregate) : Int :=
  let usec := (aggregate.intervalEnd - aggregate.intervalStart).tdiv 1000
  if -2 ^ 63 ≤ usec ∧ usec ≤ bigintMax then usec else 0

def saturatingMul (a b : Int) : Int := max (-2 ^ 63) (min (a * b) bigintMax)

/-- What an aggregate adds to the point of a metric. -/
def rollupPoint [Doubles F] (c : Contribution) (metric : MetricContribution F) (step : Nat) : RollupPoint F where
  organizationId := c.scope.organizationId
  projectId := c.scope.projectId
  releaseId := c.releaseId
  key := ⟨c.scope.applicationId, c.releaseId.getD Uuid.nil, c.aggregate.containerName,
    bucketStart c.intervalStart step, step, metric.name⟩
  unit := metric.unit
  valueSum := Doubles.mul metric.value (u64AsF64 c.aggregate.coveredUsec)
  valueMin := metric.value
  valueMax := metric.value
  valueWeight := u64AsF64 c.aggregate.coveredUsec
  limitValue := metric.limit
  coveredUsec := min c.aggregate.coveredUsec.toNat bigintMax
  expectedUsec := saturatingMul (intervalUsec c.aggregate) c.aggregate.contributingContainers.toNat
  sampleCount := c.aggregate.sampleCount.toNat
  contributorCount := 1
  observedReplicas := min c.aggregate.contributingContainers.toNat (2 ^ 31 - 1)
  readyReplicas := min c.aggregate.readyContainers.toNat (2 ^ 31 - 1)
  unavailableSources := min c.aggregate.unavailableSources.toNat (2 ^ 63 - 1)

def RollupPoint.checked [Doubles F] (p : RollupPoint F) : Bool :=
  hasCharacters 256 p.key.containerName && Doubles.positive p.valueWeight && 0 ≤ p.coveredUsec && 0 < p.expectedUsec &&
    0 < p.sampleCount && 0 < p.contributorCount && 0 ≤ p.observedReplicas && 0 ≤ p.readyReplicas

/-- Folds a point into the one there is: sums and weights add, minimum and maximum widen, the limit
keeps its latest value, and replica counts keep their maximum. -/
def RollupPoint.merge [Doubles F] (excluded p : RollupPoint F) : RollupPoint F :=
  { p with
    valueSum := Doubles.add p.valueSum excluded.valueSum
    valueMin := Doubles.least p.valueMin excluded.valueMin
    valueMax := Doubles.greatest p.valueMax excluded.valueMax
    valueWeight := Doubles.add p.valueWeight excluded.valueWeight
    limitValue := excluded.limitValue.or p.limitValue
    coveredUsec := p.coveredUsec + excluded.coveredUsec
    expectedUsec := p.expectedUsec + excluded.expectedUsec
    sampleCount := p.sampleCount + excluded.sampleCount
    contributorCount := p.contributorCount + excluded.contributorCount
    observedReplicas := max p.observedReplicas excluded.observedReplicas
    readyReplicas := max p.readyReplicas excluded.readyReplicas
    unavailableSources := p.unavailableSources ||| excluded.unavailableSources }

def RollupPoint.inRange (p : RollupPoint F) : Bool :=
  p.coveredUsec ≤ bigintMax && p.expectedUsec ≤ bigintMax && p.sampleCount ≤ bigintMax && p.contributorCount ≤ bigintMax

/-- Adds what an aggregate has for a metric to the point of its bucket. -/
def upsertRollup [Doubles F] (c : Contribution) (db : Db F) (addition : MetricContribution F × Nat) :
    Except SqlError (Db F) :=
  let row := rollupPoint c addition.1 addition.2
  if !row.checked then .error .check
  else if ((get? RollupPoint.key row.key db.points).map fun p => row.merge p).any fun p => !p.inRange then
    .error .outOfRange
  else
    .ok { db with
      points := upsert RollupPoint.key RollupPoint.merge row db.points
      additions := db.additions ++ [⟨c.key, row.key, true⟩] }

def steps : List Nat := [60, 3600]

/-- Each metric of an aggregate, for a minute and for an hour. -/
def rollupAdditions (F : Type) [Doubles F] (aggregate : ResourceAggregate) : List (MetricContribution F × Nat) :=
  (metricContributions aggregate.values aggregate.coveredUsec aggregate.sampleCount).flatMap
    fun metric => steps.map (metric, ·)

inductive PersistResourceOutcome where
  | accepted
  | duplicate
  | expired
  deriving DecidableEq

/-- The transaction that stores an aggregate. -/
def persistTransaction [Doubles F] (db : Db F) (c : Contribution) :
    Except SqlError (PersistResourceOutcome × Db F) := do
  let (inserted, db) ← insertContribution db c
  if !inserted then return (.duplicate, db)
  else
    let db ← (rollupAdditions F c.aggregate).foldlM (upsertRollup c) db
    return (.accepted, db)

/-! ## Cleanup -/

/-- Moves the boundaries of the project forward, never back. -/
def advanceRetentionHorizons (db : Db F) (projectId : Uuid) (detailBefore rollupBefore : Int) : Db F :=
  { db with
    projects := updateWhere (fun p => p.id = projectId)
      (fun p => { p with
        closedBefore := greatest p.closedBefore (some detailBefore)
        rollupExpiredBefore := greatest p.rollupExpiredBefore (some rollupBefore) })
      db.projects }

/-- Some contributions of the project that ended before the boundary, oldest first, without those
that others have locked. -/
def expiredContributions (db : Db F) (projectId : Uuid) (detailBefore : Int) (limit : Nat)
    (locked : List ContributionKey) : List ContributionKey :=
  ((Paging.inOrder (fun c : Contribution => toLex (c.intervalEnd, c.aggregate.id.rank))
    (db.contributions.filter fun c =>
      c.scope.projectId = projectId && c.intervalEnd < detailBefore && c.key ∉ locked)).take limit).map Contribution.key

def deleteExpiredContributions (db : Db F) (keys : List ContributionKey) : Db F :=
  { db with contributions := db.contributions.filter fun c => c.key ∉ keys }

/-- Some points of the project, oldest first: minute points from before the days of detail, and any
from before the days of rollups. -/
def expiredRollups (db : Db F) (projectId : Uuid) (detailBefore rollupBefore : Int) (limit : Nat)
    (locked : List PointKey) : List PointKey :=
  ((Paging.inOrder (fun p : RollupPoint F => toLex (p.key.bucketStart, p.key.applicationId.rank))
    (db.points.filter fun p => p.projectId = projectId &&
      (p.key.stepSeconds = 60 && p.key.bucketStart < detailBefore || p.key.bucketStart < rollupBefore) &&
      p.key ∉ locked)).take limit).map RollupPoint.key

def deleteExpiredRollups (db : Db F) (keys : List PointKey) : Db F :=
  { db with
    points := db.points.filter fun p => p.key ∉ keys
    additions := db.additions.map fun a => if a.point ∈ keys then { a with held := false } else a }

def clampLimit (limit : Int) : Nat := (max 1 (min limit 1000)).toNat

/-- The transaction of a cleanup. Contributions come first; points are deleted with what they leave
of the limit. -/
def cleanupProject (db : Db F) (projectId : Uuid) (now : DateTime) (limit : Int) (locked : List ContributionKey)
    (lockedPoints : List PointKey) : Except SqlError (Nat × Db F) := do
  let days ← retentionDays db projectId
  let detailBefore := storedAt (daysBefore now days.detail)
  let rollupBefore := storedAt (daysBefore now days.rollup)
  let db := advanceRetentionHorizons db projectId detailBefore rollupBefore
  let contributions := expiredContributions db projectId detailBefore (clampLimit limit) locked
  let db := deleteExpiredContributions db contributions
  let remaining := clampLimit limit - contributions.length
  let points := expiredRollups db projectId detailBefore rollupBefore remaining lockedPoints
  return (contributions.length + points.length, deleteExpiredRollups db points)

/-! ## The system -/

/-- How far a request has got: it was found recent enough, and its release was looked up. -/
inductive Stage where
  | admitted (request : Request)
  | resolved (request : Request) (releaseId : Option Uuid)

structure World (F : Type) where
  db : Db F
  inFlight : List Stage

inductive Step where
  | receive (request : Request) (now : DateTime)
  | resolve (n : Nat)
  | persist (n : Nat)
  | cleanupProject (projectId : Uuid) (now : DateTime) (limit : Int) (locked : List ContributionKey)
      (lockedPoints : List PointKey)
  | setOrganizationDays (organizationId : Uuid) (days : ResourceDays)
  | setProjectDays (projectId : Uuid) (days : ProjectDays)
  | discoverRelease (release : Release)

inductive Answer where
  | outcome (outcome : PersistResourceOutcome)
  | cleaned (deleted : Nat)
  | failed (error : SqlError)
  | done
  deriving DecidableEq

/-- `persist_resource_aggregate` in three steps: the days of detail are read and the release is
looked up before its transaction begins. -/
def step [Doubles F] (w : World F) : Step → Answer × World F
  | .receive request now =>
    match isExpired w.db request now with
    | .error e => (.failed e, w)
    | .ok true => (.outcome .expired, w)
    | .ok false => (.done, { w with inFlight := w.inFlight ++ [.admitted request] })
  | .resolve n =>
    match w.inFlight[n]? with
    | some (.admitted request) =>
      (.done, { w with inFlight := w.inFlight.set n (.resolved request (resolveRelease w.db request)) })
    | _ => (.done, w)
  | .persist n =>
    match w.inFlight[n]? with
    | some (.resolved request releaseId) =>
      match persistTransaction w.db (request.contribution releaseId) with
      | .error e => (.failed e, { w with inFlight := w.inFlight.eraseIdx n })
      | .ok (outcome, db) => (.outcome outcome, ⟨db, w.inFlight.eraseIdx n⟩)
    | _ => (.done, w)
  | .cleanupProject projectId now limit locked lockedPoints =>
    match cleanupProject w.db projectId now limit locked lockedPoints with
    | .error e => (.failed e, w)
    | .ok (deleted, db) => (.cleaned deleted, { w with db })
  | .setOrganizationDays organizationId days => (.done, { w with db := setOrganizationDays w.db organizationId days })
  | .setProjectDays projectId days => (.done, { w with db := setProjectDays w.db projectId days })
  | .discoverRelease release => (.done, { w with db := { w.db with releases := w.db.releases ++ [release] } })

end Okoscope.Server.Resources
