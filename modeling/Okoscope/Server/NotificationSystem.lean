import Okoscope.Lib.Run
import Okoscope.Server.NotificationWorker

/-!
# The notification system

The commands of users on deliveries and destinations, and the machine they make
together with any number of workers. A worker takes several steps for one
delivery: it claims it, sends it, runs the statements that record the attempt and
commits them; other workers and commands may come in between, and a worker may
stop anywhere. A delivery that an open transaction has written is locked: a claim
skips it, and a command on it waits.
-/
namespace Okoscope.Server.NotificationSystem

open Lib.Table Lib.Word Lib.Outcome
open Deployments (SqlError)
open NotificationTables NotificationWorker

/-! ## Recovery commands -/

inductive RecoveryConflictCode where
  | invalidState
  | activeLease
  | destinationDisabled
  | bulkLimitExceeded
  deriving DecidableEq

inductive RecoveryError where
  | notFound
  | conflict (code : RecoveryConflictCode)
  deriving DecidableEq

def ensureRetryEligible (now : Int) (d : LockedDelivery) : Except RecoveryError Unit :=
  if d.state.leaseExpiresAt.any (now < ·) then .error (.conflict .activeLease)
  else if ¬ d.destinationEnabled then .error (.conflict .destinationDisabled)
  else if ¬ d.state.isFailed then .error (.conflict .invalidState)
  else .ok ()

def ensureCancelEligible (d : LockedDelivery) : Except RecoveryError Unit :=
  if d.state.leaseOwner.isSome then .error (.conflict .activeLease)
  else if d.state ≠ .pending then .error (.conflict .invalidState)
  else .ok ()

structure DeliveryRecoveryResult where
  deliveryId : Nat
  recoveryGeneration : Nat
  currentAttemptCount : Nat
  totalAttemptCount : Nat

def retryDelivery (now : Int) (id : Nat) (db : Db) : Except RecoveryError (DeliveryRecoveryResult × Db) := do
  let delivery ← okOr (lockForRecovery id db) .notFound
  ensureRetryEligible now delivery
  let generation := saturatingSuccI32 delivery.recoveryGeneration
  let changed := requeueFailed now id generation db
  if changed.1 ≠ 1 then .error (.conflict .invalidState)
  else .ok (⟨id, generation, 0, delivery.totalAttemptCount⟩, changed.2)

def cancelDelivery (now : Int) (id : Nat) (db : Db) : Except RecoveryError (DeliveryRecoveryResult × Db) := do
  let delivery ← okOr (lockForRecovery id db) .notFound
  ensureCancelEligible delivery
  let changed := cancelPending now id db
  if changed.1 ≠ 1 then .error (.conflict .activeLease)
  else .ok (⟨id, delivery.recoveryGeneration, delivery.attemptCount, delivery.totalAttemptCount⟩, changed.2)

structure BulkRetryFilter where
  retryFilter : RetryFilter
  limit : Option Int

def defaultBulkLimit : Int := 50
def maxBulkLimit : Int := 200

def BulkRetryFilter.boundedLimit (f : BulkRetryFilter) : Except RecoveryError Nat :=
  let limit := f.limit.getD defaultBulkLimit
  if 1 ≤ limit ∧ limit ≤ maxBulkLimit then .ok limit.toNat else .error (.conflict .bulkLimitExceeded)

def validateBulkFilter (f : BulkRetryFilter) : Except RecoveryError Nat :=
  if f.retryFilter.errorClass.any fun c => c.isEmpty || 100 < c.utf8ByteSize then .error (.conflict .invalidState)
  else f.boundedLimit

/-- Returns the selected deliveries to pending, each under its next generation. -/
def requeueAll (now : Int) : List (Nat × Nat) → Db → Nat × Db
  | [], db => (0, db)
  | (id, previous) :: rest, db =>
    let changed := requeueFailed now id (saturatingSuccI32 previous) db
    let later := requeueAll now rest changed.2
    (later.1 + (if changed.1 = 1 then 1 else 0), later.2)

structure BulkRecoveryResult where
  selectedCount : Nat
  retriedCount : Nat
  remainingCount : Nat
  hasMore : Bool

/-- One more than the limit is selected, and the surplus one is left alone. -/
def bulkSelection (f : RetryFilter) (limit : Nat) (locked : List Nat) (db : Db) : List (Nat × Nat) :=
  (failedForRetry f (limit + 1) locked db).take limit

def bulkRetry (now : Int) (f : BulkRetryFilter) (locked : List Nat) (db : Db) :
    Except RecoveryError (BulkRecoveryResult × Db) := do
  let limit ← validateBulkFilter f
  let sawMore := limit < (failedForRetry f.retryFilter (limit + 1) locked db).length
  let changed := requeueAll now (bulkSelection f.retryFilter limit locked db) db
  let remaining := min (countFailedForRetry f.retryFilter changed.2) i32Max
  .ok (⟨changed.1, changed.1, remaining, sawMore || 0 < remaining⟩, changed.2)

/-! ## The machine -/

/-- A claim in the memory of a worker, with what sending came to once it was sent. -/
structure Job where
  claim : DeliveryClaim
  result : Option (Int × AttemptResult)
  deriving DecidableEq

structure World where
  now : Int
  db : Db
  jobs : List Job
  opens : List OpenAttempt

def World.init : World := ⟨0, Db.empty, [], []⟩

/-- The claims that workers act on. -/
def World.tickets (w : World) : List DeliveryClaim := w.jobs.map Job.claim ++ w.opens.map OpenAttempt.claim

/-- Whether the claim's lease is the current one of its delivery. -/
def Db.holds (db : Db) (c : DeliveryClaim) : Bool := db.deliveries.any (Delivery.leasedTo c.id c.leaseOwner)

/-- The deliveries that open transactions have written. -/
def World.written (w : World) : List Nat := (w.opens.filter fun o => Db.holds w.db o.claim).map fun o => o.claim.id

inductive Step where
  | pass (micros : Nat)
  | announce (source : Source)
  | createDestination (deliverBackfill : Bool)
  | updateDestination (u : WebhookDestinationUpdate)
  | disable (id : Nat)
  | materialize (config : NotificationConfig) (locked : List Nat) (eligibility : Nat → EligibilityReason)
      (destinations : List Destination)
  | claim (config : NotificationConfig) (locked : List Nat)
  | send (job : Job) (elapsedMs : Nat) (outcome : SendOutcome)
  | stop (job : Job)
  | persist (config : NotificationConfig) (job : Job) (draw : Nat)
  | commit (o : OpenAttempt)
  | abort (o : OpenAttempt)
  | testDestination (config : NotificationConfig) (id : Nat)
  | retry (id : Nat)
  | cancel (id : Nat)
  | bulkRetry (f : BulkRetryFilter) (locked : List Nat)

inductive Answer where
  | done
  | refused
  | blocked
  | rejected (e : RecoveryError)
  | recovered (result : DeliveryRecoveryResult)
  | bulkRecovered (result : BulkRecoveryResult)
  | failed (e : SqlError)
  /-- An attempt was recorded, under the current lease of its delivery or not. -/
  | committed (c : DeliveryClaim) (held : Bool)

/-- Runs the statements of a worker that has sent its claim. -/
def World.persist (w : World) (config : NotificationConfig) (job : Job) (draw : Nat) (startedAt : Int)
    (result : AttemptResult) : Answer × World :=
  -- an insert waits for an open transaction that inserted the same key
  if w.opens.any fun o => o.attempt.key = (attemptOf w.now startedAt job.claim result).key then (.blocked, w)
  else
    match attemptStatements w.now config job.claim startedAt result draw w.db with
    | .error e => (.failed e, { w with jobs := w.jobs.erase job })
    | .ok o => (.done, { w with jobs := w.jobs.erase job, opens := w.opens ++ [o] })

/-- A command on one delivery waits for its lock and then runs in one transaction. -/
def World.recover (w : World) (id : Nat) (command : Except RecoveryError (DeliveryRecoveryResult × Db)) :
    Answer × World :=
  if w.written.contains id then (.blocked, w)
  else
    match command with
    | .error e => (.rejected e, w)
    | .ok (result, db) => (.recovered result, { w with db })

def step (w : World) : Step → Answer × World
  | .pass micros => (.done, { w with now := w.now + micros })
  | .announce source => (.done, { w with db := insertFirstSeen w.now source w.db })
  | .createDestination deliverBackfill => (.done, { w with db := insertDestination deliverBackfill w.db })
  | .updateDestination u => (.done, { w with db := updateDestination u w.db })
  | .disable id =>
    if (get? Destination.id id w.db.destinations).isNone then (.refused, w)
    else if w.db.deliveries.any fun d => d.destinationId = id && w.written.contains d.id then (.blocked, w)
    else (.done, { w with db := cancelForDestination w.now id (disableDestination id w.db) })
  | .materialize config locked eligibility destinations =>
    (.done, { w with db := materializeOnce w.now config locked eligibility destinations w.db })
  | .claim config locked =>
    let claimed := claimDue w.now config.claimSize config.leaseSeconds (w.written ++ locked) w.db
    (.done, { w with db := claimed.2, jobs := w.jobs ++ claimed.1.map fun c => ⟨c, none⟩ })
  | .send job elapsedMs outcome =>
    if job ∈ w.jobs ∧ job.result = none then
      (.done, { w with
        jobs := w.jobs.erase job ++ [⟨job.claim, some (w.now, attemptResult elapsedMs outcome)⟩] })
    else (.refused, w)
  | .stop job => (.done, { w with jobs := w.jobs.erase job })
  | .persist config job draw =>
    if job ∈ w.jobs then
      match job.result with
      | none => (.refused, w)
      | some (startedAt, result) => w.persist config job draw startedAt result
    else (.refused, w)
  | .commit o =>
    if o ∈ w.opens then
      (.committed o.claim (Db.holds w.db o.claim), { w with db := o.commit w.db, opens := w.opens.erase o })
    else (.refused, w)
  | .abort o => (.done, { w with opens := w.opens.erase o })
  | .testDestination config id =>
    if w.db.destinationEnabled id then
      let inserted := insertTest w.now id config.leaseSeconds w.db
      (.done, { w with db := inserted.2, jobs := w.jobs ++ [⟨inserted.1, none⟩] })
    else (.refused, w)
  | .retry id => w.recover id (retryDelivery w.now id w.db)
  | .cancel id => w.recover id (cancelDelivery w.now id w.db)
  | .bulkRetry f locked =>
    match bulkRetry w.now f (w.written ++ locked) w.db with
    | .error e => (.rejected e, w)
    | .ok (result, db) => (.bulkRecovered result, { w with db })

end Okoscope.Server.NotificationSystem
