import Okoscope.Lib.Table
import Okoscope.Lib.Word
import Okoscope.Server.Deployments

/-!
# Notification deliveries in the database

The outbox, destination, delivery and attempt tables of one project, and the
statements of their repositories. Row ids and lease owners are random; here they
are drawn in turn, so that no two are the same. Instants are whole microseconds.
A statement that skips locked rows is given the ids of the rows that other
transactions hold at the moment.
-/
namespace Okoscope.Server.NotificationTables

open Lib.Table Lib.Word
open Deployments (SqlError hasNul)

/-! ## Rows -/

inductive Source where
  | live
  | backfill
  | test
  deriving DecidableEq

inductive TerminalStatus where
  | succeeded
  | failed
  | suppressed
  | cancelled
  deriving DecidableEq

/-- Exactly a delivery in flight has a lease, and exactly an ended one has an end. -/
inductive DeliveryState where
  | pending
  | inFlight (leaseOwner : Nat) (leaseExpiresAt : Int)
  | ended (status : TerminalStatus) (terminalAt : Int)
  deriving DecidableEq

namespace DeliveryState

def isTerminal : DeliveryState → Bool
  | .ended _ _ => true
  | _ => false

def isFailed : DeliveryState → Bool
  | .ended .failed _ => true
  | _ => false

def leaseOwner : DeliveryState → Option Nat
  | .inFlight owner _ => some owner
  | _ => none

def leaseExpiresAt : DeliveryState → Option Int
  | .inFlight _ expiresAt => some expiresAt
  | _ => none

def terminalAt : DeliveryState → Option Int
  | .ended _ t => some t
  | _ => none

end DeliveryState

/-- How often a delivery is attempted: at least once, and no more than a 32-bit integer says. -/
structure AttemptLimit where
  value : Nat
  pos : 0 < value
  le_i32Max : value ≤ i32Max
  deriving DecidableEq

structure Delivery where
  id : Nat
  destinationId : Nat
  outboxMessageId : Option Nat
  source : Source
  state : DeliveryState
  availableAt : Int
  recoveryGeneration : Nat
  attemptCount : Nat
  maxAttempts : AttemptLimit
  lastErrorClass : Option String
  createdAt : Int

inductive AttemptDisposition where
  | succeeded
  | retryable
  | failed
  deriving DecidableEq

structure Attempt where
  deliveryId : Nat
  recoveryGeneration : Nat
  attemptNumber : Nat
  startedAt : Int
  finishedAt : Int
  durationMs : Nat
  outcome : AttemptDisposition
  httpStatus : Option Nat
  errorClass : Option String
  responseExcerpt : Option String
  deriving DecidableEq

/-- What the unique index on attempts compares. -/
def Attempt.key (a : Attempt) : Nat × Nat × Nat := (a.deliveryId, a.recoveryGeneration, a.attemptNumber)

inductive EligibilityReason where
  | activeSuppression
  | evaluationPending
  | expected
  | eligible
  | noDestinations
  | backfillSuppressed
  deriving DecidableEq

inductive CompletionReason where
  | activeSuppression
  | expected
  | noDestinations
  | backfillSuppressed
  | deliveriesTerminal
  deriving DecidableEq

structure OutboxMessage where
  id : Nat
  source : Source
  createdAt : Int
  eligibilityReason : Option EligibilityReason
  materializedAt : Option Int
  processedAt : Option Int
  completionReason : Option CompletionReason

structure Destination where
  id : Nat
  enabled : Bool
  deliverBackfill : Bool
  revision : Nat

structure Db where
  nextId : Nat
  messages : List OutboxMessage
  destinations : List Destination
  deliveries : List Delivery
  attempts : List Attempt

def Db.empty : Db := ⟨0, [], [], [], []⟩

/-! ## Outbox messages -/

def insertFirstSeen (now : Int) (source : Source) (db : Db) : Db :=
  { db with
    nextId := db.nextId + 1
    messages := db.messages ++ [⟨db.nextId, source, now, none, none, none, none⟩] }

def OutboxMessage.before (a b : OutboxMessage) : Prop :=
  a.createdAt < b.createdAt ∨ a.createdAt = b.createdAt ∧ a.id ≤ b.id

instance : DecidableRel OutboxMessage.before := fun _ _ => inferInstanceAs (Decidable (_ ∨ _))

/-- The oldest unprocessed, unmaterialized messages that nobody holds. -/
def claimFirstSeen (limit : Nat) (locked : List Nat) (db : Db) : List OutboxMessage :=
  ((db.messages.filter fun m => m.processedAt.isNone && m.materializedAt.isNone && !locked.contains m.id).insertionSort
    OutboxMessage.before).take limit

def updateMessage (id : Nat) (f : OutboxMessage → OutboxMessage) (db : Db) : Db :=
  { db with messages := updateWhere (fun m => m.id = id) f db.messages }

def recordEligibility (id : Nat) (reason : EligibilityReason) : Db → Db :=
  updateMessage id fun m => { m with eligibilityReason := some reason }

/-- Marks a message materialized and processed. -/
def complete (now : Int) (id : Nat) (reason : CompletionReason) : Db → Db :=
  updateMessage id fun m =>
    { m with materializedAt := some now, processedAt := some now, completionReason := some reason }

def completeWithoutDestinations (now : Int) (id : Nat) : Db → Db :=
  updateMessage id fun m =>
    { m with
      materializedAt := some now
      processedAt := some now
      completionReason := some .noDestinations
      eligibilityReason := some .noDestinations }

def completeBackfillSuppressed (now : Int) (id : Nat) : Db → Db :=
  updateMessage id fun m =>
    { m with
      materializedAt := some now
      processedAt := some now
      completionReason := some .backfillSuppressed
      eligibilityReason := some .backfillSuppressed }

def markMaterialized (now : Int) (id : Nat) : Db → Db :=
  updateMessage id fun m => { m with materializedAt := some now }

def Db.deliveriesOf (db : Db) (messageId : Nat) : List Delivery :=
  db.deliveries.filter fun d => d.outboxMessageId = some messageId

/-- Whether none of the message's deliveries is pending or in flight. -/
def Db.deliveriesEnded (db : Db) (messageId : Nat) : Bool :=
  (db.deliveriesOf messageId).all fun d => d.state.isTerminal

/-- Marks the message processed because its deliveries ended. -/
def markProcessed (now : Int) (id : Nat) : Db → Db :=
  updateMessage id fun m => { m with processedAt := some now, completionReason := some .deliveriesTerminal }

/-- Whether the completion statement finds its row: the message is materialized and
none of its deliveries is left. -/
def completable (id : Nat) (db : Db) : Bool :=
  db.messages.any (fun m => m.id = id && m.materializedAt.isSome) && db.deliveriesEnded id

/-! ## Destinations -/

def insertDestination (deliverBackfill : Bool) (db : Db) : Db :=
  { db with
    nextId := db.nextId + 1
    destinations := db.destinations ++ [⟨db.nextId, true, deliverBackfill, 1⟩] }

/-- The enabled destinations by id. -/
def enabledForProject (destinations : List Destination) : List Destination :=
  (destinations.filter Destination.enabled).insertionSort fun a b => a.id ≤ b.id

structure WebhookDestinationUpdate where
  destinationId : Nat
  deliverBackfill : Option Bool
  enabled : Option Bool
  expectedRevision : Nat

def updateDestination (u : WebhookDestinationUpdate) (db : Db) : Db :=
  { db with
    destinations := updateWhere (fun w => w.id = u.destinationId && w.revision = u.expectedRevision)
      (fun w => { w with
        deliverBackfill := u.deliverBackfill.getD w.deliverBackfill
        enabled := u.enabled.getD w.enabled
        revision := w.revision + 1 }) db.destinations }

def disableDestination (id : Nat) (db : Db) : Db :=
  { db with
    destinations := updateWhere (fun w => w.id = id)
      (fun w => { w with enabled := false, revision := w.revision + 1 }) db.destinations }

def Db.destinationEnabled (db : Db) (id : Nat) : Bool :=
  db.destinations.any fun w => w.id = id && w.enabled

/-! ## Deliveries -/

structure NewOutboxDelivery where
  destinationId : Nat
  outboxMessageId : Nat
  source : Source
  state : DeliveryState
  maxAttempts : AttemptLimit
  lastErrorClass : Option String

/-- Creates the delivery of a message to a destination, once: a repeat affects no row. -/
def insertForOutbox (now : Int) (input : NewOutboxDelivery) (db : Db) : Bool × Db :=
  let taken := db.deliveries.any fun d =>
    d.outboxMessageId = some input.outboxMessageId && d.destinationId = input.destinationId
  if taken then (false, db)
  else
    (true, { db with
      nextId := db.nextId + 1
      deliveries := db.deliveries ++ [{
        id := db.nextId
        destinationId := input.destinationId
        outboxMessageId := some input.outboxMessageId
        source := input.source
        state := input.state
        availableAt := now
        recoveryGeneration := 0
        attemptCount := 0
        maxAttempts := input.maxAttempts
        lastErrorClass := input.lastErrorClass
        createdAt := now }] })

/-- What a worker keeps of a delivery it leased. -/
structure DeliveryClaim where
  id : Nat
  destinationId : Nat
  outboxMessageId : Option Nat
  recoveryGeneration : Nat
  attemptCount : Nat
  maxAttempts : AttemptLimit
  leaseOwner : Nat
  deriving DecidableEq

def Delivery.claim (leaseOwner : Nat) (d : Delivery) : DeliveryClaim :=
  ⟨d.id, d.destinationId, d.outboxMessageId, d.recoveryGeneration, d.attemptCount, d.maxAttempts, leaseOwner⟩

/-- A pending delivery whose time has come, or one in flight whose lease expired. -/
def Delivery.due (now : Int) (d : Delivery) : Bool :=
  match d.state with
  | .pending => d.availableAt ≤ now
  | .inFlight _ expiresAt => expiresAt ≤ now
  | .ended _ _ => false

def Delivery.before (a b : Delivery) : Prop :=
  a.availableAt < b.availableAt ∨ a.availableAt = b.availableAt ∧ a.createdAt ≤ b.createdAt

instance : DecidableRel Delivery.before := fun _ _ => inferInstanceAs (Decidable (_ ∨ _))

def claimCandidates (now : Int) (limit : Nat) (locked : List Nat) (db : Db) : List Nat :=
  (((db.deliveries.filter fun d => d.due now && !locked.contains d.id).insertionSort Delivery.before).take limit).map
    Delivery.id

def microsPerSecond : Int := 1000000

/-- Leases due deliveries to a new owner and returns those of enabled destinations. -/
def claimDue (now : Int) (limit leaseSeconds : Nat) (locked : List Nat) (db : Db) : List DeliveryClaim × Db :=
  let candidates := claimCandidates now limit locked db
  let leased := fun d : Delivery =>
    { d with state := .inFlight db.nextId (now + leaseSeconds * microsPerSecond) }
  let claimed := db.deliveries.filter fun d => candidates.contains d.id
  ((claimed.filter fun d => db.destinationEnabled d.destinationId).map (Delivery.claim db.nextId),
    { db with
      nextId := db.nextId + 1
      deliveries := updateWhere (fun d => candidates.contains d.id) leased db.deliveries })

/-- Creates a single-attempt test delivery already leased to a new owner. -/
def insertTest (now : Int) (destinationId leaseSeconds : Nat) (db : Db) : DeliveryClaim × Db :=
  let d : Delivery := {
    id := db.nextId
    destinationId
    outboxMessageId := none
    source := .test
    state := .inFlight (db.nextId + 1) (now + leaseSeconds * microsPerSecond)
    availableAt := now
    recoveryGeneration := 0
    attemptCount := 0
    maxAttempts := ⟨1, by decide, by decide⟩
    lastErrorClass := none
    createdAt := now }
  (d.claim (db.nextId + 1), { db with nextId := db.nextId + 2, deliveries := db.deliveries ++ [d] })

def attemptUniqueIndex : String := "notification_delivery_attempts_generation_attempt_uidx"

def Db.attemptTaken (db : Db) (a : Attempt) : Bool := (db.attempts.map Attempt.key).contains a.key

/-- Records an attempt. The column checks refuse a status outside the range of HTTP and a long
excerpt, the unique index a second attempt with the same delivery, generation and number. -/
def insertAttempt (a : Attempt) (db : Db) : Except SqlError Db :=
  if a.responseExcerpt.any hasNul then .error .invalidText
  else if a.httpStatus.any fun status => status < 100 || 599 < status then
    .error (.check "notification_delivery_attempts_http_status_check")
  else if a.responseExcerpt.any fun excerpt => 65536 < excerpt.length then
    .error (.check "notification_delivery_attempts_response_excerpt_check")
  else if db.attemptTaken a then .error (.unique attemptUniqueIndex)
  else .ok { db with attempts := db.attempts ++ [a] }

def Delivery.leasedTo (id owner : Nat) (d : Delivery) : Bool := d.id = id && d.state.leaseOwner = some owner

/-- Returns a delivery leased to the owner to pending. -/
def scheduleRetry (now : Int) (id leaseOwner attemptCount delaySeconds : Nat) (errorClass : Option String)
    (db : Db) : Db :=
  { db with
    deliveries := updateWhere (Delivery.leasedTo id leaseOwner)
      (fun d => { d with
        state := .pending
        attemptCount
        availableAt := now + delaySeconds * microsPerSecond
        lastErrorClass := errorClass }) db.deliveries }

/-- Ends a delivery leased to the owner. -/
def finish (now : Int) (id leaseOwner : Nat) (status : TerminalStatus) (attemptCount : Nat)
    (errorClass : Option String) (db : Db) : Db :=
  { db with
    deliveries := updateWhere (Delivery.leasedTo id leaseOwner)
      (fun d => { d with state := .ended status now, attemptCount, lastErrorClass := errorClass }) db.deliveries }

/-- Cancels a pending delivery; how many rows were affected. -/
def cancelPending (now : Int) (id : Nat) (db : Db) : Nat × Db :=
  let cond := fun d : Delivery => d.id = id && d.state = .pending
  ((db.deliveries.filter cond).length,
    { db with
      deliveries := updateWhere cond
        (fun d => { d with state := .ended .cancelled now, lastErrorClass := some "user_cancelled" }) db.deliveries })

/-- Cancels the destination's pending and in-flight deliveries. -/
def cancelForDestination (now : Int) (destinationId : Nat) (db : Db) : Db :=
  { db with
    deliveries := updateWhere (fun d => d.destinationId = destinationId && !d.state.isTerminal)
      (fun d => { d with state := .ended .cancelled now, lastErrorClass := some "destination_disabled" })
      db.deliveries }

/-- Returns a failed delivery to pending under a new generation; how many rows were affected. -/
def requeueFailed (now : Int) (id recoveryGeneration : Nat) (db : Db) : Nat × Db :=
  let cond := fun d : Delivery => d.id = id && d.state.isFailed
  ((db.deliveries.filter cond).length,
    { db with
      deliveries := updateWhere cond
        (fun d => { d with
          state := .pending
          recoveryGeneration
          attemptCount := 0
          availableAt := now
          lastErrorClass := none }) db.deliveries })

structure RetryFilter where
  destinationId : Option Nat
  failedBefore : Option Int
  failedAfter : Option Int
  errorClass : Option String

def RetryFilter.matches (f : RetryFilter) (d : Delivery) : Bool :=
  d.state.isFailed && f.destinationId.all (fun w => d.destinationId = w) &&
    f.failedBefore.all (fun t => d.state.terminalAt.any (· < t)) &&
    f.failedAfter.all (fun t => d.state.terminalAt.any (t ≤ ·)) &&
    f.errorClass.all (fun c => d.lastErrorClass = some c)

def Delivery.terminalBefore (a b : Delivery) : Prop :=
  a.state.terminalAt.getD 0 < b.state.terminalAt.getD 0 ∨ a.state.terminalAt.getD 0 = b.state.terminalAt.getD 0 ∧
    (a.createdAt < b.createdAt ∨ a.createdAt = b.createdAt ∧ a.id ≤ b.id)

instance : DecidableRel Delivery.terminalBefore := fun _ _ => inferInstanceAs (Decidable (_ ∨ _))

/-- The failed deliveries to enabled destinations that the filter selects. -/
def Db.retryable (db : Db) (f : RetryFilter) : List Delivery :=
  db.deliveries.filter fun d => f.matches d && db.destinationEnabled d.destinationId

/-- Selects failed deliveries with their generation, longest ended first. -/
def failedForRetry (f : RetryFilter) (limit : Nat) (locked : List Nat) (db : Db) : List (Nat × Nat) :=
  ((((db.retryable f).filter fun d => !locked.contains d.id).insertionSort Delivery.terminalBefore).take limit).map
    fun d => (d.id, d.recoveryGeneration)

def countFailedForRetry (f : RetryFilter) (db : Db) : Nat := (db.retryable f).length

structure LockedDelivery where
  state : DeliveryState
  destinationEnabled : Bool
  recoveryGeneration : Nat
  attemptCount : Nat
  totalAttemptCount : Nat

def lockForRecovery (id : Nat) (db : Db) : Option LockedDelivery := do
  let d ← get? Delivery.id id db.deliveries
  let w ← get? Destination.id d.destinationId db.destinations
  return {
    state := d.state
    destinationEnabled := w.enabled
    recoveryGeneration := d.recoveryGeneration
    attemptCount := d.attemptCount
    totalAttemptCount := (db.attempts.filter fun a => a.deliveryId = d.id).length }

end Okoscope.Server.NotificationTables
