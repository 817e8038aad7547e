import Okoscope.Server.NotificationTables

/-!
# The notification worker

Turning outbox messages into deliveries, classifying what a webhook answered and
recording attempts. A transaction reads what is committed at each of its
statements, so recording an attempt is taken in two parts: its statements, the
last of which decides whether the outbox message is complete, and its commit.
-/
namespace Okoscope.Server.NotificationWorker

open Lib.Word NotificationTables
open Deployments (SqlError)

/-- The settings of a worker that its configuration check let through. -/
structure NotificationConfig where
  claimSize : Nat
  leaseSeconds : Nat
  maxAttempts : Nat
  backoffMinSeconds : Nat
  backoffMaxSeconds : Nat
  claimSize_range : 1 ≤ claimSize ∧ claimSize ≤ 1000
  leaseSeconds_range : 5 ≤ leaseSeconds ∧ leaseSeconds ≤ 3600
  maxAttempts_range : 1 ≤ maxAttempts ∧ maxAttempts ≤ 100
  backoffMin_range : 1 ≤ backoffMinSeconds ∧ backoffMinSeconds ≤ 86400
  backoffMax_range : 1 ≤ backoffMaxSeconds ∧ backoffMaxSeconds ≤ 604800
  backoff_ordered : backoffMinSeconds ≤ backoffMaxSeconds

def NotificationConfig.attemptLimit (c : NotificationConfig) : AttemptLimit where
  value := c.maxAttempts
  pos := c.maxAttempts_range.1
  le_i32Max := c.maxAttempts_range.2.trans (by decide)

/-! ## Materialization -/

/-- Creates the deliveries of a message, and how many of them are pending. -/
def materializeDeliveries (now : Int) (config : NotificationConfig) (message : OutboxMessage) :
    List Destination → Db → Nat × Db
  | [], db => (0, db)
  | destination :: rest, db =>
    let suppressed := message.source = .backfill && !destination.deliverBackfill
    let inserted := insertForOutbox now {
      destinationId := destination.id
      outboxMessageId := message.id
      source := message.source
      state := if suppressed then .ended .suppressed now else .pending
      maxAttempts := config.attemptLimit
      lastErrorClass := if suppressed then some "backfill_suppressed" else none } db
    let later := materializeDeliveries now config message rest inserted.2
    (later.1 + (if inserted.1 && !suppressed then 1 else 0), later.2)

/-- Materializes one message under the eligibility found for it and the destinations read. -/
def materializeMessage (now : Int) (config : NotificationConfig) (reason : EligibilityReason)
    (destinations : List Destination) (db : Db) (message : OutboxMessage) : Db :=
  let db := recordEligibility message.id reason db
  if reason = .expected then complete now message.id .expected db
  else if reason = .activeSuppression then complete now message.id .activeSuppression db
  else
    let targets := enabledForProject destinations
    if targets.isEmpty then completeWithoutDestinations now message.id db
    else
      let created := materializeDeliveries now config message targets db
      if created.1 = 0 then completeBackfillSuppressed now message.id created.2
      else markMaterialized now message.id created.2

/-- One transaction over the oldest waiting messages. The eligibility of each message and the
destinations are what the transaction's own statements read of them. -/
def materializeOnce (now : Int) (config : NotificationConfig) (locked : List Nat)
    (eligibility : Nat → EligibilityReason) (destinations : List Destination) (db : Db) : Db :=
  (claimFirstSeen config.claimSize locked db).foldl
    (fun db message => materializeMessage now config (eligibility message.id) destinations db message) db

/-! ## Attempts -/

inductive WebhookError where
  | invalidUrl
  | unsafeAddress
  | resolution
  | client
  | request (isTimeout : Bool)
  | response
  | serialization
  | signingKey
  deriving DecidableEq

structure WebhookResponse where
  status : Nat
  responseExcerpt : String
  durationMs : Nat
  retryAfterSeconds : Option Nat

structure AttemptResult where
  disposition : AttemptDisposition
  httpStatus : Option Nat
  errorClass : Option String
  responseExcerpt : Option String
  retryAfterSeconds : Option Nat
  durationMs : Nat
  deriving DecidableEq

def isSuccess (status : Nat) : Bool := 200 ≤ status && status < 300

def retryableStatus (status : Nat) : Bool := (500 ≤ status && status < 600) || [408, 425, 429].contains status

example : [408, 425, 429, 500, 503].all retryableStatus ∧ [301, 400, 401, 404, 422].all (fun s => !retryableStatus s) := by
  decide

def classifyError : WebhookError → AttemptDisposition × String
  | .request true => (.retryable, "timeout")
  | .request false | .resolution | .response => (.retryable, "network")
  | .unsafeAddress | .invalidUrl => (.failed, "unsafe_target")
  | .client => (.retryable, "client")
  | .serialization | .signingKey => (.failed, "invalid_payload")

def classify (elapsedMs : Nat) : Except WebhookError WebhookResponse → AttemptResult
  | .ok response =>
    if isSuccess response.status then
      ⟨.succeeded, some response.status, none, some response.responseExcerpt, none, response.durationMs⟩
    else
      let retryable := retryableStatus response.status
      { disposition := if retryable then .retryable else .failed
        httpStatus := some response.status
        errorClass := some (if retryable then "http_retryable" else "http_rejected")
        responseExcerpt := some response.responseExcerpt
        retryAfterSeconds := response.retryAfterSeconds
        durationMs := response.durationMs }
  | .error e => ⟨(classifyError e).1, none, some (classifyError e).2, none, none, elapsedMs⟩

/-- What comes of sending: the secret or the payload may be unreadable. -/
inductive SendOutcome where
  | secretUnreadable
  | payloadInvalid
  | sent (result : Except WebhookError WebhookResponse)

def AttemptResult.failed (errorClass : String) (elapsedMs : Nat) : AttemptResult :=
  ⟨.failed, none, some errorClass, none, none, elapsedMs⟩

def attemptResult (elapsedMs : Nat) : SendOutcome → AttemptResult
  | .secretUnreadable => .failed "secret_decryption" elapsedMs
  | .payloadInvalid => .failed "invalid_payload" elapsedMs
  | .sent result => classify elapsedMs result

/-- The wait before the next attempt. The random share of the jitter is given by a draw. -/
def retryDelay (config : NotificationConfig) (attemptNumber : Nat) (retryAfter : Option Nat) (draw : Nat) : Nat :=
  let exponent := min (attemptNumber - 1) 31
  let base := min (config.backoffMinSeconds * 2 ^ exponent) config.backoffMaxSeconds
  let jitter := draw % (base / 4 + 1)
  match retryAfter with
  | none => min (base + jitter) config.backoffMaxSeconds
  | some seconds => max (min seconds config.backoffMaxSeconds) config.backoffMinSeconds

/-- A transaction that records an attempt, after its statements and before its commit. -/
structure OpenAttempt where
  claim : DeliveryClaim
  attempt : Attempt
  delaySeconds : Nat
  completes : Bool
  deriving DecidableEq

/-- A retryable answer to the last attempt is a failure. -/
def disposition (claim : DeliveryClaim) (result : AttemptResult) : AttemptDisposition :=
  if result.disposition = .retryable ∧ claim.maxAttempts.value ≤ saturatingSuccI32 claim.attemptCount then .failed
  else result.disposition

def attemptOf (now startedAt : Int) (claim : DeliveryClaim) (result : AttemptResult) : Attempt where
  deliveryId := claim.id
  recoveryGeneration := claim.recoveryGeneration
  attemptNumber := saturatingSuccI32 claim.attemptCount
  startedAt := startedAt
  finishedAt := now
  durationMs := result.durationMs
  outcome := disposition claim result
  httpStatus := result.httpStatus
  errorClass := result.errorClass
  responseExcerpt := result.responseExcerpt

/-- What the transaction writes to its delivery, if the claim still holds the lease. -/
def writeDelivery (claim : DeliveryClaim) (a : Attempt) (delaySeconds : Nat) : Db → Db :=
  match a.outcome with
  | .succeeded => finish a.finishedAt claim.id claim.leaseOwner .succeeded a.attemptNumber none
  | .failed => finish a.finishedAt claim.id claim.leaseOwner .failed a.attemptNumber a.errorClass
  | .retryable =>
    scheduleRetry a.finishedAt claim.id claim.leaseOwner a.attemptNumber delaySeconds a.errorClass

/-- The statements of the transaction, on what is committed when they run. -/
def attemptStatements (now : Int) (config : NotificationConfig) (claim : DeliveryClaim) (startedAt : Int)
    (result : AttemptResult) (draw : Nat) (db : Db) : Except SqlError OpenAttempt := do
  let attempt := attemptOf now startedAt claim result
  let delaySeconds := retryDelay config attempt.attemptNumber result.retryAfterSeconds draw
  let inserted ← insertAttempt attempt db
  let written := writeDelivery claim attempt delaySeconds inserted
  return ⟨claim, attempt, delaySeconds, claim.outboxMessageId.any fun id => completable id written⟩

/-- The commit makes the transaction's writes visible. -/
def OpenAttempt.commit (o : OpenAttempt) (db : Db) : Db :=
  let written := writeDelivery o.claim o.attempt o.delaySeconds { db with attempts := db.attempts ++ [o.attempt] }
  match o.claim.outboxMessageId with
  | some id => if o.completes then markProcessed o.attempt.finishedAt id written else written
  | none => written

end Okoscope.Server.NotificationWorker
