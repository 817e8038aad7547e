import Okoscope.Agent.Config
import Okoscope.Agent.Delivery

/-!
# Start of the agent

The components the agent builds from its configuration before the first record is
read. Their constructors assert bounds on what they are given. The limits of a
feature are checked while it is enabled and used whether it is or not, and the
limit on all events is not checked at all.
-/
namespace Okoscope.Agent.Startup

open Lib Lib.Outcome
open Emission Config Delivery

inductive Panic where
  | assertionFailed (condition : String)
  | channelPrecondition
  | intervalPrecondition
  deriving DecidableEq, Repr

/-- The most permits of a semaphore, hence the largest channel. -/
def maxPermits : Nat := (2 ^ 64 - 1) / 2 ^ 3

/-- What `mpsc::channel` documents: it panics on a buffer of zero and on one above the permits of a semaphore. -/
def ChannelPrecondition (buffer : Nat) : Prop := 0 < buffer ∧ buffer ≤ maxPermits

/-- What `time::interval` documents: it panics on a period, here in nanoseconds, of zero. -/
def IntervalPrecondition (period : Nat) : Prop := 0 < period

instance (buffer : Nat) : Decidable (ChannelPrecondition buffer) := inferInstanceAs (Decidable (_ ∧ _))
instance (period : Nat) : Decidable (IntervalPrecondition period) := inferInstanceAs (Decidable (0 < period))

/-- Calls a constructor of the runtime library, of which only the documented precondition is known. -/
def meets (precondition : Prop) [Decidable precondition] (panic : Panic) : Except Panic Unit :=
  if precondition then .ok () else .error panic

def fromMillis (millis : Nat) : Nat := millis * 1000000
def fromSecs (secs : UInt64) : Nat := secs.toNat * 1000000000

def rateLimiter (maxEventsPerSecond : UInt32) (now : Nat) : Except Panic EventRateLimiter :=
  okOr (EventRateLimiter.new maxEventsPerSecond now) (.assertionFailed "max_events_per_second > 0")

/-- The channel and the buffer of one application stream. -/
def startStream (safety : SafetyLimits) : Except Panic EventBuffer := do
  meets (ChannelPrecondition safety.queueCapacity) .channelPrecondition
  okOr (EventBuffer.new safety.queueCapacity safety.batchSize)
    (.assertionFailed "capacity > 0 && batch_size > 0 && batch_size <= capacity")

structure Started where
  rateLimiter : EventRateLimiter
  dnsRateLimiter : EventRateLimiter
  inboundRateLimiter : EventRateLimiter
  streams : List (Uuid × EventBuffer)

/-- The agent starts one stream a credential, here by its route, and then its timers. -/
def start (config : AgentConfig) (routes : List Uuid) (now : Nat) : Except Panic Started := do
  let network := config.observation.network
  let limiter ← rateLimiter config.safety.maxEventsPerSecond now
  let dnsLimiter ← rateLimiter network.dns.maxEventsPerSecond now
  let inboundLimiter ← rateLimiter network.maxAcceptedEventsPerSecond now
  let streams ← routes.mapM fun route => (startStream config.safety).map (route, ·)
  meets (IntervalPrecondition (fromMillis 10)) .intervalPrecondition
  meets (IntervalPrecondition (fromSecs 15)) .intervalPrecondition
  meets (IntervalPrecondition (fromSecs config.observation.resources.sampleIntervalSeconds)) .intervalPrecondition
  return ⟨limiter, dnsLimiter, inboundLimiter, streams⟩

/-! ## When each constructor succeeds -/

theorem rateLimiter_ok_iff {rate : UInt32} {now : Nat} : (∃ l, rateLimiter rate now = .ok l) ↔ 0 < rate := by
  simp only [rateLimiter, okOr_eq_ok, EventRateLimiter.new]
  by_cases h : rate > 0
  · simp [h]
  · simp [h]

theorem meets_eq_ok {precondition : Prop} [Decidable precondition] {panic : Panic} {u : Unit} :
    meets precondition panic = .ok u ↔ precondition := by
  unfold meets
  split <;> simp [*]

variable {safety : SafetyLimits}

theorem startStream_ok (h : ¬ safety.outOfBounds) : ∃ buffer, startStream safety = .ok buffer := by
  simp only [SafetyLimits.outOfBounds, maxQueueCapacity, not_or] at h
  obtain ⟨hcapacity, hbatch, hle, -, hlarge, -⟩ := h
  have hchannel : ChannelPrecondition safety.queueCapacity := by
    unfold ChannelPrecondition maxPermits
    omega
  have hbounds : safety.queueCapacity > 0 ∧ safety.batchSize > 0 ∧ safety.batchSize ≤ safety.queueCapacity := by
    omega
  obtain ⟨buffer, hbuffer⟩ : ∃ buffer, EventBuffer.new safety.queueCapacity safety.batchSize = some buffer := by
    rw [EventBuffer.new, dif_pos hbounds]
    exact ⟨_, rfl⟩
  exact ⟨buffer, bind_unit_eq_ok.mpr ⟨meets_eq_ok.mpr hchannel, okOr_eq_ok.mpr hbuffer⟩⟩

theorem startStreams_ok (h : ¬ safety.outOfBounds) (routes : List Uuid) :
    ∃ streams, (routes.mapM fun route => (startStream safety).map (route, ·)) = .ok streams := by
  obtain ⟨buffer, hbuffer⟩ := startStream_ok h
  refine ⟨routes.map (·, buffer), mapM_eq_ok.mpr ?_⟩
  rw [List.forall₂_map_right_iff, List.forall₂_same]
  intro route _
  rw [hbuffer]
  rfl

/-! ## Starting on an accepted configuration -/

/-- The limits the components are built with, whether or not their feature is enabled. -/
structure LimitsPositive (config : AgentConfig) : Prop where
  events : 0 < config.safety.maxEventsPerSecond
  dns : 0 < config.observation.network.dns.maxEventsPerSecond
  accepted : 0 < config.observation.network.maxAcceptedEventsPerSecond
  sampleInterval : 0 < config.observation.resources.sampleIntervalSeconds

/-- An accepted configuration starts without a failed assertion exactly when these limits are positive. -/
theorem accepted_starts_iff (config : AgentConfig) (architecture : Architecture) (routes : List Uuid) (now : Nat)
    (h : config.validate architecture = .ok ()) :
    (∃ started, start config routes now = .ok started) ↔ LimitsPositive config := by
  have hstreams := startStreams_ok (AgentConfig.withinBounds h).safety routes
  have hpoll : IntervalPrecondition (fromMillis 10) := by decide
  have hheartbeat : IntervalPrecondition (fromSecs 15) := by decide
  have hsample : IntervalPrecondition (fromSecs config.observation.resources.sampleIntervalSeconds) ↔
      0 < config.observation.resources.sampleIntervalSeconds := by
    rw [IntervalPrecondition, fromSecs, UInt64.lt_iff_toNat_lt, UInt64.toNat_zero]
    omega
  simp only [start, exists_bind_ok, exists_pure_ok, and_true, exists_and_right, rateLimiter_ok_iff, meets_eq_ok, exists_const,
    hpoll, hheartbeat, hsample, hstreams, true_and]
  constructor
  · intro hall
    obtain ⟨hevents, hdns, haccepted, hsamples⟩ := hall
    exact ⟨hevents, hdns, haccepted, hsamples⟩
  · intro hlimits
    exact ⟨hlimits.events, hlimits.dns, hlimits.accepted, hlimits.sampleInterval⟩

/-- Observes executions only; its rate of events is as given. -/
def execConfig (maxEventsPerSecond : UInt32) : AgentConfig where
  apiVersion := Config.apiVersion
  kind := Config.kind
  server := { endpoint := "https://server:443", developmentPlaintext := false }
  workloads := [{
    applicationCredentialFile := "/secrets/payment-api"
    routeId := Uuid.nil
    «namespace» := "production"
    kind := "Deployment"
    name := "payment-api"
    release := none }]
  observation := { processExec := true }
  safety := { maxEventsPerSecond }

theorem accepted_starts_default : (execConfig 10000).validate .x86_64 = .ok () ∧
      ∃ started, start (execConfig 10000) [Uuid.nil] 0 = .ok started := by
  have hvalid : (execConfig 10000).validate .x86_64 = .ok () := by decide +kernel
  have hlimits : LimitsPositive (execConfig 10000) := ⟨by decide, by decide, by decide, by decide⟩
  exact ⟨hvalid, (accepted_starts_iff (execConfig 10000) .x86_64 [Uuid.nil] 0 hvalid).mpr hlimits⟩

/-- A rate of zero is accepted, and the first limiter refuses it. -/
theorem accepted_zero_rate_panics : (execConfig 0).validate .x86_64 = .ok () ∧
      start (execConfig 0) [Uuid.nil] 0 = .error (.assertionFailed "max_events_per_second > 0") := by
  have hvalid : (execConfig 0).validate .x86_64 = .ok () := by decide +kernel
  exact ⟨hvalid, rfl⟩

end Okoscope.Agent.Startup
