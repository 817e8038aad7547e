import Okoscope.EventModel.Release
import Okoscope.Lib.Uuid

/-!
# Resource aggregates

What the containers of a workload used in an interval: counters and sums of samples, each
of them missing if its source was not available.
-/
namespace Okoscope.EventModel

open Lib Lib.Outcome

def resourceSchemaVersion : UInt16 := 1
def maxResourceBatchAggregates : Nat := 256
def maxResourceIntervalSeconds : Int := 300

structure ResourceValues where
  cpuUsageUsec : Option UInt64 := none
  cpuNrPeriods : Option UInt64 := none
  cpuNrThrottled : Option UInt64 := none
  cpuThrottledUsec : Option UInt64 := none
  cpuQuotaUsec : Option UInt64 := none
  cpuPeriodUsec : Option UInt64 := none
  memoryCurrentSumBytes : Option UInt64 := none
  memoryCurrentMinBytes : Option UInt64 := none
  memoryCurrentMaxBytes : Option UInt64 := none
  memoryAnonSumBytes : Option UInt64 := none
  memoryFileSumBytes : Option UInt64 := none
  memoryLimitBytes : Option UInt64 := none
  memoryHighEvents : Option UInt64 := none
  memoryMaxEvents : Option UInt64 := none
  memoryOomEvents : Option UInt64 := none
  memoryOomKillEvents : Option UInt64 := none
  cpuPsiSomeUsec : Option UInt64 := none
  cpuPsiFullUsec : Option UInt64 := none
  memoryPsiSomeUsec : Option UInt64 := none
  memoryPsiFullUsec : Option UInt64 := none
  ioPsiSomeUsec : Option UInt64 := none
  ioPsiFullUsec : Option UInt64 := none
  ioReadBytes : Option UInt64 := none
  ioWriteBytes : Option UInt64 := none
  ioReadOperations : Option UInt64 := none
  ioWriteOperations : Option UInt64 := none
  pidsCurrentSum : Option UInt64 := none
  pidsCurrentMax : Option UInt64 := none
  pidsLimit : Option UInt64 := none
  pidsMaxEvents : Option UInt64 := none

structure ResourceAggregate where
  id : Uuid
  schemaVersion : UInt16
  intervalStart : DateTime
  intervalEnd : DateTime
  coveredUsec : UInt64
  sampleCount : UInt32
  contributingContainers : UInt32
  readyContainers : UInt32
  «namespace» : String
  workloadUid : String
  workloadKind : String
  workloadName : String
  containerName : String
  nodeName : String
  releaseIdentity : Option ReleaseIdentity
  unavailableSources : UInt64
  values : ResourceValues

inductive ResourceValidationError where
  | schemaVersion
  | interval
  | coverage
  | empty
  | identity (field : String)
  | cpuLimit
  deriving DecidableEq, Repr

def validateIdentity (field value : String) (max : Nat) : Except ResourceValidationError Unit :=
  if value = "" ∨ max < Text.len value ∨ value.toList.any Text.isControl then .error (.identity field) else .ok ()

variable {error : ResourceValidationError} {value : ResourceAggregate}

namespace ResourceAggregate

/-- The length of the interval in whole seconds and in whole microseconds; fractions are cut off. -/
def durationSeconds (value : ResourceAggregate) : Int := (value.intervalEnd - value.intervalStart).tdiv 1000000000
def durationMicros (value : ResourceAggregate) : Int := (value.intervalEnd - value.intervalStart).tdiv 1000

def validateIdentities (value : ResourceAggregate) : Except ResourceValidationError Unit := do
  validateIdentity "namespace" value.namespace 253
  validateIdentity "workload_uid" value.workloadUid 253
  validateIdentity "workload_kind" value.workloadKind 64
  validateIdentity "workload_name" value.workloadName 253
  validateIdentity "container_name" value.containerName 256
  validateIdentity "node_name" value.nodeName 253

/-- An interval of at most five minutes, so its product with a count of containers is below the largest
word. -/
def validate (value : ResourceAggregate) : Except ResourceValidationError Unit :=
  if value.schemaVersion ≠ resourceSchemaVersion then .error .schemaVersion
  else if value.durationSeconds ≤ 0 ∨ maxResourceIntervalSeconds < value.durationSeconds then .error .interval
  else if value.durationMicros * value.contributingContainers.toNat < value.coveredUsec.toNat then .error .coverage
  else if value.sampleCount = 0 ∨ value.contributingContainers = 0 then .error .empty
  else if value.contributingContainers < value.readyContainers then .error .coverage
  else do
    value.validateIdentities
    if value.values.cpuQuotaUsec.isSome ≠ value.values.cpuPeriodUsec.isSome then .error .cpuLimit else .ok ()

theorem validateIdentity_ne_error {field text : String} {max : Nat} (h : ∀ field, error ≠ .identity field) :
    validateIdentity field text max ≠ .error error :=
  ite_error_ne_error (fun _ => (h field).symm) fun _ => by simp

theorem validateIdentities_ne_error (h : ∀ field, error ≠ .identity field) :
    value.validateIdentities ≠ .error error := by
  have hidentity : ∀ field text max, validateIdentity field text max ≠ .error error :=
    fun _ _ _ => validateIdentity_ne_error h
  refine bind_ne_error (hidentity _ _ _) fun _ => bind_ne_error (hidentity _ _ _) fun _ => ?_
  refine bind_ne_error (hidentity _ _ _) fun _ => bind_ne_error (hidentity _ _ _) fun _ => ?_
  exact bind_ne_error (hidentity _ _ _) fun _ => hidentity _ _ _

/-- The limit is refused only if one of quota and period stands alone. -/
theorem validate_ne_cpuLimit (h : value.values.cpuQuotaUsec.isSome = value.values.cpuPeriodUsec.isSome) :
    value.validate ≠ .error .cpuLimit := by
  refine ite_error_ne_error (fun _ => by simp) fun _ => ite_error_ne_error (fun _ => by simp) fun _ => ?_
  refine ite_error_ne_error (fun _ => by simp) fun _ => ite_error_ne_error (fun _ => by simp) fun _ => ?_
  refine ite_error_ne_error (fun _ => by simp) fun _ => ?_
  refine bind_ne_error (validateIdentities_ne_error fun _ => by simp) fun _ => ?_
  exact ite_error_ne_error (fun hne => absurd h hne) fun _ => by simp

end ResourceAggregate

end Okoscope.EventModel
