import Okoscope.Protocol.Decode

/-!
# Event checks at ingestion

Two checks run on every decoded event before it is stored: DNS evidence, and
process and container lifecycle evidence.
-/
namespace Okoscope.Server.Ingestion

open Lib EventModel
open Protocol (exitedWaitStatus signaledWaitStatus)

inductive IngestionError where
  | invalidDns
  | invalidTermination
  deriving DecidableEq, Repr

def succeeds {ε α : Type} : Except ε α → Bool
  | .ok _ => true
  | .error _ => false

/-- The DNS evidence of the payload passes its own check. -/
def dnsValid (event : RuntimeEvent) : Bool :=
  match event.payload with
  | .networkDnsResponse response => succeeds response.validate
  | .networkConnect connect => connect.dnsContext.all fun context => succeeds context.validate
  | _ => true

def validateDnsEvent (event : RuntimeEvent) : Except IngestionError Unit :=
  if ¬ dnsValid event then .error .invalidDns else .ok ()

def terminationValid (value : ProcessExit) : Bool :=
  match value.termination with
  | .exited status => value.rawWaitStatus = exitedWaitStatus status
  | .signaled signal signalName coreDumpFlag =>
    succeeds (ProcessTermination.newSignaled signal signalName coreDumpFlag) &&
      value.rawWaitStatus = signaledWaitStatus signal coreDumpFlag

def correlationValid (value : ProcessExit) : Bool :=
  match value.correlation with
  | .observed generation _ executable =>
    generation > 0 && executable ≠ "" && Text.len executable ≤ maxTerminationTextBytes
  | .unresolved _ => true

/-- The process is the leader of its thread group. -/
def isLeader (process : ProcessIdentity) : Bool := process.pid > 0 && process.pid = process.tgid

def lifecycleValid (event : RuntimeEvent) : Bool :=
  match event.payload with
  | .processStart value =>
    succeeds value.validate && isLeader event.process && event.process.command ≠ "" &&
      Text.len event.process.command ≤ maxThreadNameBytes
  | .processExec value => value.generation.all fun generation => succeeds generation.validate
  | .threadActivityWindow value =>
    succeeds value.validate && value.process = event.process && value.id = event.id &&
      value.windowEndedAt ≤ event.observedAt
  | .processExit value =>
    value.source = .kernel && terminationValid value && correlationValid value &&
      (value.generation.all fun generation => succeeds generation.validate) &&
      (value.classification ≠ .leader || isLeader event.process)
  | .containerTermination value =>
    ContainerTermination.new value.runtimeContainerId value.reason value.exitCode value.startedAt
      value.finishedAt = .ok value
  | .containerRestart value =>
    ContainerRestart.new value.runtimeContainerId value.restartCount value.restartDelta
      value.previousTermination value.waitingReason = .ok value
  | _ => true

def validateTerminationEvent (event : RuntimeEvent) : Except IngestionError Unit :=
  if ¬ lifecycleValid event then .error .invalidTermination else .ok ()

theorem succeeds_iff {ε : Type} {x : Except ε Unit} : succeeds x ↔ x = .ok () := by
  cases x <;> simp [succeeds]

theorem validateDnsEvent_eq_ok {event : RuntimeEvent} : validateDnsEvent event = .ok () ↔ dnsValid event := by
  simp [validateDnsEvent]

theorem validateTerminationEvent_eq_ok {event : RuntimeEvent} :
    validateTerminationEvent event = .ok () ↔ lifecycleValid event := by
  simp [validateTerminationEvent]

end Okoscope.Server.Ingestion
