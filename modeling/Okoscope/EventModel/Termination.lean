import Okoscope.EventModel.Lifecycle

/-!
# Process termination and container lifecycle evidence

Closed models of how a process or a container ended. The constructors bound
every text and keep sources, signals, timestamps and restart counts consistent.
-/
namespace Okoscope.EventModel

open Lib Lib.Outcome

def maxTerminationTextBytes : Nat := 256
def maxLinuxSignal : UInt8 := 64

inductive EvidenceSource where
  | kernel
  | kubernetes
  | derived
  deriving DecidableEq, Repr

inductive ProcessTermination where
  | exited (status : UInt8)
  | signaled (signal : UInt8) (signalName : String) (coreDumpFlag : Bool)
  deriving DecidableEq

inductive UnresolvedGenerationReason where
  | beforeObservation
  | evicted
  | generationMismatch
  | containerLifetimeMismatch
  deriving DecidableEq, Repr

inductive GenerationCorrelation where
  | observed (generation : UInt64) (execEventId : Uuid) (executable : String)
  | unresolved (reason : UnresolvedGenerationReason)
  deriving DecidableEq

inductive ProcessExitClassification where
  | leader
  | legacyUnclassified
  deriving DecidableEq, Repr

structure ProcessExit where
  source : EvidenceSource
  classification : ProcessExitClassification
  rawWaitStatus : Int32
  termination : ProcessTermination
  correlation : GenerationCorrelation
  generation : Option ProcessGenerationIdentity
  deriving DecidableEq

structure ContainerTermination where
  source : EvidenceSource
  runtimeContainerId : String
  reason : String
  exitCode : Int32
  startedAt : Option DateTime
  finishedAt : Option DateTime
  deriving DecidableEq

structure ContainerRestart where
  source : EvidenceSource
  runtimeContainerId : String
  restartCount : UInt32
  restartDelta : UInt32
  observationGap : Bool
  previousTermination : Option ContainerTermination
  waitingReason : Option String
  deriving DecidableEq

inductive TerminationValidationError where
  | invalidSource
  | invalidSignal
  | invalidText
  | invalidContainerExitCode
  | invalidTimestamps
  | invalidRestartDelta
  | invalidRestartLoop
  deriving DecidableEq, Repr

/-- Non-empty, at most 256 bytes, no NUL. -/
def validText (value : String) : Bool :=
  value ≠ "" && Text.len value ≤ maxTerminationTextBytes && !Text.contains value '\x00'

/-- `SIG` followed by upper-case letters, digits and plus signs. -/
def validSignalName (value : String) : Bool :=
  validText value && "SIG".toList.isPrefixOf value.toList &&
    (value.toList.drop 3).all fun c => Text.isAsciiUppercase c || Text.isAsciiDigit c || c = '+'

/-- The checked constructor of `ProcessTermination.signaled`. -/
def ProcessTermination.newSignaled (signal : UInt8) (signalName : String) (coreDumpFlag : Bool) :
    Except TerminationValidationError ProcessTermination :=
  if ¬ (1 ≤ signal ∧ signal ≤ maxLinuxSignal) ∨ ¬ validSignalName signalName then .error .invalidSignal
  else .ok (.signaled signal signalName coreDumpFlag)

/-- The checked constructor of `GenerationCorrelation.observed`. -/
def GenerationCorrelation.newObserved (generation : UInt64) (execEventId : Uuid) (executable : String) :
    Except TerminationValidationError GenerationCorrelation :=
  if generation = 0 ∨ ¬ validText executable then .error .invalidText
  else .ok (.observed generation execEventId executable)

namespace ProcessExit

def new (rawWaitStatus : Int32) (termination : ProcessTermination) (correlation : GenerationCorrelation) :
    ProcessExit where
  source := .kernel
  classification := .legacyUnclassified
  rawWaitStatus := rawWaitStatus
  termination := termination
  correlation := correlation
  generation := none

def classifiedLeader (rawWaitStatus : Int32) (termination : ProcessTermination)
    (correlation : GenerationCorrelation) : ProcessExit :=
  { new rawWaitStatus termination correlation with classification := .leader }

def withGeneration (e : ProcessExit) (generation : ProcessGenerationIdentity) : ProcessExit :=
  { e with generation := some generation }

end ProcessExit

/-- Both instants are known and the end precedes the start. -/
def endsBeforeStart : Option DateTime → Option DateTime → Bool
  | some start, some finish => finish < start
  | _, _ => false

def ContainerTermination.new (runtimeContainerId reason : String) (exitCode : Int32)
    (startedAt finishedAt : Option DateTime) : Except TerminationValidationError ContainerTermination :=
  if ¬ validText runtimeContainerId ∨ ¬ validText reason then .error .invalidText
  else if exitCode < 0 then .error .invalidContainerExitCode
  else if endsBeforeStart startedAt finishedAt then .error .invalidTimestamps
  else .ok { source := .kubernetes, runtimeContainerId, reason, exitCode, startedAt, finishedAt }

def ContainerRestart.new (runtimeContainerId : String) (restartCount restartDelta : UInt32)
    (previousTermination : Option ContainerTermination) (waitingReason : Option String) :
    Except TerminationValidationError ContainerRestart :=
  if ¬ validText runtimeContainerId ∨ waitingReason.any (fun value => !validText value) then .error .invalidText
  else if restartDelta = 0 ∨ restartDelta > restartCount then .error .invalidRestartDelta
  else if previousTermination.any (fun value => value.source ≠ .kubernetes) then .error .invalidSource
  else .ok {
    source := .kubernetes
    runtimeContainerId
    restartCount
    restartDelta
    observationGap := restartDelta > 1
    previousTermination
    waitingReason }

theorem ProcessTermination.newSignaled_eq_ok {signal : UInt8} {name : String} {core : Bool} {t : ProcessTermination} :
    newSignaled signal name core = .ok t ↔
      (1 ≤ signal ∧ signal ≤ maxLinuxSignal) ∧ validSignalName name ∧ t = .signaled signal name core := by
  simp [newSignaled, ite_error_eq_ok, not_or, and_assoc, eq_comm (a := t)]

theorem GenerationCorrelation.newObserved_eq_ok {generation : UInt64} {id : Uuid} {executable : String}
    {c : GenerationCorrelation} : newObserved generation id executable = .ok c ↔
      generation ≠ 0 ∧ validText executable ∧ c = .observed generation id executable := by
  simp [newObserved, ite_error_eq_ok, not_or, and_assoc, eq_comm (a := c)]

/-- The checks of the container-termination constructor. -/
structure ContainerTermination.Checked (id reason : String) (exitCode : Int32)
    (startedAt finishedAt : Option DateTime) : Prop where
  container : validText id
  reason : validText reason
  exitCode : ¬ exitCode < 0
  ordered : endsBeforeStart startedAt finishedAt = false

/-- The constructor builds what it has checked, from Kubernetes. -/
theorem ContainerTermination.new_eq_ok {id reason : String} {exitCode : Int32}
    {startedAt finishedAt : Option DateTime} {t : ContainerTermination} :
    new id reason exitCode startedAt finishedAt = .ok t ↔ Checked id reason exitCode startedAt finishedAt ∧
      t = ⟨.kubernetes, id, reason, exitCode, startedAt, finishedAt⟩ := by
  simp only [new, ite_error_eq_ok, not_or, not_not, ok_eq_ok]
  constructor
  · rintro ⟨⟨hid, hreason⟩, hcode, hord, rfl⟩
    exact ⟨⟨hid, hreason, hcode, Bool.eq_false_iff.mpr hord⟩, rfl⟩
  · rintro ⟨⟨hid, hreason, hcode, hord⟩, rfl⟩
    exact ⟨⟨hid, hreason⟩, hcode, Bool.eq_false_iff.mp hord, rfl⟩

/-- The checks of the container-restart constructor. -/
structure ContainerRestart.Checked (id : String) (restartCount restartDelta : UInt32)
    (previous : Option ContainerTermination) (waitingReason : Option String) : Prop where
  container : validText id
  waiting : ∀ value, waitingReason = some value → validText value
  positive : restartDelta ≠ 0
  bounded : restartDelta ≤ restartCount
  previousSource : ∀ t, previous = some t → t.source = .kubernetes

/-- A restart by more than one has a gap. -/
theorem ContainerRestart.new_eq_ok {id : String} {restartCount restartDelta : UInt32}
    {previous : Option ContainerTermination} {waitingReason : Option String} {r : ContainerRestart} :
    new id restartCount restartDelta previous waitingReason = .ok r ↔
      Checked id restartCount restartDelta previous waitingReason ∧
        r = ⟨.kubernetes, id, restartCount, restartDelta, decide (restartDelta > 1), previous, waitingReason⟩ := by
  simp only [new, ite_error_eq_ok, not_or, not_not, Option.any_eq_true, not_exists, not_and, ok_eq_ok,
    gt_iff_lt, UInt32.not_lt, Bool.not_eq_true', Bool.not_eq_false, decide_eq_true_eq]
  constructor
  · rintro ⟨⟨hid, hwait⟩, ⟨hpos, hle⟩, hprev, rfl⟩
    exact ⟨⟨hid, hwait, hpos, hle, hprev⟩, rfl⟩
  · rintro ⟨⟨hid, hwait, hpos, hle, hprev⟩, rfl⟩
    exact ⟨⟨hid, hwait⟩, ⟨hpos, hle⟩, hprev, rfl⟩

end Okoscope.EventModel
