import Okoscope.EventModel.Event
import Okoscope.Protocol.V1

/-!
# Decoding wire messages

The fallible direction of the codec: every identifier is parsed, every
enumeration is closed, and the constructors and checks of the event model run on
what arrived. Project and application are not part of the wire and decode to the
nil identifier.
-/
namespace Okoscope.Protocol

open Lib Lib.Bytes Lib.Outcome EventModel
open WireEnum

inductive ProtocolError where
  | unsupportedProtocol (version : UInt32)
  | unsupportedEventSchema (version : UInt32)
  | missing (field : String)
  | invalidUuid (field value : String)
  | invalidTimestamp
  | invalidNetwork (field : String)
  | invalidDns (field : String)
  | invalidFile (field : String)
  | invalidTermination (field : String)
  | invalidReleaseIdentity
  deriving DecidableEq, Repr

/-- The text has a character that is not whitespace. -/
def require (field value : String) : Except ProtocolError Unit :=
  if Text.trim value = "" then .error (.missing field) else .ok ()

/-- The text is trimmed, non-empty and at most `max` bytes. -/
def requireBounded (field value : String) (max : Nat) : Except ProtocolError Unit :=
  if value = "" ∨ max < Text.len value ∨ Text.trim value ≠ value then .error (.missing field) else .ok ()

theorem require_eq_ok {field value : String} : require field value = .ok () ↔ ¬ Text.Blank Text.isWhitespace value := by
  simp only [require, ite_error_eq_ok, Text.trim_eq_empty_iff, and_true]

/-- A bounded text is trimmed, not empty and not too long. -/
theorem requireBounded_eq_ok {field value : String} {max : Nat} :
    requireBounded field value max = .ok () ↔ Text.trim value = value ∧ value ≠ "" ∧ Text.len value ≤ max := by
  unfold requireBounded
  rw [ite_error_eq_ok]
  simp only [not_or, not_not, not_lt, and_true]
  tauto

def parseUuid (field value : String) : Except ProtocolError Uuid :=
  okOr (Uuid.parseStr value) (.invalidUuid field value)

def timestamp (value : Int64) : Except ProtocolError DateTime :=
  okOr (DateTime.fromUnixNanos value) .invalidTimestamp

def decodeOptionalTimestamp (value : Option Int64) : Except ProtocolError (Option DateTime) :=
  transpose timestamp value

def decodeCategory (value : Int32) : Except ProtocolError ContainerCategory :=
  match (tryFrom value : Option V1.ContainerCategory) with
  | some .init => .ok .init
  | some .application => .ok .application
  | _ => .error .invalidReleaseIdentity

def decodeContainer (component : V1.ContainerImageIdentity) : Except ProtocolError ContainerImageIdentity := do
  let category ← decodeCategory component.category
  let digest ← okOr (ByteVec.ofList? 32 component.digest) .invalidReleaseIdentity
  return { category, name := component.name, image := component.image, digest }

def decodeReleaseIdentity (value : V1.ReleaseIdentity) : Except ProtocolError ReleaseIdentity := do
  let digest ← okOr (ByteVec.ofList? 32 value.digest) .invalidReleaseIdentity
  let containers ← value.containers.mapM decodeContainer
  let version ← okOr (narrow16 value.version) .invalidReleaseIdentity
  let identity : ReleaseIdentity := { version, digest, containers }
  identity.validate.mapError fun _ => .invalidReleaseIdentity
  return identity

/-! ## Processes and threads -/

def decodeProcess (p : V1.ProcessIdentity) : ProcessIdentity where
  cgroupId := p.cgroupId
  pid := p.pid
  tgid := p.tgid
  command := p.command

/-- The identity without its check. -/
def readGeneration (value : V1.ProcessGenerationIdentity) : Except ProtocolError ProcessGenerationIdentity := do
  let observationEpoch ← parseUuid "observation_epoch" value.observationEpoch
  return { generation := value.generation, observationEpoch, startObserved := value.startObserved }

def decodeGeneration (value : V1.ProcessGenerationIdentity) : Except ProtocolError ProcessGenerationIdentity := do
  let identity ← readGeneration value
  identity.validate.mapError fun _ => .invalidTermination "process_generation"
  return identity

def decodeProvenance (value : Int32) : Except ProtocolError BaselineProvenance :=
  match (tryFrom value : Option V1.BaselineProvenance) with
  | some .observed => .ok .observed
  | some .snapshot => .ok .snapshot
  | some .unavailable => .ok .unavailable
  | _ => .error (.invalidTermination "thread_window.baseline_provenance")

def decodeGap (value : Int32) : Except ProtocolError ThreadGapReason :=
  match (tryFrom value : Option V1.ThreadGapReason) with
  | some .kernelLoss => .ok .kernelLoss
  | some .decodeFailure => .ok .decodeFailure
  | some .attributionFailure => .ok .attributionFailure
  | some .stateCapacity => .ok .stateCapacity
  | some .snapshotRace => .ok .snapshotRace
  | some .snapshotPermission => .ok .snapshotPermission
  | some .snapshotTruncated => .ok .snapshotTruncated
  | some .deliveryGap => .ok .deliveryGap
  | _ => .error (.invalidTermination "thread_window.gap")

def decodeNameAggregate (entry : V1.ThreadNameAggregate) : ThreadNameAggregate where
  name := entry.name
  created := entry.created
  exited := entry.exited
  active := entry.active

def decodeThreadWindow (value : V1.ThreadActivityWindow) (process : ProcessIdentity) :
    Except ProtocolError ThreadActivityWindow := do
  let wireGeneration ← okOr value.generation (.missing "thread_window.generation")
  let baselineProvenance ← decodeProvenance value.baselineProvenance
  let gaps ← value.gaps.mapM decodeGap
  let id ← parseUuid "window_id" value.windowId
  let generation ← readGeneration wireGeneration
  let windowStartedAt ← timestamp value.windowStartedAtUnixNanos
  let windowEndedAt ← timestamp value.windowEndedAtUnixNanos
  let window : ThreadActivityWindow := {
    id
    process
    generation
    windowStartedAt
    windowEndedAt
    created := value.created
    exited := value.exited
    activeAtStart := value.activeAtStart
    activeAtEnd := value.activeAtEnd
    peakActive := value.peakActive
    names := value.names.map decodeNameAggregate
    baselineProvenance
    baselineComplete := value.baselineComplete
    nameOverflow := value.nameOverflow
    gaps }
  window.validate.mapError fun _ => .invalidTermination "thread_window"
  return window

def decodeProcessStart (value : V1.ProcessStart) : Except ProtocolError ProcessStart := do
  let wireGeneration ← okOr value.generation (.missing "process_start.generation")
  let generation ← readGeneration wireGeneration
  let start : ProcessStart := {
    generation
    parentPid := value.parentPid
    parentTgid := value.parentTgid
    parentCommand := value.parentCommand }
  start.validate.mapError fun _ => .invalidTermination "process_start"
  return start

/-- The text, unless it is empty. -/
def nonEmpty (value : String) : Option String := if value = "" then none else some value

def decodeProcessExec (exec : V1.ProcessExec) : Except ProtocolError ProcessExec := do
  require "executable" exec.executable
  let generation ← transpose decodeGeneration exec.generation
  return {
    executable := exec.executable
    parentCommand := nonEmpty exec.parentCommand
    generation }

/-! ## Terminations -/

def decodeSource (source : Int32) : Except ProtocolError EvidenceSource :=
  match (tryFrom source : Option V1.EvidenceSource) with
  | some .kernel => .ok .kernel
  | some .kubernetes => .ok .kubernetes
  | some .derived => .ok .derived
  | _ => .error (.invalidTermination "source")

/-- The wait status of a process that exited. -/
def exitedWaitStatus (status : UInt8) : Int32 := Int32.ofNat status.toNat <<< 8

/-- The wait status of a process that a signal ended. -/
def signaledWaitStatus (signal : UInt8) (coreDumpFlag : Bool) : Int32 :=
  Int32.ofNat signal.toNat ||| (if coreDumpFlag then 0x80 else 0)

def decodeTermination (rawWaitStatus : Int32) : V1.Termination → Except ProtocolError ProcessTermination
  | .exited exited => do
    let status ← okOr (narrow8 exited.status) (.invalidTermination "exit.status")
    if rawWaitStatus ≠ exitedWaitStatus status then .error (.invalidTermination "exit.raw_wait_status")
    else .ok (.exited status)
  | .signaled signaled => do
    let signal ← okOr (narrow8 signaled.signal) (.invalidTermination "signal")
    if rawWaitStatus ≠ signaledWaitStatus signal signaled.coreDumpFlag then
      .error (.invalidTermination "signal.raw_wait_status")
    else
      (ProcessTermination.newSignaled signal signaled.signalName signaled.coreDumpFlag).mapError
        fun _ => .invalidTermination "signal"

def decodeUnresolvedReason (value : Int32) : Except ProtocolError UnresolvedGenerationReason :=
  match (tryFrom value : Option V1.UnresolvedGenerationReason) with
  | some .beforeObservation => .ok .beforeObservation
  | some .evicted => .ok .evicted
  | some .generationMismatch => .ok .generationMismatch
  | some .containerLifetimeMismatch => .ok .containerLifetimeMismatch
  | _ => .error (.invalidTermination "generation_correlation.reason")

def decodeGenerationCorrelation (value : V1.GenerationCorrelation) :
    Except ProtocolError GenerationCorrelation := do
  let result ← okOr value.result (.missing "generation_correlation.result")
  match result with
  | .observed observed => do
    let execEventId ← parseUuid "exec_event_id" observed.execEventId
    (GenerationCorrelation.newObserved observed.generation execEventId observed.executable).mapError
      fun _ => .invalidTermination "generation_correlation.observed"
  | .unresolved unresolved => do
    let reason ← decodeUnresolvedReason unresolved.reason
    return .unresolved reason

def decodeClassification (value : Int32) : Except ProtocolError ProcessExitClassification :=
  match (tryFrom value : Option V1.ProcessExitClassification) with
  | some .legacyUnclassified => .ok .legacyUnclassified
  | some .leader => .ok .leader
  | none => .error (.invalidTermination "process_exit.classification")

/-- The exit names a generation other than the one it correlates with. -/
def generationDisagrees : Option ProcessGenerationIdentity → GenerationCorrelation → Bool
  | some identity, .observed generation _ _ => identity.generation ≠ generation
  | _, _ => false

def decodeProcessExit (value : V1.ProcessExit) : Except ProtocolError ProcessExit := do
  let source ← decodeSource value.source
  if source ≠ .kernel then .error (.invalidTermination "process_exit.source")
  else do
    let wireTermination ← okOr value.termination (.missing "process_exit.termination")
    let termination ← decodeTermination value.rawWaitStatus wireTermination
    let wireCorrelation ← okOr value.correlation (.missing "process_exit.correlation")
    let correlation ← decodeGenerationCorrelation wireCorrelation
    let classification ← decodeClassification value.classification
    let generation ← transpose decodeGeneration value.generation
    if generationDisagrees generation correlation then .error (.invalidTermination "process_exit.generation")
    else .ok { ProcessExit.new value.rawWaitStatus termination correlation with classification, generation }

def decodeContainerTermination (value : V1.ContainerTermination) :
    Except ProtocolError ContainerTermination := do
  let source ← decodeSource value.source
  if source ≠ .kubernetes then .error (.invalidTermination "container_termination.source")
  else do
    let startedAt ← decodeOptionalTimestamp value.startedAtUnixNanos
    let finishedAt ← decodeOptionalTimestamp value.finishedAtUnixNanos
    (ContainerTermination.new value.runtimeContainerId value.reason value.exitCode startedAt finishedAt).mapError
      fun _ => .invalidTermination "container_termination"

def decodeContainerRestart (value : V1.ContainerRestart) : Except ProtocolError ContainerRestart := do
  let source ← decodeSource value.source
  if source ≠ .kubernetes then .error (.invalidTermination "container_restart.source")
  else do
    let previous ← transpose decodeContainerTermination value.previousTermination
    let restart ← (ContainerRestart.new value.runtimeContainerId value.restartCount value.restartDelta previous
      value.waitingReason).mapError fun _ => .invalidTermination "container_restart"
    if restart.observationGap ≠ value.observationGap then
      .error (.invalidTermination "container_restart.observation_gap")
    else .ok restart

/-- An exit is read from the kernel only, and part by part. -/
theorem decodeProcessExit_eq_ok {value : V1.ProcessExit} {exit : ProcessExit} :
    decodeProcessExit value = .ok exit ↔ decodeSource value.source = .ok .kernel ∧
      ∃ wireTermination, value.termination = some wireTermination ∧
      ∃ termination, decodeTermination value.rawWaitStatus wireTermination = .ok termination ∧
      ∃ wireCorrelation, value.correlation = some wireCorrelation ∧
      ∃ correlation, decodeGenerationCorrelation wireCorrelation = .ok correlation ∧
      ∃ classification, decodeClassification value.classification = .ok classification ∧
      ∃ generation, transpose decodeGeneration value.generation = .ok generation ∧
        generationDisagrees generation correlation = false ∧
        exit = ⟨.kernel, classification, value.rawWaitStatus, termination, correlation, generation⟩ := by
  simp only [decodeProcessExit, bind_eq_ok, ite_error_eq_ok, not_ne_iff, okOr_eq_ok, ok_eq_ok,
    Bool.not_eq_true, ProcessExit.new, eq_comm (b := exit), exists_and_eq_and]

variable {t : ContainerTermination}

/-- A termination is read from Kubernetes only. -/
theorem decodeContainerTermination_eq_ok {value : V1.ContainerTermination} :
    decodeContainerTermination value = .ok t ↔ decodeSource value.source = .ok .kubernetes ∧
      ∃ startedAt, decodeOptionalTimestamp value.startedAtUnixNanos = .ok startedAt ∧
      ∃ finishedAt, decodeOptionalTimestamp value.finishedAtUnixNanos = .ok finishedAt ∧
        ContainerTermination.new value.runtimeContainerId value.reason value.exitCode startedAt finishedAt = .ok t := by
  simp only [decodeContainerTermination, bind_eq_ok, ite_ne_error_eq_ok, mapError_eq_ok, exists_and_eq_and]

/-! ## Network, DNS and files -/

def decodeFilePath (value field : String) : Except ProtocolError FileActivityPath :=
  (FileActivityPath.new value).mapError fun _ => .invalidFile field

/-- An address of the given wire family; the length must agree with it. -/
def decodeNetworkIp (family : Int32) (address : List UInt8) (field : String) :
    Except ProtocolError (NetworkAddressFamily × IpAddr) := do
  let family ← okOr (tryFrom family : Option V1.NetworkAddressFamily) (.invalidNetwork "address_family")
  match family with
  | .ipv4 => do
    let octets ← okOr (ByteVec.ofList? 4 address) (.invalidNetwork field)
    return (.ipv4, .v4 octets)
  | .ipv6 => do
    let octets ← okOr (ByteVec.ofList? 16 address) (.invalidNetwork field)
    return (.ipv6, .v6 octets)
  | .unspecified => .error (.invalidNetwork "address_family")

def requireTcp (transport : Int32) : Except ProtocolError Unit := do
  let transport ← okOr (tryFrom transport : Option V1.NetworkTransport) (.invalidNetwork "transport")
  match transport with
  | .tcp => .ok ()
  | .unspecified => .error (.invalidNetwork "transport")

def decodeListen (network : V1.NetworkListen) : Except ProtocolError NetworkListen := do
  requireTcp network.transport
  let (family, address) ← decodeNetworkIp network.addressFamily network.localAddress "local_address"
  let port ← okOr (narrow16 network.localPort) (.invalidNetwork "local_port")
  (NetworkListen.new family address port).mapError fun _ => .invalidNetwork "network_listen"

def decodeAccept (network : V1.NetworkAccept) : Except ProtocolError NetworkAccept := do
  requireTcp network.transport
  let (family, localAddress) ← decodeNetworkIp network.addressFamily network.localAddress "local_address"
  let (_, remoteAddress) ← decodeNetworkIp network.addressFamily network.remoteAddress "remote_address"
  let localPort ← okOr (narrow16 network.localPort) (.invalidNetwork "local_port")
  let remotePort ← okOr (narrow16 network.remotePort) (.invalidNetwork "remote_port")
  (NetworkAccept.new family localAddress localPort remoteAddress remotePort).mapError
    fun _ => .invalidNetwork "network_accept"

def decodeOutcome (value : Int32) : Except ProtocolError NetworkConnectOutcome := do
  let outcome ← okOr (tryFrom value : Option V1.NetworkConnectOutcome) (.invalidNetwork "outcome")
  match outcome with
  | .succeeded => .ok .succeeded
  | .inProgress => .ok .inProgress
  | .failed => .ok .failed
  | .unspecified => .error (.invalidNetwork "outcome")

def decodeDnsName (value field : String) : Except ProtocolError DnsName :=
  (DnsName.new value).mapError fun _ => .invalidDns field

def decodeContextName (name : String) : Except ProtocolError DnsName := decodeDnsName name "context.name"

def decodeContextTimestamp (nanos : Int64) : Except ProtocolError DateTime :=
  okOr (DateTime.fromUnixNanos nanos) (.invalidDns "context.timestamp")

def decodeDnsContext (value : V1.DnsContext) : Except ProtocolError DnsContext :=
  if value.confidence ≠ number V1.DnsConfidence.observedRecently then
    .error (.invalidDns "context.confidence")
  else do
    let names ← value.names.mapM decodeContextName
    let observedAt ← decodeContextTimestamp value.observedAtUnixNanos
    let expiresAt ← decodeContextTimestamp value.expiresAtUnixNanos
    let context ← (DnsContext.new names observedAt expiresAt).mapError fun _ => .invalidDns "context"
    if context.ambiguous ≠ value.ambiguous then .error (.invalidDns "context.ambiguous")
    else .ok context

def decodeErrno (value : UInt32) : Except ProtocolError UInt16 := okOr (narrow16 value) (.invalidNetwork "errno")

def decodeNetwork (network : V1.NetworkConnect) : Except ProtocolError NetworkConnect := do
  let (family, address) ←
    decodeNetworkIp network.addressFamily network.destinationAddress "destination_address"
  let port ← okOr (narrow16 network.destinationPort) (.invalidNetwork "destination_port")
  let outcome ← decodeOutcome network.outcome
  let errno ← transpose decodeErrno network.errno
  let value ← (NetworkConnect.new family address port outcome errno).mapError
    fun _ => .invalidNetwork "network_connect"
  match network.dnsContext with
  | some context => do
    let context ← decodeDnsContext context
    return value.withDnsContext context
  | none => .ok value

def decodeIp (value : List UInt8) : Except ProtocolError IpAddr :=
  match ByteVec.ofList? 4 value, ByteVec.ofList? 16 value with
  | some octets, _ => .ok (.v4 octets)
  | none, some octets => .ok (.v6 octets)
  | none, none => .error (.invalidDns "address")

def decodeDirection (value : Int32) : Except ProtocolError DnsDirection :=
  match (tryFrom value : Option V1.DnsDirection) with
  | some .egress => .ok .egress
  | some .ingress => .ok .ingress
  | _ => .error (.invalidDns "direction")

def decodeTransport (value : Int32) : Except ProtocolError DnsTransport :=
  match (tryFrom value : Option V1.DnsTransport) with
  | some .udp => .ok .udp
  | some .tcp => .ok .tcp
  | _ => .error (.invalidDns "transport")

def decodeQueryType (value : Int32) : Except ProtocolError DnsQueryType :=
  match (tryFrom value : Option V1.DnsQueryType) with
  | some .a => .ok .a
  | some .aaaa => .ok .aaaa
  | _ => .error (.invalidDns "query_type")

def decodeResponseCode (value : Int32) : Except ProtocolError DnsResponseCode :=
  match (tryFrom value : Option V1.DnsResponseCode) with
  | some .noError => .ok .noError
  | some .formErr => .ok .formErr
  | some .servFail => .ok .servFail
  | some .nxDomain => .ok .nxDomain
  | some .notImp => .ok .notImp
  | some .refused => .ok .refused
  | _ => .error (.invalidDns "response_code")

def decodeDnsQuery (value : V1.NetworkDnsQuery) : Except ProtocolError NetworkDnsQuery := do
  let transactionId ← okOr (narrow16 value.transactionId) (.invalidDns "transaction_id")
  let direction ← decodeDirection value.direction
  let transport ← decodeTransport value.transport
  let resolverAddress ← decodeIp value.resolverAddress
  let name ← decodeDnsName value.name "name"
  let queryType ← decodeQueryType value.queryType
  return { transactionId, direction, transport, resolverAddress, name, queryType }

def decodeAnswer (answer : V1.DnsAddressAnswer) : Except ProtocolError DnsAddressAnswer := do
  let name ← decodeDnsName answer.name "answer.name"
  let address ← decodeIp answer.address
  (DnsAddressAnswer.new name address answer.ttlSeconds).mapError fun _ => .invalidDns "answer.ttl"

def decodeCname (cname : V1.DnsCname) : Except ProtocolError DnsCname := do
  let name ← decodeDnsName cname.alias "cname.alias"
  let canonical ← decodeDnsName cname.canonical "cname.canonical"
  (DnsCname.new name canonical cname.ttlSeconds).mapError fun _ => .invalidDns "cname.ttl"

def decodeDnsResponse (value : V1.NetworkDnsResponse) : Except ProtocolError NetworkDnsResponse := do
  let transactionId ← okOr (narrow16 value.transactionId) (.invalidDns "transaction_id")
  let direction ← decodeDirection value.direction
  let transport ← decodeTransport value.transport
  let resolverAddress ← decodeIp value.resolverAddress
  let name ← decodeDnsName value.name "name"
  let queryType ← decodeQueryType value.queryType
  let responseCode ← decodeResponseCode value.responseCode
  let answers ← value.answers.mapM decodeAnswer
  let cnameChain ← value.cnameChain.mapM decodeCname
  let response : NetworkDnsResponse := {
    transactionId
    direction
    transport
    resolverAddress
    name
    queryType
    responseCode
    truncated := value.truncated
    answers
    cnameChain
    effectiveTtlSeconds := value.effectiveTtlSeconds }
  response.validate.mapError fun _ => .invalidDns "response"
  return response

/-! ## Events -/

def decodeFileRename (value : V1.FileRename) : Except ProtocolError FileRename := do
  let oldPath ← decodeFilePath value.oldPath "old_path"
  let newPath ← decodeFilePath value.newPath "new_path"
  (FileRename.new oldPath newPath value.replaced).mapError fun _ => .invalidFile "rename"

def decodeSyscall (syscall : V1.Syscall) : Except ProtocolError SyscallEvent := do
  require "syscall.name" syscall.name
  return { name := syscall.name }

def decodePayload (payload : V1.Payload) (process : ProcessIdentity) : Except ProtocolError EventPayload :=
  match payload with
  | .processStart value => (decodeProcessStart value).map .processStart
  | .threadActivityWindow value => (decodeThreadWindow value process).map .threadActivityWindow
  | .processExec exec => (decodeProcessExec exec).map .processExec
  | .syscall syscall => (decodeSyscall syscall).map .syscall
  | .networkConnect network => (decodeNetwork network).map .networkConnect
  | .networkListen network => (decodeListen network).map .networkListen
  | .networkAccept network => (decodeAccept network).map .networkAccept
  | .networkDnsQuery query => (decodeDnsQuery query).map .networkDnsQuery
  | .networkDnsResponse response => (decodeDnsResponse response).map .networkDnsResponse
  | .fileCreate value => (decodeFilePath value.path "path").map fun path => .fileCreate { path }
  | .fileModify value => (decodeFilePath value.path "path").map fun path => .fileModify { path }
  | .fileDelete value => (decodeFilePath value.path "path").map fun path => .fileDelete { path }
  | .fileRename value => (decodeFileRename value).map .fileRename
  | .processExit value => (decodeProcessExit value).map .processExit
  | .containerTermination value => (decodeContainerTermination value).map .containerTermination
  | .containerRestart value => (decodeContainerRestart value).map .containerRestart

/-- A release label is trimmed, and dropped when it is empty or longer than 200 bytes. -/
def decodeRelease (release : Option String) : Option String :=
  release.bind fun value =>
    let value := Text.trim value
    if value ≠ "" ∧ Text.len value ≤ 200 then some value else none

def decodeAttribution (a : V1.KubernetesAttribution) : Except ProtocolError KubernetesAttribution := do
  require "node_name" a.nodeName
  require "namespace" a.namespace
  require "pod_uid" a.podUid
  require "container_id" a.containerId
  require "workload_uid" a.workloadUid
  let releaseIdentity ← transpose decodeReleaseIdentity a.releaseIdentity
  return {
    projectId := Uuid.nil
    applicationId := Uuid.nil
    nodeName := a.nodeName
    «namespace» := a.namespace
    podUid := a.podUid
    podName := a.podName
    containerId := a.containerId
    containerName := a.containerName
    workloadUid := a.workloadUid
    workloadKind := a.workloadKind
    workloadName := a.workloadName
    release := decodeRelease a.release
    releaseIdentity }

/-- `TryFrom<v1::RuntimeEvent> for RuntimeEvent`. -/
def tryFromRuntimeEvent (event : V1.RuntimeEvent) : Except ProtocolError RuntimeEvent :=
  if event.schemaVersion ≠ eventSchemaVersion then .error (.unsupportedEventSchema event.schemaVersion)
  else do
    let id ← parseUuid "event_id" event.eventId
    let observedAt ← timestamp event.observedAtUnixNanos
    let wireAttribution ← okOr event.attribution (.missing "attribution")
    let attribution ← decodeAttribution wireAttribution
    let wireProcess ← okOr event.process (.missing "process")
    let wirePayload ← okOr event.payload (.missing "payload")
    let payload ← decodePayload wirePayload (decodeProcess wireProcess)
    return {
      id
      observedAt
      schemaVersion := event.schemaVersion
      attribution
      process := decodeProcess wireProcess
      payload }

/-- An event is read exactly if every part of it is. -/
theorem tryFromRuntimeEvent_eq_ok {event : V1.RuntimeEvent} {e : RuntimeEvent} :
    tryFromRuntimeEvent event = .ok e ↔ event.schemaVersion = eventSchemaVersion ∧
      ∃ id, parseUuid "event_id" event.eventId = .ok id ∧
      ∃ observedAt, timestamp event.observedAtUnixNanos = .ok observedAt ∧
      ∃ wireAttribution, event.attribution = some wireAttribution ∧
      ∃ attribution, decodeAttribution wireAttribution = .ok attribution ∧
      ∃ wireProcess, event.process = some wireProcess ∧ ∃ wirePayload, event.payload = some wirePayload ∧
      ∃ payload, decodePayload wirePayload (decodeProcess wireProcess) = .ok payload ∧
        e = ⟨id, observedAt, event.schemaVersion, attribution, decodeProcess wireProcess, payload⟩ := by
  simp only [tryFromRuntimeEvent, bind_eq_ok, ite_ne_error_eq_ok, okOr_eq_ok, pure_eq_ok, eq_comm (b := e)]

/-! ## Deployment evidence -/

/-- `TryFrom<v1::WorkloadRevisionEvidence> for WorkloadRevisionEvidence`. -/
def tryFromRevisionEvidence (value : V1.WorkloadRevisionEvidence) :
    Except ProtocolError WorkloadRevisionEvidence := do
  requireBounded "evidence_id" value.evidenceId 200
  requireBounded "namespace" value.namespace 253
  requireBounded "workload_uid" value.workloadUid 253
  requireBounded "workload_kind" value.workloadKind 64
  requireBounded "workload_name" value.workloadName 253
  requireBounded "replica_set_uid" value.replicaSetUid 253
  requireBounded "replica_set_name" value.replicaSetName 253
  requireBounded "pod_uid" value.podUid 253
  if value.podTemplateHash.any (fun v => v = "" || 253 < Text.len v) then .error .invalidReleaseIdentity
  else do
    let observedAt ← timestamp value.observedAtUnixNanos
    let wireIdentity ← okOr value.releaseIdentity (.missing "release_identity")
    let releaseIdentity ← decodeReleaseIdentity wireIdentity
    return {
      evidenceId := value.evidenceId
      observedAt
      «namespace» := value.namespace
      workloadUid := value.workloadUid
      workloadKind := value.workloadKind
      workloadName := value.workloadName
      replicaSetUid := value.replicaSetUid
      replicaSetName := value.replicaSetName
      podUid := value.podUid
      podTemplateHash := value.podTemplateHash
      releaseIdentity
      ready := value.ready }

/-- `TryFrom<v1::RevisionReadinessSnapshot> for RevisionReadinessSnapshot`. -/
def tryFromReadinessSnapshot (value : V1.RevisionReadinessSnapshot) :
    Except ProtocolError RevisionReadinessSnapshot := do
  requireBounded "snapshot_id" value.snapshotId 200
  if value.readyPodCount > value.podCount ∨ value.readyPodCount > value.workloadReadyPodCount then
    .error .invalidReleaseIdentity
  else do
    let observedAt ← timestamp value.observedAtUnixNanos
    let revisionDigest ← okOr (ByteVec.ofList? 32 value.revisionDigest) .invalidReleaseIdentity
    return {
      snapshotId := value.snapshotId
      observedAt
      initialized := value.initialized
      continuous := value.continuous
      revisionDigest
      podCount := value.podCount
      readyPodCount := value.readyPodCount
      workloadReadyPodCount := value.workloadReadyPodCount }

end Okoscope.Protocol
