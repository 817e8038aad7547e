import Okoscope.EventModel.Event
import Okoscope.Protocol.V1

/-!
# Encoding events for the wire

The total direction of the codec. Instants out of the 64-bit range are written
as zero, or omitted where the field is optional; the address family of an
endpoint is taken from the address.
-/
namespace Okoscope.Protocol

open Lib EventModel
open WireEnum

def encodeCategory : ContainerCategory → Int32
  | .init => number V1.ContainerCategory.init
  | .application => number V1.ContainerCategory.application

def encodeContainer (value : ContainerImageIdentity) : V1.ContainerImageIdentity where
  category := encodeCategory value.category
  name := value.name
  digest := value.digest.toList
  image := value.image

def encodeReleaseIdentity (identity : ReleaseIdentity) : V1.ReleaseIdentity where
  version := identity.version.toUInt32
  digest := identity.digest.toList
  containers := identity.containers.map encodeContainer

def encodeSource (source : EvidenceSource) : Int32 :=
  match source with
  | .kernel => number V1.EvidenceSource.kernel
  | .kubernetes => number V1.EvidenceSource.kubernetes
  | .derived => number V1.EvidenceSource.derived

def encodeGeneration (value : ProcessGenerationIdentity) : V1.ProcessGenerationIdentity where
  generation := value.generation
  observationEpoch := value.observationEpoch.toText
  startObserved := value.startObserved

def encodeGap : ThreadGapReason → Int32
  | .kernelLoss => number V1.ThreadGapReason.kernelLoss
  | .decodeFailure => number V1.ThreadGapReason.decodeFailure
  | .attributionFailure => number V1.ThreadGapReason.attributionFailure
  | .stateCapacity => number V1.ThreadGapReason.stateCapacity
  | .snapshotRace => number V1.ThreadGapReason.snapshotRace
  | .snapshotPermission => number V1.ThreadGapReason.snapshotPermission
  | .snapshotTruncated => number V1.ThreadGapReason.snapshotTruncated
  | .deliveryGap => number V1.ThreadGapReason.deliveryGap

def encodeProvenance : BaselineProvenance → Int32
  | .observed => number V1.BaselineProvenance.observed
  | .snapshot => number V1.BaselineProvenance.snapshot
  | .unavailable => number V1.BaselineProvenance.unavailable

def encodeNameAggregate (entry : ThreadNameAggregate) : V1.ThreadNameAggregate where
  name := entry.name
  created := entry.created
  exited := entry.exited
  active := entry.active

def encodeThreadWindow (value : ThreadActivityWindow) : V1.ThreadActivityWindow where
  windowId := value.id.toText
  generation := some (encodeGeneration value.generation)
  windowStartedAtUnixNanos := DateTime.unixNanos value.windowStartedAt
  windowEndedAtUnixNanos := DateTime.unixNanos value.windowEndedAt
  created := value.created
  exited := value.exited
  activeAtStart := value.activeAtStart
  activeAtEnd := value.activeAtEnd
  peakActive := value.peakActive
  names := value.names.map encodeNameAggregate
  baselineProvenance := encodeProvenance value.baselineProvenance
  baselineComplete := value.baselineComplete
  nameOverflow := value.nameOverflow
  gaps := value.gaps.map encodeGap

def encodeTermination : ProcessTermination → V1.Termination
  | .exited status => .exited { status := status.toUInt32 }
  | .signaled signal signalName coreDumpFlag =>
    .signaled { signal := signal.toUInt32, signalName, coreDumpFlag }

def encodeUnresolvedReason : UnresolvedGenerationReason → Int32
  | .beforeObservation => number V1.UnresolvedGenerationReason.beforeObservation
  | .evicted => number V1.UnresolvedGenerationReason.evicted
  | .generationMismatch => number V1.UnresolvedGenerationReason.generationMismatch
  | .containerLifetimeMismatch => number V1.UnresolvedGenerationReason.containerLifetimeMismatch

def encodeCorrelation : GenerationCorrelation → V1.CorrelationResult
  | .observed generation execEventId executable =>
    .observed { generation, execEventId := execEventId.toText, executable }
  | .unresolved reason => .unresolved { reason := encodeUnresolvedReason reason }

def encodeClassification : ProcessExitClassification → Int32
  | .legacyUnclassified => number V1.ProcessExitClassification.legacyUnclassified
  | .leader => number V1.ProcessExitClassification.leader

def encodeProcessExit (value : ProcessExit) : V1.ProcessExit where
  source := encodeSource value.source
  rawWaitStatus := value.rawWaitStatus
  termination := some (encodeTermination value.termination)
  correlation := some { result := some (encodeCorrelation value.correlation) }
  classification := encodeClassification value.classification
  generation := value.generation.map encodeGeneration

def encodeContainerTermination (value : ContainerTermination) : V1.ContainerTermination where
  source := encodeSource value.source
  runtimeContainerId := value.runtimeContainerId
  reason := value.reason
  exitCode := value.exitCode
  startedAtUnixNanos := value.startedAt.bind DateTime.timestampNanosOpt
  finishedAtUnixNanos := value.finishedAt.bind DateTime.timestampNanosOpt

def encodeContainerRestart (value : ContainerRestart) : V1.ContainerRestart where
  source := encodeSource value.source
  runtimeContainerId := value.runtimeContainerId
  restartCount := value.restartCount
  restartDelta := value.restartDelta
  observationGap := value.observationGap
  previousTermination := value.previousTermination.map encodeContainerTermination
  waitingReason := value.waitingReason

def encodeIp : IpAddr → List UInt8
  | .v4 octets => octets.toList
  | .v6 octets => octets.toList

def encodeFamily (address : IpAddr) : Int32 :=
  match address with
  | .v4 _ => number V1.NetworkAddressFamily.ipv4
  | .v6 _ => number V1.NetworkAddressFamily.ipv6

def encodeOutcome : NetworkConnectOutcome → Int32
  | .succeeded => number V1.NetworkConnectOutcome.succeeded
  | .inProgress => number V1.NetworkConnectOutcome.inProgress
  | .failed => number V1.NetworkConnectOutcome.failed

def encodeDirection : DnsDirection → Int32
  | .egress => number V1.DnsDirection.egress
  | .ingress => number V1.DnsDirection.ingress

def encodeTransport : DnsTransport → Int32
  | .udp => number V1.DnsTransport.udp
  | .tcp => number V1.DnsTransport.tcp

def encodeQueryType : DnsQueryType → Int32
  | .a => number V1.DnsQueryType.a
  | .aaaa => number V1.DnsQueryType.aaaa

def encodeResponseCode : DnsResponseCode → Int32
  | .noError => number V1.DnsResponseCode.noError
  | .formErr => number V1.DnsResponseCode.formErr
  | .servFail => number V1.DnsResponseCode.servFail
  | .nxDomain => number V1.DnsResponseCode.nxDomain
  | .notImp => number V1.DnsResponseCode.notImp
  | .refused => number V1.DnsResponseCode.refused

def encodeDnsContext (value : DnsContext) : V1.DnsContext where
  names := value.names.map (·.value)
  observedAtUnixNanos := DateTime.unixNanos value.observedAt
  expiresAtUnixNanos := DateTime.unixNanos value.expiresAt
  confidence := number V1.DnsConfidence.observedRecently
  ambiguous := value.ambiguous

def encodeNetworkConnect (network : NetworkConnect) : V1.NetworkConnect where
  addressFamily := encodeFamily network.destinationAddress
  destinationAddress := encodeIp network.destinationAddress
  destinationPort := network.destinationPort.toUInt32
  outcome := encodeOutcome network.outcome
  errno := network.errno.map UInt16.toUInt32
  dnsContext := network.dnsContext.map encodeDnsContext

def encodeNetworkListen (network : NetworkListen) : V1.NetworkListen where
  transport := number V1.NetworkTransport.tcp
  addressFamily := encodeFamily network.localAddress
  localAddress := encodeIp network.localAddress
  localPort := network.localPort.toUInt32

def encodeNetworkAccept (network : NetworkAccept) : V1.NetworkAccept where
  transport := number V1.NetworkTransport.tcp
  addressFamily := encodeFamily network.localAddress
  localAddress := encodeIp network.localAddress
  localPort := network.localPort.toUInt32
  remoteAddress := encodeIp network.remoteAddress
  remotePort := network.remotePort.toUInt32

def encodeDnsQuery (value : NetworkDnsQuery) : V1.NetworkDnsQuery where
  transactionId := value.transactionId.toUInt32
  direction := encodeDirection value.direction
  transport := encodeTransport value.transport
  resolverAddress := encodeIp value.resolverAddress
  name := value.name.value
  queryType := encodeQueryType value.queryType

def encodeAnswer (answer : DnsAddressAnswer) : V1.DnsAddressAnswer where
  name := answer.name.value
  address := encodeIp answer.address
  ttlSeconds := answer.ttlSeconds

def encodeCname (cname : DnsCname) : V1.DnsCname where
  «alias» := cname.alias.value
  canonical := cname.canonical.value
  ttlSeconds := cname.ttlSeconds

def encodeDnsResponse (value : NetworkDnsResponse) : V1.NetworkDnsResponse where
  transactionId := value.transactionId.toUInt32
  direction := encodeDirection value.direction
  transport := encodeTransport value.transport
  resolverAddress := encodeIp value.resolverAddress
  name := value.name.value
  queryType := encodeQueryType value.queryType
  responseCode := encodeResponseCode value.responseCode
  truncated := value.truncated
  answers := value.answers.map encodeAnswer
  cnameChain := value.cnameChain.map encodeCname
  effectiveTtlSeconds := value.effectiveTtlSeconds

def encodeProcessStart (value : ProcessStart) : V1.ProcessStart where
  generation := some (encodeGeneration value.generation)
  parentPid := value.parentPid
  parentTgid := value.parentTgid
  parentCommand := value.parentCommand

def encodeProcessExec (exec : ProcessExec) : V1.ProcessExec where
  executable := exec.executable
  parentCommand := exec.parentCommand.getD ""
  generation := exec.generation.map encodeGeneration

def encodePayload : EventPayload → V1.Payload
  | .processStart value => .processStart (encodeProcessStart value)
  | .threadActivityWindow value => .threadActivityWindow (encodeThreadWindow value)
  | .processExec exec => .processExec (encodeProcessExec exec)
  | .syscall syscall => .syscall { name := syscall.name }
  | .networkConnect network => .networkConnect (encodeNetworkConnect network)
  | .networkListen network => .networkListen (encodeNetworkListen network)
  | .networkAccept network => .networkAccept (encodeNetworkAccept network)
  | .networkDnsQuery query => .networkDnsQuery (encodeDnsQuery query)
  | .networkDnsResponse response => .networkDnsResponse (encodeDnsResponse response)
  | .fileCreate value => .fileCreate { path := value.path.value }
  | .fileModify value => .fileModify { path := value.path.value }
  | .fileDelete value => .fileDelete { path := value.path.value }
  | .fileRename value => .fileRename {
      oldPath := value.oldPath.value, newPath := value.newPath.value, replaced := value.replaced }
  | .processExit value => .processExit (encodeProcessExit value)
  | .containerTermination value => .containerTermination (encodeContainerTermination value)
  | .containerRestart value => .containerRestart (encodeContainerRestart value)

def encodeAttribution (a : KubernetesAttribution) : V1.KubernetesAttribution where
  nodeName := a.nodeName
  «namespace» := a.namespace
  podUid := a.podUid
  podName := a.podName
  containerId := a.containerId
  containerName := a.containerName
  workloadUid := a.workloadUid
  workloadKind := a.workloadKind
  workloadName := a.workloadName
  release := a.release
  releaseIdentity := a.releaseIdentity.map encodeReleaseIdentity

/-- `From<RuntimeEvent> for v1::RuntimeEvent`. -/
def fromRuntimeEvent (event : RuntimeEvent) : V1.RuntimeEvent where
  eventId := event.id.toText
  observedAtUnixNanos := DateTime.unixNanos event.observedAt
  schemaVersion := event.schemaVersion
  attribution := some (encodeAttribution event.attribution)
  process := some {
    cgroupId := event.process.cgroupId
    pid := event.process.pid
    tgid := event.process.tgid
    command := event.process.command }
  payload := some (encodePayload event.payload)

/-- `From<WorkloadRevisionEvidence> for v1::WorkloadRevisionEvidence`. -/
def fromRevisionEvidence (value : WorkloadRevisionEvidence) : V1.WorkloadRevisionEvidence where
  evidenceId := value.evidenceId
  observedAtUnixNanos := DateTime.unixNanos value.observedAt
  «namespace» := value.namespace
  workloadUid := value.workloadUid
  workloadKind := value.workloadKind
  workloadName := value.workloadName
  replicaSetUid := value.replicaSetUid
  replicaSetName := value.replicaSetName
  podUid := value.podUid
  podTemplateHash := value.podTemplateHash
  releaseIdentity := some (encodeReleaseIdentity value.releaseIdentity)
  ready := value.ready

/-- `From<RevisionReadinessSnapshot> for v1::RevisionReadinessSnapshot`. -/
def fromReadinessSnapshot (value : RevisionReadinessSnapshot) : V1.RevisionReadinessSnapshot where
  snapshotId := value.snapshotId
  observedAtUnixNanos := DateTime.unixNanos value.observedAt
  initialized := value.initialized
  continuous := value.continuous
  revisionDigest := value.revisionDigest.toList
  podCount := value.podCount
  readyPodCount := value.readyPodCount
  workloadReadyPodCount := value.workloadReadyPodCount

end Okoscope.Protocol
