import Okoscope.Lib.WireEnum

/-!
# Wire messages, version 1

The messages as the generated code of the schema exposes them: sub-messages are
optional, enumerations are 32-bit numbers and identifiers are text.
-/
namespace Okoscope.Protocol.V1

open Lib

/-! ## Enumerations -/

inductive ContainerCategory where
  | unspecified
  | init
  | application
  deriving DecidableEq, Repr

instance : WireEnum ContainerCategory where
  members := [.unspecified, .init, .application]
  number
    | .unspecified => 0
    | .init => 1
    | .application => 2

inductive BaselineProvenance where
  | unspecified
  | observed
  | snapshot
  | unavailable
  deriving DecidableEq, Repr

instance : WireEnum BaselineProvenance where
  members := [.unspecified, .observed, .snapshot, .unavailable]
  number
    | .unspecified => 0
    | .observed => 1
    | .snapshot => 2
    | .unavailable => 3

inductive ThreadGapReason where
  | unspecified
  | kernelLoss
  | decodeFailure
  | attributionFailure
  | stateCapacity
  | snapshotRace
  | snapshotPermission
  | snapshotTruncated
  | deliveryGap
  deriving DecidableEq, Repr

instance : WireEnum ThreadGapReason where
  members := [.unspecified, .kernelLoss, .decodeFailure, .attributionFailure, .stateCapacity, .snapshotRace,
    .snapshotPermission, .snapshotTruncated, .deliveryGap]
  number
    | .unspecified => 0
    | .kernelLoss => 1
    | .decodeFailure => 2
    | .attributionFailure => 3
    | .stateCapacity => 4
    | .snapshotRace => 5
    | .snapshotPermission => 6
    | .snapshotTruncated => 7
    | .deliveryGap => 8

inductive ProcessExitClassification where
  | legacyUnclassified
  | leader
  deriving DecidableEq, Repr

instance : WireEnum ProcessExitClassification where
  members := [.legacyUnclassified, .leader]
  number
    | .legacyUnclassified => 0
    | .leader => 1

inductive EvidenceSource where
  | unspecified
  | kernel
  | kubernetes
  | derived
  deriving DecidableEq, Repr

instance : WireEnum EvidenceSource where
  members := [.unspecified, .kernel, .kubernetes, .derived]
  number
    | .unspecified => 0
    | .kernel => 1
    | .kubernetes => 2
    | .derived => 3

inductive UnresolvedGenerationReason where
  | unspecified
  | beforeObservation
  | evicted
  | generationMismatch
  | containerLifetimeMismatch
  deriving DecidableEq, Repr

instance : WireEnum UnresolvedGenerationReason where
  members := [.unspecified, .beforeObservation, .evicted, .generationMismatch, .containerLifetimeMismatch]
  number
    | .unspecified => 0
    | .beforeObservation => 1
    | .evicted => 2
    | .generationMismatch => 3
    | .containerLifetimeMismatch => 4

inductive DnsQueryType where
  | unspecified
  | a
  | aaaa
  deriving DecidableEq, Repr

instance : WireEnum DnsQueryType where
  members := [.unspecified, .a, .aaaa]
  number
    | .unspecified => 0
    | .a => 1
    | .aaaa => 2

inductive DnsTransport where
  | unspecified
  | udp
  | tcp
  deriving DecidableEq, Repr

instance : WireEnum DnsTransport where
  members := [.unspecified, .udp, .tcp]
  number
    | .unspecified => 0
    | .udp => 1
    | .tcp => 2

inductive DnsDirection where
  | unspecified
  | egress
  | ingress
  deriving DecidableEq, Repr

instance : WireEnum DnsDirection where
  members := [.unspecified, .egress, .ingress]
  number
    | .unspecified => 0
    | .egress => 1
    | .ingress => 2

inductive DnsResponseCode where
  | unspecified
  | noError
  | formErr
  | servFail
  | nxDomain
  | notImp
  | refused
  deriving DecidableEq, Repr

instance : WireEnum DnsResponseCode where
  members := [.unspecified, .noError, .formErr, .servFail, .nxDomain, .notImp, .refused]
  number
    | .unspecified => 0
    | .noError => 1
    | .formErr => 2
    | .servFail => 3
    | .nxDomain => 4
    | .notImp => 5
    | .refused => 6

inductive DnsConfidence where
  | unspecified
  | observedRecently
  deriving DecidableEq, Repr

instance : WireEnum DnsConfidence where
  members := [.unspecified, .observedRecently]
  number
    | .unspecified => 0
    | .observedRecently => 1

inductive NetworkAddressFamily where
  | unspecified
  | ipv4
  | ipv6
  deriving DecidableEq, Repr

instance : WireEnum NetworkAddressFamily where
  members := [.unspecified, .ipv4, .ipv6]
  number
    | .unspecified => 0
    | .ipv4 => 1
    | .ipv6 => 2

inductive NetworkTransport where
  | unspecified
  | tcp
  deriving DecidableEq, Repr

instance : WireEnum NetworkTransport where
  members := [.unspecified, .tcp]
  number
    | .unspecified => 0
    | .tcp => 1

inductive NetworkConnectOutcome where
  | unspecified
  | succeeded
  | inProgress
  | failed
  deriving DecidableEq, Repr

instance : WireEnum NetworkConnectOutcome where
  members := [.unspecified, .succeeded, .inProgress, .failed]
  number
    | .unspecified => 0
    | .succeeded => 1
    | .inProgress => 2
    | .failed => 3

/-! ## Messages -/

structure ContainerImageIdentity where
  category : Int32
  name : String
  digest : List UInt8
  image : Option String

structure ReleaseIdentity where
  version : UInt32
  digest : List UInt8
  containers : List ContainerImageIdentity

structure WorkloadRevisionEvidence where
  evidenceId : String
  observedAtUnixNanos : Int64
  «namespace» : String
  workloadUid : String
  workloadKind : String
  workloadName : String
  replicaSetUid : String
  replicaSetName : String
  podUid : String
  podTemplateHash : Option String
  releaseIdentity : Option ReleaseIdentity
  ready : Bool

structure RevisionReadinessSnapshot where
  snapshotId : String
  observedAtUnixNanos : Int64
  initialized : Bool
  continuous : Bool
  revisionDigest : List UInt8
  podCount : UInt32
  readyPodCount : UInt32
  workloadReadyPodCount : UInt32

structure KubernetesAttribution where
  nodeName : String
  «namespace» : String
  podUid : String
  podName : String
  containerId : String
  containerName : String
  workloadUid : String
  workloadKind : String
  workloadName : String
  release : Option String
  releaseIdentity : Option ReleaseIdentity

structure ProcessIdentity where
  cgroupId : UInt64
  pid : UInt32
  tgid : UInt32
  command : String

structure ProcessGenerationIdentity where
  generation : UInt64
  observationEpoch : String
  startObserved : Bool

structure ProcessExec where
  executable : String
  parentCommand : String
  generation : Option ProcessGenerationIdentity

structure ProcessStart where
  generation : Option ProcessGenerationIdentity
  parentPid : UInt32
  parentTgid : UInt32
  parentCommand : String

structure ThreadNameAggregate where
  name : String
  created : UInt64
  exited : UInt64
  active : UInt64

structure ThreadActivityWindow where
  windowId : String
  generation : Option ProcessGenerationIdentity
  windowStartedAtUnixNanos : Int64
  windowEndedAtUnixNanos : Int64
  created : UInt64
  exited : UInt64
  activeAtStart : UInt64
  activeAtEnd : UInt64
  peakActive : UInt64
  names : List ThreadNameAggregate
  baselineProvenance : Int32
  baselineComplete : Bool
  nameOverflow : UInt64
  gaps : List Int32

structure ProcessExited where
  status : UInt32

structure ProcessSignaled where
  signal : UInt32
  signalName : String
  coreDumpFlag : Bool

/-- The `termination` alternatives of a process exit. -/
inductive Termination where
  | exited (value : ProcessExited)
  | signaled (value : ProcessSignaled)

structure ObservedGeneration where
  generation : UInt64
  execEventId : String
  executable : String

structure UnresolvedGeneration where
  reason : Int32

/-- The `result` alternatives of a generation correlation. -/
inductive CorrelationResult where
  | observed (value : ObservedGeneration)
  | unresolved (value : UnresolvedGeneration)

structure GenerationCorrelation where
  result : Option CorrelationResult

structure ProcessExit where
  source : Int32
  rawWaitStatus : Int32
  termination : Option Termination
  correlation : Option GenerationCorrelation
  classification : Int32
  generation : Option ProcessGenerationIdentity

structure ContainerTermination where
  source : Int32
  runtimeContainerId : String
  reason : String
  exitCode : Int32
  startedAtUnixNanos : Option Int64
  finishedAtUnixNanos : Option Int64

structure ContainerRestart where
  source : Int32
  runtimeContainerId : String
  restartCount : UInt32
  restartDelta : UInt32
  observationGap : Bool
  previousTermination : Option ContainerTermination
  waitingReason : Option String

structure Syscall where
  name : String

structure FileCreate where
  path : String

structure FileModify where
  path : String

structure FileDelete where
  path : String

structure FileRename where
  oldPath : String
  newPath : String
  replaced : Option Bool

structure DnsContext where
  names : List String
  observedAtUnixNanos : Int64
  expiresAtUnixNanos : Int64
  confidence : Int32
  ambiguous : Bool

structure NetworkConnect where
  addressFamily : Int32
  destinationAddress : List UInt8
  destinationPort : UInt32
  outcome : Int32
  errno : Option UInt32
  dnsContext : Option DnsContext

structure NetworkListen where
  transport : Int32
  addressFamily : Int32
  localAddress : List UInt8
  localPort : UInt32

structure NetworkAccept where
  transport : Int32
  addressFamily : Int32
  localAddress : List UInt8
  localPort : UInt32
  remoteAddress : List UInt8
  remotePort : UInt32

structure NetworkDnsQuery where
  transactionId : UInt32
  direction : Int32
  transport : Int32
  resolverAddress : List UInt8
  name : String
  queryType : Int32

structure DnsAddressAnswer where
  name : String
  address : List UInt8
  ttlSeconds : UInt32

structure DnsCname where
  «alias» : String
  canonical : String
  ttlSeconds : UInt32

structure NetworkDnsResponse where
  transactionId : UInt32
  direction : Int32
  transport : Int32
  resolverAddress : List UInt8
  name : String
  queryType : Int32
  responseCode : Int32
  truncated : Bool
  answers : List DnsAddressAnswer
  cnameChain : List DnsCname
  effectiveTtlSeconds : Option UInt32

/-- The `payload` alternatives of a runtime event. -/
inductive Payload where
  | processExec (value : ProcessExec)
  | syscall (value : Syscall)
  | networkConnect (value : NetworkConnect)
  | networkDnsQuery (value : NetworkDnsQuery)
  | networkDnsResponse (value : NetworkDnsResponse)
  | networkListen (value : NetworkListen)
  | networkAccept (value : NetworkAccept)
  | fileCreate (value : FileCreate)
  | fileModify (value : FileModify)
  | fileDelete (value : FileDelete)
  | fileRename (value : FileRename)
  | processExit (value : ProcessExit)
  | containerTermination (value : ContainerTermination)
  | containerRestart (value : ContainerRestart)
  | processStart (value : ProcessStart)
  | threadActivityWindow (value : ThreadActivityWindow)

structure RuntimeEvent where
  eventId : String
  observedAtUnixNanos : Int64
  schemaVersion : UInt32
  attribution : Option KubernetesAttribution
  process : Option ProcessIdentity
  payload : Option Payload

end Okoscope.Protocol.V1
