import Okoscope.Server.Fingerprint

/-!
# Runtime group identity

`fingerprintV1` digests the trusted scope, the event kind and the identity
fields of the payload. Thread activity windows are not grouped.
-/
namespace Okoscope.Server.Grouping

open Lib Lib.Bytes EventModel

structure TrustedGroupingScope where
  organizationId : Uuid
  projectId : Uuid
  applicationId : Uuid
  clusterId : Uuid
  «namespace» : String
  workloadKind : String
  workloadName : String
  deriving DecidableEq

inductive FingerprintVersion where
  | v1
  deriving DecidableEq, Repr

def FingerprintVersion.number : FingerprintVersion → Nat
  | .v1 => 1

structure OccurrenceSummary where
  eventKind : String
  semantic : Json

structure EventFingerprint where
  version : FingerprintVersion
  digest : ByteVec 32
  summary : OccurrenceSummary

inductive FingerprintError where
  | emptyField (field : String)
  | unsupportedEventKind
  deriving DecidableEq, Repr

def required (field value : String) : Except FingerprintError String := requiredText .emptyField field value

/-- The fields a payload adds to the digest, and its summary. -/
abbrev Semantic := List (List UInt8) × Json

def fileSemantic (command operation path : String) (newPath : Option String) (replaced : Option Bool) :
    Except FingerprintError Semantic := do
  let command ← required "process_command" command
  return ([utf8Bytes command, utf8Bytes operation, utf8Bytes path] ++ (newPath.map utf8Bytes).toList ++
      (replaced.map fun b => [boolByte b]).toList,
    .obj [("process_command", .str command), ("operation", .str operation), ("path", .str path),
      ("new_path", .opt .str newPath), ("replaced", .opt .bool replaced)])

def inboundEndpointSemantic (command : String) (family : NetworkAddressFamily) (localAddress : IpAddr)
    (localPort : UInt16) : Semantic :=
  ([utf8Bytes command, utf8Bytes "tcp", utf8Bytes (familyText family), ipBytes localAddress, portBytes localPort],
    .obj [("process_command", .str command), ("transport", .str "tcp"), ("address_family", .str (familyText family)),
      ("local_address", .ip localAddress), ("local_port", .num localPort.toNat)])

def connectSemantic (command : String) (network : NetworkConnect) : Semantic :=
  ([utf8Bytes command, utf8Bytes (familyText network.addressFamily), ipBytes network.destinationAddress,
      portBytes network.destinationPort],
    .obj ([("process_command", .str command), ("address_family", .str (familyText network.addressFamily)),
      ("destination_address", .ip network.destinationAddress),
      ("destination_port", .num network.destinationPort.toNat)] ++
      (network.dnsContext.map fun context => ("dns_context", dnsContextJson context)).toList))

def queryFields (name : DnsName) (queryType : DnsQueryType) : List (List UInt8) :=
  [utf8Bytes name.value, utf8Bytes (queryTypeDebug queryType)]

def terminationFields : ProcessTermination → List (List UInt8)
  | .exited status => [utf8Bytes "exited", [status]]
  | .signaled signal _ _ => [utf8Bytes "signaled", [signal]]

/-- The program an exit is identified by: the correlated executable, or the command. -/
def exitIdentity (event : RuntimeEvent) (value : ProcessExit) : Except FingerprintError String :=
  match value.correlation with
  | .observed _ _ executable => required "executable" executable
  | .unresolved _ => required "process_command" event.process.command

def payloadSemantic (event : RuntimeEvent) : Except FingerprintError Semantic :=
  match event.payload with
  | .threadActivityWindow _ => .error .unsupportedEventKind
  | .processStart start => do
    let command ← required "process_command" event.process.command
    return ([utf8Bytes command], .obj [("process_command", .str command), ("source", .str "kernel"),
      ("start_observed", .bool start.generation.startObserved)])
  | .processExec process => do
    let executable ← required "executable" process.executable
    return ([utf8Bytes executable], .obj [("executable", .str executable)])
  | .syscall syscall => do
    let command ← required "process_command" event.process.command
    let name ← required "syscall_name" syscall.name
    return ([utf8Bytes command, utf8Bytes (asciiLowercase name)],
      .obj [("process_command", .str command), ("syscall", .str (asciiLowercase name))])
  | .networkConnect network => do
    let command ← required "process_command" event.process.command
    return connectSemantic command network
  | .networkListen network => do
    let command ← required "process_command" event.process.command
    return inboundEndpointSemantic command network.addressFamily network.localAddress network.localPort
  | .networkAccept network => do
    let command ← required "process_command" event.process.command
    return inboundEndpointSemantic command network.addressFamily network.localAddress network.localPort
  | .networkDnsQuery query => do
    let command ← required "process_command" event.process.command
    return (utf8Bytes command :: queryFields query.name query.queryType,
      .obj [("process_command", .str command), ("name", .str query.name.value),
        ("query_type", queryTypeJson query.queryType), ("transport", transportJson query.transport),
        ("direction", directionJson query.direction)])
  | .networkDnsResponse response => do
    let command ← required "process_command" event.process.command
    return (utf8Bytes command :: queryFields response.name response.queryType ++
        [utf8Bytes (responseCodeDebug response.responseCode)],
      .obj [("process_command", .str command), ("name", .str response.name.value),
        ("query_type", queryTypeJson response.queryType), ("response_code", responseCodeJson response.responseCode),
        ("transport", transportJson response.transport), ("direction", directionJson response.direction)])
  | .fileCreate value => fileSemantic event.process.command "create" value.path.value none none
  | .fileModify value => fileSemantic event.process.command "modify" value.path.value none none
  | .fileDelete value => fileSemantic event.process.command "delete" value.path.value none none
  | .fileRename value =>
    fileSemantic event.process.command "rename" value.oldPath.value (some value.newPath.value) value.replaced
  | .processExit value => do
    let identity ← exitIdentity event value
    return (utf8Bytes identity :: terminationFields value.termination,
      .obj [("identity", .str identity), ("termination", terminationJson value.termination),
        ("evidence_source", sourceJson value.source), ("correlation", correlationJson value.correlation)])
  | .containerTermination value => do
    let containerName ← required "container_name" event.attribution.containerName
    let reason ← required "termination_reason" value.reason
    return ([utf8Bytes containerName, utf8Bytes reason, exitCodeBytes value.exitCode],
      .obj [("container_name", .str containerName), ("reason", .str reason),
        ("exit_code", .num value.exitCode.toInt), ("source", sourceJson value.source)])
  | .containerRestart value => do
    let containerName ← required "container_name" event.attribution.containerName
    return ([utf8Bytes containerName],
      .obj [("container_name", .str containerName), ("source", sourceJson value.source),
        ("restart_count", .num value.restartCount.toNat), ("restart_delta", .num value.restartDelta.toNat),
        ("observation_gap", .bool value.observationGap), ("waiting_reason", .opt .str value.waitingReason)])

def fingerprintV1 (scope : TrustedGroupingScope) (event : RuntimeEvent) :
    Except FingerprintError EventFingerprint := do
  let namespaceName ← required "namespace" scope.namespace
  let workloadKind ← required "workload_kind" scope.workloadKind
  let workloadName ← required "workload_name" scope.workloadName
  let (fields, semantic) ← payloadSemantic event
  let scopeFields := [utf8Bytes "okoscope.runtime-event-group", beBytes 2 FingerprintVersion.v1.number,
    scope.organizationId.toList, scope.projectId.toList, scope.applicationId.toList, scope.clusterId.toList,
    utf8Bytes namespaceName, utf8Bytes workloadKind, utf8Bytes workloadName, utf8Bytes event.kind]
  return {
    version := .v1
    digest := digestFields (scopeFields ++ fields)
    summary := { eventKind := event.kind, semantic } }

end Okoscope.Server.Grouping
