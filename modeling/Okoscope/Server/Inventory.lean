import Okoscope.Server.Fingerprint

/-!
# Application runtime inventory identity

The inventory fingerprint digests the application scope, the inventory kind and
the identity fields of the behaviour, without the process or the workload.
-/
namespace Okoscope.Server.Inventory

open Lib Lib.Bytes EventModel

def currentInventoryIdentityVersion : Nat := 2

inductive InventoryKind where
  | process
  | destination
  | domain
  | syscall
  | inboundEndpoint
  | fileActivity
  | lifecycle
  deriving DecidableEq, Repr

def InventoryKind.asStr : InventoryKind → String
  | .process => "process"
  | .destination => "destination"
  | .domain => "domain"
  | .syscall => "syscall"
  | .inboundEndpoint => "inbound_endpoint"
  | .fileActivity => "file_activity"
  | .lifecycle => "lifecycle"

structure TrustedInventoryScope where
  organizationId : Uuid
  projectId : Uuid
  applicationId : Uuid

structure InventoryFingerprint where
  version : Nat
  kind : InventoryKind
  digest : ByteVec 32
  semanticSummary : Json

inductive InventoryFingerprintError where
  | invalidIdentityVersion
  | emptyField (field : String)
  | unsupportedEventKind
  deriving DecidableEq, Repr

def required (field value : String) : Except InventoryFingerprintError String :=
  requiredText .emptyField field value

/-- The kind, the fields after it and the summary. -/
structure Semantic where
  kind : InventoryKind
  fields : List (List UInt8)
  summary : Json

def fileActivityFingerprint (operation path : String) (newPath : Option String) (replaced : Option Bool) :
    Semantic where
  kind := .fileActivity
  fields := [utf8Bytes operation, utf8Bytes path] ++ (newPath.map utf8Bytes).toList ++
    (replaced.map fun b => [boolByte b]).toList
  summary := .obj [("operation", .str operation), ("path", .str path), ("new_path", .opt .str newPath),
    ("replaced", .opt .bool replaced)]

def inboundEndpointFingerprint (family : NetworkAddressFamily) (localAddress : IpAddr) (localPort : UInt16)
    (listenerObserved : Bool) : Semantic where
  kind := .inboundEndpoint
  fields := [utf8Bytes "tcp", utf8Bytes (familyText family), ipBytes localAddress, portBytes localPort]
  summary := .obj [("transport", .str "tcp"), ("address_family", .str (familyText family)),
    ("local_address", .ip localAddress), ("local_port", .num localPort.toNat),
    ("listener_observed", .bool listenerObserved), ("accept_observed", .bool !listenerObserved)]

def dnsQueryType : DnsQueryType → String
  | .a => "A"
  | .aaaa => "AAAA"

def domainFingerprint (name : DnsName) (queryType : DnsQueryType) : Semantic where
  kind := .domain
  fields := [utf8Bytes name.value, utf8Bytes (dnsQueryType queryType)]
  summary := .obj [("name", .str name.value), ("query_type", queryTypeJson queryType)]

def destinationFingerprint (connect : NetworkConnect) : Semantic where
  kind := .destination
  fields := [utf8Bytes (familyText connect.addressFamily), ipBytes connect.destinationAddress,
    portBytes connect.destinationPort]
  summary := .obj [("address_family", .str (familyText connect.addressFamily)),
    ("destination_address", .ip connect.destinationAddress),
    ("destination_port", .num connect.destinationPort.toNat)]

def exitIdentity (event : RuntimeEvent) (value : ProcessExit) : Except InventoryFingerprintError String :=
  match value.correlation with
  | .observed _ _ executable => required "executable" executable
  | .unresolved _ => required "process_command" event.process.command

def exitTermination : ProcessTermination → List (List UInt8) × Json
  | .exited status => ([utf8Bytes "exited", [status]],
      .obj [("type", .str "exited"), ("status", .num status.toNat)])
  | .signaled signal signalName _ => ([utf8Bytes "signaled", [signal]],
      .obj [("type", .str "signaled"), ("signal", .num signal.toNat), ("signal_name", .str signalName)])

def payloadSemantic (event : RuntimeEvent) : Except InventoryFingerprintError Semantic :=
  match event.payload with
  | .threadActivityWindow _ => .error .unsupportedEventKind
  | .processStart start => do
    let command ← required "process_command" event.process.command
    return ⟨.lifecycle, [utf8Bytes "process.start", utf8Bytes command],
      .obj [("event_kind", .str "process.start"), ("process_command", .str command), ("source", .str "kernel"),
        ("start_observed", .bool start.generation.startObserved)]⟩
  | .processExec process => do
    let executable ← required "executable" process.executable
    return ⟨.process, [utf8Bytes executable], .obj [("executable", .str executable)]⟩
  | .syscall syscall => do
    let name ← required "syscall_name" syscall.name
    return ⟨.syscall, [utf8Bytes (asciiLowercase name)], .obj [("syscall", .str (asciiLowercase name))]⟩
  | .networkConnect connect => .ok (destinationFingerprint connect)
  | .networkListen network =>
    .ok (inboundEndpointFingerprint network.addressFamily network.localAddress network.localPort true)
  | .networkAccept network =>
    .ok (inboundEndpointFingerprint network.addressFamily network.localAddress network.localPort false)
  | .networkDnsQuery query => .ok (domainFingerprint query.name query.queryType)
  | .networkDnsResponse response => .ok (domainFingerprint response.name response.queryType)
  | .fileCreate value => .ok (fileActivityFingerprint "create" value.path.value none none)
  | .fileModify value => .ok (fileActivityFingerprint "modify" value.path.value none none)
  | .fileDelete value => .ok (fileActivityFingerprint "delete" value.path.value none none)
  | .fileRename value =>
    .ok (fileActivityFingerprint "rename" value.oldPath.value (some value.newPath.value) value.replaced)
  | .processExit value => do
    let identity ← exitIdentity event value
    let (fields, termination) := exitTermination value.termination
    return ⟨.lifecycle, [utf8Bytes "process.exit", utf8Bytes identity] ++ fields,
      .obj [("event_kind", .str "process.exit"), ("identity", .str identity), ("termination", termination),
        ("evidence_source", sourceJson value.source), ("classification", classificationJson value.classification)]⟩
  | .containerTermination value => do
    let container ← required "container_name" event.attribution.containerName
    let reason ← required "termination_reason" value.reason
    return ⟨.lifecycle,
      [utf8Bytes "container.terminated", utf8Bytes container, utf8Bytes reason, exitCodeBytes value.exitCode],
      .obj [("event_kind", .str "container.terminated"), ("container_name", .str container), ("reason", .str reason),
        ("exit_code", .num value.exitCode.toInt), ("evidence_source", sourceJson value.source)]⟩
  | .containerRestart value => do
    let container ← required "container_name" event.attribution.containerName
    return ⟨.lifecycle, [utf8Bytes "container.restart", utf8Bytes container],
      .obj [("event_kind", .str "container.restart"), ("container_name", .str container),
        ("evidence_source", sourceJson value.source), ("restart_count", .num value.restartCount.toNat),
        ("restart_delta", .num value.restartDelta.toNat), ("observation_gap", .bool value.observationGap)]⟩

def fingerprintWithVersion (scope : TrustedInventoryScope) (event : RuntimeEvent) (version : Nat) :
    Except InventoryFingerprintError InventoryFingerprint := do
  let semantic ← payloadSemantic event
  let scopeFields := [utf8Bytes "okoscope.application-runtime-inventory", beBytes 2 version,
    scope.organizationId.toList, scope.projectId.toList, scope.applicationId.toList, utf8Bytes semantic.kind.asStr]
  return {
    version
    kind := semantic.kind
    digest := digestFields (scopeFields ++ semantic.fields)
    semanticSummary := semantic.summary }

def fingerprint (scope : TrustedInventoryScope) (event : RuntimeEvent) :
    Except InventoryFingerprintError InventoryFingerprint :=
  fingerprintWithVersion scope event currentInventoryIdentityVersion

end Okoscope.Server.Inventory
