import Okoscope.EventModel.Dns
import Okoscope.EventModel.Release
import Okoscope.EventModel.Termination

/-!
# Runtime events

An event is one observation of a process in an attributed container, with one
of sixteen payloads.
-/
namespace Okoscope.EventModel

open Lib

def eventSchemaVersion : UInt32 := 1

structure KubernetesAttribution where
  projectId : Uuid
  applicationId : Uuid
  nodeName : String
  «namespace» : String
  podUid : String
  podName : String
  containerId : String
  containerName : String
  workloadUid : String
  workloadKind : String
  workloadName : String
  release : Option String
  releaseIdentity : Option ReleaseIdentity
  deriving DecidableEq

structure ProcessExec where
  executable : String
  parentCommand : Option String
  generation : Option ProcessGenerationIdentity
  deriving DecidableEq

structure SyscallEvent where
  name : String
  deriving DecidableEq

inductive EventPayload where
  | processStart (value : ProcessStart)
  | threadActivityWindow (value : ThreadActivityWindow)
  | processExec (value : ProcessExec)
  | syscall (value : SyscallEvent)
  | networkConnect (value : NetworkConnect)
  | networkListen (value : NetworkListen)
  | networkAccept (value : NetworkAccept)
  | networkDnsQuery (value : NetworkDnsQuery)
  | networkDnsResponse (value : NetworkDnsResponse)
  | fileCreate (value : FileCreate)
  | fileModify (value : FileModify)
  | fileDelete (value : FileDelete)
  | fileRename (value : FileRename)
  | processExit (value : ProcessExit)
  | containerTermination (value : ContainerTermination)
  | containerRestart (value : ContainerRestart)
  deriving DecidableEq

structure RuntimeEvent where
  id : Uuid
  observedAt : DateTime
  schemaVersion : UInt32
  attribution : KubernetesAttribution
  process : ProcessIdentity
  payload : EventPayload
  deriving DecidableEq

/-- The stored name of the payload's kind. -/
def RuntimeEvent.kind (e : RuntimeEvent) : String :=
  match e.payload with
  | .processExec _ => "process.exec"
  | .processStart _ => "process.start"
  | .threadActivityWindow _ => "thread.activity.window"
  | .syscall _ => "syscall"
  | .networkConnect _ => "network.connect"
  | .networkListen _ => "network.listen"
  | .networkAccept _ => "network.accept"
  | .networkDnsQuery _ => "network.dns.query"
  | .networkDnsResponse _ => "network.dns.response"
  | .fileCreate _ => "file.create"
  | .fileModify _ => "file.modify"
  | .fileDelete _ => "file.delete"
  | .fileRename _ => "file.rename"
  | .processExit _ => "process.exit"
  | .containerTermination _ => "container.terminated"
  | .containerRestart _ => "container.restart"

/-- The attribution of a container of the deployment `payment-api`, for concrete events. -/
def paymentApi : KubernetesAttribution where
  projectId := Bytes.ByteVec.fill 16 1
  applicationId := Bytes.ByteVec.fill 16 2
  nodeName := "node-1"
  «namespace» := "production"
  podUid := "pod-uid"
  podName := "payment-api-1"
  containerId := "containerd://abc"
  containerName := "payment-api"
  workloadUid := "deployment-uid"
  workloadKind := "Deployment"
  workloadName := "payment-api"
  release := some "1.4.2"
  releaseIdentity := none

end Okoscope.EventModel
