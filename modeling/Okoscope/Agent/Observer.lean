import Okoscope.Agent.DnsRuntime
import Okoscope.Agent.FileRuntime

/-!
# What the agent attaches and what it makes of the records

The switches of the configuration decide which programs are attached, and each
program emits records of certain kinds. The loop reads the rings one record at a
time and hands the events to the streams of the applications; which record comes
next, when held modifications are drained and what the rate limiters let through
is up to the environment. Container lifecycle events and thread windows, which no
switch of the observation concerns, are not in the loop.
-/
namespace Okoscope.Agent.Observer

open Lib Lib.FiniteMap EventModel
open Config KernelRecords ProcessRuntime Emission
open DnsRuntime FileRuntime

/-! ## Programs -/

inductive FileHook where
  | open
  | write
  | truncate
  | ftruncate
  | unlink
  | unlinkLegacy
  | rename
  | renameLegacy
  | close
  deriving DecidableEq, Repr

inductive Program where
  | exec
  | sysEnter
  | connectEnter
  | connectExit
  | inetSockSetState
  | inetCskAcceptReturn
  | dnsEgress
  | dnsIngress
  | fileEnter (hook : FileHook)
  | fileExit (hook : FileHook)
  | processExit
  | taskCreate
  | taskRename
  deriving DecidableEq, Repr

structure ObservationPrograms where
  networkConnect : Bool
  networkListen : Bool
  networkAccept : Bool
  dns : Bool
  files : Bool

def observationPrograms (observation : ObservationConfig) : ObservationPrograms where
  networkConnect := observation.network.connect
  networkListen := observation.network.listen
  networkAccept := observation.network.accept
  dns := observation.network.dns.enabled
  files := observation.files.enabled

/-- Whether the hooks for socket states and for accepted connections are needed. -/
def inboundHookRequirements (programs : ObservationPrograms) : Bool × Bool :=
  (programs.networkListen || programs.networkAccept, programs.networkAccept)

def fileHooks : List FileHook :=
  [.open, .write, .truncate, .ftruncate, .unlink, .unlinkLegacy, .rename, .renameLegacy, .close]

/-- Executions and system calls are hooked whatever the switches say. -/
def attachConfiguredPrograms (programs : ObservationPrograms) : List Program :=
  let (stateHook, acceptHook) := inboundHookRequirements programs
  [.exec, .sysEnter] ++
    (if programs.networkConnect then [.connectEnter, .connectExit] else []) ++
    (if stateHook then [.inetSockSetState] else []) ++
    (if acceptHook then [.inetCskAcceptReturn] else []) ++
    (if programs.dns then [.dnsEgress, .dnsIngress] else []) ++
    if programs.files then fileHooks.flatMap fun hook => [.fileEnter hook, .fileExit hook] else []

/-- The programs of `load`, and those of `enable_process_exit` when exits are observed. -/
def attachedPrograms (observation : ObservationConfig) : List Program :=
  attachConfiguredPrograms (observationPrograms observation) ++
    if observation.processExit then [.processExit, .taskCreate, .taskRename] else []

/-! ## Records -/

inductive RecordKind where
  | exec
  | syscall
  | connect
  | listen
  | accept
  | dns
  | file (operation : FileOperation)
  | taskCreation
  | processExit
  deriving DecidableEq, Repr

def FileHook.operations : FileHook → List FileOperation
  | .open => [.create, .modify]
  | .write | .truncate | .ftruncate => [.modify]
  | .unlink | .unlinkLegacy => [.delete]
  | .rename | .renameLegacy => [.rename]
  | .close => []

/-- The kinds of records a program writes to the rings; those of renamed tasks make no event. -/
def Program.emits : Program → List RecordKind
  | .exec => [.exec]
  | .sysEnter => [.syscall]
  | .connectExit => [.connect]
  | .inetSockSetState => [.listen]
  | .inetCskAcceptReturn => [.accept]
  | .dnsEgress | .dnsIngress => [.dns]
  | .fileExit hook => hook.operations.map .file
  | .processExit => [.processExit]
  | .taskCreate => [.taskCreation]
  | .connectEnter | .fileEnter _ | .taskRename => []

def recordKind : Record → Option RecordKind
  | .event kernel =>
    if kernel.eventKind = eventKindExec then some .exec
    else if kernel.eventKind = eventKindSyscall then some .syscall
    else if kernel.eventKind = eventKindNetworkConnect then some .connect
    else none
  | .inbound kernel =>
    if kernel.eventKind = eventKindNetworkListen then some .listen
    else if kernel.eventKind = eventKindNetworkAccept then some .accept
    else none
  | .creation _ => some .taskCreation
  | .exit _ => some .processExit

def fileRecordKind (decoded : DecodedFileEvent) : Option RecordKind :=
  match decoded.payload with
  | .fileCreate _ => some (.file .create)
  | .fileModify _ => some (.file .modify)
  | .fileDelete _ => some (.file .delete)
  | .fileRename _ => some (.file .rename)
  | _ => none

/-! ## The loop -/

structure AgentState where
  generations : ProcessGenerationStore
  dns : DnsProcessor
  files : FileModifyAggregator

def AgentState.start (observation : ObservationConfig) (epoch : Uuid) : AgentState where
  generations := ProcessGenerationStore.new 8192 epoch
  dns := DnsProcessor.new observation.network.dns
  files := FileModifyAggregator.new fileModifyAggregationCapacity

/-- What the loop does next. Instants count the nanoseconds of the monotonic clock. -/
inductive Input where
  | record (ring : Ring) (env : Surroundings) (bytes : List UInt8)
  | dnsPacket (env : Surroundings) (now : Nat) (bytes : List UInt8)
  | fileRecord (env : Surroundings) (order : Shuffle FileModifyAggregator.Entry) (now : Nat) (bytes : List UInt8)
  | drainExpired (order : Shuffle FileModifyAggregator.Entry) (now : Nat)
  | drainAll (order : Shuffle FileModifyAggregator.Entry)

def Input.kind : Input → Option RecordKind
  | .record ring _ bytes => (readRecord ring bytes).bind recordKind
  | .dnsPacket _ _ bytes => (decodeDnsPacket bytes).toOption.map fun _ => .dns
  | .fileRecord _ _ _ bytes => (decodeFile bytes).toOption.bind fileRecordKind
  | .drainExpired _ _ | .drainAll _ => none

/-- A record comes from a program that is attached. -/
def Input.Emitted (observation : ObservationConfig) (input : Input) : Prop :=
  ∀ kind, input.kind = some kind → ∃ program ∈ attachedPrograms observation, kind ∈ program.emits

/-- Reading the names for a connection drops those that expired. -/
def dnsAfter (dns : DnsProcessor) (env : Surroundings) : Option RuntimeEvent → DnsProcessor
  | some event =>
    match event.payload with
    | .networkConnect connect =>
      { dns with state := dns.state.afterContext event.process.cgroupId connect.destinationAddress env.contextNow }
    | _ => dns
  | none => dns

def readRing (architecture : Architecture) (s : AgentState) (ring : Ring) (env : Surroundings) (bytes : List UInt8) :
    Except Panic (List RuntimeEvent × AgentState) :=
  match readRecord ring bytes with
  | none => .ok ([], s)
  | some record =>
    match handle architecture s.generations ({ env with addresses := s.dns.state.namesOf }, record) with
    | .error panic => .error panic
    | .ok (event, generations) => .ok (event.toList, { s with generations, dns := dnsAfter s.dns env event })

def readDnsPacket (s : AgentState) (env : Surroundings) (now : Nat) (bytes : List UInt8) : List RuntimeEvent × AgentState :=
  match decodeDnsPacket bytes with
  | .error _ => ([], s)
  | .ok packet =>
    let (typed, dns) := s.dns.process packet now env.contextNow
    let event : Option RuntimeEvent := do
      let (process, payload) ← typed
      let attribution ← env.attribution
      return eventOf env attribution process payload
    (event.toList, { s with dns })

def readFileRecord (files : FileObservationConfig) (s : AgentState) (env : Surroundings)
    (order : Shuffle FileModifyAggregator.Entry) (now : Nat) (bytes : List UInt8) : List RuntimeEvent × AgentState :=
  match decodeFile bytes with
  | .error _ => ([], s)
  | .ok decoded =>
    match runtimeFileEvent files env decoded with
    | none => ([], s)
    | some event =>
      let (ready, aggregator) := s.files.observe order event decoded.kernel.fd decoded.kernel.descriptorGeneration now
      (ready, { s with files := aggregator })

theorem readFileRecord_of_event {files : FileObservationConfig} {env : Surroundings} {bytes : List UInt8}
    {decoded : DecodedFileEvent} {event : RuntimeEvent} (hdecoded : decodeFile bytes = .ok decoded)
    (hevent : runtimeFileEvent files env decoded = some event) (s : AgentState)
    (order : Shuffle FileModifyAggregator.Entry) (now : Nat) : readFileRecord files s env order now bytes =
      ((s.files.observe order event decoded.kernel.fd decoded.kernel.descriptorGeneration now).1, { s with
        files := (s.files.observe order event decoded.kernel.fd decoded.kernel.descriptorGeneration now).2 }) := by
  rw [readFileRecord, hdecoded]
  dsimp only
  rw [hevent]

def perform (observation : ObservationConfig) (architecture : Architecture) (s : AgentState) :
    Input → Except Panic (List RuntimeEvent × AgentState)
  | .record ring env bytes => readRing architecture s ring env bytes
  | .dnsPacket env now bytes => .ok (readDnsPacket s env now bytes)
  | .fileRecord env order now bytes => .ok (readFileRecord observation.files s env order now bytes)
  | .drainExpired order now =>
    let (ready, files) := s.files.drainExpired order now
    .ok (ready, { s with files })
  | .drainAll order =>
    let (ready, files) := s.files.drainAll order
    .ok (ready, { s with files })

/-- An input, and which of its events the rate limiters let through. -/
structure Turn where
  input : Input
  allow : RuntimeEvent → Bool

/-- The events of a turn that are routed to the application streams. -/
def step (observation : ObservationConfig) (architecture : Architecture) (s : AgentState) (turn : Turn) :
    Except Panic (List RuntimeEvent × AgentState) :=
  (perform observation architecture s turn.input).map fun (events, s) => (events.filter turn.allow, s)

end Okoscope.Agent.Observer
