import Okoscope.Agent.KernelRecords
import Okoscope.Agent.ProcessRuntime

/-!
# From kernel records to runtime events

The agent turns each decoded record into at most one event. What the handling
of a record takes from outside the record is gathered in `Surroundings`: the
resolved attribution, fresh identifiers, the clock, the link of the executable
and the DNS answers seen so far.
-/
namespace Okoscope.Agent.Emission

open Lib Lib.Outcome EventModel
open KernelRecords ProcessRuntime

/-! ## System calls -/

inductive Architecture where
  | x86_64
  | aarch64
  deriving DecidableEq, Repr

inductive SyscallError where
  | invalidSelection (name : String)
  | unsupported (name : String) (architecture : Architecture)
  deriving DecidableEq

def syscallNumber : Architecture → String → Option UInt32
  | .x86_64, "ptrace" => some 101
  | .x86_64, "capset" => some 126
  | .x86_64, "mount" => some 165
  | .x86_64, "umount2" => some 166
  | .x86_64, "unshare" => some 272
  | .x86_64, "setns" => some 308
  | .x86_64, "bpf" => some 321
  | .aarch64, "ptrace" => some 117
  | .aarch64, "capset" => some 91
  | .aarch64, "mount" => some 40
  | .aarch64, "umount2" => some 39
  | .aarch64, "unshare" => some 97
  | .aarch64, "setns" => some 268
  | .aarch64, "bpf" => some 280
  | _, _ => none

def resolve (name : String) (architecture : Architecture) : Except SyscallError UInt32 :=
  if name = "" ∨ name = "*" ∨ name.toList.all Text.isAsciiDigit then .error (.invalidSelection name)
  else okOr (syscallNumber architecture name) (.unsupported name architecture)

def observedSyscalls : List String := ["ptrace", "capset", "mount", "umount2", "unshare", "setns", "bpf"]

def nameForNumber (number : UInt32) (architecture : Architecture) : Option String :=
  observedSyscalls.find? fun name => resolve name architecture = .ok number

/-! ## DNS context of a connection -/

structure CachedName where
  name : DnsName
  observedAt : DateTime
  expiresAt : DateTime

/-- The names an address was resolved from, per control group. -/
abbrev Addresses := UInt64 → IpAddr → List CachedName

/-- Drops the names that repeat the last one kept. -/
def dedupAfter (last : CachedName) : List CachedName → List CachedName
  | [] => []
  | cached :: rest =>
    if cached.name = last.name then dedupAfter last rest else cached :: dedupAfter cached rest

def dedupByName : List CachedName → List CachedName
  | [] => []
  | cached :: rest => cached :: dedupAfter cached rest

/-- The context of a connection: the unexpired names of its destination. -/
def contextFor (addresses : Addresses) (cgroupId : UInt64) (address : IpAddr) (now : DateTime) :
    Option DnsContext := do
  let live := (addresses cgroupId address).filter fun cached => cached.expiresAt > now
  let values := dedupByName (live.mergeSort fun a b => a.name.value ≤ b.name.value)
  let observedAt ← (values.map CachedName.observedAt).max?
  let expiresAt ← (values.map CachedName.expiresAt).min?
  (DnsContext.new (values.map CachedName.name) observedAt expiresAt).toOption

/-! ## Events -/

structure Surroundings where
  attribution : Option KubernetesAttribution
  eventId : Uuid
  now : DateTime
  /-- The link `/proc/<pid>/exe` as text, when it can be read. -/
  exe : Option String
  addresses : Addresses
  contextNow : DateTime
  order : IterationOrder

def pidOf (pidTgid : UInt64) : UInt32 := pidTgid.toUInt32
def tgidOf (pidTgid : UInt64) : UInt32 := (pidTgid >>> 32).toUInt32

def processOf (cgroupId pidTgid : UInt64) (bytes : Bytes.ByteVec commandLen) : ProcessIdentity where
  cgroupId
  pid := pidOf pidTgid
  tgid := tgidOf pidTgid
  command := command bytes

def eventOf (env : Surroundings) (attribution : KubernetesAttribution) (process : ProcessIdentity)
    (payload : EventPayload) : RuntimeEvent where
  id := env.eventId
  observedAt := env.now
  schemaVersion := eventSchemaVersion
  attribution
  process
  payload

/-- The executable of an exec record: the link, or the command when it cannot be read. -/
def executableOf (env : Surroundings) (kernel : KernelEvent) : String := env.exe.getD (command kernel.command)

def kernelPayload (architecture : Architecture) (env : Surroundings) (kernel : KernelEvent) : Option EventPayload :=
  if kernel.eventKind = eventKindExec then
    some (.processExec { executable := executableOf env kernel, parentCommand := none, generation := none })
  else if kernel.eventKind = eventKindSyscall then do
    let name ← nameForNumber kernel.syscallId architecture
    return .syscall { name }
  else if kernel.eventKind = eventKindNetworkConnect then do
    let connect ← (networkConnect kernel).toOption
    let dnsContext := contextFor env.addresses kernel.cgroupId connect.destinationAddress env.contextNow
    return .networkConnect { connect with dnsContext }
  else none

def runtimeEvent (architecture : Architecture) (env : Surroundings) (kernel : KernelEvent) : Option RuntimeEvent := do
  let attribution ← env.attribution
  let payload ← kernelPayload architecture env kernel
  return eventOf env attribution (processOf kernel.cgroupId kernel.pidTgid kernel.command) payload

/-- An event of the main ring; an execution is remembered and carries its generation. -/
def observeKernelEvent (architecture : Architecture) (env : Surroundings) (s : ProcessGenerationStore)
    (kernel : KernelEvent) : Option RuntimeEvent × ProcessGenerationStore :=
  match runtimeEvent architecture env kernel with
  | none => (none, s)
  | some event =>
    match event.payload with
    | .processExec exec =>
      let observed := s.observeExec env.order ⟨kernel.cgroupId, event.process.tgid⟩ kernel.timestampNs
        event.id exec.executable
      (some { event with payload := .processExec { exec with generation := some observed.1 } }, observed.2)
    | _ => (some event, s)

/-- The start a created leader reports, under the generation it was given. -/
def startOf (decoded : DecodedTaskCreation) (generation : ProcessGenerationIdentity) : ProcessStart where
  generation
  parentPid := decoded.kernel.parentPid
  parentTgid := decoded.kernel.parentTgid
  parentCommand := decoded.parentCommand

/-- The leader of a created task's thread group. -/
def ownerOf (decoded : DecodedTaskCreation) : ProcessIdentity where
  cgroupId := decoded.kernel.cgroupId
  pid := decoded.kernel.childTgid
  tgid := decoded.kernel.childTgid
  command := decoded.childCommand

/-- A created leader starts a generation, and a valid start is emitted; a created
thread only makes sure that its process has a generation. -/
def observeTaskCreation (env : Surroundings) (s : ProcessGenerationStore) (decoded : DecodedTaskCreation) :
    Option RuntimeEvent × ProcessGenerationStore :=
  match env.attribution with
  | none => (none, s)
  | some attribution =>
    let kernel := decoded.kernel
    let key : ProcessKey := ⟨kernel.cgroupId, kernel.childTgid⟩
    if kernel.childPid = kernel.childTgid then
      let started := s.observeStart env.order key kernel.timestampNs
      let start := startOf decoded started.1
      (if start.validate = .ok () then some (eventOf env attribution (ownerOf decoded) (.processStart start))
        else none, started.2)
    else (none, (s.ensureGeneration env.order key kernel.timestampNs).2)

def runtimeInboundEvent (env : Surroundings) (kernel : InboundKernelEvent) : Option RuntimeEvent := do
  let attribution ← env.attribution
  let payload ← (inboundPayload kernel).toOption
  return eventOf env attribution (processOf kernel.cgroupId kernel.pidTgid kernel.command) payload

/-- The exit event of a leader, with the generation it consumed. -/
def exitOf (decoded : DecodedExitEvent) (consumed : ConsumedGeneration) : ProcessExit :=
  let exit := ProcessExit.classifiedLeader decoded.kernel.rawWaitStatus decoded.termination consumed.correlation
  match consumed.identity with
  | some generation => exit.withGeneration generation
  | none => exit

/-- Only the exit of a leader is an event. -/
def observeExit (env : Surroundings) (s : ProcessGenerationStore) (decoded : DecodedExitEvent) :
    Except Panic (Option RuntimeEvent × ProcessGenerationStore) :=
  let kernel := decoded.kernel
  if pidOf kernel.pidTgid ≠ tgidOf kernel.pidTgid then .ok (none, s)
  else
    match env.attribution with
    | none => .ok (none, s)
    | some attribution =>
      match s.consumeExit env.order ⟨kernel.cgroupId, tgidOf kernel.pidTgid⟩ kernel.timestampNs with
      | .error panic => .error panic
      | .ok (consumed, s) =>
        .ok (some (eventOf env attribution (processOf kernel.cgroupId kernel.pidTgid kernel.command)
          (.processExit (exitOf decoded consumed))), s)

/-! ## Records -/

inductive Record where
  | event (kernel : KernelEvent)
  | inbound (kernel : InboundKernelEvent)
  | creation (decoded : DecodedTaskCreation)
  | exit (decoded : DecodedExitEvent)

inductive Ring where
  | events
  | inbound
  | creations
  | exits
  deriving DecidableEq, Repr

/-- The record a ring's bytes decode to; bytes that do not decode are skipped. -/
def readRecord : Ring → List UInt8 → Option Record
  | .events, bytes => (decode bytes).toOption.map .event
  | .inbound, bytes => (decodeInbound bytes).toOption.map .inbound
  | .creations, bytes => (decodeTaskCreation bytes).toOption.map .creation
  | .exits, bytes => (decodeExit bytes).toOption.map .exit

def handle (architecture : Architecture) (s : ProcessGenerationStore) :
    Surroundings × Record → Except Panic (Option RuntimeEvent × ProcessGenerationStore)
  | (env, .event kernel) => .ok (observeKernelEvent architecture env s kernel)
  | (env, .inbound kernel) => .ok (runtimeInboundEvent env kernel, s)
  | (env, .creation decoded) => .ok (observeTaskCreation env s decoded)
  | (env, .exit decoded) => observeExit env s decoded

/-! ## What a record does to the generations -/

variable {architecture : Architecture} {env : Surroundings}

variable {payload : EventPayload}

/-- The payloads of the main ring, by kind of record. -/
theorem kernelPayload_cases {kernel : KernelEvent} (h : kernelPayload architecture env kernel = some payload) :
    (kernel.eventKind = eventKindExec ∧ payload = .processExec ⟨executableOf env kernel, none, none⟩) ∨
    (kernel.eventKind = eventKindSyscall ∧ ∃ name ∈ observedSyscalls, payload = .syscall { name }) ∨
    (kernel.eventKind = eventKindNetworkConnect ∧ ∃ connect, networkConnect kernel = .ok connect ∧
      payload = .networkConnect { connect with
        dnsContext := contextFor env.addresses kernel.cgroupId connect.destinationAddress env.contextNow }) := by
  unfold kernelPayload at h
  split at h
  · next hkind =>
    cases h
    exact .inl ⟨hkind, rfl⟩
  split at h
  · next hkind =>
    obtain ⟨name, hname, hp⟩ := Option.bind_eq_some_iff.mp h
    cases hp
    exact .inr (.inl ⟨hkind, name, List.mem_of_find?_eq_some hname, rfl⟩)
  · split at h
    · next hkind =>
      obtain ⟨connect, hconnect, hp⟩ := Option.bind_eq_some_iff.mp h
      cases hp
      exact .inr (.inr ⟨hkind, connect, toOption_eq_some.mp hconnect, rfl⟩)
    · cases h

/-- The three things the main ring's records do. -/
theorem observeKernelEvent_cases (env : Surroundings) {s : ProcessGenerationStore} (kernel : KernelEvent) :
    observeKernelEvent architecture env s kernel = (none, s) ∨
    (∃ attribution, env.attribution = some attribution ∧ kernel.eventKind = eventKindExec ∧
      let observed := s.observeExec env.order ⟨kernel.cgroupId, tgidOf kernel.pidTgid⟩ kernel.timestampNs
        env.eventId (executableOf env kernel)
      observeKernelEvent architecture env s kernel =
        (some (eventOf env attribution (processOf kernel.cgroupId kernel.pidTgid kernel.command)
          (.processExec ⟨executableOf env kernel, none, some observed.1⟩)), observed.2)) ∨
    (∃ attribution payload, env.attribution = some attribution ∧
      kernelPayload architecture env kernel = some payload ∧ (∀ exec, payload ≠ .processExec exec) ∧
      observeKernelEvent architecture env s kernel =
        (some (eventOf env attribution (processOf kernel.cgroupId kernel.pidTgid kernel.command) payload), s)) := by
  unfold observeKernelEvent
  cases hevent : runtimeEvent architecture env kernel with
  | none => exact .inl rfl
  | some =>
    simp only [runtimeEvent, Option.bind_eq_bind, Option.bind_eq_some_iff, Option.pure_def, Option.some.injEq] at hevent
    obtain ⟨attribution, ha, payload, hp, rfl⟩ := hevent
    cases payload with
    | processExec =>
      rcases kernelPayload_cases hp with ⟨hkind, he⟩ | ⟨-, _, -, he⟩ | ⟨-, _, -, he⟩ <;> cases he
      exact .inr (.inl ⟨attribution, ha, hkind, rfl⟩)
    | _ => exact .inr (.inr ⟨attribution, _, ha, hp, by simp, rfl⟩)

theorem observeTaskCreation_cases {s : ProcessGenerationStore} {decoded : DecodedTaskCreation} :
    (env.attribution = none ∧ observeTaskCreation env s decoded = (none, s)) ∨
    (∃ attribution, env.attribution = some attribution ∧ decoded.kernel.childPid = decoded.kernel.childTgid ∧
      let started := s.observeStart env.order ⟨decoded.kernel.cgroupId, decoded.kernel.childTgid⟩
        decoded.kernel.timestampNs
      observeTaskCreation env s decoded =
        (if (startOf decoded started.1).validate = .ok () then
          some (eventOf env attribution (ownerOf decoded) (.processStart (startOf decoded started.1))) else none,
          started.2)) ∨
    (decoded.kernel.childPid ≠ decoded.kernel.childTgid ∧
      observeTaskCreation env s decoded = (none, (s.ensureGeneration env.order
        ⟨decoded.kernel.cgroupId, decoded.kernel.childTgid⟩ decoded.kernel.timestampNs).2)) := by
  unfold observeTaskCreation
  cases ha : env.attribution with
  | none => exact .inl ⟨rfl, rfl⟩
  | some attribution =>
    by_cases hleader : decoded.kernel.childPid = decoded.kernel.childTgid
    · exact .inr (.inl ⟨attribution, rfl, hleader, by simp only [if_pos hleader]⟩)
    · exact .inr (.inr ⟨hleader, by simp only [if_neg hleader]⟩)

variable {decoded : DecodedExitEvent}

theorem exitOf_fields (consumed : ConsumedGeneration) :
    (exitOf decoded consumed).rawWaitStatus = decoded.kernel.rawWaitStatus ∧
      (exitOf decoded consumed).termination = decoded.termination ∧
      (exitOf decoded consumed).correlation = consumed.correlation ∧
      (exitOf decoded consumed).generation = consumed.identity ∧
      (exitOf decoded consumed).classification = .leader := by
  unfold exitOf
  cases consumed.identity <;> exact ⟨rfl, rfl, rfl, rfl, rfl⟩

variable {s : ProcessGenerationStore}

variable {t : ProcessGenerationStore}

theorem observeExit_cases {output : Option RuntimeEvent} (h : observeExit env s decoded = .ok (output, t)) :
    (output = none ∧ t = s ∧ (pidOf decoded.kernel.pidTgid ≠ tgidOf decoded.kernel.pidTgid ∨ env.attribution = none)) ∨
    ∃ attribution consumed, env.attribution = some attribution ∧
      pidOf decoded.kernel.pidTgid = tgidOf decoded.kernel.pidTgid ∧
      s.consumeExit env.order ⟨decoded.kernel.cgroupId, tgidOf decoded.kernel.pidTgid⟩
        decoded.kernel.timestampNs = .ok (consumed, t) ∧ output = some (eventOf env attribution
        (processOf decoded.kernel.cgroupId decoded.kernel.pidTgid decoded.kernel.command)
        (.processExit (exitOf decoded consumed))) := by
  simp only [observeExit] at h
  split at h
  · next hthread =>
    cases h
    exact .inl ⟨rfl, rfl, .inl hthread⟩
  next hleader =>
  split at h
  · next ha =>
    cases h
    exact .inl ⟨rfl, rfl, .inr ha⟩
  next attribution ha =>
  split at h
  · cases h
  · next consumed _ hconsumed =>
    cases h
    exact .inr ⟨attribution, consumed, ha, not_not.mp hleader, hconsumed, rfl⟩

variable {kernel : InboundKernelEvent}

theorem inboundPayload_cases (h : inboundPayload kernel = .ok payload) :
    (∃ family address port listen, NetworkListen.new family address port = .ok listen ∧
      payload = .networkListen listen) ∨ ∃ family address port remote remotePort accept,
      NetworkAccept.new family address port remote remotePort = .ok accept ∧ payload = .networkAccept accept := by
  simp only [inboundPayload, bind_eq_ok] at h
  obtain ⟨_, -, _, -, h⟩ := h
  split at h
  · rw [mapError_eq_ok, map_eq_ok] at h
    obtain ⟨listen, hlisten, rfl⟩ := h
    exact .inl ⟨_, _, _, listen, hlisten, rfl⟩
  split at h
  · rw [mapError_eq_ok, map_eq_ok] at h
    obtain ⟨accept, haccept, rfl⟩ := h
    exact .inr ⟨_, _, _, _, _, accept, haccept, rfl⟩
  · cases h

theorem runtimeInboundEvent_eq_some {event : RuntimeEvent} (h : runtimeInboundEvent env kernel = some event) :
    ∃ attribution payload, env.attribution = some attribution ∧ inboundPayload kernel = .ok payload ∧
      event = eventOf env attribution (processOf kernel.cgroupId kernel.pidTgid kernel.command) payload := by
  simp only [runtimeInboundEvent, Option.bind_eq_bind, Option.bind_eq_some_iff, toOption_eq_some, Option.pure_def,
    Option.some.injEq] at h
  obtain ⟨attribution, ha, payload, hp, rfl⟩ := h
  exact ⟨attribution, payload, ha, hp, rfl⟩

/-- The executable a record stores is valid. -/
def RecordValid (valid : String → Prop) : Surroundings × Record → Prop
  | (env, .event kernel) => kernel.eventKind = eventKindExec → valid (executableOf env kernel)
  | _ => True

variable {input : Surroundings × Record}

theorem handle_sound {epoch : Uuid} {valid : String → Prop} {event : Option RuntimeEvent} (hs : s.Sound epoch valid)
    (hvalid : RecordValid valid input) (h : handle architecture s input = .ok (event, t)) : t.Sound epoch valid := by
  obtain ⟨env, record⟩ := input
  cases record with
  | event kernel =>
    have ht : (observeKernelEvent architecture env s kernel).2 = t := congrArg Prod.snd (Except.ok.inj h)
    rcases observeKernelEvent_cases env kernel with he | ⟨a, -, hkind, he⟩ | ⟨a, p, -, -, -, he⟩
    · rwa [← ht, he]
    · rw [← ht, he]
      exact hs.observeExec env.order _ _ (hvalid hkind)
    · rwa [← ht, he]
  | inbound =>
    cases h
    exact hs
  | creation decoded =>
    have ht : (observeTaskCreation env s decoded).2 = t := congrArg Prod.snd (Except.ok.inj h)
    rcases observeTaskCreation_cases with ⟨-, he⟩ | ⟨_, -, -, he⟩ | ⟨-, he⟩
    · rwa [← ht, he]
    · rw [← ht, he]
      exact hs.allocate env.order _ _
    · rw [← ht, he]
      exact hs.ensureGeneration env.order _ _
  | exit =>
    rcases observeExit_cases h with ⟨-, rfl, -⟩ | ⟨_, _, -, -, hconsumed, -⟩
    · exact hs
    · exact hs.consumeExit env.order _ _ hconsumed

theorem handle_valid_ok {epoch : Uuid} (hs : s.Sound epoch (validText ·)) (hvalid : RecordValid (validText ·) input) :
    ∃ output t, handle architecture s input = .ok (output, t) ∧ t.Sound epoch (validText ·) := by
  have hok : ∃ output t, handle architecture s input = .ok (output, t) := by
    obtain ⟨env, record⟩ := input
    cases record with
    | exit decoded =>
      obtain ⟨⟨_, _⟩, hconsumed⟩ := hs.consumeExit_ok env.order
        ⟨decoded.kernel.cgroupId, tgidOf decoded.kernel.pidTgid⟩ decoded.kernel.timestampNs
      simp only [handle, observeExit, hconsumed]
      split
      · exact ⟨_, _, rfl⟩
      · split <;> exact ⟨_, _, rfl⟩
    | _ => exact ⟨_, _, rfl⟩
  obtain ⟨output, t, h⟩ := hok
  exact ⟨output, t, h, handle_sound hs hvalid h⟩

end Okoscope.Agent.Emission
