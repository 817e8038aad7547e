import Okoscope.Protocol.Decode
import Okoscope.Protocol.Encode

/-!
# What the decoder makes of an encoded event

For every part of an event: the condition under which its encoding is decoded,
and the value that is read back. The two differ from "always" and "the same
value" where the encoder drops information (instants out of range, an empty
parent command, the address family, the process of a thread window) and where
the decoder checks more than the types say.
-/
namespace Okoscope.Protocol

open Lib Lib.Bytes Lib.Outcome EventModel
open DateTime

attribute [local simp] okOr bind_eq_ok exists_unit pure_eq_ok mapError_eq_ok

/-! ## Leaves -/

@[simp] theorem parseUuid_toText (field : String) (u : Uuid) : parseUuid field u.toText = .ok u := by
  rw [parseUuid, Uuid.parseStr_toText]
  rfl

@[simp] theorem timestamp_unixNanos (t : DateTime) : timestamp (unixNanos t) = .ok (onWire t) := by
  rw [timestamp, fromUnixNanos_unixNanos]
  rfl

@[simp] theorem decodeContextTimestamp_unixNanos (t : DateTime) :
    decodeContextTimestamp (unixNanos t) = .ok (onWire t) := by
  rw [decodeContextTimestamp, fromUnixNanos_unixNanos]
  rfl

/-- The instants of an optional field that survive the encoder. -/
def optionalOnWire (t : Option DateTime) : Option DateTime := t.bind fun t => if DateTime.Fits t then some t else none

/-- A time beyond 64 bits is left out. -/
theorem decodeOptionalTimestamp_encoded (t : Option DateTime) :
    decodeOptionalTimestamp (t.bind timestampNanosOpt) = .ok (optionalOnWire t) := by
  cases t with
  | none => rfl
  | some t =>
    by_cases hf : DateTime.Fits t
    · have hv : timestampNanosOpt t = some (unixNanos t) := by
        simp [unixNanos, timestampNanosOpt, hf]
      rw [Option.bind_some, hv, decodeOptionalTimestamp, transpose, timestamp_unixNanos,
        onWire_of_fits hf, optionalOnWire, Option.bind_some, if_pos hf]
      rfl
    · rw [Option.bind_some, timestampNanosOpt_eq_none hf, optionalOnWire, Option.bind_some, if_neg hf]
      rfl

@[simp] theorem decodeFilePath_value (p : FileActivityPath) (field : String) :
    decodeFilePath p.value field = .ok p := by
  rw [decodeFilePath, FileActivityPath.new_value]
  rfl

@[simp] theorem decodeDnsName_value (n : DnsName) (field : String) : decodeDnsName n.value field = .ok n := by
  rw [decodeDnsName, DnsName.new_value]
  rfl

theorem decodeContextName_value (n : DnsName) : decodeContextName n.value = .ok n :=
  decodeDnsName_value n "context.name"

@[simp] theorem decodeIp_encodeIp (a : IpAddr) : decodeIp (encodeIp a) = .ok a := by
  cases a with
  | v4 => simp [decodeIp, encodeIp]
  | v6 octets =>
    have hlen : octets.toList.length ≠ 4 := by rw [octets.toList_length]; decide
    simp [decodeIp, encodeIp, ByteVec.ofList?_eq_none hlen]

@[simp] theorem decodeSource_encodeSource (s : EvidenceSource) : decodeSource (encodeSource s) = .ok s := by
  cases s <;> rfl

@[simp] theorem decodeProvenance_encodeProvenance (v : BaselineProvenance) :
    decodeProvenance (encodeProvenance v) = .ok v := by
  cases v <;> rfl

@[simp] theorem decodeGap_encodeGap (v : ThreadGapReason) : decodeGap (encodeGap v) = .ok v := by
  cases v <;> rfl

@[simp] theorem decodeUnresolvedReason_encoded (v : UnresolvedGenerationReason) :
    decodeUnresolvedReason (encodeUnresolvedReason v) = .ok v := by
  cases v <;> rfl

@[simp] theorem decodeClassification_encoded (v : ProcessExitClassification) :
    decodeClassification (encodeClassification v) = .ok v := by
  cases v <;> rfl

@[simp] theorem decodeOutcome_encodeOutcome (v : NetworkConnectOutcome) : decodeOutcome (encodeOutcome v) = .ok v := by
  cases v <;> rfl

@[simp] theorem decodeDirection_encodeDirection (v : DnsDirection) : decodeDirection (encodeDirection v) = .ok v := by
  cases v <;> rfl

@[simp] theorem decodeTransport_encodeTransport (v : DnsTransport) : decodeTransport (encodeTransport v) = .ok v := by
  cases v <;> rfl

@[simp] theorem decodeQueryType_encodeQueryType (v : DnsQueryType) : decodeQueryType (encodeQueryType v) = .ok v := by
  cases v <;> rfl

@[simp] theorem decodeResponseCode_encodeResponseCode (v : DnsResponseCode) :
    decodeResponseCode (encodeResponseCode v) = .ok v := by
  cases v <;> rfl

@[simp] theorem requireTcp_tcp : requireTcp (WireEnum.number V1.NetworkTransport.tcp) = .ok () := rfl

/-- An address is read under the family of another one exactly when they agree. -/
theorem decodeNetworkIp_encoded {a b : IpAddr} {field : String} {r : NetworkAddressFamily × IpAddr} :
    decodeNetworkIp (encodeFamily b) (encodeIp a) field = .ok r ↔ a.family = b.family ∧ r = (a.family, a) := by
  cases b <;> cases a <;>
    simp only [decodeNetworkIp, encodeFamily, encodeIp, WireEnum.tryFrom_number, okOr, bind, Except.bind,
      ByteVec.ofList?_toList, IpAddr.family, pure, Except.pure, ok_eq_ok, true_and, eq_comm (a := r)]
  · next octets =>
    rw [ByteVec.ofList?_eq_none (by rw [octets.toList_length]; decide)]
    simp
  · next octets =>
    rw [ByteVec.ofList?_eq_none (by rw [octets.toList_length]; decide)]
    simp

/-! ## Releases, processes and threads -/

@[simp] theorem decodeCategory_encodeCategory (v : ContainerCategory) : decodeCategory (encodeCategory v) = .ok v := by
  cases v <;> rfl

theorem decodeContainer_encoded (v : ContainerImageIdentity) : decodeContainer (encodeContainer v) = .ok v := by
  simp [decodeContainer, encodeContainer]

theorem decodeReleaseIdentity_encoded (r s : ReleaseIdentity) :
    decodeReleaseIdentity (encodeReleaseIdentity r) = .ok s ↔ r.validate = .ok () ∧ s = r := by
  simp [-bind_pure_comp, decodeReleaseIdentity, encodeReleaseIdentity, mapM_map_of_ok decodeContainer_encoded,
    eq_comm (a := s)]

/-- What is encoded is read back, as long as nothing is checked. -/
@[simp] theorem readGeneration_encoded (g : ProcessGenerationIdentity) :
    readGeneration (encodeGeneration g) = .ok g := by
  simp [readGeneration, encodeGeneration]

theorem decodeGeneration_encoded (g h : ProcessGenerationIdentity) :
    decodeGeneration (encodeGeneration g) = .ok h ↔ g.validate = .ok () ∧ h = g := by
  simp [-bind_pure_comp, decodeGeneration, eq_comm (a := h)]

/-- A window as it is read back inside an event of the given process. -/
def windowOnWire (w : ThreadActivityWindow) (process : ProcessIdentity) : ThreadActivityWindow :=
  { w with
    process
    windowStartedAt := onWire w.windowStartedAt
    windowEndedAt := onWire w.windowEndedAt }

/-- A window takes over the process of its event before it is checked. -/
theorem decodeThreadWindow_encoded (w v : ThreadActivityWindow) {process : ProcessIdentity} :
    decodeThreadWindow (encodeThreadWindow w) process = .ok v ↔
      (windowOnWire w process).validate = .ok () ∧ v = windowOnWire w process := by
  have hnames : (w.names.map encodeNameAggregate).map decodeNameAggregate = w.names := by
    rw [List.map_map]
    exact List.map_id w.names
  simp only [decodeThreadWindow, encodeThreadWindow, okOr, bind_eq_ok, exists_unit, ok_eq_ok,
    decodeProvenance_encodeProvenance, mapM_map_of_ok decodeGap_encodeGap, parseUuid_toText,
    readGeneration_encoded, timestamp_unixNanos, mapError_eq_ok, pure_eq_ok, exists_eq_left', hnames,
    windowOnWire, eq_comm (a := v)]

/-- An exec as it is read back: an empty parent command is no parent command. -/
def execOnWire (e : ProcessExec) : ProcessExec :=
  { e with parentCommand := e.parentCommand.bind nonEmpty }

/-- The decoder accepts the executable and the generation. -/
structure ExecReadable (e : ProcessExec) : Prop where
  executable : ¬ Text.Blank Text.isWhitespace e.executable
  generation : ∀ g, e.generation = some g → g.validate = .ok ()

theorem decodeProcessExec_encoded (e f : ProcessExec) :
    decodeProcessExec (encodeProcessExec e) = .ok f ↔ ExecReadable e ∧ f = execOnWire e := by
  have hgen := transpose_map_eq_ok decodeGeneration_encoded e.generation
  have hparent : nonEmpty (e.parentCommand.getD "") = e.parentCommand.bind nonEmpty := by
    cases e.parentCommand <;> rfl
  simp only [decodeProcessExec, encodeProcessExec, bind_eq_ok, exists_unit, require_eq_ok, hgen, pure_eq_ok, hparent]
  constructor
  · rintro ⟨hx, _, ⟨hg, rfl⟩, rfl⟩
    exact ⟨⟨hx, hg⟩, by rw [Option.map_id']; rfl⟩
  · rintro ⟨⟨hx, hg⟩, rfl⟩
    exact ⟨hx, _, ⟨hg, rfl⟩, by rw [Option.map_id']; rfl⟩

/-! ## Terminations -/

/-- The wait status is the one the termination stands for, and a signal is a known one. -/
def TerminationReadable (rawWaitStatus : Int32) : ProcessTermination → Prop
  | .exited status => rawWaitStatus = exitedWaitStatus status
  | .signaled signal signalName coreDumpFlag =>
    rawWaitStatus = signaledWaitStatus signal coreDumpFlag ∧
      (1 ≤ signal ∧ signal ≤ maxLinuxSignal) ∧ validSignalName signalName

/-- A termination is checked against the wait status beside it. -/
theorem decodeTermination_encoded (raw : Int32) (t u : ProcessTermination) :
    decodeTermination raw (encodeTermination t) = .ok u ↔ TerminationReadable raw t ∧ u = t := by
  cases t with
  | exited =>
    simp only [decodeTermination, encodeTermination, narrow8_toUInt32, okOr, bind_eq_ok, ok_eq_ok,
      exists_eq_left', ite_ne_error_eq_ok, TerminationReadable, eq_comm (a := u)]
  | signaled =>
    simp only [decodeTermination, encodeTermination, narrow8_toUInt32, okOr, bind_eq_ok, ok_eq_ok,
      exists_eq_left', ite_ne_error_eq_ok, mapError_eq_ok, ProcessTermination.newSignaled_eq_ok,
      TerminationReadable, and_assoc]

def CorrelationReadable : GenerationCorrelation → Prop
  | .observed generation _ executable => generation ≠ 0 ∧ validText executable
  | .unresolved _ => True

theorem decodeGenerationCorrelation_encoded (c d : GenerationCorrelation) :
    decodeGenerationCorrelation ⟨some (encodeCorrelation c)⟩ = .ok d ↔ CorrelationReadable c ∧ d = c := by
  cases c with
  | observed =>
    simp [decodeGenerationCorrelation, encodeCorrelation, GenerationCorrelation.newObserved_eq_ok, CorrelationReadable,
      and_assoc]
  | unresolved =>
    simp [decodeGenerationCorrelation, encodeCorrelation, CorrelationReadable, eq_comm (a := d)]

/-- Everything the decoder checks on a process exit. -/
structure ExitReadable (e : ProcessExit) : Prop where
  source : e.source = .kernel
  termination : TerminationReadable e.rawWaitStatus e.termination
  correlation : CorrelationReadable e.correlation
  generation : ∀ g, e.generation = some g → g.validate = .ok ()
  agrees : generationDisagrees e.generation e.correlation = false

/-- An exit is read as it is, or not at all. -/
theorem decodeProcessExit_encoded (e f : ProcessExit) :
    decodeProcessExit (encodeProcessExit e) = .ok f ↔ ExitReadable e ∧ f = e := by
  have hgen := transpose_map_eq_ok decodeGeneration_encoded e.generation
  rw [decodeProcessExit_eq_ok]
  simp only [encodeProcessExit, decodeSource_encodeSource, ok_eq_ok, Option.some.injEq, exists_eq_left',
    decodeTermination_encoded, decodeGenerationCorrelation_encoded, decodeClassification_encoded, hgen,
    Option.map_id']
  constructor
  · rintro ⟨hs, _, ⟨ht, rfl⟩, _, ⟨hc, rfl⟩, _, ⟨hg, rfl⟩, hd, rfl⟩
    exact ⟨⟨hs, ht, hc, hg, hd⟩, by rw [← hs]⟩
  · rintro ⟨⟨hs, ht, hc, hg, hd⟩, rfl⟩
    exact ⟨hs, _, ⟨ht, rfl⟩, _, ⟨hc, rfl⟩, _, ⟨hg, rfl⟩, hd, by rw [← hs]⟩

/-- A container termination as it is read back. -/
def terminationOnWire (t : ContainerTermination) : ContainerTermination :=
  { t with startedAt := optionalOnWire t.startedAt, finishedAt := optionalOnWire t.finishedAt }

structure ContainerTerminationReadable (t : ContainerTermination) : Prop where
  source : t.source = .kubernetes
  checked : ContainerTermination.Checked t.runtimeContainerId t.reason t.exitCode
    (optionalOnWire t.startedAt) (optionalOnWire t.finishedAt)

theorem decodeContainerTermination_encoded (t u : ContainerTermination) :
    decodeContainerTermination (encodeContainerTermination t) = .ok u ↔
      ContainerTerminationReadable t ∧ u = terminationOnWire t := by
  rw [decodeContainerTermination_eq_ok]
  simp only [encodeContainerTermination, decodeSource_encodeSource, ok_eq_ok, exists_eq_left',
    decodeOptionalTimestamp_encoded, ContainerTermination.new_eq_ok]
  constructor
  · rintro ⟨hs, hc, rfl⟩
    exact ⟨⟨hs, hc⟩, by rw [terminationOnWire, ← hs]⟩
  · rintro ⟨⟨hs, hc⟩, rfl⟩
    exact ⟨hs, hc, by rw [terminationOnWire, hs]⟩

/-- A container restart as it is read back. -/
def restartOnWire (r : ContainerRestart) : ContainerRestart :=
  { r with previousTermination := r.previousTermination.map terminationOnWire }

structure ContainerRestartReadable (r : ContainerRestart) : Prop where
  source : r.source = .kubernetes
  previous : ∀ t, r.previousTermination = some t → ContainerTerminationReadable t
  checked : ContainerRestart.Checked r.runtimeContainerId r.restartCount r.restartDelta
    (r.previousTermination.map terminationOnWire) r.waitingReason
  gap : decide (r.restartDelta > 1) = r.observationGap

/-- A restart is checked again when it is read. -/
theorem decodeContainerRestart_encoded (r s : ContainerRestart) :
    decodeContainerRestart (encodeContainerRestart r) = .ok s ↔ ContainerRestartReadable r ∧ s = restartOnWire r := by
  have hprev := transpose_map_eq_ok decodeContainerTermination_encoded r.previousTermination
  simp only [decodeContainerRestart, bind_eq_ok, ite_ne_error_eq_ok, mapError_eq_ok, ok_eq_ok, exists_and_eq_and,
    exists_eq_right_right]
  simp only [encodeContainerRestart, decodeSource_encodeSource, ok_eq_ok, hprev, ContainerRestart.new_eq_ok]
  constructor
  · rintro ⟨hs, _, ⟨hp, rfl⟩, ⟨hc, rfl⟩, hgap⟩
    refine ⟨⟨hs, hp, hc, hgap⟩, ?_⟩
    rw [restartOnWire, ← hs, ← hgap]
  · rintro ⟨⟨hs, hp, hc, hgap⟩, rfl⟩
    refine ⟨hs, _, ⟨hp, rfl⟩, ⟨hc, ?_⟩, rfl⟩
    rw [restartOnWire, hs, hgap]

/-! ## Network, DNS and files -/

/-- A context as it is read back. -/
def contextOnWire (c : DnsContext) : DnsContext :=
  { c with observedAt := onWire c.observedAt, expiresAt := onWire c.expiresAt }

/-- Whether a context is ambiguous is checked, not recomputed. -/
theorem decodeDnsContext_encoded (c d : DnsContext) :
    decodeDnsContext (encodeDnsContext c) = .ok d ↔ (contextOnWire c).validate = .ok () ∧ d = contextOnWire c := by
  have hnames : (c.names.map (·.value)).mapM decodeContextName = .ok c.names := mapM_map_of_ok decodeContextName_value
  simp only [decodeDnsContext, bind_eq_ok, ite_ne_error_eq_ok, mapError_eq_ok, ok_eq_ok, exists_eq_right_right,
    DnsContext.validate_eq_ok]
  simp only [encodeDnsContext, true_and, hnames, ok_eq_ok, exists_eq_left', decodeContextTimestamp_unixNanos,
    DnsContext.new_eq_ok]
  constructor
  · rintro ⟨⟨hc, rfl⟩, hamb⟩
    exact ⟨⟨hc, hamb.symm⟩, by rw [contextOnWire, ← hamb]⟩
  · rintro ⟨⟨hc, hamb⟩, rfl⟩
    refine ⟨⟨hc, ?_⟩, rfl⟩
    rw [contextOnWire, show c.ambiguous = decide (1 < c.names.length) from hamb]

/-- A connection attempt as it is read back. -/
def connectOnWire (n : NetworkConnect) : NetworkConnect :=
  { n with addressFamily := n.destinationAddress.family, dnsContext := n.dnsContext.map contextOnWire }

structure ConnectReadable (n : NetworkConnect) : Prop where
  checked : NetworkConnect.Checked n.destinationAddress.family n.destinationAddress n.destinationPort n.outcome
    n.errno
  context : ∀ c, n.dnsContext = some c → (contextOnWire c).validate = .ok ()

theorem decodeErrno_widened (v : UInt16) : decodeErrno v.toUInt32 = .ok v := by
  rw [decodeErrno, narrow16_toUInt32]
  rfl

/-- A connection is built again from what is read. -/
theorem decodeNetwork_encoded (n m : NetworkConnect) :
    decodeNetwork (encodeNetworkConnect n) = .ok m ↔ ConnectReadable n ∧ m = connectOnWire n := by
  obtain ⟨_, _, _, _, _, context⟩ := n
  simp only [decodeNetwork, encodeNetworkConnect, bind_eq_ok, decodeNetworkIp_encoded, true_and, exists_eq_left,
    narrow16_toUInt32, okOr, ok_eq_ok, exists_eq_left', decodeOutcome_encodeOutcome,
    transpose_map_of_ok decodeErrno_widened, mapError_eq_ok,
    NetworkConnect.new_eq_ok]
  cases context with
  | none =>
    simp only [Option.map_none, ok_eq_ok]
    constructor
    · rintro ⟨_, ⟨hc, rfl⟩, rfl⟩
      exact ⟨⟨hc, nofun⟩, rfl⟩
    · rintro ⟨⟨hc, -⟩, rfl⟩
      exact ⟨_, ⟨hc, rfl⟩, rfl⟩
  | some c =>
    simp only [Option.map_some, bind_eq_ok, decodeDnsContext_encoded, pure_eq_ok]
    constructor
    · rintro ⟨_, ⟨hc, rfl⟩, _, ⟨hv, rfl⟩, rfl⟩
      exact ⟨⟨hc, fun c' hc' => Option.some.inj hc' ▸ hv⟩, rfl⟩
    · rintro ⟨⟨hc, hv⟩, rfl⟩
      exact ⟨_, ⟨hc, rfl⟩, _, ⟨hv c rfl, rfl⟩, rfl⟩

/-- A listener as it is read back. -/
def listenOnWire (l : NetworkListen) : NetworkListen := { l with addressFamily := l.localAddress.family }

/-- An accepted connection as it is read back. -/
def acceptOnWire (a : NetworkAccept) : NetworkAccept := { a with addressFamily := a.localAddress.family }

structure AcceptReadable (a : NetworkAccept) : Prop where
  localPort : a.localPort ≠ 0
  remotePort : a.remotePort ≠ 0
  family : a.remoteAddress.family = a.localAddress.family

theorem decodeAccept_encoded (a b : NetworkAccept) :
    decodeAccept (encodeNetworkAccept a) = .ok b ↔ AcceptReadable a ∧ b = acceptOnWire a := by
  simp only [decodeAccept, encodeNetworkAccept, requireTcp_tcp, bind_eq_ok, ok_eq_ok, exists_unit, true_and,
    decodeNetworkIp_encoded, exists_eq_left, narrow16_toUInt32, okOr, exists_eq_left', mapError_eq_ok,
    NetworkAccept.new_eq_ok, acceptOnWire, and_assoc, exists_and_left]
  constructor
  · rintro ⟨hfam, hl, hr, -, rfl⟩
    exact ⟨⟨hl, hr, hfam⟩, rfl⟩
  · rintro ⟨⟨hl, hr, hfam⟩, rfl⟩
    exact ⟨hfam, hl, hr, hfam, rfl⟩

theorem decodeDnsQuery_encoded (q : NetworkDnsQuery) : decodeDnsQuery (encodeDnsQuery q) = .ok q := by
  simp [decodeDnsQuery, encodeDnsQuery]

theorem decodeAnswer_encoded (a b : DnsAddressAnswer) :
    decodeAnswer (encodeAnswer a) = .ok b ↔ validateTtl a.ttlSeconds = .ok () ∧ b = a := by
  simp [decodeAnswer, encodeAnswer, DnsAddressAnswer.new_eq_ok]

theorem decodeCname_encoded (c d : DnsCname) :
    decodeCname (encodeCname c) = .ok d ↔ validateTtl c.ttlSeconds = .ok () ∧ d = c := by
  simp [decodeCname, encodeCname, DnsCname.new_eq_ok]

/-- Responses are read exactly if they validate. -/
theorem decodeDnsResponse_encoded (r s : NetworkDnsResponse) :
    decodeDnsResponse (encodeDnsResponse r) = .ok s ↔ r.validate = .ok () ∧ s = r := by
  have hanswers := mapM_map_eq_ok decodeAnswer_encoded r.answers
  have hcnames := mapM_map_eq_ok decodeCname_encoded r.cnameChain
  simp only [decodeDnsResponse, encodeDnsResponse, bind_eq_ok, okOr, narrow16_toUInt32, ok_eq_ok, exists_eq_left',
    decodeDirection_encodeDirection, decodeTransport_encodeTransport, decodeIp_encodeIp, decodeDnsName_value,
    decodeQueryType_encodeQueryType, decodeResponseCode_encodeResponseCode, hanswers, hcnames, List.map_id',
    exists_unit, mapError_eq_ok, pure_eq_ok]
  constructor
  · rintro ⟨_, ⟨-, rfl⟩, _, ⟨-, rfl⟩, hv, rfl⟩
    exact ⟨hv, rfl⟩
  · rintro ⟨hv, rfl⟩
    have httl := NetworkDnsResponse.validate_eq_ok.mp hv
    exact ⟨_, ⟨httl.answers, rfl⟩, _, ⟨httl.cnames, rfl⟩, hv, rfl⟩

/-! ## Events -/

/-- A payload as it is read back inside an event of the given process. -/
def payloadOnWire (process : ProcessIdentity) : EventPayload → EventPayload
  | .threadActivityWindow w => .threadActivityWindow (windowOnWire w process)
  | .processExec e => .processExec (execOnWire e)
  | .networkConnect n => .networkConnect (connectOnWire n)
  | .networkListen l => .networkListen (listenOnWire l)
  | .networkAccept a => .networkAccept (acceptOnWire a)
  | .containerTermination t => .containerTermination (terminationOnWire t)
  | .containerRestart r => .containerRestart (restartOnWire r)
  | payload => payload

/-- The decoder accepts the encoding of the payload. -/
def PayloadReadable (process : ProcessIdentity) : EventPayload → Prop
  | .processStart s => s.validate = .ok ()
  | .threadActivityWindow w => (windowOnWire w process).validate = .ok ()
  | .processExec e => ExecReadable e
  | .syscall s => ¬ Text.Blank Text.isWhitespace s.name
  | .networkConnect n => ConnectReadable n
  | .networkListen l => l.localPort ≠ 0
  | .networkAccept a => AcceptReadable a
  | .networkDnsResponse r => r.validate = .ok ()
  | .fileRename r => r.oldPath ≠ r.newPath
  | .processExit e => ExitReadable e
  | .containerTermination t => ContainerTerminationReadable t
  | .containerRestart r => ContainerRestartReadable r
  | .networkDnsQuery _ | .fileCreate _ | .fileModify _ | .fileDelete _ => True

section
variable {α : Type} {x : Except ProtocolError α} {f : α → EventPayload}

/-- The payload is what the decoder of its kind reads. -/
theorem map_eq_ok_of_iff {p : Prop} {a : α}
    (h : ∀ b, x = .ok b ↔ p ∧ b = a) {q : EventPayload} : x.map f = .ok q ↔ p ∧ q = f a := by
  rw [map_eq_ok]
  constructor
  · rintro ⟨b, hb, rfl⟩
    obtain ⟨hp, rfl⟩ := (h b).mp hb
    exact ⟨hp, rfl⟩
  · rintro ⟨hp, rfl⟩
    exact ⟨a, (h a).mpr ⟨hp, rfl⟩, rfl⟩

theorem map_eq_ok_of_ok {a : α} (h : x = .ok a) {q : EventPayload} : x.map f = .ok q ↔ True ∧ q = f a :=
  map_eq_ok_of_iff (fun b => by rw [h, ok_eq_ok, true_and, eq_comm])

end

/-- Payload by payload: when an encoding is accepted, and what is read back. -/
theorem decodePayload_encoded (process : ProcessIdentity) (p q : EventPayload) :
    decodePayload (encodePayload p) process = .ok q ↔ PayloadReadable process p ∧ q = payloadOnWire process p := by
  cases p with
  | processStart s =>
    exact map_eq_ok_of_iff fun t => by
      simp [-bind_pure_comp, decodeProcessStart, encodeProcessStart, PayloadReadable, eq_comm (a := t)]
  | threadActivityWindow w =>
    exact map_eq_ok_of_iff (fun v => decodeThreadWindow_encoded w v)
  | processExec e => exact map_eq_ok_of_iff (decodeProcessExec_encoded e)
  | syscall s =>
    exact map_eq_ok_of_iff fun t => by
      simp [-bind_pure_comp, decodeSyscall, require_eq_ok, PayloadReadable, eq_comm (a := t)]
  | networkConnect n => exact map_eq_ok_of_iff (decodeNetwork_encoded n)
  | networkListen l =>
    exact map_eq_ok_of_iff fun m => by
      simp [decodeListen, encodeNetworkListen, decodeNetworkIp_encoded, NetworkListen.new_eq_ok, listenOnWire,
        PayloadReadable]
  | networkAccept a => exact map_eq_ok_of_iff (decodeAccept_encoded a)
  | networkDnsQuery d => exact map_eq_ok_of_ok (decodeDnsQuery_encoded d)
  | networkDnsResponse r => exact map_eq_ok_of_iff (decodeDnsResponse_encoded r)
  | fileCreate c => exact map_eq_ok_of_ok (decodeFilePath_value c.path "path")
  | fileModify m => exact map_eq_ok_of_ok (decodeFilePath_value m.path "path")
  | fileDelete d => exact map_eq_ok_of_ok (decodeFilePath_value d.path "path")
  | fileRename r =>
    exact map_eq_ok_of_iff fun s => by simp [decodeFileRename, FileRename.new_eq_ok, PayloadReadable]
  | processExit e => exact map_eq_ok_of_iff (decodeProcessExit_encoded e)
  | containerTermination t => exact map_eq_ok_of_iff (decodeContainerTermination_encoded t)
  | containerRestart r => exact map_eq_ok_of_iff (decodeContainerRestart_encoded r)

/-- An attribution as it is read back. -/
def attributionOnWire (a : KubernetesAttribution) : KubernetesAttribution :=
  { a with projectId := Uuid.nil, applicationId := Uuid.nil, release := decodeRelease a.release }

/-- The decoder accepts the encoding of the attribution. -/
structure AttributionReadable (a : KubernetesAttribution) : Prop where
  nodeName : ¬ Text.Blank Text.isWhitespace a.nodeName
  namespaceName : ¬ Text.Blank Text.isWhitespace a.namespace
  podUid : ¬ Text.Blank Text.isWhitespace a.podUid
  containerId : ¬ Text.Blank Text.isWhitespace a.containerId
  workloadUid : ¬ Text.Blank Text.isWhitespace a.workloadUid
  releaseIdentity : ∀ r, a.releaseIdentity = some r → r.validate = .ok ()

/-- An attribution without a blank text or an invalid release is read. -/
theorem decodeAttribution_encoded (a b : KubernetesAttribution) :
    decodeAttribution (encodeAttribution a) = .ok b ↔ AttributionReadable a ∧ b = attributionOnWire a := by
  have hrelease := transpose_map_eq_ok decodeReleaseIdentity_encoded a.releaseIdentity
  simp only [decodeAttribution, encodeAttribution, bind_eq_ok, exists_unit, require_eq_ok, hrelease,
    Option.map_id', pure_eq_ok]
  constructor
  · rintro ⟨hn, hns, hp, hc, hw, _, ⟨hr, rfl⟩, rfl⟩
    exact ⟨⟨hn, hns, hp, hc, hw, hr⟩, rfl⟩
  · rintro ⟨⟨hn, hns, hp, hc, hw, hr⟩, rfl⟩
    exact ⟨hn, hns, hp, hc, hw, _, ⟨hr, rfl⟩, rfl⟩

/-- An event as it is read back. -/
def eventOnWire (e : RuntimeEvent) : RuntimeEvent :=
  { e with
    observedAt := onWire e.observedAt
    attribution := attributionOnWire e.attribution
    payload := payloadOnWire e.process e.payload }

/-- The decoder accepts the encoding of the event. -/
structure EventReadable (e : RuntimeEvent) : Prop where
  schemaVersion : e.schemaVersion = eventSchemaVersion
  attribution : AttributionReadable e.attribution
  payload : PayloadReadable e.process e.payload

/-- Decoding an encoded event: exactly the readable events are accepted, and each
is read back as its wire image. -/
theorem tryFromRuntimeEvent_encoded {e f : RuntimeEvent} :
    tryFromRuntimeEvent (fromRuntimeEvent e) = .ok f ↔ EventReadable e ∧ f = eventOnWire e := by
  rw [tryFromRuntimeEvent_eq_ok]
  simp only [fromRuntimeEvent, parseUuid_toText, timestamp_unixNanos, ok_eq_ok, Option.some.injEq,
    exists_eq_left', decodeAttribution_encoded, decodeProcess, decodePayload_encoded]
  constructor
  · rintro ⟨hs, _, ⟨ha, rfl⟩, _, ⟨hp, rfl⟩, rfl⟩
    exact ⟨⟨hs, ha, hp⟩, rfl⟩
  · rintro ⟨⟨hs, ha, hp⟩, rfl⟩
    exact ⟨hs, _, ⟨ha, rfl⟩, _, ⟨hp, rfl⟩, rfl⟩

end Okoscope.Protocol
