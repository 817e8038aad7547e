import Okoscope.Lib.Utf8
import Okoscope.Protocol.RoundTrip

/-!
# Kernel records

The agent reads fixed-size records from the kernel's rings. Words are in the
byte order of the two supported architectures, little-endian; a command is a
sixteen-byte name padded with NUL bytes.
-/
namespace Okoscope.Agent.KernelRecords

open Lib Lib.Bytes Lib.Outcome EventModel
open Protocol (exitedWaitStatus signaledWaitStatus waitStatusOf TerminationBuilt)

def commandLen : Nat := 16
def networkAddressLen : Nat := 16

def eventKindExec : UInt8 := 1
def eventKindSyscall : UInt8 := 2
def eventKindNetworkConnect : UInt8 := 3
def eventKindNetworkListen : UInt8 := 4
def eventKindNetworkAccept : UInt8 := 5
def addressFamilyIpv4 : UInt8 := 1
def addressFamilyIpv6 : UInt8 := 2
def connectOutcomeSucceeded : UInt8 := 1
def connectOutcomeInProgress : UInt8 := 2
def connectOutcomeFailed : UInt8 := 3
def dnsCaptureBytes : Nat := 1232
def dnsTransportUdp : UInt8 := 1
def dnsTransportTcp : UInt8 := 2
def dnsDirectionEgress : UInt8 := 1
def dnsDirectionIngress : UInt8 := 2
def filePathLen : Nat := 1024
def fileOperationCreate : UInt8 := 1
def fileOperationModify : UInt8 := 2
def fileOperationDelete : UInt8 := 3
def fileOperationRename : UInt8 := 4
def fileFlagReplaced : UInt8 := 1
def fileFlagComplete : UInt8 := 2
def fileFlagReplacementKnown : UInt8 := 4

/-! ## Layout -/

def wordAt (width : Nat) (bytes : List UInt8) (offset : Nat) : Nat := leNat ((bytes.drop offset).take width)

def u64At (bytes : List UInt8) (offset : Nat) : UInt64 := UInt64.ofNat (wordAt 8 bytes offset)
def u32At (bytes : List UInt8) (offset : Nat) : UInt32 := UInt32.ofNat (wordAt 4 bytes offset)
def i32At (bytes : List UInt8) (offset : Nat) : Int32 := Int32.ofNat (wordAt 4 bytes offset)
def u16At (bytes : List UInt8) (offset : Nat) : UInt16 := UInt16.ofNat (wordAt 2 bytes offset)
def u8At (bytes : List UInt8) (offset : Nat) : UInt8 := bytes.getD offset 0

/-- The bytes at an offset of a record whose size was checked. -/
def arrayAt (n : Nat) (bytes : List UInt8) (offset : Nat) : ByteVec n :=
  List.Vector.ofFn fun i => u8At bytes (offset + i)

structure KernelEvent where
  timestampNs : UInt64
  cgroupId : UInt64
  pidTgid : UInt64
  syscallId : UInt32
  connectResult : Int32
  eventKind : UInt8
  addressFamily : UInt8
  connectOutcome : UInt8
  padding : UInt8
  destinationPort : UInt16
  errno : UInt16
  destinationAddress : ByteVec networkAddressLen
  command : ByteVec commandLen
  deriving DecidableEq

def KernelEvent.size : Nat := 72

structure ExitKernelEvent where
  timestampNs : UInt64
  cgroupId : UInt64
  pidTgid : UInt64
  rawWaitStatus : Int32
  reserved : UInt32
  command : ByteVec commandLen
  deriving DecidableEq

def ExitKernelEvent.size : Nat := 48

structure TaskCreationEvent where
  timestampNs : UInt64
  cgroupId : UInt64
  childPid : UInt32
  childTgid : UInt32
  parentPid : UInt32
  parentTgid : UInt32
  childCommand : ByteVec commandLen
  parentCommand : ByteVec commandLen
  deriving DecidableEq

def TaskCreationEvent.size : Nat := 64

structure InboundKernelEvent where
  timestampNs : UInt64
  cgroupId : UInt64
  pidTgid : UInt64
  localAddress : ByteVec networkAddressLen
  remoteAddress : ByteVec networkAddressLen
  localPort : UInt16
  remotePort : UInt16
  eventKind : UInt8
  addressFamily : UInt8
  padding : ByteVec 2
  command : ByteVec commandLen

def InboundKernelEvent.size : Nat := 80

/-- A DNS packet; bytes of the payload past `payloadLen` mean nothing. -/
structure DnsPacketRecord where
  timestampNs : UInt64
  cgroupId : UInt64
  socketCookie : UInt64
  pidTgid : UInt64
  sequence : UInt32
  payloadLen : UInt16
  resolverPort : UInt16
  addressFamily : UInt8
  transport : UInt8
  direction : UInt8
  tcpFlags : UInt8
  resolverAddress : ByteVec networkAddressLen
  command : ByteVec commandLen
  payload : ByteVec dnsCaptureBytes

def DnsPacketRecord.size : Nat := 1312

/-- A file operation, without the bytes of its paths. -/
structure FileKernelEvent where
  timestampNs : UInt64
  cgroupId : UInt64
  pidTgid : UInt64
  descriptorGeneration : UInt64
  fd : Int32
  result : Int32
  pathLen : UInt16
  newPathLen : UInt16
  operation : UInt8
  flags : UInt8
  padding : ByteVec 2
  command : ByteVec commandLen

def FileKernelEvent.size : Nat := 2112

structure DecodeError where
  actual : Nat
  expected : Nat
  deriving DecidableEq, Repr

def requireSize (bytes : List UInt8) (expected : Nat) : Except DecodeError Unit :=
  if bytes.length ≠ expected then .error ⟨bytes.length, expected⟩ else .ok ()

def decode (bytes : List UInt8) : Except DecodeError KernelEvent := do
  requireSize bytes KernelEvent.size
  return {
    timestampNs := u64At bytes 0
    cgroupId := u64At bytes 8
    pidTgid := u64At bytes 16
    syscallId := u32At bytes 24
    connectResult := i32At bytes 28
    eventKind := u8At bytes 32
    addressFamily := u8At bytes 33
    connectOutcome := u8At bytes 34
    padding := u8At bytes 35
    destinationPort := u16At bytes 36
    errno := u16At bytes 38
    destinationAddress := arrayAt networkAddressLen bytes 40
    command := arrayAt commandLen bytes 56 }

def decodeInbound (bytes : List UInt8) : Except DecodeError InboundKernelEvent := do
  requireSize bytes InboundKernelEvent.size
  return {
    timestampNs := u64At bytes 0
    cgroupId := u64At bytes 8
    pidTgid := u64At bytes 16
    localAddress := arrayAt networkAddressLen bytes 24
    remoteAddress := arrayAt networkAddressLen bytes 40
    localPort := u16At bytes 56
    remotePort := u16At bytes 58
    eventKind := u8At bytes 60
    addressFamily := u8At bytes 61
    padding := arrayAt 2 bytes 62
    command := arrayAt commandLen bytes 64 }

def decodeDnsPacket (bytes : List UInt8) : Except DecodeError DnsPacketRecord := do
  requireSize bytes DnsPacketRecord.size
  return {
    timestampNs := u64At bytes 0
    cgroupId := u64At bytes 8
    socketCookie := u64At bytes 16
    pidTgid := u64At bytes 24
    sequence := u32At bytes 32
    payloadLen := u16At bytes 36
    resolverPort := u16At bytes 38
    addressFamily := u8At bytes 40
    transport := u8At bytes 41
    direction := u8At bytes 42
    tcpFlags := u8At bytes 43
    resolverAddress := arrayAt networkAddressLen bytes 44
    command := arrayAt commandLen bytes 60
    payload := arrayAt dnsCaptureBytes bytes 76 }

/-! ## Commands -/

/-- The bytes of a command before its first NUL. -/
def commandBytes (bytes : ByteVec commandLen) : List UInt8 := bytes.toList.takeWhile (· ≠ 0)

/-- The command of a task; anything that is not a padded UTF-8 name is `unknown`. -/
def decodeTaskCommand (bytes : ByteVec commandLen) : String :=
  let name := commandBytes bytes
  if name = [] ∨ (bytes.toList.drop name.length).any (· ≠ 0) then "unknown"
  else (Utf8.fromUtf8 name).getD "unknown"

/-- The command of a process event, with replacement characters. -/
def command (bytes : ByteVec commandLen) : String := Utf8.fromUtf8Lossy (commandBytes bytes)

inductive TaskDecodeError where
  | layout (error : DecodeError)
  | invalidIdentifier
  deriving DecidableEq, Repr

structure DecodedTaskCreation where
  kernel : TaskCreationEvent
  childCommand : String
  parentCommand : String
  deriving DecidableEq

def decodeTaskCreation (bytes : List UInt8) : Except TaskDecodeError DecodedTaskCreation := do
  (requireSize bytes TaskCreationEvent.size).mapError .layout
  let kernel : TaskCreationEvent := {
    timestampNs := u64At bytes 0
    cgroupId := u64At bytes 8
    childPid := u32At bytes 16
    childTgid := u32At bytes 20
    parentPid := u32At bytes 24
    parentTgid := u32At bytes 28
    childCommand := arrayAt commandLen bytes 32
    parentCommand := arrayAt commandLen bytes 48 }
  if kernel.childPid = 0 ∨ kernel.childTgid = 0 ∨ kernel.parentPid = 0 ∨ kernel.parentTgid = 0 then
    .error .invalidIdentifier
  else
    return {
      kernel
      childCommand := decodeTaskCommand kernel.childCommand
      parentCommand := decodeTaskCommand kernel.parentCommand }

/-! ## Exits -/

inductive ExitDecodeError where
  | layout (error : DecodeError)
  | invalidReserved
  | invalidWaitStatus (raw : Int32)
  | unsupportedSignal (signal : UInt8)
  deriving DecidableEq

structure DecodedExitEvent where
  kernel : ExitKernelEvent
  termination : ProcessTermination
  deriving DecidableEq

def canonicalSignalName (signal : UInt8) : String :=
  match signal.toNat with
  | 1 => "SIGHUP"
  | 2 => "SIGINT"
  | 3 => "SIGQUIT"
  | 4 => "SIGILL"
  | 5 => "SIGTRAP"
  | 6 => "SIGABRT"
  | 7 => "SIGBUS"
  | 8 => "SIGFPE"
  | 9 => "SIGKILL"
  | 10 => "SIGUSR1"
  | 11 => "SIGSEGV"
  | 12 => "SIGUSR2"
  | 13 => "SIGPIPE"
  | 14 => "SIGALRM"
  | 15 => "SIGTERM"
  | 16 => "SIGSTKFLT"
  | 17 => "SIGCHLD"
  | 18 => "SIGCONT"
  | 19 => "SIGSTOP"
  | 20 => "SIGTSTP"
  | 21 => "SIGTTIN"
  | 22 => "SIGTTOU"
  | 23 => "SIGURG"
  | 24 => "SIGXCPU"
  | 25 => "SIGXFSZ"
  | 26 => "SIGVTALRM"
  | 27 => "SIGPROF"
  | 28 => "SIGWINCH"
  | 29 => "SIGIO"
  | 30 => "SIGPWR"
  | 31 => "SIGSYS"
  | n => "SIGRTMIN+" ++ toString (n - 32)

/-- A word that was masked to one byte. -/
def maskedByte (v : Int32) : UInt8 := UInt8.ofNat v.toBitVec.toNat

def decodeWaitStatus (raw : Int32) : Except ExitDecodeError ProcessTermination :=
  if raw < 0 ∨ raw &&& ~~~0xffff ≠ 0 then .error (.invalidWaitStatus raw)
  else
    let low := maskedByte (raw &&& 0xff)
    if low = 0 then .ok (.exited (maskedByte ((raw >>> 8) &&& 0xff)))
    else
      let signal := low &&& 0x7f
      let coreDumpFlag := decide (low &&& 0x80 ≠ 0)
      if raw &&& ~~~0xff ≠ 0 ∨ signal = 0 ∨ signal > maxLinuxSignal then
        .error (if signal > maxLinuxSignal then .unsupportedSignal signal else .invalidWaitStatus raw)
      else
        (ProcessTermination.newSignaled signal (canonicalSignalName signal) coreDumpFlag).mapError
          fun _ => .unsupportedSignal signal

def decodeExit (bytes : List UInt8) : Except ExitDecodeError DecodedExitEvent := do
  (requireSize bytes ExitKernelEvent.size).mapError .layout
  let rawWaitStatus := i32At bytes 24
  let reserved := u32At bytes 28
  if reserved ≠ 0 then .error .invalidReserved
  else do
    let termination ← decodeWaitStatus rawWaitStatus
    return {
      kernel := {
        timestampNs := u64At bytes 0
        cgroupId := u64At bytes 8
        pidTgid := u64At bytes 16
        rawWaitStatus
        reserved
        command := arrayAt commandLen bytes 32 }
      termination }

/-! ## Connections and sockets -/

inductive NetworkDecodeError where
  | unsupportedFamily (family : UInt8)
  | unsupportedOutcome (outcome : UInt8)
  | unsupportedInboundKind (kind : UInt8)
  | invalid (error : NetworkConnectError)
  | invalidInbound (error : InboundNetworkError)
  deriving DecidableEq

/-- The address of a record: four bytes for the first family, all for the second. -/
def recordAddress (family : UInt8) (address : ByteVec networkAddressLen) : Except NetworkDecodeError IpAddr :=
  if family = addressFamilyIpv4 then .ok (.v4 (arrayAt 4 address.toList 0))
  else if family = addressFamilyIpv6 then .ok (.v6 address)
  else .error (.unsupportedFamily family)

def connectOutcome (event : KernelEvent) : Except NetworkDecodeError (NetworkConnectOutcome × Option UInt16) :=
  if event.connectOutcome = connectOutcomeSucceeded then
    .ok (.succeeded, if event.errno ≠ 0 then some event.errno else none)
  else if event.connectOutcome = connectOutcomeInProgress then .ok (.inProgress, some event.errno)
  else if event.connectOutcome = connectOutcomeFailed then .ok (.failed, some event.errno)
  else .error (.unsupportedOutcome event.connectOutcome)

def networkConnect (event : KernelEvent) : Except NetworkDecodeError NetworkConnect := do
  let address ← recordAddress event.addressFamily event.destinationAddress
  let (outcome, errno) ← connectOutcome event
  (NetworkConnect.new address.family address event.destinationPort outcome errno).mapError .invalid

def inboundPayload (event : InboundKernelEvent) : Except NetworkDecodeError EventPayload := do
  let localAddress ← recordAddress event.addressFamily event.localAddress
  let remoteAddress ← recordAddress event.addressFamily event.remoteAddress
  if event.eventKind = eventKindNetworkListen then
    ((NetworkListen.new localAddress.family localAddress event.localPort).map .networkListen).mapError
      .invalidInbound
  else if event.eventKind = eventKindNetworkAccept then
    ((NetworkAccept.new localAddress.family localAddress event.localPort remoteAddress event.remotePort).map
      .networkAccept).mapError .invalidInbound
  else .error (.unsupportedInboundKind event.eventKind)

/-! ## Files -/

inductive FileDecodeError where
  | layout (error : DecodeError)
  | unsupportedOperation (operation : UInt8)
  | incompletePath
  | invalidFlags (flags : UInt8)
  | invalidPathLength
  | invalidUtf8
  | invalidPath (error : FileActivityError)
  deriving DecidableEq

structure DecodedFileEvent where
  kernel : FileKernelEvent
  payload : EventPayload

def decodePath (bytes : List UInt8) : Except FileDecodeError FileActivityPath := do
  let value ← okOr (Utf8.fromUtf8 bytes) .invalidUtf8
  (FileActivityPath.new value).mapError .invalidPath

/-- Whether the record says that a file was replaced. -/
def replacedFlag (flags : UInt8) : Option Bool :=
  if flags &&& fileFlagReplacementKnown ≠ 0 then some (flags &&& fileFlagReplaced ≠ 0) else none

/-- The event of an operation; only a rename has a new path. -/
def filePayload (operation flags : UInt8) (path : FileActivityPath) (newPath : Option FileActivityPath) :
    Except FileDecodeError EventPayload :=
  if operation = fileOperationCreate ∧ newPath = none then .ok (.fileCreate { path })
  else if operation = fileOperationModify ∧ newPath = none then .ok (.fileModify { path })
  else if operation = fileOperationDelete ∧ newPath = none then .ok (.fileDelete { path })
  else if operation = fileOperationRename then do
    let newPath ← okOr newPath .invalidPathLength
    let rename ← (FileRename.new path newPath (replacedFlag flags)).mapError .invalidPath
    return .fileRename rename
  else .error (.unsupportedOperation operation)

def fileKernelEvent (bytes : List UInt8) : FileKernelEvent where
  timestampNs := u64At bytes 0
  cgroupId := u64At bytes 8
  pidTgid := u64At bytes 16
  descriptorGeneration := u64At bytes 24
  fd := i32At bytes 32
  result := i32At bytes 36
  pathLen := u16At bytes 40
  newPathLen := u16At bytes 42
  operation := u8At bytes 44
  flags := u8At bytes 45
  padding := arrayAt 2 bytes 46
  command := arrayAt commandLen bytes 48

/-- A flag that is not known, or that a file was replaced where that is not known. -/
def invalidFileFlags (flags : UInt8) : Prop :=
  flags &&& ~~~(fileFlagComplete ||| fileFlagReplaced ||| fileFlagReplacementKnown) ≠ 0 ∨
    (flags &&& fileFlagReplaced ≠ 0 ∧ flags &&& fileFlagReplacementKnown = 0)

instance (flags : UInt8) : Decidable (invalidFileFlags flags) := inferInstanceAs (Decidable (_ ∨ _))

def decodeFile (bytes : List UInt8) : Except FileDecodeError DecodedFileEvent := do
  (requireSize bytes FileKernelEvent.size).mapError .layout
  let kernel := fileKernelEvent bytes
  if invalidFileFlags kernel.flags then .error (.invalidFlags kernel.flags)
  else if kernel.flags &&& fileFlagComplete = 0 then .error .incompletePath
  else if kernel.pathLen = 0 ∨ kernel.pathLen.toNat > filePathLen ∨ kernel.newPathLen.toNat > filePathLen then
    .error .invalidPathLength
  else do
    let path ← decodePath ((bytes.drop 64).take kernel.pathLen.toNat)
    let newPath ← transpose decodePath
      (if kernel.newPathLen ≠ 0 then some ((bytes.drop (64 + filePathLen)).take kernel.newPathLen.toNat) else none)
    let payload ← filePayload kernel.operation kernel.flags path newPath
    return { kernel, payload }

/-! ## What a decoded record guarantees -/

theorem decodeTaskCommand_ne_empty {bytes : ByteVec commandLen} : decodeTaskCommand bytes ≠ "" := by
  unfold decodeTaskCommand
  dsimp only
  split
  · decide
  next h =>
  cases hs : Utf8.fromUtf8 (commandBytes bytes) with
  | none => decide
  | some =>
    rintro rfl
    have hlen : 0 = (commandBytes bytes).length := Utf8.len_fromUtf8 hs
    exact h (Or.inl (List.eq_nil_of_length_eq_zero hlen.symm))

theorem len_decodeTaskCommand_le (bytes : ByteVec commandLen) :
    Text.len (decodeTaskCommand bytes) ≤ max 7 (commandBytes bytes).length := by
  have hunknown : Text.len "unknown" ≤ max 7 (commandBytes bytes).length := le_max_left _ _
  unfold decodeTaskCommand
  dsimp only
  split
  · exact hunknown
  · cases hs : Utf8.fromUtf8 (commandBytes bytes) with
    | none => exact hunknown
    | some => exact (Utf8.len_fromUtf8 hs).le.trans (le_max_right _ _)

variable {bytes : ByteVec commandLen}

theorem commandBytes_length_lt (h : 0 ∈ bytes.toList) : (commandBytes bytes).length < commandLen := by
  have hp : commandBytes bytes <+: bytes.toList := List.takeWhile_prefix _
  refine lt_of_le_of_ne (hp.length_le.trans_eq bytes.toList_length) fun heq => ?_
  have hall := hp.eq_of_length (heq.trans bytes.toList_length.symm)
  have hne := List.mem_takeWhile_imp (hall ▸ h : (0 : UInt8) ∈ commandBytes bytes)
  simp at hne

theorem commandBytes_of_full (h : 0 ∉ bytes.toList) : commandBytes bytes = bytes.toList := by
  unfold commandBytes
  rw [List.takeWhile_eq_self_iff]
  intro b hb
  simp only [ne_eq, decide_eq_true_eq]
  rintro rfl
  exact h hb

theorem decodeTaskCommand_of_full (h : 0 ∉ bytes.toList) :
    decodeTaskCommand bytes = (Utf8.fromUtf8 bytes.toList).getD "unknown" := by
  have hlength : bytes.toList.length = 16 := bytes.toList_length
  unfold decodeTaskCommand
  dsimp only
  rw [commandBytes_of_full h, List.drop_length, if_neg]
  rintro (hnil | hany)
  · rw [hnil] at hlength
    cases hlength
  · cases hany

/-- A task's command fits a thread name unless all sixteen bytes spell a text. -/
theorem decodeTaskCommand_fits_iff : Text.len (decodeTaskCommand bytes) ≤ maxThreadNameBytes ↔
      (0 ∈ bytes.toList ∨ Utf8.fromUtf8 bytes.toList = none) := by
  by_cases hzero : (0 : UInt8) ∈ bytes.toList
  · have hle := len_decodeTaskCommand_le bytes
    have hlt : (commandBytes bytes).length < 16 := commandBytes_length_lt hzero
    refine iff_of_true ?_ (Or.inl hzero)
    show Text.len (decodeTaskCommand bytes) ≤ 15
    omega
  · rw [decodeTaskCommand_of_full hzero]
    cases hs : Utf8.fromUtf8 bytes.toList with
    | none => exact iff_of_true (by decide) (Or.inr rfl)
    | some s =>
      have hlen : Text.len s = 16 := (Utf8.len_fromUtf8 hs).trans bytes.toList_length
      refine iff_of_false ?_ (by simp [hzero])
      show ¬ Text.len s ≤ 15
      omega

/-! ### Wait statuses -/

variable {raw : Int32}

theorem toNat_lt_of_and_eq_zero {mask : Int32} {k : Nat}
    (hmask : ∀ i, i < 32 → k ≤ i → mask.toBitVec.toNat.testBit i) (h : raw &&& mask = 0) :
    raw.toBitVec.toNat < 2 ^ k := by
  have hand : raw.toBitVec.toNat &&& mask.toBitVec.toNat = 0 :=
    congrArg (fun x : Int32 => x.toBitVec.toNat) h
  apply Nat.lt_pow_two_of_testBit
  intro i hi
  by_cases h32 : i < 32
  · have hbit := congrArg (Nat.testBit · i) hand
    simpa [hmask i h32 hi] using hbit
  · exact Nat.testBit_lt_two_pow
      (Nat.lt_of_lt_of_le raw.toBitVec.isLt (Nat.pow_le_pow_right (by decide) (by omega)))

theorem toNat_and_255 : (raw &&& 0xff).toBitVec.toNat = raw.toBitVec.toNat % 256 := by
  exact Nat.and_two_pow_sub_one_eq_mod _ 8

theorem toNat_shiftRight_8 (h : raw.toBitVec.toNat < 2 ^ 16) :
    (raw >>> 8).toBitVec.toNat = raw.toBitVec.toNat / 256 := by
  have hsign : raw.toBitVec.msb = false := by
    rw [BitVec.msb_eq_false_iff_two_mul_lt]
    omega
  rw [Int32.toBitVec_shiftRight, BitVec.sshiftRight_eq', BitVec.sshiftRight_eq_of_msb_false hsign,
    BitVec.toNat_ushiftRight]
  exact Nat.shiftRight_eq_div_pow _ 8

theorem toNat_exitedWaitStatus {status : UInt8} : (exitedWaitStatus status).toBitVec.toNat = status.toNat * 256 := by
  have htable : ∀ n < 256, (exitedWaitStatus (UInt8.ofNat n)).toBitVec.toNat = n * 256 := by decide +kernel
  rw [← htable status.toNat status.toNat_lt, UInt8.ofNat_toNat]

theorem signaledWaitStatus_split {low : UInt8} :
    Int32.ofNat low.toNat = signaledWaitStatus (low &&& 0x7f) (decide (low &&& 0x80 ≠ 0)) := by
  have htable : ∀ n < 256, Int32.ofNat n =
      signaledWaitStatus (UInt8.ofNat n &&& 0x7f) (decide (UInt8.ofNat n &&& 0x80 ≠ 0)) := by decide +kernel
  rw [htable low.toNat low.toNat_lt, UInt8.ofNat_toNat]

theorem decodeWaitStatus_eq_ok {t : ProcessTermination} (h : decodeWaitStatus raw = .ok t) :
    raw = waitStatusOf t ∧ TerminationBuilt t := by
  unfold decodeWaitStatus at h
  simp only [ite_error_eq_ok, not_or, not_not] at h
  obtain ⟨⟨-, hhigh⟩, h⟩ := h
  have hrange : raw.toBitVec.toNat < 2 ^ 16 := toNat_lt_of_and_eq_zero (by decide) hhigh
  have hlow : (maskedByte (raw &&& 0xff)).toNat = raw.toBitVec.toNat % 256 := by
    rw [maskedByte, toNat_and_255, UInt8.toNat_ofNat']
    omega
  split at h
  · next hzero =>
    cases h
    rw [hzero, UInt8.toNat_zero] at hlow
    refine ⟨?_, trivial⟩
    have hbyte : (maskedByte ((raw >>> 8) &&& 0xff)).toNat = raw.toBitVec.toNat / 256 := by
      rw [maskedByte, toNat_and_255, toNat_shiftRight_8 hrange, UInt8.toNat_ofNat']
      omega
    apply Int32.toBitVec_inj.mp
    apply BitVec.eq_of_toNat_eq
    rw [waitStatusOf, toNat_exitedWaitStatus, hbyte]
    omega
  · obtain ⟨hchecks, hsignaled⟩ := ite_error_eq_ok.mp h
    simp only [not_or, not_not] at hchecks
    have hbyte : raw.toBitVec.toNat < 2 ^ 8 := toNat_lt_of_and_eq_zero (by decide) hchecks.1
    rw [mapError_eq_ok] at hsignaled
    obtain ⟨-, -, rfl⟩ := ProcessTermination.newSignaled_eq_ok.mp hsignaled
    have hraw : raw = Int32.ofNat (maskedByte (raw &&& 0xff)).toNat := by
      apply Int32.toBitVec_inj.mp
      apply BitVec.eq_of_toNat_eq
      rw [hlow, Int32.toBitVec_ofNat', BitVec.toNat_ofNat]
      omega
    exact ⟨hraw.trans signaledWaitStatus_split, hsignaled⟩

end Okoscope.Agent.KernelRecords
