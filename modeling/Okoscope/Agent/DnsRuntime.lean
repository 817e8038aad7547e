import Okoscope.Agent.Config
import Okoscope.Agent.DnsMessage
import Okoscope.Agent.DnsTcp
import Okoscope.Agent.DnsTransactions

/-!
# From DNS packets to events

A packet is put together with the others of its stream, parsed, and matched: a
question that goes out waits for its answer, and an answer that comes in is
taken for the process that asked.
-/
namespace Okoscope.Agent.DnsRuntime

open Lib EventModel
open Config KernelRecords DnsMessage
open DnsTcp (TcpDnsReassembler TcpDnsStreamKey)
open DnsTransactions (DnsState PendingQueryKey)
open Emission (pidOf tgidOf)

structure DnsProcessor where
  state : DnsState
  tcp : TcpDnsReassembler
  maxTtlSeconds : UInt32

/-- Five seconds of the monotonic clock. -/
def transactionTimeout : Nat := 5 * 10 ^ 9

structure PacketContext where
  direction : DnsDirection
  transport : DnsTransport
  resolverAddress : IpAddr
  /-- The monotonic clock. -/
  now : Nat
  /-- The clock an answer is dated with. -/
  observedAt : DateTime

def transport (value : UInt8) : Option DnsTransport :=
  if value = dnsTransportUdp then some .udp else if value = dnsTransportTcp then some .tcp else none

def direction (value : UInt8) : Option DnsDirection :=
  if value = dnsDirectionEgress then some .egress else if value = dnsDirectionIngress then some .ingress else none

def resolverAddress (packet : DnsPacketRecord) : Option IpAddr :=
  (recordAddress packet.addressFamily packet.resolverAddress).toOption

def processIdentity (packet : DnsPacketRecord) : ProcessIdentity where
  cgroupId := packet.cgroupId
  pid := pidOf packet.pidTgid
  tgid := tgidOf packet.pidTgid
  command := if command packet.command = "" then "dns" else command packet.command

variable {p : DnsProcessor} {packet : DnsPacketRecord} {parsed : ParsedDnsMessage} {context : PacketContext}

namespace DnsProcessor

def new (config : DnsObservationConfig) : DnsProcessor where
  state := DnsState.new config.maxPendingTransactions config.maxNamesPerAddress transactionTimeout
    (config.maxTtlSeconds.toNat * 10 ^ 9)
  tcp := TcpDnsReassembler.new config.maxTcpStreams config.maxCapturedBytes transactionTimeout
  maxTtlSeconds := config.maxTtlSeconds

def queryKey (packet : DnsPacketRecord) (parsed : ParsedDnsMessage) (context : PacketContext) : PendingQueryKey where
  cgroupId := packet.cgroupId
  transport := context.transport
  resolverAddress := context.resolverAddress
  transactionId := parsed.transactionId
  name := parsed.name
  queryType := parsed.queryType

def queryOf (parsed : ParsedDnsMessage) (context : PacketContext) : NetworkDnsQuery where
  transactionId := parsed.transactionId
  direction := context.direction
  transport := context.transport
  resolverAddress := context.resolverAddress
  name := parsed.name
  queryType := parsed.queryType

def responseOf (parsed : ParsedDnsMessage) (context : PacketContext) : NetworkDnsResponse where
  transactionId := parsed.transactionId
  direction := context.direction
  transport := context.transport
  resolverAddress := context.resolverAddress
  name := parsed.name
  queryType := parsed.queryType
  responseCode := parsed.responseCode
  truncated := parsed.truncated
  answers := parsed.answers
  cnameChain := parsed.cnameChain
  effectiveTtlSeconds := parsed.effectiveTtlSeconds

/-- Questions go out and answers come in; an answer nobody waits for is no event. -/
def typedEvent (p : DnsProcessor) (packet : DnsPacketRecord) (parsed : ParsedDnsMessage) (context : PacketContext) :
    Option (ProcessIdentity × EventPayload) × DnsProcessor :=
  let key := queryKey packet parsed context
  if parsed.isResponse = false then
    if context.direction ≠ .egress then (none, p)
    else
      let process := processIdentity packet
      let (registered, state) := p.state.registerQuery key process context.now
      (if registered then some (process, .networkDnsQuery (queryOf parsed context)) else none, { p with state })
  else if context.direction ≠ .ingress then (none, p)
  else
    let response := responseOf parsed context
    let (process, state) := p.state.correlateResponse key response context.now context.observedAt
    (process.map (·, .networkDnsResponse response), { p with state })

/-- The message a packet completes, if it completes one. -/
def messageOf (p : DnsProcessor) (packet : DnsPacketRecord) (transport : DnsTransport) (payload : List UInt8) (now : Nat) :
    Option (List UInt8) × DnsProcessor :=
  match transport with
  | .udp => (some payload, p)
  | .tcp =>
    let key : TcpDnsStreamKey := ⟨packet.cgroupId, packet.socketCookie, packet.direction⟩
    let (framed, tcp) := p.tcp.push key packet.sequence payload now
    (framed.toOption.join, { p with tcp })

def processMessage (p : DnsProcessor) (packet : DnsPacketRecord) (context : PacketContext) (payload : List UInt8) :
    Option (ProcessIdentity × EventPayload) × DnsProcessor :=
  let (message, p) := p.messageOf packet context.transport payload context.now
  match message with
  | none => (none, p)
  | some message =>
    match parseMessage message p.maxTtlSeconds with
    | .error _ => (none, p)
    | .ok parsed => p.typedEvent packet parsed context

/-- What a packet's header says of it, if it is understood. -/
def contextOf (packet : DnsPacketRecord) (now : Nat) (observedAt : DateTime) : Option PacketContext := do
  let transport ← transport packet.transport
  let direction ← direction packet.direction
  let resolverAddress ← resolverAddress packet
  return { direction, transport, resolverAddress, now, observedAt }

def process (p : DnsProcessor) (packet : DnsPacketRecord) (now : Nat) (observedAt : DateTime) :
    Option (ProcessIdentity × EventPayload) × DnsProcessor :=
  match contextOf packet now observedAt with
  | none => (none, p)
  | some context =>
    if packet.payloadLen.toNat > dnsCaptureBytes then (none, p)
    else p.processMessage packet context (packet.payload.toList.take packet.payloadLen.toNat)

theorem processMessage_of_message {q : DnsProcessor} {payload message : List UInt8}
    (hmessage : p.messageOf packet context.transport payload context.now = (some message, q))
    (hparsed : parseMessage message q.maxTtlSeconds = .ok parsed) :
    p.processMessage packet context payload = q.typedEvent packet parsed context := by
  rw [processMessage, hmessage]
  dsimp only
  rw [hparsed]

end DnsProcessor
end Okoscope.Agent.DnsRuntime
