import Okoscope.Agent.Admission
import Okoscope.Agent.Observation
import Okoscope.Agent.Startup

/-!
# Records that get past the settings

For every setting that decides nothing there is a stream of records whose events
the setting does not enable. Together with what unrestricted settings guarantee,
this says exactly which configurations are enforced.
-/
namespace Okoscope.Agent.Observation

open Lib Lib.Bytes Lib.Run Lib.Outcome Lib.FiniteMap EventModel
open Config KernelRecords Emission
open DnsMessage DnsRuntime FileRuntime Observer
open DnsTransactions (DnsState PendingQueryKey)
open DnsTcp (TcpDnsReassembler)
open Admission (apiSurroundings)
open Startup (execConfig)
open AgentState
open FileModifyAggregator
open DnsProcessor List

/-- Whatever the attached programs emit, only enabled events are routed. -/
def Enforced (observation : ObservationConfig) (architecture : Architecture) : Prop :=
  ∀ epoch turns outputs s, (∀ turn ∈ turns, turn.input.Emitted observation) →
    run (step observation architecture) (start observation epoch) turns = .ok (outputs, s) →
    ∀ event ∈ outputs.flatten, Enabled observation event.payload

variable {s t : AgentState} {input : Input} {events : List RuntimeEvent} {message bytes : List UInt8}
variable {packet : DnsPacketRecord} {maxTtlSeconds : UInt32} {dns : DnsObservationConfig} {payload : EventPayload}
variable {path : FileActivityPath}

variable {newPath : Option FileActivityPath} {files : FileObservationConfig} {decoded : DecodedFileEvent}
variable {observedAt : DateTime} {now : Nat}

section
variable {observation : ObservationConfig} {architecture : Architecture}

/-- A turn in which the rate limiters let everything through. -/
def freely (input : Input) : Turn := ⟨input, fun _ => true⟩

theorem step_freely (h : perform observation architecture s input = .ok (events, t)) :
    step observation architecture s (freely input) = .ok (events, t) := by
  rw [step, freely, h]
  exact congrArg (fun events => Except.ok (events, t)) (filter_true events)

theorem Emitted.of_switch {kind : RecordKind} (hkind : input.kind = some kind)
    (h : switch observation kind) : input.Emitted observation := by
  intro other hother
  cases hkind.symm.trans hother
  exact emitted_iff.mpr h

theorem Enforced.first (h : Enforced observation architecture) (hemitted : input.Emitted observation)
    (hperform : perform observation architecture (start observation Uuid.nil) input = .ok (events, t)) :
    ∀ event ∈ events, Enabled observation event.payload := by
  have hrun : run (step observation architecture) (start observation Uuid.nil) [freely input] =
      .ok ([events], t) := run_cons_eq_ok.mpr ⟨events, t, [], step_freely hperform, rfl, rfl⟩
  have hall := h Uuid.nil [freely input] [events] t (forall_mem_singleton.mpr hemitted) hrun
  rwa [flatten_singleton] at hall

theorem Enforced.second (h : Enforced observation architecture) {first : Input}
    (hfirst : first.Emitted observation) (hemitted : input.Emitted observation) {before : List RuntimeEvent}
    (hbefore : perform observation architecture (start observation Uuid.nil) first = .ok (before, s))
    (hperform : perform observation architecture s input = .ok (events, t)) :
    ∀ event ∈ events, Enabled observation event.payload := by
  have hrun : run (step observation architecture) (start observation Uuid.nil) [freely first, freely input] =
      .ok ([before, events], t) :=
    run_cons_eq_ok.mpr ⟨before, s, [events], step_freely hbefore,
      run_cons_eq_ok.mpr ⟨events, t, [], step_freely hperform, rfl, rfl⟩, rfl⟩
  have hturns : ∀ turn ∈ [freely first, freely input], turn.input.Emitted observation :=
    forall_mem_cons.mpr ⟨hfirst, forall_mem_singleton.mpr hemitted⟩
  intro event hevent
  exact h Uuid.nil _ _ t hturns hrun event (mem_flatten.mpr ⟨events, by simp, hevent⟩)

/-- The first record has one event, with this payload. -/
def Yields (observation : ObservationConfig) (architecture : Architecture) (input : Input) (payload : EventPayload) : Prop :=
  ∃ event t, perform observation architecture (start observation Uuid.nil) input = .ok ([event], t) ∧
    event.payload = payload

theorem Enforced.yields (h : Enforced observation architecture) (hemitted : input.Emitted observation)
    (hperform : Yields observation architecture input payload) : Enabled observation payload := by
  obtain ⟨event, _, hperform, rfl⟩ := hperform
  exact h.first hemitted hperform event mem_cons_self

/-! ## Executions and listening sockets -/

def execBytes : List UInt8 := replicate 32 0 ++ [eventKindExec] ++ replicate 39 0

theorem Enforced.processExec (h : Enforced observation architecture) : observation.processExec := by
  obtain ⟨value, hperform⟩ : ∃ value, Yields observation architecture
      (.record .events (apiSurroundings none) execBytes) (.processExec value) := ⟨_, _, _, rfl, rfl⟩
  exact h.yields (Emitted.of_switch rfl rfl) hperform

/-- A socket that listens at port 1 of any address. -/
def listenBytes : List UInt8 :=
  replicate 56 0 ++ [1, 0, 0, 0, eventKindNetworkListen, addressFamilyIpv4] ++ replicate 18 0

theorem Enforced.listen (h : Enforced observation architecture) (haccept : observation.network.accept) :
    observation.network.listen := by
  have hswitch : switch observation .listen := by rw [switch, haccept, Bool.or_true]
  obtain ⟨value, hperform⟩ : ∃ value, Yields observation architecture
      (.record .inbound (apiSurroundings none) listenBytes) (.networkListen value) := ⟨_, _, _, rfl, rfl⟩
  exact h.yields (Emitted.of_switch rfl hswitch) hperform

/-! ## DNS packets -/

theorem toList_arrayAt_append {before field rest : List UInt8} {n offset : Nat} (hoffset : before.length = offset)
    (h : field.length = n) : (arrayAt n (before ++ field ++ rest) offset).toList = field := by
  subst hoffset
  apply ext_getElem
  · rw [List.Vector.toList_length, h]
  intro i hi hfield
  have hbyte : u8At (before ++ field ++ rest) (before.length + i) = field[i] := by
    rw [u8At, append_assoc, getD_eq_getElem?_getD, getElem?_append_right (Nat.le_add_right _ _),
      Nat.add_sub_cancel_left, getElem?_append_left hfield, getElem?_eq_getElem hfield, Option.getD_some]
  rw [← hbyte]
  simp [arrayAt, List.Vector.toList_ofFn]

theorem toNat_u16At_leBytes {n : Nat} (h : n < 2 ^ 16) : (UInt16.ofNat (leNat (leBytes 2 n))).toNat = n := by
  rw [leNat_leBytes, UInt16.toNat_ofNat']
  omega

/-- A packet over the first address family, from or to the address of zeros. -/
def packetHeader (transport direction : UInt8) (length : Nat) : List UInt8 :=
  replicate 36 0 ++ (leBytes 2 length ++ ([0, 0, addressFamilyIpv4, transport, direction, 0] ++ replicate 32 0))

/-- The payload of a packet, and the padding of the record. -/
def packetBytes (transport direction : UInt8) (message : List UInt8) : List UInt8 :=
  packetHeader transport direction message.length ++
    (message ++ replicate (dnsCaptureBytes - message.length) 0) ++ replicate 4 0

def anyAddress : IpAddr := .v4 (ByteVec.fill 4 0)

/-- What the packet of a message is decoded to. -/
structure Carries (packet : DnsPacketRecord) (transport direction : UInt8) (message : List UInt8) : Prop where
  transport : packet.transport = transport
  direction : packet.direction = direction
  cgroupId : packet.cgroupId = 0
  resolver : resolverAddress packet = some anyAddress
  length : packet.payloadLen.toNat = message.length
  payload : packet.payload.toList.take packet.payloadLen.toNat = message

theorem decodeDnsPacket_packetBytes (transport direction : UInt8) (h : message.length ≤ dnsCaptureBytes) :
    ∃ packet, decodeDnsPacket (packetBytes transport direction message) = .ok packet ∧
      Carries packet transport direction message := by
  have hheader : ∀ length, (packetHeader transport direction length).length = 76 := fun _ => rfl
  have hrest : (message ++ replicate (dnsCaptureBytes - message.length) 0).length = dnsCaptureBytes := by
    rw [length_append, length_replicate]
    omega
  have hsize : (packetBytes transport direction message).length = DnsPacketRecord.size := by
    rw [packetBytes, length_append, length_append, hheader, hrest]
    rfl
  obtain ⟨rest, hbytes⟩ : ∃ rest, packetBytes transport direction message =
      packetHeader transport direction message.length ++ rest := ⟨_, append_assoc _ _ _⟩
  have hlength : (u16At (packetBytes transport direction message) 36).toNat = message.length := by
    rw [hbytes]
    exact toNat_u16At_leBytes (h.trans_lt (by decide))
  have hpayload : (arrayAt dnsCaptureBytes (packetBytes transport direction message) 76).toList =
      message ++ replicate (dnsCaptureBytes - message.length) 0 := toList_arrayAt_append (hheader _) hrest
  rw [decodeDnsPacket, requireSize, if_neg (not_not.mpr hsize)]
  refine ⟨_, rfl, ?_, ?_, ?_, ?_, hlength, ?_⟩
  · rfl
  · rfl
  · rfl
  · rfl
  · rw [hlength, hpayload, take_left]

section
variable {transport direction : UInt8} (h : Carries packet transport direction message) {t : DnsTransport}
  {d : DnsDirection} (ht : DnsRuntime.transport transport = some t) (hd : DnsRuntime.direction direction = some d)
include h ht hd

theorem Carries.contextOf :
    DnsProcessor.contextOf packet now observedAt = some ⟨d, t, anyAddress, now, observedAt⟩ := by
  rw [DnsProcessor.contextOf, h.transport, h.direction, h.resolver, ht, hd]
  rfl

theorem Carries.process
    (hlength : message.length ≤ dnsCaptureBytes) (p : DnsProcessor) (now : Nat) (observedAt : DateTime) :
    p.process packet now observedAt = p.processMessage packet ⟨d, t, anyAddress, now, observedAt⟩ message := by
  rw [DnsProcessor.process, h.contextOf ht hd]
  dsimp only
  rw [if_neg (by rw [h.length]; omega), h.payload]

end

/-- A question for the address of one name. -/
def question : List UInt8 := [0, 7, 1, 0, 0, 1, 0, 0, 0, 0, 0, 0, 1, 97, 0, 0, 1, 0, 1]

/-- An address of the name that was asked for, which lives for a second. -/
def addressRecord : List UInt8 := [0xc0, 12, 0, 1, 0, 1, 0, 0, 0, 1, 0, 4, 0, 0, 0, 0]

/-- The answer to the question, with sixteen addresses. -/
def crowdedAnswer : List UInt8 :=
  [0, 7, 0x81, 0, 0, 1, 0, 16, 0, 0, 0, 0, 1, 97, 0, 0, 1, 0, 1] ++ (replicate 16 addressRecord).flatten

theorem parseMessage_of_brief {length : Nat} {q : Question} (hquestion : parseQuestion bytes = .ok q)
    (hbrief : Brief bytes length q.answerCount q.answersOffset) (hmax : 1 ≤ maxTtlSeconds) :
    parseMessage bytes maxTtlSeconds = parseMessage bytes 1 := by
  have hzero : maxTtlSeconds ≠ 0 := by
    rintro rfl
    exact absurd hmax (by decide)
  have hone : (1 : UInt32) ≠ 0 := by decide
  have hanswers := parseAnswers_of_brief hbrief hmax {}
  simp only [parseMessage, hquestion, hzero, hone, or_false]
  show (if _ then _ else (parseAnswers bytes maxTtlSeconds q.answerCount q.answersOffset {} >>= _)) = _
  rw [hanswers]
  rfl

theorem parseMessage_question (hmax : 1 ≤ maxTtlSeconds) :
    parseMessage question maxTtlSeconds = parseMessage question 1 := by
  obtain ⟨q, hq, hcount⟩ : ∃ q, parseQuestion question = .ok q ∧ q.answerCount = 0 := ⟨_, rfl, rfl⟩
  have hbrief : Brief question 0 q.answerCount q.answersOffset := by
    rw [hcount]
    intro j hj
    cases hj
  exact parseMessage_of_brief hq hbrief hmax

theorem brief_crowdedAnswer : Brief crowdedAnswer 16 16 19 := by
  have htable : ∀ j < 16, (readRecord crowdedAnswer (19 + 16 * j)).map (fun record => (record.ttl, record.dataEnd)) =
      .ok (1, 19 + 16 * (j + 1)) := by decide +kernel
  intro j hj
  obtain ⟨record, hread, he⟩ := map_eq_ok.mp (htable j hj)
  exact ⟨record, hread, congrArg Prod.fst he, congrArg Prod.snd he⟩

theorem parseMessage_crowdedAnswer (hmax : 1 ≤ maxTtlSeconds) :
    parseMessage crowdedAnswer maxTtlSeconds = parseMessage crowdedAnswer 1 := by
  have hquestion : (parseQuestion crowdedAnswer).map (fun q => (q.answerCount, q.answersOffset)) = .ok (16, 19) := by
    decide +kernel
  obtain ⟨q, hq, he⟩ := map_eq_ok.mp hquestion
  have hbrief : Brief crowdedAnswer 16 q.answerCount q.answersOffset := by
    have hcount : q.answerCount = 16 := congrArg Prod.fst he
    have hoffset : q.answersOffset = 19 := congrArg Prod.snd he
    rw [hcount, hoffset]
    exact brief_crowdedAnswer
  exact parseMessage_of_brief hq hbrief hmax

/-- The question and its answer, as the parser reads them. -/
theorem parsed_messages : ∃ asked answered, parseMessage question 1 = .ok asked ∧
    parseMessage crowdedAnswer 1 = .ok answered ∧ asked.isResponse = false ∧ answered.isResponse ∧
    answered.answers.length = maxDnsAnswers ∧ answered.transactionId = asked.transactionId ∧
    answered.name = asked.name ∧ answered.queryType = asked.queryType := by
  have hchecked : (do
      let asked ← parseMessage question 1
      let answered ← parseMessage crowdedAnswer 1
      return decide (asked.isResponse = false ∧ answered.isResponse ∧
        answered.answers.length = maxDnsAnswers ∧ answered.transactionId = asked.transactionId ∧
        answered.name = asked.name ∧ answered.queryType = asked.queryType)) = .ok true := by decide +kernel
  obtain ⟨asked, hasked, hrest⟩ := bind_eq_ok.mp hchecked
  obtain ⟨answered, hanswered, hfacts⟩ := bind_eq_ok.mp hrest
  exact ⟨asked, answered, hasked, hanswered, of_decide_eq_true (pure_eq_ok.mp hfacts)⟩

/-- What the checks of the DNS settings leave room for. -/
theorem dns_room (h : ¬ dns.outOfBounds) :
    dns.maxPendingTransactions ≠ 0 ∧ dns.maxTcpStreams ≠ 0 ∧ 512 ≤ dns.maxCapturedBytes ∧ 1 ≤ dns.maxTtlSeconds := by
  simp only [DnsObservationConfig.outOfBounds, not_or, not_not] at h
  exact ⟨h.2.2.1, h.2.2.2.1, h.2.1.1, h.2.2.2.2.2.2.1.1⟩

/-- The packet that completes the question reports it, and the question waits for its answer. -/
theorem process_question (h : ¬ dns.outOfBounds) {transport : DnsTransport} (code : UInt8) {framed : List UInt8}
    (hcode : DnsRuntime.transport code = some transport) (hlength : framed.length ≤ dnsCaptureBytes)
    (observedAt : DateTime)
    (hframed : ∀ packet, ∃ tcp, (new dns).messageOf packet transport framed now = (some question, { new dns with tcp }))
    {asked : ParsedDnsMessage} (hasked : parseMessage question 1 = .ok asked) (hquery : asked.isResponse = false) :
    let context : PacketContext := ⟨.egress, transport, anyAddress, now, observedAt⟩
    ∃ packet state tcp, decodeDnsPacket (packetBytes code dnsDirectionEgress framed) = .ok packet ∧ packet.cgroupId = 0 ∧
      (new dns).state.registerQuery (queryKey packet asked context) (processIdentity packet)
        now = (true, state) ∧
      (new dns).process packet now observedAt =
        (some (processIdentity packet, .networkDnsQuery (queryOf asked context)), { new dns with state, tcp }) := by
  intro context
  obtain ⟨hpending, -, -, httl⟩ := dns_room h
  obtain ⟨packet, hpacket, hcarries⟩ := decodeDnsPacket_packetBytes code dnsDirectionEgress hlength
  obtain ⟨tcp, hmessage⟩ := hframed packet
  have hstate : ((new dns).state.registerQuery (queryKey packet asked context) (processIdentity packet) now).1 = true :=
    congrArg Prod.fst (if_neg (Nat.not_le.mpr (Nat.pos_of_ne_zero hpending)))
  refine ⟨packet, _, tcp, hpacket, hcarries.cgroupId, Prod.ext hstate rfl, ?_⟩
  rw [hcarries.process hcode rfl hlength,
    processMessage_of_message hmessage ((parseMessage_question httl).trans hasked),
    typedEvent, if_pos hquery, if_neg (not_not.mpr rfl)]
  exact Prod.ext (if_pos hstate) rfl

/-- The question in a packet of either transport. -/
def questionPacket : DnsTransport → List UInt8
  | .udp => packetBytes dnsTransportUdp dnsDirectionEgress question
  | .tcp => packetBytes dnsTransportTcp dnsDirectionEgress (beBytes 2 question.length ++ question)

theorem process_questionPacket (h : ¬ dns.outOfBounds) (transport : DnsTransport) (now : Nat) (observedAt : DateTime) :
    ∃ packet process query, decodeDnsPacket (questionPacket transport) = .ok packet ∧
      ((new dns).process packet now observedAt).1 = some (process, .networkDnsQuery query) ∧
      query.transport = transport := by
  obtain ⟨-, hstreams, hbytes, -⟩ := dns_room h
  obtain ⟨_, -, hasked, -, hquery, -⟩ := parsed_messages
  cases transport with
  | udp =>
    obtain ⟨packet, _, _, hpacket, -, -, hprocess⟩ :=
      process_question h dnsTransportUdp rfl (by decide) observedAt (fun _ => ⟨_, rfl⟩) hasked hquery
    exact ⟨packet, _, _, hpacket, congrArg Prod.fst hprocess, rfl⟩
  | tcp =>
    have hframe := TcpDnsReassembler.frame_message (by decide : question ≠ []) (le_trans (by decide) hbytes) (by decide)
    have hframed : (beBytes 2 question.length ++ question).length ≤ dns.maxCapturedBytes + 2 :=
      le_trans (by decide : _ ≤ 514) (Nat.add_le_add_right hbytes 2)
    have hmessage : ∀ packet, ∃ tcp, (new dns).messageOf packet .tcp
        (beBytes 2 question.length ++ question) now = (some question, { new dns with tcp }) := by
      intro packet
      have hpush : ((new dns).tcp.push ⟨packet.cgroupId, packet.socketCookie, packet.direction⟩
          packet.sequence (beBytes 2 question.length ++ question) now).1 = .ok (some question) := by
        have hroom : size ((new dns).tcp.expire now).streams < (new dns).tcp.maxStreams := Nat.pos_of_ne_zero hstreams
        refine (congrArg Prod.fst (TcpDnsReassembler.push_eq (by decide) (fun _ => hroom) rfl
          ((Nat.zero_add _).le.trans hframed))).trans ?_
        rw [List.nil_append, show TcpDnsReassembler.frame (new dns).tcp.maxMessageBytes _ = _ from hframe]
      exact ⟨_, Prod.ext (congrArg (fun framed => framed.toOption.join) hpush) rfl⟩
    obtain ⟨packet, _, _, hpacket, -, -, hprocess⟩ :=
      process_question h dnsTransportTcp rfl (by decide) observedAt hmessage hasked hquery
    exact ⟨packet, _, _, hpacket, congrArg Prod.fst hprocess, rfl⟩

/-- The question and then its answer, at one instant: all sixteen addresses are in the event. -/
theorem process_crowdedAnswer (h : ¬ dns.outOfBounds) :
    ∃ packet answer process response, decodeDnsPacket (questionPacket .udp) = .ok packet ∧
      decodeDnsPacket (packetBytes dnsTransportUdp dnsDirectionIngress crowdedAnswer) = .ok answer ∧
      (((new dns).process packet now observedAt).2.process answer now observedAt).1 =
        some (process, .networkDnsResponse response) ∧ response.answers.length = maxDnsAnswers := by
  obtain ⟨-, -, -, httl⟩ := dns_room h
  obtain ⟨asked, answered, hasked, hanswered, hquery, hresponse, hcount, hid, hname, htype⟩ := parsed_messages
  obtain ⟨packet, state, tcp, hpacket, hcgroup, hstate, hprocess⟩ :=
    process_question h dnsTransportUdp rfl (by decide) observedAt (fun _ => ⟨_, rfl⟩) hasked hquery
  have hlength : crowdedAnswer.length ≤ dnsCaptureBytes := by decide +kernel
  obtain ⟨answer, hanswer, hanswers⟩ := decodeDnsPacket_packetBytes dnsTransportUdp dnsDirectionIngress hlength
  let context : PacketContext := ⟨.ingress, .udp, anyAddress, now, observedAt⟩
  have hkey : queryKey answer answered context =
      queryKey packet asked ⟨.egress, .udp, anyAddress, now, observedAt⟩ := by
    rw [queryKey, queryKey, hcgroup, hanswers.cgroupId, hid, hname, htype]
  have htimeout : 0 < (new dns).state.transactionTimeout := by
    show 0 < transactionTimeout
    decide
  have hcorrelated := DnsState.correlateResponse_registerQuery htimeout hstate
    (responseOf answered context) observedAt
  refine ⟨packet, answer, processIdentity packet, responseOf answered context, hpacket, hanswer, ?_, hcount⟩
  have hmessage : ({ new dns with state, tcp } : DnsProcessor).messageOf answer context.transport
      crowdedAnswer context.now = (some crowdedAnswer, { new dns with state, tcp }) := rfl
  rw [hprocess, hanswers.process rfl rfl hlength,
    processMessage_of_message hmessage ((parseMessage_crowdedAnswer httl).trans hanswered),
    typedEvent, if_neg (by rw [hresponse]; decide), if_neg (not_not.mpr rfl), hkey]
  dsimp only
  rw [hcorrelated]
  rfl

/-- The event of a packet whose process is attributed. -/
theorem readDnsPacket_of_process {process : ProcessIdentity} (hpacket : decodeDnsPacket bytes = .ok packet)
    (hprocess : (s.dns.process packet now 0).1 = some (process, payload)) :
    readDnsPacket s (apiSurroundings none) now bytes = ([eventOf (apiSurroundings none) paymentApi process payload],
        { s with dns := (s.dns.process packet now 0).2 }) := by
  rw [readDnsPacket, hpacket]
  dsimp only
  rw [show (apiSurroundings none).contextNow = 0 from rfl, hprocess]
  rfl

theorem dnsPacket_emitted (hdns : observation.network.dns.enabled) (hpacket : decodeDnsPacket bytes = .ok packet) :
    (Input.dnsPacket (apiSurroundings none) now bytes).Emitted observation := by
  have hkind : (Input.dnsPacket (apiSurroundings none) now bytes).kind = some .dns := by
    rw [Input.kind, hpacket]
    rfl
  exact Emitted.of_switch hkind hdns

section
variable (h : Enforced observation architecture) (hdns : observation.network.dns.enabled)
  (hbounds : ¬ observation.network.dns.outOfBounds)
include h hdns hbounds

theorem Enforced.transports (transport : DnsTransport) : transportEnabled observation.network.dns transport := by
  obtain ⟨_, _, query, hpacket, hprocess, rfl⟩ := process_questionPacket hbounds transport 0 0
  have hperform : perform observation architecture (start observation Uuid.nil)
      (.dnsPacket (apiSurroundings none) 0 (questionPacket query.transport)) = .ok _ :=
    congrArg Except.ok (readDnsPacket_of_process hpacket hprocess)
  exact (h.first (dnsPacket_emitted hdns hpacket) hperform _ mem_cons_self).2

theorem Enforced.answers : maxDnsAnswers ≤ observation.network.dns.maxAnswersPerResponse := by
  obtain ⟨packet, _, process, _, hpacket, hanswer, hprocess, hcount⟩ := process_crowdedAnswer hbounds
  rcases hread : readDnsPacket (start observation Uuid.nil) (apiSurroundings none) 0 (questionPacket .udp) with
    ⟨events, s⟩
  have hs : s.dns = ((new observation.network.dns).process packet 0 0).2 := by
    rw [readDnsPacket, hpacket] at hread
    exact congrArg (fun after => after.2.dns) hread.symm
  rw [← hs] at hprocess
  have hperform : perform observation architecture s (.dnsPacket (apiSurroundings none) 0
      (packetBytes dnsTransportUdp dnsDirectionIngress crowdedAnswer)) = .ok _ :=
    congrArg Except.ok (readDnsPacket_of_process hanswer hprocess)
  have henabled := h.second (dnsPacket_emitted hdns hpacket) (dnsPacket_emitted hdns hanswer)
    (congrArg Except.ok hread) hperform _ mem_cons_self
  rw [← hcount]
  exact henabled.2.2

end

/-! ## File records -/

def pathBytes (path : FileActivityPath) : List UInt8 := path.value.toByteArray.data.toList

theorem pathBytes_length_le (path : FileActivityPath) : (pathBytes path).length ≤ filePathLen := path.bounded

theorem pathBytes_length_pos (path : FileActivityPath) : 0 < (pathBytes path).length := by
  apply Nat.pos_of_ne_zero
  intro hzero
  have hempty : path.value = "" := String.utf8ByteSize_eq_zero_iff.mp hzero
  have hnormalized := path.normalized
  rw [hempty] at hnormalized
  exact absurd hnormalized (by decide)

theorem decodePath_pathBytes (path : FileActivityPath) : decodePath (pathBytes path) = .ok path := by
  rw [decodePath, pathBytes, Utf8.fromUtf8_toByteArray, okOr]
  show (FileActivityPath.new path.value).mapError _ = _
  rw [FileActivityPath.new_value]
  rfl

def fileHeader (operation : UInt8) (length newLength : Nat) : List UInt8 :=
  replicate 40 0 ++ (leBytes 2 length ++ (leBytes 2 newLength ++
    ([operation, fileFlagComplete, 0, 0] ++ replicate 16 0)))

def padded (bytes : List UInt8) : List UInt8 := bytes ++ replicate (filePathLen - bytes.length) 0

theorem padded_length (h : bytes.length ≤ filePathLen) : (padded bytes).length = filePathLen := by
  rw [padded, length_append, length_replicate]
  omega

/-- The record of a complete operation on a path; a rename has a new one. -/
def fileBytes (operation : UInt8) (path : FileActivityPath) (newPath : Option FileActivityPath) : List UInt8 :=
  let path := pathBytes path
  let newPath := newPath.elim [] pathBytes
  fileHeader operation path.length newPath.length ++ (padded path ++ padded newPath)

theorem decodeFile_fileBytes {operation : UInt8}
    (hpayload : filePayload operation fileFlagComplete path newPath = .ok payload) :
    decodeFile (fileBytes operation path newPath) = .ok ⟨fileKernelEvent (fileBytes operation path newPath), payload⟩ := by
  have hpath := pathBytes_length_le path
  have hnewPath : (newPath.elim [] pathBytes).length ≤ filePathLen := by
    cases newPath with
    | none => exact Nat.zero_le _
    | some newPath => exact pathBytes_length_le newPath
  have hheader : (fileHeader operation (pathBytes path).length (newPath.elim [] pathBytes).length).length = 64 := rfl
  have hsize : (fileBytes operation path newPath).length = FileKernelEvent.size := by
    rw [fileBytes, length_append, length_append, hheader, padded_length hpath, padded_length hnewPath]
    rfl
  have hfirst : ((fileBytes operation path newPath).drop 64).take (pathBytes path).length = pathBytes path := by
    rw [fileBytes, drop_left' hheader, padded, append_assoc, take_left]
  have hsecond : ((fileBytes operation path newPath).drop (64 + filePathLen)).take (newPath.elim [] pathBytes).length =
      newPath.elim [] pathBytes := by
    rw [fileBytes, ← drop_drop, drop_left' hheader, drop_left' (padded_length hpath), padded, take_left]
  have hflags : (fileKernelEvent (fileBytes operation path newPath)).flags = fileFlagComplete := rfl
  have hoperation : (fileKernelEvent (fileBytes operation path newPath)).operation = operation := rfl
  have hlength : (fileKernelEvent (fileBytes operation path newPath)).pathLen.toNat = (pathBytes path).length :=
    toNat_u16At_leBytes (hpath.trans_lt (by decide))
  have hnewLength : (fileKernelEvent (fileBytes operation path newPath)).newPathLen.toNat =
      (newPath.elim [] pathBytes).length := toNat_u16At_leBytes (hnewPath.trans_lt (by decide))
  have hpositive : ∀ (length : UInt16) (path : FileActivityPath), length.toNat = (pathBytes path).length → length ≠ 0 := by
    rintro length path hlength rfl
    exact absurd hlength (pathBytes_length_pos path).ne
  simp only [decodeFile, bind_eq_ok, ite_error_eq_ok, pure_eq_ok, mapError_eq_ok]
  rw [hflags, hoperation, hlength, hnewLength, hfirst, hsecond]
  refine ⟨(), ?_, by decide, by decide, ?_, path, decodePath_pathBytes path, newPath, ?_, payload, hpayload, rfl⟩
  · rw [requireSize, if_neg (not_not.mpr hsize)]
  · exact not_or.mpr ⟨hpositive _ path hlength, by omega⟩
  cases newPath with
  | none =>
    rfl
  | some newPath =>
    rw [if_pos (hpositive _ newPath hnewLength)]
    exact transpose_map_of_ok decodePath_pathBytes (some newPath)

theorem runtimeFileEvent_of_scoped (h : scopedPayload files decoded.payload = some payload) :
    ∃ event, runtimeFileEvent files (apiSurroundings none) decoded = some event ∧ event.payload = payload := by
  refine ⟨eventOf (apiSurroundings none) paymentApi (processOf decoded.kernel.cgroupId decoded.kernel.pidTgid
    decoded.kernel.command) payload, ?_, rfl⟩
  rw [runtimeFileEvent, h]
  rfl

theorem fileRecord_emitted (hfiles : observation.files.enabled) (env : Surroundings)
    (order : Shuffle FileModifyAggregator.Entry) (now : Nat) :
    (Input.fileRecord env order now bytes).Emitted observation := by
  intro kind hkind
  obtain ⟨_, -, hkind⟩ := Option.bind_eq_some_iff.mp hkind
  apply emitted_iff.mpr
  unfold fileRecordKind at hkind
  split at hkind <;> cases hkind <;> exact hfiles

theorem Enforced.fileRecord (h : Enforced observation architecture) (hfiles : observation.files.enabled)
    {operation : UInt8} (hpayload : filePayload operation fileFlagComplete path newPath = .ok payload)
    (hscoped : scopedPayload observation.files payload = some payload) (hmodify : modifyPath payload = none) :
    Enabled observation payload := by
  obtain ⟨decoded, hdecoded, rfl⟩ : ∃ decoded, decodeFile (fileBytes operation path newPath) = .ok decoded ∧
      decoded.payload = payload := ⟨_, decodeFile_fileBytes hpayload, rfl⟩
  obtain ⟨event, hevent, hsame⟩ := runtimeFileEvent_of_scoped hscoped
  rw [← hsame] at hmodify ⊢
  refine h.first (fileRecord_emitted hfiles _ _ _)
    (congrArg Except.ok (readFileRecord_of_event hdecoded hevent _ .asIs 0)) event ?_
  -- the event comes out at once, since it is not a modification
  rw [observe, if_neg (by rw [hmodify]; decide)]
  split
  · exact mem_cons_self
  · exact mem_concat_self

theorem enabled_of_observes (h : files.observes path) : files.enabled := by
  rw [FileObservationConfig.observes, Bool.and_eq_true, Bool.and_eq_true] at h
  exact h.1.1

section
variable (h : Enforced observation architecture)
include h

theorem Enforced.create (hpath : observation.files.observes path) : .create ∈ observation.files.operations := by
  have hscoped : scopedPayload observation.files (.fileCreate { path }) = some (.fileCreate { path }) := if_pos hpath
  have hpayload : filePayload fileOperationCreate fileFlagComplete path none = .ok (.fileCreate { path }) := rfl
  exact (h.fileRecord (enabled_of_observes hpath) hpayload hscoped rfl).1

theorem Enforced.delete (hpath : observation.files.observes path) : .delete ∈ observation.files.operations := by
  have hscoped : scopedPayload observation.files (.fileDelete { path }) = some (.fileDelete { path }) := if_pos hpath
  have hpayload : filePayload fileOperationDelete fileFlagComplete path none = .ok (.fileDelete { path }) := rfl
  exact (h.fileRecord (enabled_of_observes hpath) hpayload hscoped rfl).1

theorem Enforced.rename {oldPath newPath : FileActivityPath} (hne : oldPath ≠ newPath)
    (hold : observation.files.observes oldPath) (hnew : observation.files.observes newPath) :
    .rename ∈ observation.files.operations := by
  let value : FileRename := ⟨oldPath, newPath, none⟩
  have hscoped : scopedPayload observation.files (.fileRename value) = some (.fileRename value) := by
    show translateRenameScope value (observation.files.observes oldPath) (observation.files.observes newPath) = _
    rw [hold, hnew]
    rfl
  have hpayload : filePayload fileOperationRename fileFlagComplete oldPath (some newPath) = .ok (.fileRename value) := by
    show ((FileRename.new oldPath newPath none).mapError _ >>= _) = _
    rw [FileRename.new, if_neg hne]
    rfl
  exact (h.fileRecord (enabled_of_observes hold) hpayload hscoped rfl).1

/-- A modification is held back and comes out when its time is over. -/
theorem Enforced.modify (hpath : observation.files.observes path) : .modify ∈ observation.files.operations := by
  have hfiles := enabled_of_observes hpath
  have hpayload : filePayload fileOperationModify fileFlagComplete path none = .ok (.fileModify { path }) := rfl
  have hdecoded := decodeFile_fileBytes hpayload
  have hscoped : scopedPayload observation.files (.fileModify { path }) = some (.fileModify { path }) := if_pos hpath
  let decoded : DecodedFileEvent := ⟨fileKernelEvent (fileBytes fileOperationModify path none), .fileModify { path }⟩
  have hevent : ∃ event, runtimeFileEvent observation.files (apiSurroundings none) decoded = some event ∧
      event.payload = .fileModify { path } := runtimeFileEvent_of_scoped hscoped
  obtain ⟨event, hevent, hmodified⟩ := hevent
  have hread := readFileRecord_of_event hdecoded hevent (start observation Uuid.nil) .asIs 0
  have hheld : (start observation Uuid.nil).files.observe .asIs event decoded.kernel.fd
      decoded.kernel.descriptorGeneration 0 = ([], (new fileModifyAggregationCapacity).hold event
        (modifyKey event decoded.kernel.fd decoded.kernel.descriptorGeneration) 0) := by
    rw [observe, if_pos (by rw [hmodified]; rfl)]
    rfl
  rw [hheld] at hread
  have hdrained : (Input.drainExpired .asIs fileModifyAggregationWindow).Emitted observation := by
    intro kind hkind
    cases hkind
  have hall := h.second (fileRecord_emitted hfiles _ _ _) hdrained (congrArg Except.ok hread) rfl
  have henabled := hall event mem_cons_self
  rw [hmodified] at henabled
  exact henabled.1

end

end

/-! ## Settings that are enforced -/

/-- The settings of an accepted configuration are enforced exactly if they restrict nothing that is not checked. -/
theorem settings_enforced_iff (config : AgentConfig) (architecture : Architecture)
    (hvalid : config.validate architecture = .ok ()) :
    Enforced config.observation architecture ↔ Unrestricted config.observation := by
  have hbounds := AgentConfig.withinBounds hvalid
  constructor
  · intro h
    exact {
      processExec := h.processExec
      listen := h.listen
      transports := fun hdns => ⟨h.transports hdns (hbounds.dns hdns) .udp, h.transports hdns (hbounds.dns hdns) .tcp⟩
      answers := fun hdns => h.answers hdns (hbounds.dns hdns)
      operations := fun path hpath => ⟨h.create hpath, h.modify hpath, h.delete hpath⟩
      rename := fun oldPath newPath hne hold hnew => h.rename hne hold hnew }
  · intro h epoch turns outputs s hemitted hrun
    have hheld : HeldEnabled config.observation (start config.observation epoch) := holds_new
    exact h.run hheld hemitted hrun

/-- Everything is observed below `/etc`. -/
def openConfig : AgentConfig :=
  { execConfig 10000 with observation := {
      processExec := true
      network := { connect := true, listen := true, accept := true, dns := { enabled := true } }
      files := {
        enabled := true
        operations := {.create, .modify, .delete, .rename}
        includePaths := ["/etc"] } } }

theorem settings_enforced_openConfig :
    openConfig.validate .x86_64 = .ok () ∧ Enforced openConfig.observation .x86_64 := by
  have hvalid : openConfig.validate .x86_64 = .ok () := by decide +kernel
  have hunrestricted : Unrestricted openConfig.observation := {
    processExec := rfl
    listen := fun _ => rfl
    transports := fun _ => ⟨rfl, rfl⟩
    answers := fun _ => le_refl _
    operations := fun _ _ => by decide
    rename := fun _ _ _ _ _ => by decide }
  exact ⟨hvalid, (settings_enforced_iff openConfig .x86_64 hvalid).mpr hunrestricted⟩

/-- Only connections are observed. -/
def connectConfig : AgentConfig :=
  { execConfig 10000 with observation := { processExec := false, network := { connect := true } } }

/-- An execution is reported although only connections are observed. -/
theorem execution_reported_unobserved : connectConfig.validate .x86_64 = .ok () ∧
      (freely (.record .events (apiSurroundings none) execBytes)).input.Emitted connectConfig.observation ∧
      ∃ event s, run (step connectConfig.observation .x86_64) (start connectConfig.observation Uuid.nil)
          [freely (.record .events (apiSurroundings none) execBytes)] = .ok ([[event]], s) ∧
        ¬ Enabled connectConfig.observation event.payload := by
  refine ⟨by decide +kernel, Emitted.of_switch rfl rfl, _, _, rfl, ?_⟩
  decide

end Okoscope.Agent.Observation
