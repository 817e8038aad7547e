import Okoscope.Agent.Emission
import Okoscope.Server.Acceptance

/-!
# The server admits what the agent emits

For each kind of record, the exact inputs for which the emitted event survives
the wire and passes both ingestion checks of the server.
-/
namespace Okoscope.Agent.Admission

open Lib Lib.Outcome Lib.Run EventModel Protocol
open Server.Ingestion Server.Acceptance
open KernelRecords ProcessRuntime Emission
open ProcessGenerationStore

/-- The event is decoded from its encoding, and the decoded event is accepted. -/
def Admitted (event : RuntimeEvent) : Prop := ∃ decoded, Accepted (fromRuntimeEvent event) decoded

theorem admitted_iff {event : RuntimeEvent} : Admitted event ↔
      EventReadable event ∧ dnsValid (eventOnWire event) ∧ lifecycleValid (eventOnWire event) := by
  constructor
  · rintro ⟨decoded, hd, hdns, hl⟩
    obtain ⟨hr, rfl⟩ := tryFromRuntimeEvent_encoded.mp hd
    exact ⟨hr, validateDnsEvent_eq_ok.mp hdns, validateTerminationEvent_eq_ok.mp hl⟩
  · rintro ⟨hr, hdns, hl⟩
    exact ⟨eventOnWire event, tryFromRuntimeEvent_encoded.mpr ⟨hr, rfl⟩, validateDnsEvent_eq_ok.mpr hdns,
      validateTerminationEvent_eq_ok.mpr hl⟩

variable {kernel : InboundKernelEvent} {exit : ProcessExit} {payload : EventPayload}

section
variable {env : Surroundings} {attribution : KubernetesAttribution} {process : ProcessIdentity}

/-- The attribution and the payload are checked separately. -/
theorem eventOf_admitted_iff {c : Prop}
    (h : (PayloadReadable process payload ∧ dnsValid (eventOnWire (eventOf env attribution process payload)) ∧
      lifecycleValid (eventOnWire (eventOf env attribution process payload))) ↔ c) :
    Admitted (eventOf env attribution process payload) ↔ AttributionReadable attribution ∧ c := by
  rw [admitted_iff, ← h]
  constructor
  · rintro ⟨hr, hv⟩
    exact ⟨hr.attribution, hr.payload, hv⟩
  · rintro ⟨ha, hp, hv⟩
    exact ⟨⟨rfl, ha, hp⟩, hv⟩

theorem syscall_admitted_iff {name : String} (hname : name ∈ observedSyscalls) :
    Admitted (eventOf env attribution process (.syscall { name })) ↔ AttributionReadable attribution ∧ True := by
  have hnames : ∀ n ∈ observedSyscalls, ¬ Text.Blank Text.isWhitespace n := by decide
  exact eventOf_admitted_iff (iff_true_intro ⟨hnames name hname, rfl, rfl⟩)

theorem exec_admitted_iff {executable : String} {generation : ProcessGenerationIdentity}
    (hg : generation.validate = .ok ()) :
    Admitted (eventOf env attribution process (.processExec ⟨executable, none, some generation⟩)) ↔
      AttributionReadable attribution ∧ ¬ Text.Blank Text.isWhitespace executable := by
  apply eventOf_admitted_iff
  constructor
  · rintro ⟨hp, -⟩
    exact hp.executable
  intro hx
  refine ⟨⟨hx, ?_⟩, rfl, succeeds_iff.mpr hg⟩
  rintro g ⟨⟩
  exact hg

theorem inbound_admitted_iff (h : inboundPayload kernel = .ok payload) :
    Admitted (eventOf env attribution process payload) ↔ AttributionReadable attribution ∧ True := by
  apply eventOf_admitted_iff
  rw [iff_true]
  rcases inboundPayload_cases h with ⟨_, _, _, listen, hlisten, rfl⟩ | ⟨_, _, _, _, _, accept, haccept, rfl⟩
  · obtain ⟨⟨hport, -⟩, rfl⟩ := NetworkListen.new_eq_ok.mp hlisten
    exact ⟨hport, rfl, rfl⟩
  · obtain ⟨⟨hlp, hlf⟩, ⟨hrp, hrf⟩, rfl⟩ := NetworkAccept.new_eq_ok.mp haccept
    exact ⟨⟨hlp, hrp, hrf.trans hlf.symm⟩, rfl, rfl⟩

theorem start_admitted_iff {start : ProcessStart} (hs : start.validate = .ok ())
    (hleader : isLeader process) (hcommand : process.command ≠ "") :
    Admitted (eventOf env attribution process (.processStart start)) ↔
      AttributionReadable attribution ∧ Text.len process.command ≤ maxThreadNameBytes := by
  apply eventOf_admitted_iff
  have hlifecycle : lifecycleValid (eventOnWire (eventOf env attribution process (.processStart start))) =
      (succeeds start.validate && isLeader process && decide (process.command ≠ "") &&
        decide (Text.len process.command ≤ maxThreadNameBytes)) := rfl
  rw [hlifecycle]
  constructor
  · rintro ⟨-, -, h⟩
    simpa [succeeds_iff.mpr hs, hleader, hcommand] using h
  · intro h
    refine ⟨hs, rfl, ?_⟩
    simp [succeeds_iff.mpr hs, hleader, hcommand, h]

theorem contextOnWire_validate_iff {c : DnsContext} (hc : c.validate = .ok ()) :
    (contextOnWire c).validate = .ok () ↔ DateTime.onWire c.observedAt < DateTime.onWire c.expiresAt := by
  obtain ⟨⟨hnames, hbound, -⟩, hambiguous⟩ := DnsContext.validate_eq_ok.mp hc
  rw [DnsContext.validate_eq_ok]
  exact ⟨fun h => h.1.2.2, fun h => ⟨⟨hnames, hbound, h⟩, hambiguous⟩⟩

theorem connect_admitted_iff {kernel : KernelEvent} {connect : NetworkConnect} {context : Option DnsContext}
    (h : networkConnect kernel = .ok connect) (hcontext : ∀ c, context = some c → c.validate = .ok ()) :
    Admitted (eventOf env attribution process (.networkConnect { connect with dnsContext := context })) ↔
      AttributionReadable attribution ∧
        ∀ c, context = some c → DateTime.onWire c.observedAt < DateTime.onWire c.expiresAt := by
  apply eventOf_admitted_iff
  simp only [networkConnect, bind_eq_ok, mapError_eq_ok] at h
  obtain ⟨_, -, ⟨_, _⟩, -, hnew⟩ := h
  obtain ⟨hchecked, rfl⟩ := NetworkConnect.new_eq_ok.mp hnew
  constructor
  · rintro ⟨hp, -⟩ c hc
    exact (contextOnWire_validate_iff (hcontext c hc)).mp (hp.context c hc)
  intro hordered
  have hvalid : ∀ c, context = some c → (contextOnWire c).validate = .ok () :=
    fun c hc => (contextOnWire_validate_iff (hcontext c hc)).mpr (hordered c hc)
  refine ⟨⟨hchecked, hvalid⟩, ?_, rfl⟩
  cases context with
  | none => rfl
  | some c => exact succeeds_iff.mpr (hvalid c rfl)

theorem terminationValid_of_built (hbuilt : TerminationBuilt exit.termination)
    (hstatus : exit.rawWaitStatus = waitStatusOf exit.termination) : terminationValid exit := by
  unfold terminationValid
  cases ht : exit.termination with
  | exited =>
    rw [ht] at hstatus
    exact decide_eq_true hstatus
  | signaled signal name core =>
    rw [ht] at hstatus hbuilt
    have hok : ProcessTermination.newSignaled signal name core = .ok (.signaled signal name core) := hbuilt
    rw [Bool.and_eq_true, hok]
    exact ⟨rfl, decide_eq_true hstatus⟩

theorem correlationValid_of_built (hbuilt : CorrelationBuilt exit.correlation) : correlationValid exit := by
  unfold correlationValid
  cases hc : exit.correlation with
  | unresolved => rfl
  | observed =>
    rw [hc] at hbuilt
    obtain ⟨hg, hx, -⟩ := GenerationCorrelation.newObserved_eq_ok.mp hbuilt
    simp only [validText, Bool.and_eq_true] at hx
    simp only [Bool.and_eq_true]
    exact ⟨⟨decide_eq_true (UInt64.pos_iff_ne_zero.mpr hg), hx.1.1⟩, hx.1.2⟩

theorem exit_admitted_iff (hbuilt : ExitBuilt exit) (hstatus : exit.rawWaitStatus = waitStatusOf exit.termination)
    (hagrees : generationDisagrees exit.generation exit.correlation = false) (hleader : exit.classification = .leader)
    (hpid : process.pid = process.tgid) : Admitted (eventOf env attribution process (.processExit exit)) ↔
      AttributionReadable attribution ∧ process.pid ≠ 0 := by
  apply eventOf_admitted_iff
  obtain ⟨hsource, htermination, hcorrelation, hgeneration⟩ := exitBuilt_spec hbuilt
  have hgenerations : exit.generation.all (fun g => succeeds g.validate) := by
    cases hg : exit.generation with
    | none => rfl
    | some g => exact succeeds_iff.mpr (hgeneration g hg)
  have hlifecycle : lifecycleValid (eventOnWire (eventOf env attribution process (.processExit exit))) =
      (decide (exit.source = .kernel) && terminationValid exit && correlationValid exit &&
        (exit.generation.all fun g => succeeds g.validate) &&
        (decide (exit.classification ≠ .leader) || isLeader process)) := rfl
  have hisLeader : isLeader process ↔ process.pid ≠ 0 := by
    simp [isLeader, hpid, UInt32.pos_iff_ne_zero]
  rw [hlifecycle, hsource, terminationValid_of_built htermination hstatus, correlationValid_of_built hcorrelation,
    hgenerations, hleader, ← hisLeader]
  have hreadable : PayloadReadable process (.processExit exit) := (exit_exact hbuilt).mpr ⟨hstatus, hagrees⟩
  constructor
  · rintro ⟨-, -, h⟩
    simpa using h
  intro h
  refine ⟨hreadable, rfl, ?_⟩
  rw [h]
  rfl

end

/-! ## What a sound store hands out -/

variable {consumed : ConsumedGeneration}

section
variable {epoch : Uuid} {s : ProcessGenerationStore} (order : IterationOrder) (key : ProcessKey) (atNs : UInt64)

theorem identity_valid {identity : ProcessGenerationIdentity} (hepoch : epoch ≠ Uuid.nil)
    (hg : identity.generation ≠ 0) (he : identity.observationEpoch = epoch) : identity.validate = .ok () :=
  ProcessGenerationIdentity.validate_eq_ok.mpr ⟨hg, by rwa [he]⟩

section
variable (hepoch : epoch ≠ Uuid.nil) (hs : s.Sound epoch fun _ => True)
include hepoch hs

theorem ensureGeneration_identity_valid : (s.ensureGeneration order key atNs).1.validate = .ok () := by
  unfold ensureGeneration
  split
  · next entry hentry =>
    obtain ⟨hg, he, -⟩ := hs.entries key entry hentry
    exact identity_valid hepoch hg he
  · exact identity_valid hepoch hs.next hs.epoch_eq

theorem observeExec_identity_valid {eventId : Uuid} {executable : String} :
    (s.observeExec order key atNs eventId executable).1.validate = .ok () := by
  have hensured := ensureGeneration_identity_valid order key atNs hepoch hs
  unfold observeExec
  dsimp only
  split <;> exact hensured

end

/-- A consumed generation is valid and agrees with its correlation. -/
structure ConsumedValid (consumed : ConsumedGeneration) : Prop where
  identity : ∀ i, consumed.identity = some i → i.validate = .ok ()
  correlation : CorrelationBuilt consumed.correlation
  agrees : generationDisagrees consumed.identity consumed.correlation = false

theorem consumeExit_valid {t : ProcessGenerationStore} (hepoch : epoch ≠ Uuid.nil) (hs : s.Sound epoch fun _ => True)
    (h : s.consumeExit order key atNs = .ok (consumed, t)) : ConsumedValid consumed := by
  have hunresolved : ∀ reason, ConsumedValid (unresolved none reason) :=
    fun reason => ⟨fun i hi => (nomatch hi), trivial, rfl⟩
  have hensured := hs.ensureGeneration order key atNs
  unfold consumeExit at h
  dsimp only at h
  split at h
  · cases h
    exact hunresolved _
  split at h
  · cases h
    exact hunresolved _
  next entry hentry =>
  split at h
  · cases h
    exact hunresolved _
  split at h
  · cases h
  next hcorrelate =>
  cases h
  obtain ⟨hg, he, -⟩ := hensured.entries key entry hentry
  have hidentity : ∀ i ∈ some entry.identity, i.validate = .ok () := by
    rintro _ ⟨⟩
    exact identity_valid hepoch hg he
  unfold correlate at hcorrelate
  split at hcorrelate
  · cases hcorrelate
    exact ⟨hidentity, trivial, rfl⟩
  split at hcorrelate
  · next hnew =>
    cases hcorrelate
    obtain ⟨-, -, rfl⟩ := GenerationCorrelation.newObserved_eq_ok.mp hnew
    exact ⟨hidentity, hnew, by simp [generationDisagrees]⟩
  · cases hcorrelate

end

theorem contextFor_valid {addresses : Addresses} {cgroupId : UInt64} {address : IpAddr} {now : DateTime}
    {c : DnsContext} (h : contextFor addresses cgroupId address now = some c) : c.validate = .ok () := by
  simp only [contextFor, Option.bind_eq_bind, Option.bind_eq_some_iff, toOption_eq_some] at h
  obtain ⟨_, -, _, -, hnew⟩ := h
  exact DnsContext.validate_new hnew

/-! ## Record by record -/

/-- The inputs of a record whose event the server accepts: a readable attribution and

- for a creation, a command that does not fill its sixteen bytes with a text,
- for an exit, a process number other than zero,
- for an execution, an executable that is not blank,
- for a connection, a DNS context whose instants stay ordered on the wire. -/
def Acceptable (env : Surroundings) : Record → Prop
  | .event kernel =>
    (kernel.eventKind = eventKindExec → ¬ Text.Blank Text.isWhitespace (executableOf env kernel)) ∧
    ∀ connect c, kernel.eventKind = eventKindNetworkConnect → networkConnect kernel = .ok connect →
      contextFor env.addresses kernel.cgroupId connect.destinationAddress env.contextNow = some c →
      DateTime.onWire c.observedAt < DateTime.onWire c.expiresAt
  | .inbound _ => True
  | .creation decoded =>
    0 ∈ decoded.kernel.childCommand.toList ∨ Utf8.fromUtf8 decoded.kernel.childCommand.toList = none
  | .exit decoded => pidOf decoded.kernel.pidTgid ≠ 0

variable {decoded : DecodedExitEvent}

section
variable {architecture : Architecture} {epoch : Uuid} {s t : ProcessGenerationStore} {env : Surroundings}
  {event : RuntimeEvent} {attribution : KubernetesAttribution}

theorem kernelEvent_admitted_iff {kernel : KernelEvent} (hepoch : epoch ≠ Uuid.nil)
    (hs : s.Sound epoch fun _ => True) (ha : env.attribution = some attribution)
    (h : observeKernelEvent architecture env s kernel = (some event, t)) :
    Admitted event ↔ AttributionReadable attribution ∧ Acceptable env (.event kernel) := by
  rcases observeKernelEvent_cases env kernel with
    he | ⟨a, ha', hkind, he⟩ | ⟨a, payload, ha', hp, hexec, he⟩
  · cases he.symm.trans h
  · cases he.symm.trans h
    cases ha'.symm.trans ha
    have hconnect : kernel.eventKind ≠ eventKindNetworkConnect := by rw [hkind]; decide
    rw [exec_admitted_iff (observeExec_identity_valid _ _ _ hepoch hs)]
    exact and_congr_right fun _ =>
      ⟨fun hx => ⟨fun _ => hx, fun _ _ hk => absurd hk hconnect⟩, fun h => h.1 hkind⟩
  · cases he.symm.trans h
    cases ha'.symm.trans ha
    rcases kernelPayload_cases hp with ⟨-, rfl⟩ | ⟨hkind, name, hname, rfl⟩ | ⟨hkind, connect, hconnect, rfl⟩
    · exact absurd rfl (hexec _)
    · have hnotExec : kernel.eventKind ≠ eventKindExec := by rw [hkind]; decide
      have hnotConnect : kernel.eventKind ≠ eventKindNetworkConnect := by rw [hkind]; decide
      rw [syscall_admitted_iff hname, Acceptable]
      simp [hnotExec, hnotConnect]
    · have hnotExec : kernel.eventKind ≠ eventKindExec := by rw [hkind]; decide
      rw [connect_admitted_iff hconnect fun c hc => contextFor_valid hc]
      refine and_congr_right fun _ => ⟨fun h => ⟨fun hk => absurd hk hnotExec, ?_⟩, fun h c hc => ?_⟩
      · intro connect' c _ hconnect' hc
        cases hconnect.symm.trans hconnect'
        exact h c hc
      · exact h.2 connect c hkind hconnect hc

theorem creation_admitted_iff {decoded : DecodedTaskCreation} {bytes : List UInt8}
    (hread : decodeTaskCreation bytes = .ok decoded) (ha : env.attribution = some attribution)
    (h : observeTaskCreation env s decoded = (some event, t)) :
    Admitted event ↔ AttributionReadable attribution ∧ Acceptable env (.creation decoded) := by
  simp only [decodeTaskCreation, bind_eq_ok, ite_error_eq_ok, not_or, pure_eq_ok] at hread
  obtain ⟨_, -, ⟨-, htgid, -, -⟩, rfl⟩ := hread
  rcases observeTaskCreation_cases with ⟨-, he⟩ | ⟨a, ha', -, he⟩ | ⟨-, he⟩
  · cases he.symm.trans h
  · cases ha'.symm.trans ha
    obtain ⟨hevent, -⟩ := Prod.mk.inj (he.symm.trans h)
    split at hevent
    · next hstart =>
      cases hevent
      rw [start_admitted_iff hstart]
      · rw [Acceptable, ← decodeTaskCommand_fits_iff]
        rfl
      · simp [isLeader, ownerOf, UInt32.pos_iff_ne_zero, htgid]
      · exact decodeTaskCommand_ne_empty
    · cases hevent
  · cases he.symm.trans h

theorem exitOf_built (ht : TerminationBuilt decoded.termination) (hc : ConsumedValid consumed) :
    ExitBuilt (exitOf decoded consumed) := by
  refine ⟨decoded.kernel.rawWaitStatus, decoded.termination, consumed.correlation, ht, hc.correlation, _, .inr rfl, ?_⟩
  unfold exitOf
  cases hi : consumed.identity with
  | none => exact .inl rfl
  | some identity => exact .inr ⟨identity, hc.identity identity hi, rfl⟩

theorem exit_event_admitted_iff {bytes : List UInt8} (hread : decodeExit bytes = .ok decoded)
    (hepoch : epoch ≠ Uuid.nil) (hs : s.Sound epoch fun _ => True) (ha : env.attribution = some attribution)
    (h : observeExit env s decoded = .ok (some event, t)) :
    Admitted event ↔ AttributionReadable attribution ∧ Acceptable env (.exit decoded) := by
  simp only [decodeExit, bind_eq_ok, ite_error_eq_ok, pure_eq_ok] at hread
  obtain ⟨_, -, -, _, hdecoded, rfl⟩ := hread
  obtain ⟨hstatus, ht⟩ := decodeWaitStatus_eq_ok hdecoded
  rcases observeExit_cases h with ⟨hnone, -⟩ | ⟨a, consumed, ha', hpid, hconsumed, hevent⟩
  · cases hnone
  cases ha'.symm.trans ha
  cases hevent
  have hvalid := consumeExit_valid _ _ _ hepoch hs hconsumed
  obtain ⟨hraw, htermination, hcorrelation, hgeneration, hclass⟩ := exitOf_fields consumed
  rw [exit_admitted_iff (exitOf_built ht hvalid) _ _ hclass hpid]
  · rfl
  · rw [hraw, htermination, hstatus]
  · rw [hgeneration, hcorrelation, hvalid.agrees]

end

theorem handle_attribution {architecture : Architecture} {s t : ProcessGenerationStore} {env : Surroundings}
    {record : Record} {event : RuntimeEvent} (h : handle architecture s (env, record) = .ok (some event, t)) :
    ∃ attribution, env.attribution = some attribution := by
  cases record with
  | event kernel =>
    rcases observeKernelEvent_cases env kernel with he | ⟨a, ha, -, -⟩ | ⟨a, -, ha, -⟩
    · cases (congrArg Except.ok he).symm.trans h
    · exact ⟨a, ha⟩
    · exact ⟨a, ha⟩
  | inbound =>
    obtain ⟨a, -, ha, -⟩ := runtimeInboundEvent_eq_some (congrArg Prod.fst (Except.ok.inj h))
    exact ⟨a, ha⟩
  | creation =>
    rcases observeTaskCreation_cases with ⟨-, he⟩ | ⟨a, ha, -, -⟩ | ⟨-, he⟩
    · cases (congrArg Except.ok he).symm.trans h
    · exact ⟨a, ha⟩
    · cases (congrArg Except.ok he).symm.trans h
  | exit =>
    rcases observeExit_cases h with ⟨hnone, -⟩ | ⟨a, -, ha, -⟩
    · cases hnone
    · exact ⟨a, ha⟩

/-- In every state the agent reaches, the event it emits for a record is admitted by
the server exactly when the attribution is readable and the record acceptable. -/
theorem emitted_admitted_iff (architecture : Architecture) (capacity : Nat) (epoch : Uuid)
    (hepoch : epoch ≠ Uuid.nil) (inputs : List (Surroundings × Record)) (outputs : List (Option RuntimeEvent))
    (s t : ProcessGenerationStore) (hreached : run (handle architecture) (new capacity epoch) inputs = .ok (outputs, s))
    (ring : Ring) (bytes : List UInt8) (record : Record) (hread : readRecord ring bytes = some record)
    (env : Surroundings) (event : RuntimeEvent) (hemitted : handle architecture s (env, record) = .ok (some event, t)) :
    Admitted event ↔ (∀ attribution, env.attribution = some attribution → AttributionReadable attribution) ∧
        Acceptable env record := by
  have hs : s.Sound epoch fun _ => True :=
    run_preserves _ (RecordValid fun _ => True) (fun _ _ _ _ => handle_sound)
      (sound_new capacity epoch _) (fun ⟨env, record⟩ _ => by cases record <;> simp [RecordValid])
      hreached
  obtain ⟨attribution, ha⟩ := handle_attribution hemitted
  have hattribution : (∀ a, env.attribution = some a → AttributionReadable a) ↔ AttributionReadable attribution := by
    simp [ha]
  rw [hattribution]
  cases ring <;> simp only [readRecord, Option.map_eq_some_iff, toOption_eq_some] at hread
  case events =>
    obtain ⟨_, -, rfl⟩ := hread
    exact kernelEvent_admitted_iff hepoch hs ha (Except.ok.inj hemitted)
  case inbound =>
    obtain ⟨_, -, rfl⟩ := hread
    obtain ⟨_, _, ha', hpayload, rfl⟩ := runtimeInboundEvent_eq_some (congrArg Prod.fst (Except.ok.inj hemitted))
    cases ha'.symm.trans ha
    exact inbound_admitted_iff hpayload
  case creations =>
    obtain ⟨_, hdecoded, rfl⟩ := hread
    exact creation_admitted_iff hdecoded ha (Except.ok.inj hemitted)
  case exits =>
    obtain ⟨_, hdecoded, rfl⟩ := hread
    exact exit_event_admitted_iff hdecoded hepoch hs ha hemitted

/-- A process of `payment-api` whose executable has the given link. -/
noncomputable def apiSurroundings (exe : Option String) : Surroundings where
  attribution := some paymentApi
  eventId := Bytes.ByteVec.fill 16 7
  now := 0
  exe
  addresses := fun _ _ => []
  contextNow := 0
  order := default

/-- An exec record whose command is one blank. -/
def blankExecBytes : List UInt8 :=
  List.replicate 32 0 ++ [eventKindExec] ++ List.replicate 23 0 ++ [0x20] ++ List.replicate 15 0

def blankExec : KernelEvent where
  timestampNs := 0
  cgroupId := 0
  pidTgid := 0
  syscallId := 0
  connectResult := 0
  eventKind := eventKindExec
  addressFamily := 0
  connectOutcome := 0
  padding := 0
  destinationPort := 0
  errno := 0
  destinationAddress := Bytes.ByteVec.fill 16 0
  command := arrayAt commandLen [0x20] 0

theorem decode_blankExecBytes : decode blankExecBytes = .ok blankExec := by decide +kernel

theorem paymentApi_readable : AttributionReadable paymentApi where
  nodeName := by decide
  namespaceName := by decide
  podUid := by decide
  containerId := by decide
  workloadUid := by decide
  releaseIdentity := nofun

/-- With a link that can be read, the event of the record is admitted. -/
theorem linked_exec_admitted : ∃ event t, handle .x86_64 (new 8192 (Bytes.ByteVec.fill 16 1))
        (apiSurroundings (some "/usr/bin/api"), .event blankExec) = .ok (some event, t) ∧ Admitted event := by
  have hread : readRecord .events blankExecBytes = some (.event blankExec) := by
    rfl
  refine ⟨_, _, rfl, (emitted_admitted_iff .x86_64 8192 (Bytes.ByteVec.fill 16 1) (by decide) [] [] _ _ rfl .events
    blankExecBytes _ hread (apiSurroundings (some "/usr/bin/api")) _ rfl).mpr ⟨?_, ?_, ?_⟩⟩
  · rintro a ⟨⟩
    exact paymentApi_readable
  · decide
  · intro connect c hkind
    cases hkind

/-- The link cannot be read, and the command that stands in for it is blank. -/
theorem blank_exec_not_admitted : ∃ event t, decode blankExecBytes = .ok blankExec ∧
      handle .x86_64 (new 8192 (Bytes.ByteVec.fill 16 1))
        (apiSurroundings none, .event blankExec) = .ok (some event, t) ∧ ¬ Admitted event := by
  have hblank : Text.Blank Text.isWhitespace (command blankExec.command) := by decide +kernel
  have hsound := sound_new 8192 (Bytes.ByteVec.fill 16 1) fun _ => True
  obtain ⟨event, t, hemitted⟩ : ∃ event t, observeKernelEvent .x86_64 (apiSurroundings none)
      (new 8192 (Bytes.ByteVec.fill 16 1)) blankExec = (some event, t) := ⟨_, _, rfl⟩
  refine ⟨event, t, decode_blankExecBytes, congrArg Except.ok hemitted, fun hadmitted => ?_⟩
  obtain ⟨-, hacceptable⟩ := (kernelEvent_admitted_iff (by decide) hsound rfl hemitted).mp hadmitted
  exact hacceptable.1 rfl hblank

end Okoscope.Agent.Admission
