import Okoscope.Agent.Observer

/-!
# Settings of the observation and the events that come out

What the settings enable, by their names, and when every event is enabled. The
switches are honoured where they decide which program is attached. The switch for
executions, the transports, the number of answers and the file operations decide
nothing, and the hook for accepted connections brings those that listen with it.
-/
namespace Okoscope.Agent.Observation

open Lib Lib.Run Lib.Outcome Lib.FiniteMap EventModel
open Config KernelRecords ProcessRuntime Emission
open DnsMessage DnsRuntime FileRuntime Observer DnsProcessor List

def transportEnabled (dns : DnsObservationConfig) : DnsTransport → Bool
  | .udp => dns.udp
  | .tcp => dns.tcp

/-- The settings enable the event. -/
def Enabled (observation : ObservationConfig) : EventPayload → Prop
  | .processExec _ => observation.processExec
  | .networkConnect _ => observation.network.connect
  | .networkListen _ => observation.network.listen
  | .networkAccept _ => observation.network.accept
  | .networkDnsQuery value =>
    observation.network.dns.enabled ∧ transportEnabled observation.network.dns value.transport
  | .networkDnsResponse value =>
    observation.network.dns.enabled ∧ transportEnabled observation.network.dns value.transport ∧
      value.answers.length ≤ observation.network.dns.maxAnswersPerResponse
  | .fileCreate value => .create ∈ observation.files.operations ∧ observation.files.observes value.path
  | .fileModify value => .modify ∈ observation.files.operations ∧ observation.files.observes value.path
  | .fileDelete value => .delete ∈ observation.files.operations ∧ observation.files.observes value.path
  | .fileRename value =>
    .rename ∈ observation.files.operations ∧ observation.files.observes value.oldPath ∧
      observation.files.observes value.newPath
  | .processStart _ | .threadActivityWindow _ | .syscall _ | .processExit _ | .containerTermination _
  | .containerRestart _ => True

instance (observation : ObservationConfig) (payload : EventPayload) : Decidable (Enabled observation payload) := by
  cases payload <;> unfold Enabled <;> infer_instance

/-- Nothing that the agent does not check is switched off or limited. -/
structure Unrestricted (observation : ObservationConfig) : Prop where
  processExec : observation.processExec
  listen : observation.network.accept → observation.network.listen
  transports : observation.network.dns.enabled →
    observation.network.dns.udp ∧ observation.network.dns.tcp
  answers : observation.network.dns.enabled → maxDnsAnswers ≤ observation.network.dns.maxAnswersPerResponse
  operations : ∀ path, observation.files.observes path → .create ∈ observation.files.operations ∧
    .modify ∈ observation.files.operations ∧ .delete ∈ observation.files.operations
  rename : ∀ oldPath newPath, oldPath ≠ newPath → observation.files.observes oldPath →
    observation.files.observes newPath → .rename ∈ observation.files.operations

/-! ## Kinds of records -/

/-- The switches that attach a program. -/
def attaches (observation : ObservationConfig) : Program → Bool
  | .exec | .sysEnter => true
  | .connectEnter | .connectExit => observation.network.connect
  | .inetSockSetState => observation.network.listen || observation.network.accept
  | .inetCskAcceptReturn => observation.network.accept
  | .dnsEgress | .dnsIngress => observation.network.dns.enabled
  | .fileEnter _ | .fileExit _ => observation.files.enabled
  | .processExit | .taskCreate | .taskRename => observation.processExit

theorem mem_fileHooks {hook : FileHook} : hook ∈ fileHooks := by cases hook <;> decide

variable {program : Program}

theorem mem_attachedPrograms {observation : ObservationConfig} :
    program ∈ attachedPrograms observation ↔ attaches observation program := by
  have hexit : program ∈ (if observation.processExit then [.processExit, .taskCreate, .taskRename] else []) ↔
      observation.processExit ∧ program ∈ [.processExit, .taskCreate, .taskRename] := mem_ite_nil_right
  rw [attachedPrograms, mem_append, hexit]
  cases program <;> cases haccept : observation.network.accept <;>
    simp [attachConfiguredPrograms, inboundHookRequirements, mem_fileHooks, observationPrograms, attaches, haccept]

/-- The switch that brings the records of a kind. -/
def switch (observation : ObservationConfig) : RecordKind → Bool
  | .exec | .syscall => true
  | .connect => observation.network.connect
  | .listen => observation.network.listen || observation.network.accept
  | .accept => observation.network.accept
  | .dns => observation.network.dns.enabled
  | .file _ => observation.files.enabled
  | .taskCreation | .processExit => observation.processExit

/-- A program that emits the records of a kind. -/
def source : RecordKind → Program
  | .exec => .exec
  | .syscall => .sysEnter
  | .connect => .connectExit
  | .listen => .inetSockSetState
  | .accept => .inetCskAcceptReturn
  | .dns => .dnsEgress
  | .file .create => .fileExit .open
  | .file .modify => .fileExit .write
  | .file .delete => .fileExit .unlink
  | .file .rename => .fileExit .rename
  | .taskCreation => .taskCreate
  | .processExit => .processExit

variable {kind : RecordKind}

theorem mem_emits_source : kind ∈ (source kind).emits := by
  rcases kind with _ | _ | _ | _ | _ | _ | ⟨_ | _ | _ | _⟩ | _ | _ <;> decide

theorem switch_of_mem_emits {observation : ObservationConfig} (h : kind ∈ program.emits) :
    switch observation kind = attaches observation program := by
  cases program with
  | fileExit =>
    obtain ⟨_, -, rfl⟩ := mem_map.mp h
    rfl
  | connectEnter | fileEnter | taskRename => cases h
  | _ =>
    cases mem_singleton.mp h
    rfl

theorem emitted_iff {observation : ObservationConfig} :
    (∃ program ∈ attachedPrograms observation, kind ∈ program.emits) ↔ switch observation kind := by
  constructor
  · intro h
    obtain ⟨_, hprogram, hkind⟩ := h
    rw [switch_of_mem_emits hkind]
    exact mem_attachedPrograms.mp hprogram
  · intro h
    rw [switch_of_mem_emits mem_emits_source] at h
    exact ⟨source kind, mem_attachedPrograms.mpr h, mem_emits_source⟩

/-- The kind of record an event of the process rings is made of. -/
def sourceKind : EventPayload → Option RecordKind
  | .processExec _ => some .exec
  | .syscall _ => some .syscall
  | .networkConnect _ => some .connect
  | .networkListen _ => some .listen
  | .networkAccept _ => some .accept
  | .processStart _ => some .taskCreation
  | .processExit _ => some .processExit
  | _ => none

variable {architecture : Architecture} {env : Surroundings} {payload : EventPayload} {p : DnsProcessor}
variable {packet : DnsPacketRecord} {process : ProcessIdentity} {now : Nat} {bytes : List UInt8} {s t : AgentState}
variable {events : List RuntimeEvent}

theorem sourceKind_inboundPayload {kernel : InboundKernelEvent}
    (h : inboundPayload kernel = .ok payload) : sourceKind payload = recordKind (.inbound kernel) := by
  simp only [inboundPayload, bind_eq_ok] at h
  obtain ⟨_, -, _, -, h⟩ := h
  split at h
  next hkind =>
    rw [mapError_eq_ok, map_eq_ok] at h
    obtain ⟨_, -, rfl⟩ := h
    rw [recordKind, hkind]
    rfl
  next =>
    split at h
    next hkind =>
      rw [mapError_eq_ok, map_eq_ok] at h
      obtain ⟨_, -, rfl⟩ := h
      rw [recordKind, hkind]
      rfl
    next => cases h

/-- An event tells the kind of record it was made of. -/
theorem sourceKind_handle {record : Record} {s t : ProcessGenerationStore} {event : RuntimeEvent}
    (h : handle architecture s (env, record) = .ok (some event, t)) :
    sourceKind event.payload = recordKind record ∧ (recordKind record).isSome := by
  cases record with
  | event kernel =>
    have hevent : (observeKernelEvent architecture env s kernel).1 = some event := congrArg Prod.fst (Except.ok.inj h)
    rcases observeKernelEvent_cases env kernel with he | ⟨_, -, hkind, he⟩ | ⟨_, payload, -, hp, -, he⟩
    · rw [he] at hevent
      cases hevent
    · rw [he] at hevent
      cases hevent
      rw [recordKind, hkind]
      exact ⟨rfl, rfl⟩
    · rw [he] at hevent
      cases hevent
      rcases kernelPayload_cases hp with ⟨hkind, rfl⟩ | ⟨hkind, _, -, rfl⟩ | ⟨hkind, _, -, rfl⟩ <;>
        rw [recordKind, hkind] <;> exact ⟨rfl, rfl⟩
  | inbound kernel =>
    have hevent : runtimeInboundEvent env kernel = some event := congrArg Prod.fst (Except.ok.inj h)
    obtain ⟨_, _, -, hp, rfl⟩ := runtimeInboundEvent_eq_some hevent
    rw [← sourceKind_inboundPayload hp]
    refine ⟨rfl, ?_⟩
    rcases inboundPayload_cases hp with ⟨_, _, _, _, -, rfl⟩ | ⟨_, _, _, _, _, _, -, rfl⟩ <;> rfl
  | creation decoded =>
    have hevent : (observeTaskCreation env s decoded).1 = some event := congrArg Prod.fst (Except.ok.inj h)
    rcases observeTaskCreation_cases with ⟨-, he⟩ | ⟨_, -, -, he⟩ | ⟨-, he⟩
    · rw [he] at hevent
      cases hevent
    · rw [he] at hevent
      split at hevent
      · cases hevent
        exact ⟨rfl, rfl⟩
      · cases hevent
    · rw [he] at hevent
      cases hevent
  | exit =>
    rcases observeExit_cases h with ⟨hnone, -⟩ | ⟨_, _, -, -, -, hsome⟩
    · cases hnone
    · cases hsome
      exact ⟨rfl, rfl⟩

/-! ## Unrestricted settings -/

variable {observedAt : DateTime}

section
variable {observation : ObservationConfig}

theorem Unrestricted.enabled_of_switch (h : Unrestricted observation) (hkind : sourceKind payload = some kind)
    (hswitch : switch observation kind) : Enabled observation payload := by
  cases payload with
  | processExec => exact h.processExec
  | networkListen =>
    cases hkind
    rcases Bool.or_eq_true_iff.mp hswitch with hlisten | haccept
    · exact hlisten
    · exact h.listen haccept
  | syscall => trivial
  | processStart => trivial
  | processExit => trivial
  | networkConnect | networkAccept =>
    cases hkind
    exact hswitch
  | _ => cases hkind

theorem Unrestricted.transportEnabled (h : Unrestricted observation) (hdns : observation.network.dns.enabled)
    {transport : DnsTransport} : transportEnabled observation.network.dns transport := by
  cases transport with
  | udp => exact (h.transports hdns).1
  | tcp => exact (h.transports hdns).2

theorem process_payload (h : (p.process packet now observedAt).1 = some (process, payload)) :
    ∃ parsed context, parsed.answers.length ≤ maxDnsAnswers ∧ (payload = .networkDnsQuery (queryOf parsed context) ∨
        payload = .networkDnsResponse (responseOf parsed context)) := by
  unfold DnsProcessor.process at h
  split at h
  · cases h
  next context _ =>
    split at h
    · cases h
    unfold processMessage at h
    dsimp only at h
    split at h
    · cases h
    next =>
      split at h
      · cases h
      next parsed hparsed =>
        refine ⟨parsed, context, (parseMessage_sound hparsed).answers, ?_⟩
        unfold typedEvent at h
        dsimp only at h
        split at h
        · split at h
          · cases h
          · split at h
            · cases h
              exact .inl rfl
            · cases h
        · split at h
          · cases h
          · obtain ⟨_, -, hp⟩ := Option.map_eq_some_iff.mp h
            cases hp
            exact .inr rfl

/-- A rename is of two different paths. -/
def Renames : EventPayload → Prop
  | .fileRename value => value.oldPath ≠ value.newPath
  | _ => True

theorem renames_filePayload {operation flags : UInt8} {path : FileActivityPath} {newPath : Option FileActivityPath}
    (h : filePayload operation flags path newPath = .ok payload) : Renames payload := by
  unfold filePayload at h
  split at h
  · cases h
    trivial
  split at h
  · cases h
    trivial
  split at h
  · cases h
    trivial
  · split at h
    · simp only [bind_eq_ok, mapError_eq_ok] at h
      obtain ⟨_, -, _, hrename, he⟩ := h
      cases he
      obtain ⟨hne, rfl⟩ := FileRename.new_eq_ok.mp hrename
      exact hne
    · cases h

theorem renames_decodeFile {decoded : DecodedFileEvent} (h : decodeFile bytes = .ok decoded) :
    Renames decoded.payload := by
  simp only [decodeFile, bind_eq_ok, ite_error_eq_ok, pure_eq_ok] at h
  obtain ⟨_, -, -, -, -, _, -, _, -, _, hpayload, rfl⟩ := h
  exact renames_filePayload hpayload

theorem Unrestricted.enabled_scopedPayload (h : Unrestricted observation) {kept : EventPayload}
    (hrename : Renames payload) (hscoped : scopedPayload observation.files payload = some kept) :
    Enabled observation kept := by
  cases payload with
  | fileCreate =>
    obtain ⟨hobserved, he⟩ := Option.ite_none_right_eq_some.mp hscoped
    cases he
    exact ⟨(h.operations _ hobserved).1, hobserved⟩
  | fileModify =>
    obtain ⟨hobserved, he⟩ := Option.ite_none_right_eq_some.mp hscoped
    cases he
    exact ⟨(h.operations _ hobserved).2.1, hobserved⟩
  | fileDelete =>
    obtain ⟨hobserved, he⟩ := Option.ite_none_right_eq_some.mp hscoped
    cases he
    exact ⟨(h.operations _ hobserved).2.2, hobserved⟩
  | fileRename value =>
    have htranslated : translateRenameScope value (observation.files.observes value.oldPath)
      (observation.files.observes value.newPath) = some kept := hscoped
    cases hold : observation.files.observes value.oldPath <;> cases hnew : observation.files.observes value.newPath <;>
      rw [hold, hnew] at htranslated <;> cases htranslated
    · exact ⟨(h.operations _ hnew).1, hnew⟩
    · exact ⟨(h.operations _ hold).2.2, hold⟩
    · exact ⟨h.rename _ _ hrename hold hnew, hold, hnew⟩
  | _ => cases hscoped

/-! ## Turns -/

/-- The modifications that are held back are enabled. -/
def HeldEnabled (observation : ObservationConfig) (s : AgentState) : Prop :=
  s.files.Holds fun event => Enabled observation event.payload

section
variable (h : Unrestricted observation) (hs : HeldEnabled observation s)
include h hs

theorem Unrestricted.readRing {ring : Ring} (hemitted : (Input.record ring env bytes).Emitted observation)
    (hread : readRing architecture s ring env bytes = .ok (events, t)) :
    (∀ event ∈ events, Enabled observation event.payload) ∧ HeldEnabled observation t := by
  unfold Observer.readRing at hread
  split at hread
  · cases hread
    refine ⟨?_, hs⟩
    intro event hevent
    cases hevent
  next record hrecord =>
    split at hread
    · cases hread
    next hhandle =>
      cases hread
      refine ⟨?_, hs⟩
      intro event hevent
      cases Option.mem_toList.mp hevent
      obtain ⟨hsource, hsome⟩ := sourceKind_handle hhandle
      obtain ⟨kind, hkind⟩ := Option.isSome_iff_exists.mp hsome
      have hinput : (Input.record ring env bytes).kind = some kind := by
        rw [Input.kind, hrecord]
        exact hkind
      exact h.enabled_of_switch (hsource.trans hkind) (emitted_iff.mp (hemitted kind hinput))

theorem Unrestricted.readDnsPacket (hemitted : (Input.dnsPacket env now bytes).Emitted observation) :
    (∀ event ∈ (readDnsPacket s env now bytes).1, Enabled observation event.payload) ∧
      HeldEnabled observation (readDnsPacket s env now bytes).2 := by
  unfold Observer.readDnsPacket
  split
  · refine ⟨?_, hs⟩
    intro event hevent
    cases hevent
  next hpacket =>
    refine ⟨?_, hs⟩
    intro event hevent
    have hinput : (Input.dnsPacket env now bytes).kind = some .dns := by
      rw [Input.kind, hpacket]
      rfl
    have hdns := emitted_iff.mp (hemitted .dns hinput)
    obtain ⟨⟨_, _⟩, htyped, hrest⟩ := Option.bind_eq_some_iff.mp (Option.mem_toList.mp hevent)
    obtain ⟨_, -, he⟩ := Option.bind_eq_some_iff.mp hrest
    cases he
    obtain ⟨_, _, hlength, rfl | rfl⟩ := process_payload htyped
    · exact ⟨hdns, h.transportEnabled hdns⟩
    · exact ⟨hdns, h.transportEnabled hdns, hlength.trans (h.answers hdns)⟩

theorem Unrestricted.readFileRecord (env : Surroundings) (order : Shuffle FileModifyAggregator.Entry) (now : Nat)
    (bytes : List UInt8) :
    (∀ event ∈ (readFileRecord observation.files s env order now bytes).1, Enabled observation event.payload) ∧
      HeldEnabled observation (readFileRecord observation.files s env order now bytes).2 := by
  unfold Observer.readFileRecord
  split
  · refine ⟨?_, hs⟩
    intro event hevent
    cases hevent
  next hdecoded =>
    split
    · refine ⟨?_, hs⟩
      intro event hevent
      cases hevent
    next hevent =>
      obtain ⟨_, -, hrest⟩ := Option.bind_eq_some_iff.mp hevent
      obtain ⟨_, hpayload, he⟩ := Option.bind_eq_some_iff.mp hrest
      cases he
      have henabled := h.enabled_scopedPayload (renames_decodeFile hdecoded) hpayload
      exact hs.of_subset FileModifyAggregator.observe_subperm.subset (forall_mem_singleton.mpr henabled)

theorem Unrestricted.perform {input : Input} (hemitted : input.Emitted observation)
    (hperform : perform observation architecture s input = .ok (events, t)) :
    (∀ event ∈ events, Enabled observation event.payload) ∧ HeldEnabled observation t := by
  cases input with
  | record => exact h.readRing hs hemitted hperform
  | dnsPacket env now bytes =>
    have hread : Observer.readDnsPacket s env now bytes = (events, t) := Except.ok.inj hperform
    have hkeeps := h.readDnsPacket hs hemitted
    rwa [hread] at hkeeps
  | fileRecord env order now bytes =>
    have hread : Observer.readFileRecord observation.files s env order now bytes = (events, t) := Except.ok.inj hperform
    have hkeeps := h.readFileRecord hs env order now bytes
    rwa [hread] at hkeeps
  | drainExpired order =>
    cases hperform
    exact FileModifyAggregator.Holds.release hs order _
  | drainAll order =>
    cases hperform
    exact FileModifyAggregator.Holds.release hs order _

/-- One turn gives enabled events and holds none back that is not. -/
theorem Unrestricted.step {turn : Turn} (hemitted : turn.input.Emitted observation)
    (hstep : step observation architecture s turn = .ok (events, t)) :
    (∀ event ∈ events, Enabled observation event.payload) ∧ HeldEnabled observation t := by
  obtain ⟨⟨_, _⟩, hperform, he⟩ := map_eq_ok.mp hstep
  cases he
  obtain ⟨hmade, ht⟩ := h.perform hs hemitted hperform
  refine ⟨?_, ht⟩
  intro event hevent
  exact hmade event (mem_filter.mp hevent).1

theorem Unrestricted.run {turns : List Turn} (hemitted : ∀ turn ∈ turns, turn.input.Emitted observation)
    {outputs : List (List RuntimeEvent)}
    (hrun : Run.run (Observer.step observation architecture) s turns = .ok (outputs, t)) :
    ∀ event ∈ outputs.flatten, Enabled observation event.payload := by
  induction turns generalizing s outputs with
  | nil =>
    cases hrun
    intro event hevent
    cases hevent
  | cons _ _ ih =>
    obtain ⟨_, _, _, hstep, hrest, rfl⟩ := run_cons_eq_ok.mp hrun
    obtain ⟨hturn, hturns⟩ := forall_mem_cons.mp hemitted
    obtain ⟨hevents, hu⟩ := h.step hs hturn hstep
    intro event hevent
    rw [flatten_cons, mem_append] at hevent
    rcases hevent with hevent | hevent
    · exact hevents event hevent
    · exact ih hu hturns hrest event hevent

end

end

end Okoscope.Agent.Observation
