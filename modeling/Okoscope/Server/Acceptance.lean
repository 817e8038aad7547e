import Okoscope.Protocol.Encode
import Okoscope.Server.Grouping
import Okoscope.Server.Ingestion
import Okoscope.Server.Inventory

/-!
# Which accepted events can be fingerprinted

The wire decoder, the ingestion checks and the two fingerprints each have their
own notion of a present text. The decoder asks for a non-whitespace character in
some texts, the checks for a bounded length in others, and the fingerprints for
a character other than NUL and whitespace in every text they digest. An accepted
event is fingerprinted exactly when all the texts its kind requires have such a
character; otherwise ingestion fails and the stream ends.
-/
namespace Okoscope.Server.Acceptance

open Lib Lib.Outcome EventModel Protocol
open Grouping (TrustedGroupingScope fingerprintV1)
open Inventory (TrustedInventoryScope)
open Ingestion (validateDnsEvent validateTerminationEvent)
open Uuid List

/-- The payload is not a thread activity window. -/
def Groupable : EventPayload → Prop
  | .threadActivityWindow _ => False
  | _ => True

/-- The texts the payload's kind requires. -/
def payloadTexts (e : RuntimeEvent) : List String :=
  match e.payload with
  | .threadActivityWindow _ => []
  | .processExec exec => [exec.executable]
  | .syscall syscall => [e.process.command, syscall.name]
  | .processExit exit =>
    match exit.correlation with
    | .observed _ _ executable => [executable]
    | .unresolved _ => [e.process.command]
  | .containerTermination t => [e.attribution.containerName, t.reason]
  | .containerRestart _ => [e.attribution.containerName]
  | .processStart _ | .networkConnect _ | .networkListen _ | .networkAccept _ | .networkDnsQuery _
  | .networkDnsResponse _ | .fileCreate _ | .fileModify _ | .fileDelete _ | .fileRename _ => [e.process.command]

section
variable {ε : Type} {empty : String → ε} {field value : String}

theorem exists_required_ok {p : String → Prop} :
    (∃ text, requiredText empty field value = .ok text ∧ p text) ↔ Significant value ∧ p (normalized value) := by
  simp only [requiredText_eq_ok, and_assoc, exists_and_left, exists_eq_left]

theorem requiredText_ok : (∃ text, requiredText empty field value = .ok text) ↔ Significant value := by
  simp only [requiredText_eq_ok, exists_and_left, exists_eq, and_true]

end

variable {e : RuntimeEvent}

theorem grouping_payloadSemantic_ok :
    (∃ s, Grouping.payloadSemantic e = .ok s) ↔ Groupable e.payload ∧ ∀ t ∈ payloadTexts e, Significant t := by
  unfold Grouping.payloadSemantic payloadTexts Groupable
  cases e.payload with
  | threadActivityWindow => simp
  | processExit x =>
    cases hc : x.correlation <;>
      simp only [Grouping.exitIdentity, hc, Grouping.required, exists_bind_ok, requiredText_ok, exists_pure_ok,
        forall_mem_singleton, and_true, true_and]
  | _ =>
    simp only [Grouping.fileSemantic, Grouping.required, exists_bind_ok, exists_required_ok, requiredText_ok,
      exists_pure_ok, forall_mem_singleton, forall_mem_cons, and_true, true_and]

/-- The inventory requires no text that grouping does not. -/
theorem inventory_payloadSemantic_ok (hg : Groupable e.payload)
    (ht : ∀ t ∈ payloadTexts e, Significant t) : ∃ s, Inventory.payloadSemantic e = .ok s := by
  unfold Inventory.payloadSemantic
  unfold payloadTexts at ht
  cases hp : e.payload with
  | threadActivityWindow =>
    rw [hp] at hg
    exact hg.elim
  | processExit x =>
    cases hc : x.correlation <;>
      simp only [hp, hc, forall_mem_singleton] at ht <;>
      simpa only [Inventory.exitIdentity, hc, Inventory.required, exists_bind_ok, requiredText_ok, exists_pure_ok, and_true] using ht
  | _ =>
    simp only [hp, forall_mem_singleton, forall_mem_cons] at ht
    first
    | exact ⟨_, rfl⟩
    | simp only [Inventory.required, exists_bind_ok, requiredText_ok, exists_pure_ok, and_true, ht]

/-- The scope ingestion derives from the event and the session. -/
def groupingScope (e : RuntimeEvent) (organizationId projectId applicationId clusterId : Uuid) :
    TrustedGroupingScope where
  organizationId := organizationId
  projectId := projectId
  applicationId := applicationId
  clusterId := clusterId
  «namespace» := e.attribution.namespace
  workloadKind := e.attribution.workloadKind
  workloadName := e.attribution.workloadName

/-- All texts grouping requires of an event. -/
def eventTexts (e : RuntimeEvent) : List String :=
  [e.attribution.namespace, e.attribution.workloadKind, e.attribution.workloadName] ++ payloadTexts e

theorem fingerprintV1_ok {o p a c : Uuid} : (∃ f, fingerprintV1 (groupingScope e o p a c) e = .ok f) ↔
      Groupable e.payload ∧ ∀ t ∈ eventTexts e, Significant t := by
  have hpayload := grouping_payloadSemantic_ok (e := e)
  simp only [fingerprintV1, groupingScope, Grouping.required, bind_eq_ok, requiredText_eq_ok, pure_eq_ok,
    eventTexts, forall_mem_append, forall_mem_cons, not_mem_nil, IsEmpty.forall_iff,
    implies_true, and_true]
  constructor
  · rintro ⟨f, _, ⟨hn, rfl⟩, _, ⟨hk, rfl⟩, _, ⟨hw, rfl⟩, s, hs, -⟩
    obtain ⟨hg, ht⟩ := hpayload.mp ⟨s, hs⟩
    exact ⟨hg, ⟨hn, hk, hw⟩, ht⟩
  · rintro ⟨hg, ⟨hn, hk, hw⟩, ht⟩
    obtain ⟨s, hs⟩ := hpayload.mpr ⟨hg, ht⟩
    exact ⟨_, _, ⟨hn, rfl⟩, _, ⟨hk, rfl⟩, _, ⟨hw, rfl⟩, s, hs, rfl⟩

/-! ## The same texts on the wire -/

def wireExitTexts (p : V1.ProcessIdentity) (exit : V1.ProcessExit) : List String :=
  match exit.correlation with
  | some ⟨some (.observed observed)⟩ => [observed.executable]
  | _ => [p.command]

def wirePayloadTexts (a : V1.KubernetesAttribution) (p : V1.ProcessIdentity) : V1.Payload → List String
  | .threadActivityWindow _ => []
  | .processExec exec => [exec.executable]
  | .syscall syscall => [p.command, syscall.name]
  | .processExit exit => wireExitTexts p exit
  | .containerTermination t => [a.containerName, t.reason]
  | .containerRestart _ => [a.containerName]
  | .processStart _ | .networkConnect _ | .networkListen _ | .networkAccept _ | .networkDnsQuery _
  | .networkDnsResponse _ | .fileCreate _ | .fileModify _ | .fileDelete _ | .fileRename _ => [p.command]

/-- The texts of a wire event that the fingerprints of its kind require. -/
def wireTexts (v : V1.RuntimeEvent) : List String :=
  match v.attribution, v.process, v.payload with
  | some a, some p, some payload =>
    [a.namespace, a.workloadKind, a.workloadName] ++ wirePayloadTexts a p payload
  | _, _, _ => []

variable {p : V1.ProcessIdentity}

theorem exitTexts_decoded {value : V1.ProcessExit} {exit : ProcessExit} (h : decodeProcessExit value = .ok exit) :
    (match exit.correlation with
      | .observed _ _ executable => [executable]
      | .unresolved _ => [p.command]) = wireExitTexts p value := by
  obtain ⟨-, _, -, _, -, ⟨result⟩, hw, _, hc, _, -, _, -, -, rfl⟩ := decodeProcessExit_eq_ok.mp h
  simp only [decodeGenerationCorrelation, bind_eq_ok, okOr_eq_ok] at hc
  obtain ⟨result, rfl, hc⟩ := hc
  cases result with
  | observed =>
    simp only [bind_eq_ok, mapError_eq_ok, GenerationCorrelation.newObserved_eq_ok] at hc
    obtain ⟨_, -, -, -, rfl⟩ := hc
    simp only [wireExitTexts, hw]
  | unresolved =>
    simp only [bind_eq_ok, pure_eq_ok] at hc
    obtain ⟨_, -, rfl⟩ := hc
    simp only [wireExitTexts, hw]

theorem payloadTexts_decoded {a : V1.KubernetesAttribution} {payload : V1.Payload} (hp : e.process = decodeProcess p)
    (ha : e.attribution.containerName = a.containerName) (h : decodePayload payload (decodeProcess p) = .ok e.payload) :
    payloadTexts e = wirePayloadTexts a p payload := by
  have hcommand : e.process.command = p.command := by rw [hp]; rfl
  unfold payloadTexts
  cases payload <;> obtain ⟨x, hx, hpayload⟩ := map_eq_ok.mp h <;>
    simp only [← hpayload, wirePayloadTexts, hcommand, ha]
  case processExec =>
    simp only [decodeProcessExec, bind_eq_ok, exists_unit, pure_eq_ok] at hx
    obtain ⟨-, _, -, rfl⟩ := hx
    rfl
  case syscall =>
    simp only [decodeSyscall, bind_eq_ok, exists_unit, pure_eq_ok] at hx
    obtain ⟨-, rfl⟩ := hx
    rfl
  case containerTermination =>
    obtain ⟨-, _, -, _, -, hnew⟩ := decodeContainerTermination_eq_ok.mp hx
    obtain ⟨-, rfl⟩ := ContainerTermination.new_eq_ok.mp hnew
    rfl
  case processExit => exact exitTexts_decoded hx

theorem eventTexts_decoded {v : V1.RuntimeEvent} (h : tryFromRuntimeEvent v = .ok e) : eventTexts e = wireTexts v := by
  obtain ⟨-, _, -, _, -, _, ha, _, hb, _, hp, _, hpayload, _, hdecoded, rfl⟩ := tryFromRuntimeEvent_eq_ok.mp h
  simp only [decodeAttribution, bind_eq_ok, exists_unit, pure_eq_ok] at hb
  obtain ⟨-, -, -, -, -, _, -, rfl⟩ := hb
  unfold eventTexts wireTexts
  rw [ha, hp, hpayload, payloadTexts_decoded rfl rfl hdecoded]

/-- The decoder reads the event, and both ingestion checks pass. -/
structure Accepted (v : V1.RuntimeEvent) (e : RuntimeEvent) : Prop where
  decoded : tryFromRuntimeEvent v = .ok e
  dns : validateDnsEvent e = .ok ()
  termination : validateTerminationEvent e = .ok ()

/-- An accepted event is fingerprinted for grouping and for the inventory, under
every organization, project, application and cluster, exactly when each text its
kind requires has a character other than NUL and whitespace. -/
theorem accepted_fingerprinted_iff (v : V1.RuntimeEvent) (e : RuntimeEvent) (haccepted : Accepted v e)
    (hkind : Groupable e.payload) (organizationId projectId applicationId clusterId : Uuid) :
    ((∃ f, fingerprintV1 (groupingScope e organizationId projectId applicationId clusterId) e = .ok f) ∧
      ∃ f, Inventory.fingerprint ⟨organizationId, projectId, applicationId⟩ e = .ok f) ↔
      ∀ t ∈ wireTexts v, Significant t := by
  rw [fingerprintV1_ok, ← eventTexts_decoded haccepted.decoded]
  constructor
  · rintro ⟨⟨-, ht⟩, -⟩
    exact ht
  · intro ht
    obtain ⟨s, hs⟩ := inventory_payloadSemantic_ok hkind fun t h => ht t (mem_append_right _ h)
    exact ⟨⟨hkind, ht⟩, _, bind_eq_ok.mpr ⟨s, hs, rfl⟩⟩

/-- A listener of a process with the given command name. -/
def listenerOf (command : String) : RuntimeEvent where
  id := nil
  observedAt := 0
  schemaVersion := eventSchemaVersion
  attribution := { paymentApi with projectId := nil, applicationId := nil }
  process := { cgroupId := 42, pid := 100, tgid := 100, command }
  payload := .networkListen {
    transport := .tcp
    addressFamily := .ipv4
    localAddress := .v4 (Bytes.ByteVec.fill 4 0)
    localPort := 8080 }

theorem accepted_fingerprinted_listener : (∃ f, fingerprintV1 (groupingScope (listenerOf "api") nil nil nil nil)
      (listenerOf "api") = .ok f) ∧ ∃ f, Inventory.fingerprint ⟨nil, nil, nil⟩ (listenerOf "api") = .ok f :=
  (accepted_fingerprinted_iff (fromRuntimeEvent (listenerOf "api")) (listenerOf "api")
    ⟨by decide +kernel, by decide, by decide⟩ trivial nil nil nil nil).mpr (by decide +kernel)

/-- A listener whose process has an empty command name is decoded and passes both
checks, but has no group fingerprint. -/
theorem empty_command_not_fingerprinted : ∃ v e, Accepted v e ∧ Groupable e.payload ∧
      fingerprintV1 (groupingScope e nil nil nil nil) e = .error (.emptyField "process_command") :=
  ⟨fromRuntimeEvent (listenerOf ""), listenerOf "", ⟨by decide +kernel, by decide, by decide⟩, trivial, rfl⟩

end Okoscope.Server.Acceptance
