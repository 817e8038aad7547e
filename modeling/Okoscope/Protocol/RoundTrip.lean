import Okoscope.Protocol.WireImage

/-!
# The wire round trip

An event whose parts come from the constructors of the event model survives
encoding and decoding, up to the project and application identifiers, exactly
when it also meets the conditions that only the decoder checks.
-/
namespace Okoscope.Protocol

open Lib EventModel List

/-- The event with the project and the application removed. -/
def withoutOwner (e : RuntimeEvent) : RuntimeEvent :=
  { e with attribution := { e.attribution with projectId := Uuid.nil, applicationId := Uuid.nil } }

/-! ## Parts built by the event model -/

def TerminationBuilt : ProcessTermination → Prop
  | .exited _ => True
  | .signaled signal signalName coreDumpFlag =>
    ProcessTermination.newSignaled signal signalName coreDumpFlag = .ok (.signaled signal signalName coreDumpFlag)

def CorrelationBuilt : GenerationCorrelation → Prop
  | .observed generation execEventId executable =>
    GenerationCorrelation.newObserved generation execEventId executable =
      .ok (.observed generation execEventId executable)
  | .unresolved _ => True

/-- Built by `new` or `classifiedLeader`, then possibly `withGeneration`. -/
def ExitBuilt (x : ProcessExit) : Prop :=
  ∃ raw termination correlation, TerminationBuilt termination ∧ CorrelationBuilt correlation ∧
    ∃ base, (base = ProcessExit.new raw termination correlation ∨
        base = ProcessExit.classifiedLeader raw termination correlation) ∧
      (x = base ∨ ∃ g : ProcessGenerationIdentity, g.validate = .ok () ∧ x = base.withGeneration g)

def ContainerTerminationBuilt (t : ContainerTermination) : Prop :=
  ContainerTermination.new t.runtimeContainerId t.reason t.exitCode t.startedAt t.finishedAt = .ok t

def ContainerRestartBuilt (r : ContainerRestart) : Prop :=
  (∀ t, r.previousTermination = some t → ContainerTerminationBuilt t) ∧
    ContainerRestart.new r.runtimeContainerId r.restartCount r.restartDelta r.previousTermination
      r.waitingReason = .ok r

/-- Built by `new`, then possibly `withDnsContext` with a valid context. -/
def ConnectBuilt (n : NetworkConnect) : Prop :=
  ∃ base, NetworkConnect.new n.addressFamily n.destinationAddress n.destinationPort n.outcome n.errno = .ok base ∧
    (n = base ∨ ∃ c : DnsContext, c.validate = .ok () ∧ n = base.withDnsContext c)

/-- Every part of the payload was built by its constructor or passes its check. -/
def PayloadBuilt : EventPayload → Prop
  | .processStart s => s.validate = .ok ()
  | .threadActivityWindow w => w.validate = .ok ()
  | .processExec e => ∀ g, e.generation = some g → g.validate = .ok ()
  | .networkConnect n => ConnectBuilt n
  | .networkListen l => NetworkListen.new l.addressFamily l.localAddress l.localPort = .ok l
  | .networkAccept a =>
    NetworkAccept.new a.addressFamily a.localAddress a.localPort a.remoteAddress a.remotePort = .ok a
  | .networkDnsResponse r => r.validate = .ok ()
  | .fileRename r => FileRename.new r.oldPath r.newPath r.replaced = .ok r
  | .processExit x => ExitBuilt x
  | .containerTermination t => ContainerTerminationBuilt t
  | .containerRestart r => ContainerRestartBuilt r
  | .syscall _ | .networkDnsQuery _ | .fileCreate _ | .fileModify _ | .fileDelete _ => True

/-- The parts of the event were built by their constructors or pass their checks. -/
structure PartsBuilt (e : RuntimeEvent) : Prop where
  releaseIdentity : ∀ r, e.attribution.releaseIdentity = some r → r.validate = .ok ()
  payload : PayloadBuilt e.payload

def terminationTimes (t : ContainerTermination) : List DateTime := t.startedAt.toList ++ t.finishedAt.toList

def payloadTimes : EventPayload → List DateTime
  | .threadActivityWindow w => [w.windowStartedAt, w.windowEndedAt]
  | .networkConnect n => n.dnsContext.toList.flatMap fun c => [c.observedAt, c.expiresAt]
  | .containerTermination t => terminationTimes t
  | .containerRestart r => r.previousTermination.toList.flatMap terminationTimes
  | _ => []

/-- Every instant of the event is a 64-bit count of nanoseconds. -/
def TimesFit (e : RuntimeEvent) : Prop := ∀ t ∈ e.observedAt :: payloadTimes e.payload, DateTime.Fits t

/-! ## What only the decoder checks -/

/-- The texts of the payload that the decoder requires. -/
def payloadMandatoryTexts : EventPayload → List String
  | .processExec x => [x.executable]
  | .syscall s => [s.name]
  | _ => []

/-- The texts the decoder requires. -/
def mandatoryTexts (e : RuntimeEvent) : List String :=
  [e.attribution.nodeName, e.attribution.namespace, e.attribution.podUid, e.attribution.containerId,
    e.attribution.workloadUid] ++ payloadMandatoryTexts e.payload

/-- The wait status a termination stands for. -/
def waitStatusOf : ProcessTermination → Int32
  | .exited status => exitedWaitStatus status
  | .signaled signal _ coreDumpFlag => signaledWaitStatus signal coreDumpFlag

/-- The conditions on a payload that its constructors do not give. -/
def PayloadExact (e : RuntimeEvent) : Prop :=
  match e.payload with
  | .threadActivityWindow w => w.process = e.process
  | .processExec x => x.parentCommand ≠ some ""
  | .processExit x =>
    x.rawWaitStatus = waitStatusOf x.termination ∧ generationDisagrees x.generation x.correlation = false
  | _ => True

structure WireExact (e : RuntimeEvent) : Prop where
  schemaVersion : e.schemaVersion = eventSchemaVersion
  texts : ∀ t ∈ mandatoryTexts e, ¬ Text.Blank Text.isWhitespace t
  release : ∀ r, e.attribution.release = some r → Text.trim r = r ∧ r ≠ "" ∧ Text.len r ≤ 200
  payload : PayloadExact e

/-! ## Part by part -/

/-- The wire keeps a time that fits into its 64 bits. -/
theorem optionalOnWire_eq_self {t : Option DateTime} (h : ∀ x ∈ t.toList, DateTime.Fits x) : optionalOnWire t = t := by
  cases t with
  | none => rfl
  | some t => rw [optionalOnWire, Option.bind_some, if_pos (h t (by simp))]

variable {t : ContainerTermination}

theorem terminationOnWire_eq_self (h : ∀ x ∈ terminationTimes t, DateTime.Fits x) : terminationOnWire t = t := by
  rw [terminationOnWire, optionalOnWire_eq_self fun x hx => h x (mem_append_left _ hx),
    optionalOnWire_eq_self fun x hx => h x (mem_append_right _ hx)]

theorem containerTerminationReadable_of_built (hb : ContainerTerminationBuilt t)
    (h : ∀ x ∈ terminationTimes t, DateTime.Fits x) : ContainerTerminationReadable t := by
  obtain ⟨hc, ht⟩ := ContainerTermination.new_eq_ok.mp hb
  refine ⟨by rw [ht], ?_⟩
  rwa [optionalOnWire_eq_self fun x hx => h x (mem_append_left _ hx),
    optionalOnWire_eq_self fun x hx => h x (mem_append_right _ hx)]

/-- A release name is kept unless it is blank, padded or too long. -/
theorem decodeRelease_eq_self {release : Option String} :
    decodeRelease release = release ↔ ∀ r, release = some r → Text.trim r = r ∧ r ≠ "" ∧ Text.len r ≤ 200 := by
  cases release with
  | none => simp [decodeRelease]
  | some =>
    simp only [decodeRelease, Option.bind_some, Option.some.injEq, forall_eq']
    constructor
    · intro h
      split at h
      · next hc =>
        have ht := Option.some.inj h
        rw [ht] at hc
        exact ⟨ht, hc⟩
      · cases h
    · rintro ⟨ht, hc⟩
      rw [ht, if_pos hc]

/-- A blank executable is refused, and an empty command of the parent comes back as none. -/
theorem exec_exact {x : ProcessExec} (hb : ∀ g, x.generation = some g → g.validate = .ok ()) :
    (ExecReadable x ∧ execOnWire x = x) ↔ ¬ Text.Blank Text.isWhitespace x.executable ∧ x.parentCommand ≠ some "" := by
  have hparent : execOnWire x = x ↔ x.parentCommand ≠ some "" := by
    obtain ⟨_, parent, _⟩ := x
    cases parent with
    | none => simp [execOnWire]
    | some c => by_cases hc : c = "" <;> simp [execOnWire, nonEmpty, hc]
  rw [hparent]
  exact ⟨fun ⟨hr, hp⟩ => ⟨hr.executable, hp⟩, fun ⟨hr, hp⟩ => ⟨⟨hr, hb⟩, hp⟩⟩

/-- A window comes back with the process of its event. -/
theorem window_exact {w : ThreadActivityWindow} {process : ProcessIdentity} (hb : w.validate = .ok ())
    (hs : DateTime.Fits w.windowStartedAt) (he : DateTime.Fits w.windowEndedAt) :
    ((windowOnWire w process).validate = .ok () ∧ windowOnWire w process = w) ↔ w.process = process := by
  have himage : windowOnWire w process = { w with process } := by
    rw [windowOnWire, DateTime.onWire_of_fits hs, DateTime.onWire_of_fits he]
  rw [himage]
  constructor
  · rintro ⟨-, h⟩
    exact (congrArg ThreadActivityWindow.process h).symm
  · rintro rfl
    exact ⟨hb, rfl⟩

theorem connect_exact {n : NetworkConnect} (hb : ConnectBuilt n)
    (ht : ∀ t ∈ payloadTimes (.networkConnect n), DateTime.Fits t) : ConnectReadable n ∧ connectOnWire n = n := by
  obtain ⟨_, hbase, hn⟩ := hb
  obtain ⟨hchecked, rfl⟩ := NetworkConnect.new_eq_ok.mp hbase
  have hfamily := hchecked.familyAgrees
  rw [← hfamily] at hchecked
  rcases hn with hn | ⟨c, hc, hn⟩
  · have hnone : n.dnsContext = none := by rw [hn]
    exact ⟨⟨hchecked, fun c hc => by rw [hnone] at hc; cases hc⟩,
      by rw [connectOnWire, hfamily, hnone, Option.map_none, hn]⟩
  have hsome : n.dnsContext = some c := by rw [hn]; rfl
  have htimes : contextOnWire c = c := by
    rw [contextOnWire, DateTime.onWire_of_fits (ht _ (by simp [payloadTimes, hsome])),
      DateTime.onWire_of_fits (ht _ (by simp [payloadTimes, hsome]))]
  refine ⟨⟨hchecked, fun d hd => ?_⟩, ?_⟩
  · rw [hsome] at hd
    cases hd
    rw [htimes]
    exact hc
  · rw [connectOnWire, hfamily, hsome, Option.map_some, htimes, ← hsome]

/-- What the constructors of an exit establish. -/
theorem exitBuilt_spec {x : ProcessExit} (hb : ExitBuilt x) :
    x.source = .kernel ∧ TerminationBuilt x.termination ∧ CorrelationBuilt x.correlation ∧
      ∀ g, x.generation = some g → g.validate = .ok () := by
  obtain ⟨_, termination, correlation, ht, hc, base, hbase, hx⟩ := hb
  have hspec : base.source = .kernel ∧ base.termination = termination ∧ base.correlation = correlation ∧
      base.generation = none := by
    rcases hbase with rfl | rfl <;> exact ⟨rfl, rfl, rfl, rfl⟩
  obtain ⟨hs, rfl, rfl, hg⟩ := hspec
  rcases hx with rfl | ⟨g, hv, rfl⟩
  · exact ⟨hs, ht, hc, fun g h => by rw [hg] at h; cases h⟩
  · exact ⟨hs, ht, hc, fun g' h => by cases h; exact hv⟩

/-- A termination is read only beside its own wait status. -/
theorem termination_exact {raw : Int32} {t : ProcessTermination} (hb : TerminationBuilt t) :
    TerminationReadable raw t ↔ raw = waitStatusOf t := by
  cases t with
  | exited => rfl
  | signaled =>
    obtain ⟨hrange, hname, -⟩ := ProcessTermination.newSignaled_eq_ok.mp hb
    exact ⟨fun h => h.1, fun h => ⟨h, hrange, hname⟩⟩

theorem correlationReadable_of_built {c : GenerationCorrelation} (hb : CorrelationBuilt c) : CorrelationReadable c := by
  cases c with
  | observed =>
    obtain ⟨hg, hx, -⟩ := GenerationCorrelation.newObserved_eq_ok.mp hb
    exact ⟨hg, hx⟩
  | unresolved => trivial

/-- An exit is read if the status is that of its termination and the generations agree. -/
theorem exit_exact {x : ProcessExit} (hb : ExitBuilt x) : ExitReadable x ↔
      x.rawWaitStatus = waitStatusOf x.termination ∧ generationDisagrees x.generation x.correlation = false := by
  obtain ⟨hs, ht, hc, hg⟩ := exitBuilt_spec hb
  rw [← termination_exact ht]
  exact ⟨fun h => ⟨h.termination, h.agrees⟩, fun ⟨h, hd⟩ => ⟨hs, h, correlationReadable_of_built hc, hg, hd⟩⟩

theorem restart_exact {r : ContainerRestart} (hb : ContainerRestartBuilt r)
    (ht : ∀ t ∈ payloadTimes (.containerRestart r), DateTime.Fits t) :
    ContainerRestartReadable r ∧ restartOnWire r = r := by
  obtain ⟨hprev, hnew⟩ := hb
  obtain ⟨hchecked, hr⟩ := ContainerRestart.new_eq_ok.mp hnew
  have htimes : ∀ t, r.previousTermination = some t → ∀ x ∈ terminationTimes t, DateTime.Fits x := by
    intro t h x hx
    exact ht x (by simp [payloadTimes, h, hx])
  have hself : r.previousTermination.map terminationOnWire = r.previousTermination := by
    cases h : r.previousTermination with
    | none => rfl
    | some t => rw [Option.map_some, terminationOnWire_eq_self (htimes t h)]
  refine ⟨⟨by rw [hr], fun t h => containerTerminationReadable_of_built (hprev t h) (htimes t h), ?_, ?_⟩, ?_⟩
  · rw [hself]
    exact hchecked
  · exact (congrArg ContainerRestart.observationGap hr).symm
  · rw [restartOnWire, hself]

/-- Which payloads come back as they were sent, kind by kind. -/
theorem payload_exact {e : RuntimeEvent} (hb : PayloadBuilt e.payload)
    (ht : ∀ t ∈ payloadTimes e.payload, DateTime.Fits t) :
    (PayloadReadable e.process e.payload ∧ payloadOnWire e.process e.payload = e.payload) ↔
      (∀ t ∈ payloadMandatoryTexts e.payload, ¬ Text.Blank Text.isWhitespace t) ∧ PayloadExact e := by
  unfold PayloadExact
  cases hp : e.payload with
  | processExec =>
    rw [hp] at hb
    simpa [PayloadReadable, payloadOnWire, payloadMandatoryTexts] using exec_exact hb
  | threadActivityWindow =>
    rw [hp] at hb ht
    simpa [PayloadReadable, payloadOnWire, payloadMandatoryTexts] using
      window_exact hb (ht _ (by simp [payloadTimes])) (ht _ (by simp [payloadTimes]))
  | networkConnect =>
    rw [hp] at hb ht
    simpa [PayloadReadable, payloadOnWire, payloadMandatoryTexts] using connect_exact hb ht
  | networkListen =>
    rw [hp] at hb
    obtain ⟨⟨hport, hfamily⟩, -⟩ := NetworkListen.new_eq_ok.mp hb
    simp [PayloadReadable, payloadOnWire, payloadMandatoryTexts, listenOnWire, hport, hfamily]
  | networkAccept a =>
    rw [hp] at hb
    obtain ⟨⟨hlp, hlf⟩, ⟨hrp, hrf⟩, -⟩ := NetworkAccept.new_eq_ok.mp hb
    have hreadable : AcceptReadable a := ⟨hlp, hrp, hrf.trans hlf.symm⟩
    simp [PayloadReadable, payloadOnWire, payloadMandatoryTexts, acceptOnWire, hreadable, hlf]
  | processExit =>
    rw [hp] at hb
    simpa [PayloadReadable, payloadOnWire, payloadMandatoryTexts] using exit_exact hb
  | containerTermination =>
    rw [hp] at hb ht
    have hreadable := containerTerminationReadable_of_built hb ht
    simp [PayloadReadable, payloadOnWire, payloadMandatoryTexts, hreadable, terminationOnWire_eq_self ht]
  | containerRestart =>
    rw [hp] at hb ht
    simpa [PayloadReadable, payloadOnWire, payloadMandatoryTexts] using restart_exact hb ht
  | fileRename =>
    rw [hp] at hb
    simp [PayloadReadable, payloadOnWire, payloadMandatoryTexts, (FileRename.new_eq_ok.mp hb).1]
  | _ =>
    simp_all [PayloadReadable, payloadOnWire, payloadMandatoryTexts, PayloadBuilt]

/-- The owner is not on the wire; everything else of an attribution comes back if it is readable. -/
theorem attribution_exact {a : KubernetesAttribution} (hb : ∀ r, a.releaseIdentity = some r → r.validate = .ok ()) :
    (AttributionReadable a ∧ attributionOnWire a = { a with projectId := Uuid.nil, applicationId := Uuid.nil }) ↔
      (∀ t ∈ [a.nodeName, a.namespace, a.podUid, a.containerId, a.workloadUid], ¬ Text.Blank Text.isWhitespace t) ∧
      ∀ r, a.release = some r → Text.trim r = r ∧ r ≠ "" ∧ Text.len r ≤ 200 := by
  rw [← decodeRelease_eq_self]
  have himage : attributionOnWire a = { a with projectId := Uuid.nil, applicationId := Uuid.nil } ↔
      decodeRelease a.release = a.release := by simp [attributionOnWire]
  rw [himage]
  refine and_congr_left fun _ => ⟨fun h => ?_, fun h => ?_⟩
  · simp [h.nodeName, h.namespaceName, h.podUid, h.containerId, h.workloadUid]
  · simp only [forall_mem_cons] at h
    obtain ⟨hn, hns, hp, hc, hw, -⟩ := h
    exact ⟨hn, hns, hp, hc, hw, hb⟩

/-- An event built by the event model, with instants that fit the wire, is read
back unchanged up to its owner exactly when it meets the decoder's own conditions. -/
theorem roundTrip_iff_wireExact (e : RuntimeEvent) (hparts : PartsBuilt e) (htimes : TimesFit e) :
    tryFromRuntimeEvent (fromRuntimeEvent e) = .ok (withoutOwner e) ↔ WireExact e := by
  have hobserved : DateTime.Fits e.observedAt := htimes _ mem_cons_self
  have hattribution := attribution_exact hparts.releaseIdentity
  have hpayload := payload_exact hparts.payload fun t h => htimes t (mem_cons_of_mem _ h)
  rw [tryFromRuntimeEvent_encoded, eq_comm (a := withoutOwner e), eventOnWire, DateTime.onWire_of_fits hobserved,
    withoutOwner]
  simp only [RuntimeEvent.mk.injEq, true_and]
  constructor
  · rintro ⟨⟨hs, ha, hp⟩, ha', hp'⟩
    obtain ⟨htexts, hrelease⟩ := hattribution.mp ⟨ha, ha'⟩
    obtain ⟨hptexts, hexact⟩ := hpayload.mp ⟨hp, hp'⟩
    exact ⟨hs, fun t h => (mem_append.mp h).elim (htexts t) (hptexts t), hrelease, hexact⟩
  · rintro ⟨hs, htexts, hrelease, hexact⟩
    obtain ⟨ha, ha'⟩ := hattribution.mpr ⟨fun t h => htexts t (mem_append_left _ h), hrelease⟩
    obtain ⟨hp, hp'⟩ := hpayload.mpr ⟨fun t h => htexts t (mem_append_right _ h), hexact⟩
    exact ⟨⟨hs, ha, hp⟩, ha', hp'⟩

/-- The exit of a process of `payment-api`, at the epoch. -/
def exitEvent (exit : ProcessExit) : RuntimeEvent where
  id := Bytes.ByteVec.fill 16 7
  observedAt := 0
  schemaVersion := 1
  attribution := paymentApi
  process := { cgroupId := 42, pid := 100, tgid := 100, command := "api" }
  payload := .processExit exit

/-- A leader that exits with status 3, correlated with its execution. -/
def observedExit : ProcessExit :=
  (ProcessExit.classifiedLeader (exitedWaitStatus 3) (.exited 3)
    (.observed 5 (Bytes.ByteVec.fill 16 8) "/usr/bin/api")).withGeneration ⟨5, Bytes.ByteVec.fill 16 9, true⟩

theorem observedExit_roundTrip : tryFromRuntimeEvent (fromRuntimeEvent (exitEvent observedExit)) =
      .ok (withoutOwner (exitEvent observedExit)) := by
  refine (roundTrip_iff_wireExact _ ⟨?_, ?_⟩ ?_).mpr ⟨rfl, ?_, ?_, ?_⟩
  · rintro r ⟨⟩
  · refine ⟨_, .exited 3, .observed 5 (Bytes.ByteVec.fill 16 8) "/usr/bin/api", trivial, ?_, _, .inr rfl,
      .inr ⟨⟨5, Bytes.ByteVec.fill 16 9, true⟩, by decide, rfl⟩⟩
    exact GenerationCorrelation.newObserved_eq_ok.mpr ⟨by decide, by decide, rfl⟩
  · simp only [TimesFit, exitEvent, payloadTimes, mem_singleton, forall_eq]
    decide
  · decide
  · decide
  · exact ⟨rfl, by decide⟩

/-- The constructor of an exit takes any wait status: one that says something else
than the termination is refused by the decoder, although every part is well built. -/
theorem inconsistent_waitStatus_not_roundTrip :
    let e := exitEvent (ProcessExit.new 0 (.exited 1) (.unresolved .beforeObservation))
    PartsBuilt e ∧ TimesFit e ∧ (∀ t ∈ mandatoryTexts e, ¬ Text.Blank Text.isWhitespace t) ∧
      tryFromRuntimeEvent (fromRuntimeEvent e) ≠ .ok (withoutOwner e) := by
  refine ⟨⟨?_, ?_⟩, ?_, ?_, ?_⟩
  · rintro r ⟨⟩
  · exact ⟨0, .exited 1, .unresolved .beforeObservation, trivial, trivial, _, .inl rfl, .inl rfl⟩
  · simp only [TimesFit, exitEvent, payloadTimes, mem_singleton, forall_eq]
    decide
  · decide
  rw [Ne, tryFromRuntimeEvent_encoded]
  rintro ⟨h, -⟩
  have hstatus : (0 : Int32) = exitedWaitStatus 1 := h.payload.termination
  exact absurd hstatus (by decide)

end Okoscope.Protocol
