import Mathlib.Data.Finset.Basic
import Okoscope.Agent.Emission
import Okoscope.EventModel.Resource

/-!
# Configuration of the agent

The settings the agent reads, the checks it makes before it starts, and which
workloads a selector matches.
-/
namespace Okoscope.Agent.Config

open Lib Lib.FiniteMap Lib.Outcome EventModel Emission

def apiVersion : String := "okoscope.io/v1alpha1"
def kind : String := "AgentConfiguration"
def maxQueueCapacity : Nat := 4096
def maxApplicationStreams : Nat := 32

structure ServerConfig where
  endpoint : String
  developmentPlaintext : Bool

structure WorkloadSelector where
  applicationCredentialFile : String
  routeId : Uuid
  «namespace» : String
  kind : String
  name : String
  release : Option String
  labels : Map String String := ∅

structure WorkloadMetadata where
  «namespace» : String
  kind : String
  name : String
  labels : Map String String

/-- The workload has the namespace, the kind, the name and all the labels of the selector. -/
def WorkloadSelector.matchesWorkload (selector : WorkloadSelector) (workload : WorkloadMetadata) : Bool :=
  selector.namespace = workload.namespace && selector.kind = workload.kind &&
    (selector.name = "*" || selector.name = workload.name) &&
    selector.labels.entries.all fun label => workload.labels.lookup label.1 = some label.2

structure ResourceObservationConfig where
  enabled : Bool := false
  sampleIntervalSeconds : UInt64 := 15
  aggregationIntervalSeconds : UInt64 := 60
  maxCgroupStates : Nat := 4096
  maxOpenAggregates : Nat := 1024
  queueCapacity : Nat := 256
  batchSize : Nat := 64

inductive FileOperation where
  | create
  | modify
  | delete
  | rename
  deriving DecidableEq, Repr

structure FileObservationConfig where
  enabled : Bool := false
  operations : Finset FileOperation := ∅
  includePaths : List String := []
  excludePaths : List String := []

def observedPath (value : String) : Option FileActivityPath := (FileActivityPath.new value).toOption

/-- The path is under one that is included and under none that is excluded. -/
def FileObservationConfig.observes (files : FileObservationConfig) (path : FileActivityPath) : Bool :=
  files.enabled && (files.includePaths.filterMap observedPath).any path.isEqualOrDescendantOf &&
    !(files.excludePaths.filterMap observedPath).any path.isEqualOrDescendantOf

structure DnsObservationConfig where
  enabled : Bool := false
  udp : Bool := true
  tcp : Bool := true
  maxCapturedBytes : Nat := 1232
  maxPendingTransactions : Nat := 4096
  maxTcpStreams : Nat := 1024
  maxAnswersPerResponse : Nat := maxDnsAnswers
  maxNamesPerAddress : Nat := maxDnsContextNames
  maxTtlSeconds : UInt32 := maxDnsTtlSeconds
  maxEventsPerSecond : UInt32 := 1000

structure NetworkObservationConfig where
  connect : Bool := false
  listen : Bool := false
  accept : Bool := false
  maxAcceptedEventsPerSecond : UInt32 := 1000
  dns : DnsObservationConfig := {}

structure ObservationConfig where
  processExec : Bool
  processExit : Bool := false
  syscalls : List String := []
  network : NetworkObservationConfig := {}
  files : FileObservationConfig := {}
  resources : ResourceObservationConfig := {}

structure SafetyLimits where
  queueCapacity : Nat := 4096
  batchSize : Nat := 256
  maxEventsPerSecond : UInt32 := 10000
  maxApplicationStreams : Nat := 32

structure AgentConfig where
  apiVersion : String
  kind : String
  server : ServerConfig
  workloads : List WorkloadSelector
  observation : ObservationConfig
  safety : SafetyLimits := {}

inductive ConfigError where
  | apiVersion (value : String)
  | kind (value : String)
  | missingWorkload
  | missingObservation
  | invalidSelector (message : String)
  | tlsRequired
  | syscall (error : SyscallError)
  deriving DecidableEq

/-! ## Checks -/

/-- Nothing is observed: process exits need another capability beside them. -/
def ObservationConfig.nothing (observation : ObservationConfig) : Prop :=
  observation.processExec = false ∧ observation.syscalls = [] ∧ observation.network.connect = false ∧
    observation.network.listen = false ∧ observation.network.accept = false ∧
    observation.network.dns.enabled = false ∧ observation.files.enabled = false ∧
    observation.resources.enabled = false

/-- The rate of events is not among the limits that are checked. -/
def SafetyLimits.outOfBounds (safety : SafetyLimits) : Prop :=
  safety.queueCapacity = 0 ∨ safety.batchSize = 0 ∨ safety.batchSize > safety.queueCapacity ∨
    safety.maxApplicationStreams = 0 ∨ safety.queueCapacity > maxQueueCapacity ∨
    safety.maxApplicationStreams > Config.maxApplicationStreams

def ResourceObservationConfig.outOfBounds (resources : ResourceObservationConfig) : Prop :=
  ¬ (10 ≤ resources.sampleIntervalSeconds ∧ resources.sampleIntervalSeconds ≤ 60) ∨
    resources.aggregationIntervalSeconds ≠ 60 ∨
    resources.maxCgroupStates = 0 ∨ resources.maxCgroupStates > 65536 ∨
    resources.maxOpenAggregates = 0 ∨ resources.maxOpenAggregates > 16384 ∨
    resources.queueCapacity = 0 ∨ resources.queueCapacity > 4096 ∨
    resources.batchSize = 0 ∨ resources.batchSize > resources.queueCapacity ∨
    resources.batchSize > maxResourceBatchAggregates

def DnsObservationConfig.outOfBounds (dns : DnsObservationConfig) : Prop :=
  (dns.udp = false ∧ dns.tcp = false) ∨ ¬ (512 ≤ dns.maxCapturedBytes ∧ dns.maxCapturedBytes ≤ 4096) ∨
    dns.maxPendingTransactions = 0 ∨ dns.maxTcpStreams = 0 ∨
    ¬ (1 ≤ dns.maxAnswersPerResponse ∧ dns.maxAnswersPerResponse ≤ maxDnsAnswers) ∨
    ¬ (1 ≤ dns.maxNamesPerAddress ∧ dns.maxNamesPerAddress ≤ maxDnsContextNames) ∨
    ¬ (1 ≤ dns.maxTtlSeconds ∧ dns.maxTtlSeconds ≤ maxDnsTtlSeconds) ∨ dns.maxEventsPerSecond = 0

instance (observation : ObservationConfig) : Decidable observation.nothing :=
  inferInstanceAs (Decidable (_ ∧ _))
instance (safety : SafetyLimits) : Decidable safety.outOfBounds := inferInstanceAs (Decidable (_ ∨ _))
instance (resources : ResourceObservationConfig) : Decidable resources.outOfBounds :=
  inferInstanceAs (Decidable (_ ∨ _))
instance (dns : DnsObservationConfig) : Decidable dns.outOfBounds := inferInstanceAs (Decidable (_ ∨ _))

def refuseIf (c : Prop) [Decidable c] (error : ConfigError) : Except ConfigError Unit :=
  if c then .error error else .ok ()

def FileObservationConfig.validate (files : FileObservationConfig) : Except ConfigError Unit :=
  if files.enabled then do
    refuseIf (files.operations = ∅ ∨ files.includePaths = [])
      (.invalidSelector "file observation requires operations and includePaths")
    (files.includePaths ++ files.excludePaths).forM fun path =>
      ((FileActivityPath.new path).map fun _ => ()).mapError fun _ =>
        .invalidSelector "file paths must be absolute, normalized, bounded, and NUL-free"
  else .ok ()

def WorkloadSelector.validate (selector : WorkloadSelector) : Except ConfigError Unit := do
  refuseIf (selector.namespace = "" ∨ selector.kind = "" ∨ selector.name = "")
    (.invalidSelector "namespace, kind, and name are required")
  refuseIf (∃ release ∈ selector.release, release = "" ∨ Text.len release > 200)
    (.invalidSelector "release must be trimmed and contain 1..=200 bytes")
  refuseIf (selector.applicationCredentialFile.toList.head? ≠ some '/' ∨
      Text.contains selector.applicationCredentialFile '\x00')
    (.invalidSelector "applicationCredentialFile must be an absolute NUL-free path")

def AgentConfig.distinctStreams (config : AgentConfig) : Nat :=
  (config.workloads.map WorkloadSelector.routeId).toFinset.card

def AgentConfig.validate (config : AgentConfig) (architecture : Architecture) : Except ConfigError Unit := do
  let network := config.observation.network
  refuseIf (config.apiVersion ≠ Config.apiVersion) (.apiVersion config.apiVersion)
  refuseIf (config.kind ≠ Config.kind) (.kind config.kind)
  refuseIf (config.workloads = []) .missingWorkload
  refuseIf config.observation.nothing .missingObservation
  refuseIf (config.server.developmentPlaintext = false ∧
    ¬ "https://".toList <+: config.server.endpoint.toList) .tlsRequired
  refuseIf config.safety.outOfBounds
    (.invalidSelector (s!"safety limits must be non-zero, batchSize must not exceed queueCapacity, queueCapacity must " ++
      s!"not exceed {maxQueueCapacity}, and maxApplicationStreams must not exceed {Config.maxApplicationStreams}"))
  refuseIf (config.observation.resources.enabled ∧ config.observation.resources.outOfBounds)
    (.invalidSelector "resource observation bounds are invalid")
  config.observation.files.validate
  refuseIf (network.accept ∧
      ¬ (1 ≤ network.maxAcceptedEventsPerSecond ∧ network.maxAcceptedEventsPerSecond ≤ 100000))
    (.invalidSelector "maxAcceptedEventsPerSecond must be in 1..=100000")
  refuseIf (network.dns.enabled ∧ network.dns.outOfBounds)
    (.invalidSelector "DNS limits or transports are outside platform bounds")
  config.workloads.forM WorkloadSelector.validate
  refuseIf (config.distinctStreams > config.safety.maxApplicationStreams)
    (.invalidSelector
      s!"configured Application stream count exceeds maxApplicationStreams ({config.safety.maxApplicationStreams})")
  config.observation.syscalls.forM fun name =>
    ((resolve name architecture).map fun _ => ()).mapError .syscall

/-! ## What an accepted configuration satisfies -/

theorem refuseIf_eq_ok {c : Prop} [Decidable c] {error : ConfigError} : refuseIf c error = .ok () ↔ ¬ c := by
  rw [refuseIf, ite_error_eq_ok, and_iff_left rfl]

/-- The bounds an accepted configuration is within; those of a feature only while it is enabled. -/
structure WithinBounds (config : AgentConfig) : Prop where
  safety : ¬ config.safety.outOfBounds
  resources : config.observation.resources.enabled → ¬ config.observation.resources.outOfBounds
  files : config.observation.files.validate = .ok ()
  accept : config.observation.network.accept → 1 ≤ config.observation.network.maxAcceptedEventsPerSecond ∧
    config.observation.network.maxAcceptedEventsPerSecond ≤ 100000
  dns : config.observation.network.dns.enabled → ¬ config.observation.network.dns.outOfBounds

theorem AgentConfig.withinBounds {config : AgentConfig} {architecture : Architecture}
    (h : config.validate architecture = .ok ()) : WithinBounds config := by
  simp only [AgentConfig.validate, bind_unit_eq_ok, refuseIf_eq_ok] at h
  obtain ⟨-, -, -, -, -, hsafety, hresources, hfiles, haccept, hdns, -⟩ := h
  exact ⟨hsafety, not_and.mp hresources, hfiles, fun ha => not_not.mp (not_and.mp haccept ha), not_and.mp hdns⟩

/-! ## Which paths are observed -/

open FileActivityPath

/-- The path is at or below one of the configured ones. -/
def Covers (paths : List String) (p : FileActivityPath) : Prop :=
  ∃ value ∈ paths, ∃ q, FileActivityPath.new value = .ok q ∧ q.components <+: p.components

theorem any_observedPath {paths : List String} {p : FileActivityPath} :
    (paths.filterMap observedPath).any p.isEqualOrDescendantOf ↔ Covers paths p := by
  simp only [List.any_filterMap, List.any_eq_true, Covers]
  refine exists_congr fun value => and_congr_right fun _ => ?_
  rw [observedPath]
  cases FileActivityPath.new value with
  | error => simp [Except.toOption]
  | ok q => simp [Except.toOption, isEqualOrDescendantOf_iff]

/-- Accepted are absolute paths without NUL, of at most 1024 bytes, whose names are neither empty nor dots. One is
below another if its names begin with those of the other, and it is observed if it is below an included path and
below no excluded one. -/
theorem path_scoping_by_components :
    (∀ value, (∃ p, FileActivityPath.new value = .ok p) ↔ Text.len value ≤ maxFilePathBytes ∧ '\x00' ∉ value.toList ∧
      ∃ rest, value.toList = '/' :: rest ∧ (rest = [] ∨ ∀ c ∈ rest.splitOn '/', c ∉ [[], ['.'], ['.', '.']])) ∧
    (∀ p q : FileActivityPath, p.isEqualOrDescendantOf q ↔ q.components <+: p.components) ∧
    IsPartialOrder FileActivityPath (fun p q => p.isEqualOrDescendantOf q) ∧
    ∀ (files : FileObservationConfig) p, files.observes p ↔
      files.enabled ∧ Covers files.includePaths p ∧ ¬ Covers files.excludePaths p := by
  refine ⟨fun value => ?_, fun p q => isEqualOrDescendantOf_iff, ?_, fun files p => ?_⟩
  · rw [← isNormalizedAbsolutePath_iff]
    unfold FileActivityPath.new
    split
    next hlen =>
      split
      next hnorm => simp [hlen, hnorm]
      next hnorm => simp [hnorm]
    next hlen => simp [hlen]
  · simp only [isEqualOrDescendantOf_iff]
    exact {
      refl := fun _ => List.prefix_rfl
      trans := fun _ _ _ h h' => h'.trans h
      antisymm := fun _ _ h h' => components_injective (h'.eq_of_length_le h.length_le) }
  · rw [FileObservationConfig.observes, Bool.and_eq_true, Bool.and_eq_true, Bool.not_eq_true', ← Bool.not_eq_true,
      any_observedPath, any_observedPath, and_assoc]

end Okoscope.Agent.Config
