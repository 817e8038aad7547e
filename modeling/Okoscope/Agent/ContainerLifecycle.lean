import Okoscope.Agent.Attribution

/-!
# Restarts and terminations of containers

What the agent makes of the status of a pod: a termination once for each way its
containers ended, and a restart whenever a restart count has grown. A container is
known by its pod and its name, since every restart gives it another runtime id.
-/
namespace Okoscope.Agent.ContainerLifecycle

open Lib Lib.FiniteMap EventModel
open Attribution List

/-! ## Pods -/

structure ObjectMeta where
  uid : Option String := none

structure ContainerStateTerminated where
  containerId : Option String := none
  exitCode : Int32
  reason : Option String := none
  startedAt : Option DateTime := none
  finishedAt : Option DateTime := none
  deriving DecidableEq

structure ContainerStateWaiting where
  reason : Option String := none

structure ContainerState where
  terminated : Option ContainerStateTerminated := none
  waiting : Option ContainerStateWaiting := none

structure ContainerStatus where
  name : String
  containerId : Option String := none
  restartCount : Int32 := 0
  state : Option ContainerState := none
  lastState : Option ContainerState := none

structure PodStatus where
  containerStatuses : Option (List ContainerStatus) := none

structure Pod where
  metadata : ObjectMeta
  status : Option PodStatus := none

/-- The statuses of the regular containers. -/
def Pod.containerStatuses (pod : Pod) : List ContainerStatus :=
  (pod.status.bind PodStatus.containerStatuses).getD []

/-! ## Transitions -/

structure LifecycleObservation where
  containerId : String
  payload : EventPayload
  deriving DecidableEq

structure TerminationKey where
  reason : String
  exitCode : Int32
  startedAtNanos : Option Int64
  finishedAtNanos : Option Int64
  deriving DecidableEq

/-- Restarts are reported under the first runtime id that was seen. -/
structure TransitionState where
  lifetimeId : String
  restartCount : UInt32
  terminationKey : Option TerminationKey

structure ContainerLifecycleStore where
  capacity : Nat
  states : Map (String × String) TransitionState := ∅
  capacityDrops : Nat := 0
  invalidStatuses : Nat := 0
  deduplicated : Nat := 0

def terminationKey (value : ContainerTermination) : TerminationKey where
  reason := value.reason
  exitCode := value.exitCode
  startedAtNanos := value.startedAt.bind DateTime.timestampNanosOpt
  finishedAtNanos := value.finishedAt.bind DateTime.timestampNanosOpt

def parseTermination (containerId : String) (value : ContainerStateTerminated) :
    Except TerminationValidationError ContainerTermination :=
  ContainerTermination.new containerId (value.reason.getD "Unknown") value.exitCode value.startedAt value.finishedAt

/-- How the container ended: in its current state, or else in the one before. -/
def reportedTermination (status : ContainerStatus) : Option ContainerStateTerminated :=
  status.state.bind ContainerState.terminated <|> status.lastState.bind ContainerState.terminated

variable {store : ContainerLifecycleStore} {containerId : String} {status : ContainerStatus}
variable {restartCount : UInt32} {termination : Option ContainerTermination} {observation : LifecycleObservation}
variable {previous : TransitionState} {waitingReason : Option String} {podUid : String}

namespace ContainerLifecycleStore

def new (capacity : Nat) : ContainerLifecycleStore := { capacity }

def invalidStatus (store : ContainerLifecycleStore) : ContainerLifecycleStore :=
  { store with invalidStatuses := store.invalidStatuses + 1 }

/-- The termination that a status reports; one that is not valid is counted and left out. -/
def parsedTermination (store : ContainerLifecycleStore) (containerId : String) (status : ContainerStatus) :
    Option ContainerTermination × ContainerLifecycleStore :=
  match reportedTermination status with
  | none => (none, store)
  | some value =>
    match parseTermination containerId value with
    | .ok termination => (some termination, store)
    | .error _ => (none, store.invalidStatus)

def terminationObservation (containerId : String) (termination : ContainerTermination) : LifecycleObservation :=
  ⟨containerId, .containerTermination termination⟩

/-- The first status of a container: its restarts up to now are not reported. -/
def observeFirst (store : ContainerLifecycleStore) (key : String × String) (containerId : String)
    (restartCount : UInt32) (termination : Option ContainerTermination) :
    List LifecycleObservation × ContainerLifecycleStore :=
  if store.capacity ≤ size store.states then
    ([], { store with capacityDrops := store.capacityDrops + 1 })
  else
    ((termination.map (terminationObservation containerId)).toList,
      { store with states := store.states.insert key ⟨containerId, restartCount, termination.map terminationKey⟩ })

/-- A termination is reported unless it is the one that was reported last. -/
def newTermination (store : ContainerLifecycleStore) (previous : TransitionState) (containerId : String)
    (termination : Option ContainerTermination) : List LifecycleObservation × ContainerLifecycleStore :=
  match termination with
  | none => ([], store)
  | some value =>
    if some (terminationKey value) = previous.terminationKey then
      ([], { store with deduplicated := store.deduplicated + 1 })
    else ([terminationObservation containerId value], store)

/-- The restarts since the status before. -/
def newRestarts (store : ContainerLifecycleStore) (previous : TransitionState) (restartCount : UInt32)
    (termination : Option ContainerTermination) (waitingReason : Option String) :
    List LifecycleObservation × ContainerLifecycleStore :=
  if restartCount = previous.restartCount then ([], store)
  else
    match ContainerRestart.new previous.lifetimeId restartCount (restartCount - previous.restartCount) termination
      waitingReason with
    | .ok restart => ([⟨previous.lifetimeId, .containerRestart restart⟩], store)
    | .error _ => ([], store.invalidStatus)

def observeNext (store : ContainerLifecycleStore) (key : String × String) (previous : TransitionState)
    (containerId : String) (restartCount : UInt32) (termination : Option ContainerTermination)
    (waitingReason : Option String) : List LifecycleObservation × ContainerLifecycleStore :=
  if restartCount < previous.restartCount then ([], store.invalidStatus)
  else
    let (terminations, store) := store.newTermination previous containerId termination
    let (restarts, store) := store.newRestarts previous restartCount termination waitingReason
    (terminations ++ restarts,
      { store with
        states := store.states.insert key ⟨previous.lifetimeId, restartCount, termination.map terminationKey⟩ })

def observeStatus (store : ContainerLifecycleStore) (podUid : String) (status : ContainerStatus) :
    List LifecycleObservation × ContainerLifecycleStore :=
  match status.containerId.map normalizeContainerId with
  | none => ([], store.invalidStatus)
  | some containerId =>
    if status.restartCount < 0 then ([], store.invalidStatus)
    else
      let restartCount := UInt32.ofNat status.restartCount.toInt.toNat
      let waitingReason := (status.state.bind ContainerState.waiting).bind ContainerStateWaiting.reason
      let (termination, store) := store.parsedTermination containerId status
      match store.states.lookup (podUid, status.name) with
      | none => store.observeFirst (podUid, status.name) containerId restartCount termination
      | some previous =>
        store.observeNext (podUid, status.name) previous containerId restartCount termination waitingReason

/-- What each status of a pod gives rise to, one after the other. -/
def observeStatuses (store : ContainerLifecycleStore) (podUid : String) (statuses : List ContainerStatus) :
    List (ContainerStatus × List LifecycleObservation) × ContainerLifecycleStore :=
  Run.trace (fun store status => store.observeStatus podUid status) store statuses

/-! ## What terminations say -/

/-- A termination that a status gives rise to: the runtime id is the one the status has now, and the rest
is what the status reports. -/
structure Reports (status : ContainerStatus) (observation : LifecycleObservation)
    (termination : ContainerTermination) : Prop where
  named : status.containerId.map normalizeContainerId = some observation.containerId
  parsed : ∃ value, reportedTermination status = some value ∧
    parseTermination observation.containerId value = .ok termination

/-- Every observation of a status is a termination that it reports, or a restart. -/
theorem mem_observeStatus (h : observation ∈ (store.observeStatus podUid status).1) :
    (∃ termination, observation.payload = .containerTermination termination ∧ Reports status observation termination) ∨
      ∃ restart, observation.payload = .containerRestart restart := by
  unfold observeStatus at h
  split at h
  · cases h
  next containerId hid =>
  split at h
  · cases h
  dsimp only at h
  have hreports : ∀ value, (store.parsedTermination containerId status).1 = some value →
      Reports status (terminationObservation containerId value) value := by
    intro value hvalue
    unfold parsedTermination at hvalue
    split at hvalue
    · cases hvalue
    next reported hreported =>
    split at hvalue
    · next hparsed =>
      cases hvalue
      exact ⟨hid, reported, hreported, hparsed⟩
    · cases hvalue
  split at h
  · unfold observeFirst at h
    split at h
    · cases h
    · obtain ⟨value, hvalue, rfl⟩ := Option.map_eq_some_iff.mp (Option.mem_toList.mp h)
      exact .inl ⟨value, rfl, hreports value hvalue⟩
  · unfold observeNext at h
    split at h
    · cases h
    rcases mem_append.mp h with h | h
    · unfold newTermination at h
      split at h
      · cases h
      next value hvalue =>
      split at h
      · cases h
      cases mem_singleton.mp h
      exact .inl ⟨value, rfl, hreports value hvalue⟩
    · unfold newRestarts at h
      split at h
      · cases h
      split at h
      · next restart _ =>
        cases mem_singleton.mp h
        exact .inr ⟨restart, rfl⟩
      · cases h

/-- The status reports the end of the container before the one it has now. -/
def FromLastState (status : ContainerStatus) (value : ContainerStateTerminated) : Prop :=
  status.state.bind ContainerState.terminated = none ∧ status.lastState.bind ContainerState.terminated = some value

instance (status : ContainerStatus) (value : ContainerStateTerminated) : Decidable (FromLastState status value) :=
  inferInstanceAs (Decidable (_ ∧ _))

/-- The runtime id that a terminated state records. -/
def recordedId (value : ContainerStateTerminated) : Option String := value.containerId.map normalizeContainerId

/-- The observation, its payload and every attribution made from it name the container. -/
def Names (observation : LifecycleObservation) (termination : ContainerTermination) (containerId : Option String) :
    Prop :=
  some observation.containerId = containerId ∧ some termination.runtimeContainerId = containerId ∧
    ∀ (cache : AttributionCache) nodeName selectors attribution,
      cache.attributionOf observation.containerId nodeName selectors = .ok attribution →
        some attribution.containerId = containerId

theorem Reports.names_iff {termination : ContainerTermination} (h : Reports status observation termination)
    {containerId : Option String} :
    Names observation termination containerId ↔ status.containerId.map normalizeContainerId = containerId := by
  obtain ⟨_, -, hparsed⟩ := h.parsed
  have hruntime : termination.runtimeContainerId = observation.containerId := by
    obtain ⟨-, rfl⟩ := ContainerTermination.new_eq_ok.mp hparsed
    rfl
  have hnormal : normalizeContainerId observation.containerId = observation.containerId := by
    obtain ⟨_, -, hid⟩ := Option.map_eq_some_iff.mp h.named
    rw [← hid, normalizeContainerId_normalizeContainerId]
  rw [h.named]
  constructor
  · exact fun hnames => hnames.1
  · intro hid
    refine ⟨hid, by rw [hruntime, hid], fun cache nodeName selectors attribution hattribution => ?_⟩
    unfold AttributionCache.attributionOf at hattribution
    split at hattribution
    · cases hattribution
    split at hattribution
    · cases hattribution
    split at hattribution
    · cases hattribution
    · cases hattribution
      exact (congrArg some hnormal).trans hid

/-- A termination that a pod reports from the last state of a container is built from that state, and it
names the container the state records, in the observation, its payload and the attribution made from it,
exactly if the status still has that container: the id is that of the container that is there now. -/
theorem termination_names_recorded_iff {store : ContainerLifecycleStore} {podUid : String} {pod : Pod}
    {entry : ContainerStatus × List LifecycleObservation} {observation : LifecycleObservation}
    {termination : ContainerTermination} {value : ContainerStateTerminated}
    (hentry : entry ∈ (store.observeStatuses podUid pod.containerStatuses).1) (hobservation : observation ∈ entry.2)
    (htermination : observation.payload = .containerTermination termination) (hlast : FromLastState entry.1 value) :
    parseTermination observation.containerId value = .ok termination ∧
      (Names observation termination (recordedId value) ↔
        entry.1.containerId.map normalizeContainerId = recordedId value) := by
  obtain ⟨_, _, -, hbefore⟩ := Run.mem_trace hentry
  rw [hbefore] at hobservation
  rcases mem_observeStatus hobservation with ⟨termination', hpayload, hreports⟩ | ⟨restart, hrestart⟩
  · rw [htermination, EventPayload.containerTermination.injEq] at hpayload
    subst hpayload
    obtain ⟨_, hvalue, hparsed⟩ := hreports.parsed
    rw [reportedTermination, hlast.1, hlast.2] at hvalue
    cases hvalue
    exact ⟨hparsed, hreports.names_iff⟩
  · rw [htermination] at hrestart
    cases hrestart

/-- The container `old` ran out of memory; the status has the given container now. -/
def outOfMemory (containerId : String) : ContainerStatus where
  name := "worker"
  containerId := some containerId
  restartCount := 1
  lastState := some { terminated := some { containerId := some "containerd://old", exitCode := 137,
                                           reason := some "OOMKilled" } }

def outOfMemoryPod (containerId : String) : Pod where
  metadata := { uid := some "pod-1" }
  status := some { containerStatuses := some [outOfMemory containerId] }

/-- What the first status of such a pod gives rise to. -/
def outOfMemoryTermination (containerId : String) : ContainerTermination :=
  ⟨.kubernetes, containerId, "OOMKilled", 137, none, none⟩

/-- While the status still has the container that ended, the termination names it. -/
theorem termination_names_recorded_before_restart :
    Names (terminationObservation "old" (outOfMemoryTermination "old")) (outOfMemoryTermination "old")
      (recordedId { containerId := some "containerd://old", exitCode := 137, reason := some "OOMKilled" }) :=
  have hentry : (outOfMemory "containerd://old", [terminationObservation "old" (outOfMemoryTermination "old")]) ∈
      ((new 8192).observeStatuses "pod-1" (outOfMemoryPod "containerd://old").containerStatuses).1 := by
    exact mem_singleton_self _
  (termination_names_recorded_iff hentry (mem_singleton_self _) rfl (by decide)).2.mpr (by decide +kernel)

/-- Once the container is replaced, the end of `old` is reported as the end of `new`. -/
theorem termination_names_replacement :
    ∃ entry ∈ ((new 8192).observeStatuses "pod-1" (outOfMemoryPod "containerd://new").containerStatuses).1,
      ∃ observation ∈ entry.2, ∃ termination value, observation.payload = .containerTermination termination ∧
        FromLastState entry.1 value ∧ recordedId value = some "old" ∧ observation.containerId = "new" ∧
        ¬ Names observation termination (recordedId value) := by
  refine ⟨_, mem_singleton_self _, _, mem_singleton_self _, outOfMemoryTermination "new",
    { containerId := some "containerd://old", exitCode := 137, reason := some "OOMKilled" }, rfl, by decide,
    by decide +kernel, rfl, fun hnames => ?_⟩
  exact absurd hnames.1 (by decide +kernel)

/-! ## Slots of pods that are gone -/

/-- What the watch reports of pods. -/
inductive PodEvent where
  | apply (pod : Pod)
  | delete (pod : Pod)

def PodEvent.uid : PodEvent → Option String
  | .apply pod | .delete pod => pod.metadata.uid

/-- The regular containers that the pod has after the event. -/
def PodEvent.containers : PodEvent → Finset (String × String)
  | .apply pod => (pod.containerStatuses.filterMap fun status => pod.metadata.uid.map (·, status.name)).toFinset
  | .delete _ => ∅

def observePod (store : ContainerLifecycleStore) (pod : Pod) : List LifecycleObservation × ContainerLifecycleStore :=
  match pod.metadata.uid with
  | none => ([], store.invalidStatus)
  | some podUid =>
    let (entries, store) := store.observeStatuses podUid pod.containerStatuses
    (entries.flatMap Prod.snd, store)

/-- Of a pod that is deleted only the attribution cache is told. -/
def handlePodEvent (store : ContainerLifecycleStore) : PodEvent → List LifecycleObservation × ContainerLifecycleStore
  | .apply pod => store.observePod pod
  | .delete _ => ([], store)

/-- The store, and the containers of the pods that exist. -/
structure Watch where
  store : ContainerLifecycleStore
  live : Finset (String × String)

def Watch.new (capacity : Nat) : Watch := ⟨.new capacity, ∅⟩

def Watch.step (w : Watch) (event : PodEvent) : List LifecycleObservation × Watch :=
  ((w.store.handlePodEvent event).1, {
    store := (w.store.handlePodEvent event).2
    live := w.live.filter (fun slot => some slot.1 ≠ event.uid) ∪ event.containers })

/-- The slots of the pod are those of containers that it has after the event. -/
def KeepsSlots (w : Watch) (event : PodEvent) : Prop :=
  ∀ slot ∈ w.store.states.keys, some slot.1 = event.uid → slot ∈ event.containers

instance (w : Watch) (event : PodEvent) : Decidable (KeepsSlots w event) :=
  inferInstanceAs (Decidable (∀ slot ∈ w.store.states.keys, _))

/-- The slots are those of live containers; while these fit, nothing was dropped since `before`. -/
structure Within (live : Finset (String × String)) (before store : ContainerLifecycleStore) : Prop where
  slots : ∀ slot ∈ store.states.keys, slot ∈ live
  capacity : store.capacity = before.capacity
  drops : live.card ≤ before.capacity → store.capacityDrops = before.capacityDrops

section
variable {live : Finset (String × String)} {before : ContainerLifecycleStore} (h : Within live before store)
  {key : String × String}
include h

theorem Within.invalidStatus : Within live before store.invalidStatus := { h with }

theorem Within.insert (hkey : key ∈ live) {state : TransitionState} :
    Within live before { store with states := store.states.insert key state } :=
  { h with
    slots := fun slot hslot => by
      obtain rfl | hslot := (AList.mem_insert _).mp hslot
      · exact hkey
      · exact h.slots slot hslot }

theorem Within.parsedTermination : Within live before (store.parsedTermination containerId status).2 := by
  unfold ContainerLifecycleStore.parsedTermination
  split
  · exact h
  · split
    · exact h
    · exact h.invalidStatus

/-- A container without a slot is dropped only if more containers are live than there is room for. -/
theorem Within.observeFirst (hkey : key ∈ live) (hnone : store.states.lookup key = none) :
    Within live before (store.observeFirst key containerId restartCount termination).2 := by
  unfold ContainerLifecycleStore.observeFirst
  split
  next hfull =>
    refine ⟨h.slots, h.capacity, fun hfits => ?_⟩
    have hsize : size store.states ≤ (live.erase key).card := by
      refine size_le_card fun slot hslot => Finset.mem_erase.mpr ⟨?_, h.slots slot hslot⟩
      rintro rfl
      exact AList.lookup_eq_none.mp hnone hslot
    have hroom := Finset.card_erase_lt_of_mem hkey
    rw [h.capacity] at hfull
    omega
  · exact h.insert hkey

theorem Within.newTermination : Within live before (store.newTermination previous containerId termination).2 := by
  unfold ContainerLifecycleStore.newTermination
  split
  · exact h
  · split
    · exact { h with }
    · exact h

theorem Within.newRestarts :
    Within live before (store.newRestarts previous restartCount termination waitingReason).2 := by
  unfold ContainerLifecycleStore.newRestarts
  split
  · exact h
  · split
    · exact h
    · exact h.invalidStatus

theorem Within.observeStatus (hkey : (podUid, status.name) ∈ live) :
    Within live before (store.observeStatus podUid status).2 := by
  unfold ContainerLifecycleStore.observeStatus
  split
  · exact h.invalidStatus
  next containerId _ =>
    split
    · exact h.invalidStatus
    have hparsed : Within live before (store.parsedTermination containerId status).2 := h.parsedTermination
    dsimp only
    split
    next hnone => exact hparsed.observeFirst hkey hnone
    · unfold observeNext
      split
      · exact hparsed.invalidStatus
      · exact hparsed.newTermination.newRestarts.insert hkey

end

/-- The slots stay those of live containers if the pods keep theirs. -/
theorem Watch.step_within {w : Watch} (h : ∀ slot ∈ w.store.states.keys, slot ∈ w.live) {event : PodEvent}
    (hkeeps : KeepsSlots w event) : Within (w.step event).2.live w.store (w.step event).2.store := by
  have hbefore : Within (w.step event).2.live w.store w.store := by
    refine ⟨fun slot hslot => Finset.mem_union.mpr ?_, rfl, fun _ => rfl⟩
    by_cases huid : some slot.1 = event.uid
    · exact .inr (hkeeps slot hslot huid)
    · exact .inl (Finset.mem_filter.mpr ⟨h slot hslot, huid⟩)
  cases event with
  | delete => exact hbefore
  | apply pod =>
    have hlive : ∀ slot ∈ (PodEvent.apply pod).containers, slot ∈ (w.step (.apply pod)).2.live :=
      fun slot hslot => Finset.mem_union_right _ hslot
    generalize (w.step (.apply pod)).2.live = live at hbefore hlive
    show Within live w.store (w.store.observePod pod).2
    unfold observePod
    split
    · exact hbefore.invalidStatus
    next podUid huid =>
      have hcontainers : ∀ status ∈ pod.containerStatuses, (podUid, status.name) ∈ live := by
        intro status hstatus
        apply hlive
        exact mem_toFinset.mpr (mem_filterMap.mpr ⟨status, hstatus, by rw [huid]; rfl⟩)
      exact Run.trace_invariant_along (fun _ => Within live w.store) (fun _ _ _ hs hkey => hs.observeStatus hkey)
        hbefore (Run.along_of_forall hcontainers _)

/-- A pod of one container that was restarted so many times. -/
def restartedPod (uid : String) (restartCount : Int32) : Pod where
  metadata := { uid := some uid }
  status := some { containerStatuses := some [{ name := "worker", containerId := some uid, restartCount }] }

end ContainerLifecycleStore

end Okoscope.Agent.ContainerLifecycle
