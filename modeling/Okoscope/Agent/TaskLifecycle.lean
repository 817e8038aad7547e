import Okoscope.Agent.ProcessRuntime
import Okoscope.EventModel.Event

/-!
# Threads of observed processes

The agent counts, for each observed process, the threads that start and end, by name and
in windows of a minute. A task index finds the thread that a record is about. Hash maps are
association lists; the order in which a flush iterates them is an argument of the flush.
What the directory `/proc/<tgid>/task` lists is an argument of the snapshot.
-/
namespace Okoscope.Agent.TaskLifecycle

open Lib Lib.FiniteMap Lib.Word Lib.Bytes EventModel
open ProcessRuntime (ProcessKey)

/-! ## State -/

structure TaskState where
  name : String

structure TaskKey where
  tid : UInt32
  generation : UInt64
  startedAtNs : UInt64
  deriving DecidableEq

structure NameState where
  created : UInt64 := 0
  exited : UInt64 := 0
  active : UInt64 := 0

structure ProcessState where
  attribution : KubernetesAttribution
  process : ProcessIdentity
  generation : ProcessGenerationIdentity
  tasks : Map TaskKey TaskState
  names : Map String NameState
  activeAtStart : UInt64
  peakActive : UInt64
  created : UInt64
  exited : UInt64
  overflow : UInt64
  gaps : List ThreadGapReason
  windowStart : DateTime
  baselineProvenance : BaselineProvenance
  baselineComplete : Bool
  retired : Bool

def keyOf (process : ProcessIdentity) : ProcessKey := ⟨process.cgroupId, process.tgid⟩

/-- A process and a thread of it, by number. -/
abbrev Locator := UInt32 × UInt32

structure TaskLifecycleStore where
  capacity : Nat
  states : Map ProcessKey ProcessState
  taskIndex : Map Locator (ProcessKey × TaskKey)
  nextTaskGeneration : UInt64

structure TaskStart where
  tid : UInt32
  observedAtNs : UInt64
  name : String

/-- An entry of the task directory: one that cannot be read, one that is not named by a number,
or a thread with the text of its `comm` file, if that can be read. -/
inductive SnapshotEntry where
  | unreadable
  | notTask
  | task (tid : UInt32) (comm : Option String)

structure IterationOrder where
  states : Shuffle RuntimeEvent
  names : Shuffle ThreadNameAggregate
  gaps : Shuffle ThreadGapReason

/-! ## One process -/

def minute : Int := 60 * DateTime.nanosPerSecond

def minuteStart (value : DateTime) : DateTime := value - value % minute

/-- The bytes whose digest identifies a window. -/
def windowMessage (process : ProcessIdentity) (generation : ProcessGenerationIdentity) (start : DateTime) :
    List UInt8 :=
  beBytes 8 process.cgroupId.toNat ++ beBytes 4 process.tgid.toNat ++ beBytes 8 generation.generation.toNat ++
    generation.observationEpoch.toList ++ beBytes 8 (DateTime.unixNanos start).toUInt64.toNat

/-- The first bytes of a digest, with the version and the variant of an identifier. -/
def versionedId (digest : ByteVec 32) : Uuid :=
  ⟨((digest.toList.take 16).modify 6 fun b => (b &&& 0x0f) ||| 0x50).modify 8 fun b => (b &&& 0x3f) ||| 0x80,
    by simp⟩

def deterministicWindowId (process : ProcessIdentity) (generation : ProcessGenerationIdentity) (start : DateTime) :
    Uuid :=
  versionedId (Sha256.digest (windowMessage process generation start))

def validSnapshotName (value : String) : Bool :=
  value ≠ "" && Text.len value ≤ maxThreadNameBytes && !value.toList.any Text.isControl

variable {state : ProcessState}

namespace ProcessState

def new (attribution : KubernetesAttribution) (process : ProcessIdentity) (generation : ProcessGenerationIdentity)
    (observedAt : DateTime) : ProcessState where
  attribution
  process
  generation
  tasks := ∅
  names := ∅
  activeAtStart := 0
  peakActive := 0
  created := 0
  exited := 0
  overflow := 0
  gaps := []
  windowStart := minuteStart observedAt
  baselineProvenance := if generation.startObserved then .observed else .unavailable
  baselineComplete := generation.startObserved
  retired := false

/-- The name a thread is counted under; the names past the limit are one. -/
def bucketName (state : ProcessState) (name : String) : String × ProcessState :=
  if (state.names.lookup name).isSome ∨ size state.names < maxThreadNames then (name, state)
  else ("other", { state with overflow := saturatingAdd state.overflow 1 })

/-- The counters of a name, all zero if it has none yet. -/
def nameState (state : ProcessState) (name : String) : NameState := (state.names.lookup name).getD {}

def active (state : ProcessState) : UInt64 := UInt64.ofNat (size state.tasks)

def addGap (state : ProcessState) (reason : ThreadGapReason) : ProcessState :=
  { state with gaps := state.gaps.insert reason }

/-- Counts the start of a thread under this name. -/
def countStart (state : ProcessState) (taskKey : TaskKey) (name : String) : ProcessState :=
  let entry := state.nameState name
  let state := { state with
    tasks := state.tasks.insert taskKey { name }
    created := saturatingAdd state.created 1
    names := state.names.insert name { entry with
      created := saturatingAdd entry.created 1
      active := saturatingAdd entry.active 1 } }
  { state with peakActive := max state.peakActive state.active }

def startTask (state : ProcessState) (taskKey : TaskKey) (taskName : String) : ProcessState :=
  let (name, state) := state.bucketName taskName
  state.countStart taskKey name

/-- Counts the end of a thread of this name. -/
def countExit (state : ProcessState) (name : String) : ProcessState :=
  { state with
    exited := saturatingAdd state.exited 1
    names := adjust state.names name fun entry => { entry with
      exited := saturatingAdd entry.exited 1
      active := saturatingSub entry.active 1 } }

/-- An end that was not seen: the counts go on, but not everything was observed. -/
def markLost (state : ProcessState) : ProcessState :=
  { state.addGap .kernelLoss with baselineComplete := false }

/-- A thread whose number is used again has ended unseen. -/
def retireTask (state : ProcessState) (taskKey : TaskKey) : ProcessState :=
  match state.tasks.lookup taskKey with
  | none => state
  | some task => ({ state with tasks := state.tasks.erase taskKey }.countExit task.name).markLost

def exitTask (state : ProcessState) (taskKey : TaskKey) : ProcessState :=
  match state.tasks.lookup taskKey with
  | none => state.addGap .stateCapacity
  | some task => { state with tasks := state.tasks.erase taskKey }.countExit task.name

/-- Moves a thread from its name to another. -/
def moveTask (state : ProcessState) (taskKey : TaskKey) (oldName newName : String) : ProcessState :=
  let state := { state with
    names := adjust state.names oldName fun entry => { entry with active := saturatingSub entry.active 1 } }
  let entry := state.nameState newName
  { state with
    names := state.names.insert newName { entry with active := saturatingAdd entry.active 1 }
    tasks := state.tasks.insert taskKey { name := newName } }

def renameTask (state : ProcessState) (taskKey : TaskKey) (taskName : String) : ProcessState :=
  let (newName, state) := state.bucketName taskName
  match state.tasks.lookup taskKey with
  | none => state
  | some task => if task.name = newName then state else state.moveTask taskKey task.name newName

/-- The leader has ended: what it leaves behind has ended unseen. -/
def exitAll (state : ProcessState) : ProcessState :=
  let ended := state.tasks.entries.foldl (fun state task => (state.countExit task.2.name).markLost) state
  { ended with retired := true, tasks := ∅ }

/-- The step of that loop does not look at the tasks. -/
theorem foldl_countExit_tasks (state : ProcessState) (tasks : Map TaskKey TaskState)
    (l : List ((_ : TaskKey) × TaskState)) :
    l.foldl (fun state task => (state.countExit task.2.name).markLost) { state with tasks } =
      { l.foldl (fun state task => (state.countExit task.2.name).markLost) state with tasks } := by
  induction l generalizing state with
  | nil => rfl
  | cons e _ ih => exact ih ((state.countExit e.2.name).markLost)

/-- The end of a leader ends its threads one after the other. -/
theorem exitAll_retireTask {e : (_ : TaskKey) × TaskState} {rest : List ((_ : TaskKey) × TaskState)}
    (h : state.tasks.entries = e :: rest) : state.exitAll = (state.retireTask e.1).exitAll := by
  have hlookup : state.tasks.lookup e.1 = some e.2 := mem_entries_iff.mp (by rw [h]; exact List.mem_cons_self)
  have hretire : state.retireTask e.1 = { (state.countExit e.2.name).markLost with tasks := state.tasks.erase e.1 } := by
    rw [retireTask, hlookup]
    rfl
  have hrest : (state.tasks.erase e.1).entries = rest := by
    show state.tasks.entries.kerase e.1 = rest
    rw [h, List.kerase_cons_eq rfl]
  have hfold := foldl_countExit_tasks (state.countExit e.2.name).markLost (state.tasks.erase e.1) rest
  rw [hretire]
  simp only [exitAll, hrest, h, List.foldl_cons]
  rw [hfold]

/-- What holds of a state and is kept when a thread ends unseen holds when the leader has ended. -/
theorem exitAll_induction {P : ProcessState → Prop} (hretire : ∀ state taskKey, P state → P (state.retireTask taskKey))
    (hend : ∀ state, P state → state.tasks = ∅ → P { state with retired := true })
    (h : P state) : P state.exitAll := by
  generalize hl : state.tasks.entries = l
  induction l generalizing state with
  | nil =>
    have hempty : state.tasks = ∅ := AList.ext hl
    have hexit : state.exitAll = { state with retired := true } := by
      unfold exitAll
      rw [hl, ← hempty]
      rfl
    rw [hexit]
    exact hend state h hempty
  | cons e rest ih =>
    rw [exitAll_retireTask hl]
    refine ih (hretire state e.1 h) ?_
    have hlookup : state.tasks.lookup e.1 = some e.2 := mem_entries_iff.mp (by rw [hl]; exact List.mem_cons_self)
    rw [retireTask, hlookup]
    show state.tasks.entries.kerase e.1 = rest
    rw [hl, List.kerase_cons_eq rfl]

def aggregates (state : ProcessState) : List ThreadNameAggregate :=
  state.names.entries.map fun e =>
    { name := e.1, created := e.2.created, exited := e.2.exited, active := e.2.active }

def window (state : ProcessState) (order : IterationOrder) : ThreadActivityWindow where
  id := deterministicWindowId state.process state.generation state.windowStart
  process := state.process
  generation := state.generation
  windowStartedAt := state.windowStart
  windowEndedAt := state.windowStart + minute
  created := state.created
  exited := state.exited
  activeAtStart := state.activeAtStart
  activeAtEnd := state.active
  peakActive := state.peakActive
  names := order.names.apply state.aggregates
  baselineProvenance := state.baselineProvenance
  baselineComplete := state.baselineComplete && state.gaps.isEmpty
  nameOverflow := state.overflow
  gaps := order.gaps.apply state.gaps

def resetWindow (state : ProcessState) (start : DateTime) : ProcessState :=
  { state with
    windowStart := start
    activeAtStart := state.active
    peakActive := state.active
    created := 0
    exited := 0
    overflow := 0
    gaps := []
    names := mapValues (fun entry => { entry with created := 0, exited := 0 }) state.names }

/-- The window is over. -/
def isDue (state : ProcessState) (now : DateTime) : Prop := state.windowStart + minute ≤ now

instance (state : ProcessState) (now : DateTime) : Decidable (state.isDue now) := inferInstanceAs (Decidable (_ ≤ _))

def windowEvent (state : ProcessState) (order : IterationOrder) : RuntimeEvent where
  id := deterministicWindowId state.process state.generation state.windowStart
  observedAt := state.windowStart + minute
  schemaVersion := eventSchemaVersion
  attribution := state.attribution
  process := state.process
  payload := .threadActivityWindow (state.window order)

/-- The event of a window that is over, and the state the next window starts with. -/
def flush (state : ProcessState) (order : IterationOrder) (now : DateTime) : Option RuntimeEvent × ProcessState :=
  if state.isDue now then (some (state.windowEvent order), state.resetWindow (state.windowStart + minute))
  else (none, state)

end ProcessState

/-! ## The store -/

namespace TaskLifecycleStore

def new (capacity : Nat) : TaskLifecycleStore where
  capacity
  states := ∅
  taskIndex := ∅
  nextTaskGeneration := 1

def modifyState (s : TaskLifecycleStore) (key : ProcessKey) (f : ProcessState → ProcessState) : TaskLifecycleStore :=
  { s with states := adjust s.states key f }

def nextTaskKey (s : TaskLifecycleStore) (tid : UInt32) (startedAtNs : UInt64) : TaskKey × TaskLifecycleStore :=
  ({ tid, generation := s.nextTaskGeneration, startedAtNs },
    { s with nextTaskGeneration := max (saturatingAdd s.nextTaskGeneration 1) 1 })

/-- The index without the threads of a process. -/
def forgetTasks (index : Map Locator (ProcessKey × TaskKey)) (tgid : UInt32) (tasks : Map TaskKey TaskState) :
    Map Locator (ProcessKey × TaskKey) :=
  tasks.keys.foldl (fun index taskKey => index.erase (tgid, taskKey.tid)) index

def removeProcessState (s : TaskLifecycleStore) (key : ProcessKey) : TaskLifecycleStore :=
  match s.states.lookup key with
  | none => s
  | some state =>
    { s with states := s.states.erase key, taskIndex := forgetTasks s.taskIndex key.tgid state.tasks }

/-- A start puts a fresh state in the place of the old one, whatever that has counted. -/
def observeProcessStart (s : TaskLifecycleStore) (eventId : Uuid) (observedAt : DateTime)
    (attribution : KubernetesAttribution) (process : ProcessIdentity) (start : ProcessStart) :
    Option RuntimeEvent × TaskLifecycleStore :=
  let key := keyOf process
  let s := s.removeProcessState key
  if start.validate = .ok () then
    (some {
        id := eventId, observedAt, schemaVersion := eventSchemaVersion, attribution, process,
        payload := .processStart start },
      { s with states := s.states.insert key (ProcessState.new attribution process start.generation observedAt) })
  else (none, s)

def insertState (s : TaskLifecycleStore) (key : ProcessKey) (state : ProcessState) : Bool × TaskLifecycleStore :=
  if size s.states ≥ s.capacity then (false, s) else (true, { s with states := s.states.insert key state })

/-- Whether the generation has a state that counts, made if it has none. -/
def ensureState (s : TaskLifecycleStore) (key : ProcessKey) (fresh : ProcessState) : Bool × TaskLifecycleStore :=
  match s.states.lookup key with
  | none => s.insertState key fresh
  | some state =>
    if state.generation = fresh.generation then (!state.retired, s)
    else (s.removeProcessState key).insertState key fresh

def retireReusedTask (s : TaskLifecycleStore) (locator : Locator) : TaskLifecycleStore :=
  match s.taskIndex.lookup locator with
  | none => s
  | some (key, taskKey) =>
    { s with taskIndex := s.taskIndex.erase locator }.modifyState key (·.retireTask taskKey)

/-- The index has a thread of this number that started no earlier. -/
def isStale (s : TaskLifecycleStore) (locator : Locator) (observedAtNs : UInt64) : Prop :=
  ∃ indexed ∈ s.taskIndex.lookup locator, indexed.2.startedAtNs ≥ observedAtNs

instance (s : TaskLifecycleStore) (locator : Locator) (observedAtNs : UInt64) :
    Decidable (s.isStale locator observedAtNs) := inferInstanceAs (Decidable (∃ indexed ∈ _, _))

/-- Counts a started thread if the index has room for it. -/
def addTask (s : TaskLifecycleStore) (key : ProcessKey) (task : TaskStart) : TaskLifecycleStore :=
  if size s.taskIndex ≥ s.capacity then s.modifyState key (·.addGap .stateCapacity)
  else
    let (taskKey, s) := s.nextTaskKey task.tid task.observedAtNs
    if (s.states.lookup key).isNone then s
    else
      let s := s.modifyState key (·.startTask taskKey task.name)
      { s with taskIndex := s.taskIndex.insert (key.tgid, task.tid) (key, taskKey) }

variable {key : ProcessKey} {s : TaskLifecycleStore}

def observeThreadStart (s : TaskLifecycleStore) (observedAt : DateTime) (attribution : KubernetesAttribution)
    (process : ProcessIdentity) (generation : ProcessGenerationIdentity) (task : TaskStart) : TaskLifecycleStore :=
  let key := keyOf process
  let (counts, s) := s.ensureState key (ProcessState.new attribution process generation observedAt)
  if ¬ counts then s
  else if s.isStale (key.tgid, task.tid) task.observedAtNs then s
  else (s.retireReusedTask (key.tgid, task.tid)).addTask key task

/-- A start for a generation that counts and for a thread number that is free or in use since earlier. -/
theorem observeThreadStart_of_counts {t : TaskLifecycleStore} {observedAt : DateTime}
    {attribution : KubernetesAttribution} {process : ProcessIdentity} {generation : ProcessGenerationIdentity}
    {task : TaskStart} (hkey : key = keyOf process)
    (hcounts : s.ensureState key (ProcessState.new attribution process generation observedAt) = (true, t))
    (hstale : ¬ t.isStale (key.tgid, task.tid) task.observedAtNs) :
    s.observeThreadStart observedAt attribution process generation task =
      (t.retireReusedTask (key.tgid, task.tid)).addTask key task := by
  subst hkey
  rw [observeThreadStart, hcounts]
  exact if_neg hstale

/-- The name of a listed thread; one without a proper name is a gap. -/
def snapshotName (state : ProcessState) (comm : Option String) : String × ProcessState :=
  match (comm.map Text.trimEnd).filter validSnapshotName with
  | some name => (name, state)
  | none => ("unknown", state.addGap .snapshotRace)

/-- A listed thread is active under this name; its start was not seen. -/
def countListed (state : ProcessState) (taskKey : TaskKey) (name : String) : ProcessState :=
  let entry := state.nameState name
  { state with
    tasks := state.tasks.insert taskKey { name }
    names := state.names.insert name { entry with active := entry.active + 1 } }

def seedTask (state : ProcessState) (taskKey : TaskKey) (taskName : String) : ProcessState :=
  let (name, state) := state.bucketName taskName
  countListed state taskKey name

/-- Reads the listing; it stops when the index is full. -/
def seedSnapshot (key : ProcessKey) : List SnapshotEntry → TaskLifecycleStore → ProcessState →
    TaskLifecycleStore × ProcessState
  | [], s, state => (s, state)
  | .unreadable :: entries, s, state | .notTask :: entries, s, state =>
    seedSnapshot key entries s (state.addGap .snapshotRace)
  | .task tid comm :: entries, s, state =>
    if tid = state.process.tgid then seedSnapshot key entries s state
    else if size s.taskIndex ≥ s.capacity then (s, state.addGap .snapshotTruncated)
    else
      let (name, state) := snapshotName state comm
      let (taskKey, s) := s.nextTaskKey tid 0
      let state := seedTask state taskKey name
      seedSnapshot key entries { s with taskIndex := s.taskIndex.insert (key.tgid, tid) (key, taskKey) } state

/-- The state of a process found running, and the store with its threads in the index. -/
def snapshotState (s : TaskLifecycleStore) (key : ProcessKey) (fresh : ProcessState)
    (listing : Option (List SnapshotEntry)) : TaskLifecycleStore × ProcessState :=
  match listing with
  | some entries => seedSnapshot key entries s { fresh with baselineProvenance := .snapshot }
  | none => (s, { fresh with baselineProvenance := .unavailable }.addGap .snapshotPermission)

/-- `listing` is what the task directory lists, unless it cannot be read. -/
def bootstrapProcess (s : TaskLifecycleStore) (observedAt : DateTime) (attribution : KubernetesAttribution)
    (process : ProcessIdentity) (generation : ProcessGenerationIdentity) (listing : Option (List SnapshotEntry)) :
    TaskLifecycleStore :=
  let key := keyOf process
  if (s.states.lookup key).isSome ∨ size s.states ≥ s.capacity then s
  else
    let (s, state) := s.snapshotState key (ProcessState.new attribution process generation observedAt) listing
    { s with states := s.states.insert key { state with
        activeAtStart := state.active
        peakActive := state.active
        baselineComplete := state.gaps.isEmpty } }

def observeRename (s : TaskLifecycleStore) (processId taskId : UInt32) (observedAtNs : UInt64) (name : String) :
    TaskLifecycleStore :=
  match s.taskIndex.lookup (processId, taskId) with
  | none => s
  | some (key, taskKey) =>
    if observedAtNs < taskKey.startedAtNs then s else s.modifyState key (·.renameTask taskKey name)

def observeThreadExit (s : TaskLifecycleStore) (cgroupId : UInt64) (processId threadId : UInt32)
    (observedAtNs : UInt64) : TaskLifecycleStore :=
  let key : ProcessKey := ⟨cgroupId, processId⟩
  match s.taskIndex.lookup (processId, threadId) with
  | none => s
  | some (indexedKey, taskKey) =>
    if indexedKey ≠ key ∨ observedAtNs < taskKey.startedAtNs then s
    else
      match s.states.lookup key with
      | none => s
      | some state =>
        let s := s.modifyState key (·.exitTask taskKey)
        if (state.tasks.lookup taskKey).isSome then
          { s with taskIndex := s.taskIndex.erase (processId, threadId) }
        else s

/-- The end of a thread that is counted. -/
theorem observeThreadExit_of_task {threadId : UInt32} {observedAtNs : UInt64} {taskKey : TaskKey} {task : TaskState}
    (hindex : s.taskIndex.lookup (key.tgid, threadId) = some (key, taskKey))
    (hns : taskKey.startedAtNs ≤ observedAtNs) (hstate : s.states.lookup key = some state)
    (htask : state.tasks.lookup taskKey = some task) :
    s.observeThreadExit key.cgroupId key.tgid threadId observedAtNs = { s with
      states := s.states.insert key ({ state with tasks := state.tasks.erase taskKey }.countExit task.name)
      taskIndex := s.taskIndex.erase (key.tgid, threadId) } := by
  have hadjust := adjust_of_lookup hstate (·.exitTask taskKey)
  have hexit : state.exitTask taskKey = { state with tasks := state.tasks.erase taskKey }.countExit task.name := by
    rw [ProcessState.exitTask, htask]
  have hcurrent : ¬ (key ≠ key ∨ observedAtNs < taskKey.startedAtNs) := by
    rw [not_or, not_not, UInt64.not_lt]
    exact ⟨rfl, hns⟩
  simp only [observeThreadExit, hindex, if_neg hcurrent, hstate, htask, Option.isSome_some, if_true, modifyState]
  rw [hadjust, hexit]

def observeProcessExit (s : TaskLifecycleStore) (cgroupId : UInt64) (tgid : UInt32) : TaskLifecycleStore :=
  let key : ProcessKey := ⟨cgroupId, tgid⟩
  match s.states.lookup key with
  | none => s
  | some state =>
    { s.modifyState key ProcessState.exitAll with taskIndex := forgetTasks s.taskIndex tgid state.tasks }

/-- What a flush leaves of a state: a retired one goes with its last window. -/
def afterFlush (order : IterationOrder) (now : DateTime) (state : ProcessState) : Option ProcessState :=
  if state.isDue now ∧ state.retired then none else some (state.flush order now).2

def flushDue (s : TaskLifecycleStore) (order : IterationOrder) (now : DateTime) :
    List RuntimeEvent × TaskLifecycleStore :=
  (order.states.apply (s.states.entries.filterMap fun e => (e.2.flush order now).1),
    { s with states := filterMap (fun _ state => afterFlush order now state) s.states })

end TaskLifecycleStore

/-! ## Runs -/

inductive Operation where
  | processStart (eventId : Uuid) (observedAt : DateTime) (attribution : KubernetesAttribution)
      (process : ProcessIdentity) (start : ProcessStart)
  | bootstrap (observedAt : DateTime) (attribution : KubernetesAttribution) (process : ProcessIdentity)
      (generation : ProcessGenerationIdentity) (listing : Option (List SnapshotEntry))
  | threadStart (observedAt : DateTime) (attribution : KubernetesAttribution) (process : ProcessIdentity)
      (generation : ProcessGenerationIdentity) (task : TaskStart)
  | rename (processId taskId : UInt32) (observedAtNs : UInt64) (name : String)
  | threadExit (cgroupId : UInt64) (processId threadId : UInt32) (observedAtNs : UInt64)
  | processExit (cgroupId : UInt64) (tgid : UInt32)
  | flushDue (order : IterationOrder) (now : DateTime)

/-- The events an operation returns, and the store it leaves. -/
def perform (s : TaskLifecycleStore) : Operation → List RuntimeEvent × TaskLifecycleStore
  | .processStart eventId observedAt attribution process start =>
    let started := s.observeProcessStart eventId observedAt attribution process start
    (started.1.toList, started.2)
  | .bootstrap observedAt attribution process generation listing =>
    ([], s.bootstrapProcess observedAt attribution process generation listing)
  | .threadStart observedAt attribution process generation task =>
    ([], s.observeThreadStart observedAt attribution process generation task)
  | .rename processId taskId observedAtNs name => ([], s.observeRename processId taskId observedAtNs name)
  | .threadExit cgroupId processId threadId observedAtNs =>
    ([], s.observeThreadExit cgroupId processId threadId observedAtNs)
  | .processExit cgroupId tgid => ([], s.observeProcessExit cgroupId tgid)
  | .flushDue order now => s.flushDue order now

end Okoscope.Agent.TaskLifecycle
