import Okoscope.Agent.ThreadEvidence

/-!
# A thread that is listed and then seen to start

A process that is found running is put into the store with the threads that its task directory
lists, as of time zero. The record of the start of one of them then looks like the reuse of its
number: unless the record is of time zero as well, the thread is taken to have ended unseen.
-/
namespace Okoscope.Agent.TaskLifecycle

open Lib Lib.FiniteMap Lib.Word EventModel
open ProcessRuntime (ProcessKey)
open TaskLifecycleStore List

/-- The record of a new thread: its process is made known first, if it is not. -/
def TaskLifecycleStore.observeTaskCreation (s : TaskLifecycleStore) (observedAt : DateTime)
    (attribution : KubernetesAttribution) (process : ProcessIdentity) (generation : ProcessGenerationIdentity)
    (listing : Option (List SnapshotEntry)) (task : TaskStart) : TaskLifecycleStore :=
  (s.bootstrapProcess observedAt attribution process generation listing).observeThreadStart observedAt attribution
    process generation task

/-- The threads of a listing, without the leader. -/
def threadsListed (tgid : UInt32) (entries : List SnapshotEntry) : List UInt32 :=
  entries.filterMap fun
    | .task tid _ => if tid = tgid then none else some tid
    | _ => none

def ProcessState.liveThreads (state : ProcessState) : List UInt32 := state.tasks.keys.map (·.tid)

/-- The thread is active, once, and nothing is said to have ended or to be lost. -/
structure Intact (tid : UInt32) (state : ProcessState) : Prop where
  active : state.liveThreads.count tid = 1
  exited : state.exited = 0
  names : ∀ name entry, state.names.lookup name = some entry → entry.exited = 0
  gaps : .kernelLoss ∉ state.gaps

/-! ## The listing -/

/-- These threads were listed so far. -/
structure Listed (key : ProcessKey) (seen : List UInt32) (s : TaskLifecycleStore) (state : ProcessState) : Prop where
  nodup : state.liveThreads.Nodup
  live : ∀ tid, tid ∈ state.liveThreads ↔ tid ∈ seen
  index : ∀ tid ∈ seen, ∃ taskKey, s.taskIndex.lookup (key.tgid, tid) = some (key, taskKey) ∧
    taskKey.startedAtNs = 0 ∧ (state.tasks.lookup taskKey).isSome
  exited : state.exited = 0
  names : ∀ name entry, state.names.lookup name = some entry → entry.exited = 0
  gaps : .kernelLoss ∉ state.gaps
  retired : state.retired = false

variable {taskKey : TaskKey}

section
variable {key : ProcessKey} {seen : List UInt32} {s : TaskLifecycleStore} {state : ProcessState}

section
variable (h : Listed key seen s state)
include h

theorem Listed.intact {tid : UInt32} (htid : tid ∈ seen) : Intact tid state :=
  ⟨count_eq_one_of_mem h.nodup ((h.live tid).mpr htid), h.exited, h.names, h.gaps⟩

theorem Listed.addGap {reason : ThreadGapReason} (hreason : reason ≠ .kernelLoss) :
    Listed key seen s (state.addGap reason) := by
  refine { h with gaps := fun hmem => ?_ }
  rcases mem_insert_iff.mp hmem with heq | hmem
  · exact hreason heq.symm
  · exact h.gaps hmem

theorem Listed.snapshotName (comm : Option String) : Listed key seen s (snapshotName state comm).2 := by
  unfold TaskLifecycleStore.snapshotName
  split
  · exact h
  · apply h.addGap
    decide

theorem Listed.bucketName (name : String) : Listed key seen s (state.bucketName name).2 := by
  unfold ProcessState.bucketName
  split
  · exact h
  · exact { h with }

/-- One more thread, under a key of its own. -/
theorem Listed.countListed {tid : UInt32} (hnew : tid ∉ seen) (htid : taskKey.tid = tid)
    (hns : taskKey.startedAtNs = 0) (name : String) (next : UInt64) : Listed key (tid :: seen)
      { s with taskIndex := s.taskIndex.insert (key.tgid, tid) (key, taskKey), nextTaskGeneration := next }
      (countListed state taskKey name) := by
  have hfresh : taskKey ∉ state.tasks.keys := by
    intro hmem
    exact hnew ((h.live tid).mp (mem_map.mpr ⟨taskKey, hmem, htid⟩))
  have hlive : (TaskLifecycleStore.countListed state taskKey name).liveThreads = tid :: state.liveThreads := by
    show ((state.tasks.insert taskKey _).keys.map (·.tid)) = _
    rw [AList.keys_insert, erase_of_not_mem hfresh, map_cons, htid]
    rfl
  refine { h with nodup := ?nodup, live := ?live, index := ?index, names := ?names }
  case nodup =>
    rw [hlive]
    exact nodup_cons.mpr ⟨fun hmem => hnew ((h.live tid).mp hmem), h.nodup⟩
  case live =>
    intro other
    rw [hlive, mem_cons, mem_cons, h.live]
  case index =>
    intro other hother
    by_cases heq : other = tid
    · subst heq
      refine ⟨taskKey, AList.lookup_insert _, hns, ?_⟩
      show ((state.tasks.insert taskKey _).lookup taskKey).isSome
      rw [AList.lookup_insert]
      rfl
    · obtain ⟨otherKey, hindex, hzero, htask⟩ := h.index other ((mem_cons.mp hother).resolve_left heq)
      refine ⟨otherKey, ?_, hzero, ?_⟩
      · rw [← hindex]
        exact AList.lookup_insert_ne fun hsame => heq (congrArg Prod.snd hsame)
      have hne : otherKey ≠ taskKey := by
        intro hsame
        rw [hsame] at htask
        exact hfresh (AList.lookup_isSome.mp htask)
      show ((state.tasks.insert taskKey _).lookup otherKey).isSome
      rw [AList.lookup_insert_ne hne]
      exact htask
  case names =>
    intro other entry hlookup
    replace hlookup : (state.names.insert name _).lookup other = some entry := hlookup
    by_cases heq : other = name
    · subst heq
      rw [AList.lookup_insert] at hlookup
      cases hlookup
      unfold ProcessState.nameState
      cases hname : state.names.lookup other with
      | none => rfl
      | some entry => exact h.names other entry hname
    · rw [AList.lookup_insert_ne heq] at hlookup
      exact h.names other entry hlookup

/-- A listing for which there is room is read to its end. -/
theorem Listed.seedSnapshot {tgid : UInt32} (htgid : state.process.tgid = tgid) {entries : List SnapshotEntry}
    (hnew : ∀ tid ∈ threadsListed tgid entries, tid ∉ seen) (hnodup : (threadsListed tgid entries).Nodup)
    (hroom : size s.taskIndex + (threadsListed tgid entries).length ≤ s.capacity) :
    Listed key ((threadsListed tgid entries).reverse ++ seen) (seedSnapshot key entries s state).1
      (seedSnapshot key entries s state).2 := by
  induction entries generalizing seen s state with
  | nil => exact h
  | cons entry entries ih =>
    cases entry with
    | task tid comm =>
      rw [seedSnapshot, htgid]
      by_cases hleader : tid = tgid
      · have hskip : threadsListed tgid (.task tid comm :: entries) = threadsListed tgid entries :=
          filterMap_cons_none (if_pos hleader)
        rw [hskip] at hnew hnodup hroom ⊢
        rw [if_pos hleader]
        exact ih h htgid hnew hnodup hroom
      · have hcons : threadsListed tgid (.task tid comm :: entries) = tid :: threadsListed tgid entries :=
          filterMap_cons_some (if_neg hleader)
        rw [hcons] at hnew hnodup hroom ⊢
        obtain ⟨hfirst, hrest⟩ := forall_mem_cons.mp hnew
        obtain ⟨hother, hnodup⟩ := nodup_cons.mp hnodup
        rw [length_cons] at hroom
        rw [if_neg hleader, if_neg (by omega), reverse_cons, append_assoc, singleton_append]
        have hnamed := (h.snapshotName comm).bucketName (TaskLifecycleStore.snapshotName state comm).1
        have htid : (s.nextTaskKey tid 0).1.tid = tid := rfl
        have hns : (s.nextTaskKey tid 0).1.startedAtNs = 0 := rfl
        have hlisted := hnamed.countListed hfirst htid hns
          ((TaskLifecycleStore.snapshotName state comm).2.bucketName (TaskLifecycleStore.snapshotName state comm).1).1
          (s.nextTaskKey tid 0).2.nextTaskGeneration
        have hseed := (sameWindow_snapshotName state comm).trans (sameWindow_seedTask _ (s.nextTaskKey tid 0).1
          (TaskLifecycleStore.snapshotName state comm).1)
        have hsize := size_insert_le s.taskIndex (key.tgid, tid) (key, (s.nextTaskKey tid 0).1)
        apply ih hlisted ((congrArg ProcessIdentity.tgid hseed.process).trans htgid) _ hnodup
        · show size (s.taskIndex.insert _ _) + _ ≤ s.capacity
          omega
        intro other hmem hseen
        rcases mem_cons.mp hseen with heq | hseen
        · exact hother (heq ▸ hmem)
        · exact hrest other hmem hseen
    | _ => exact ih (h.addGap (by decide)) htgid hnew hnodup hroom

end

end

/-! ## The record of the start -/

variable {state : ProcessState} {key : ProcessKey}

theorem ensureState_of_counts {s : TaskLifecycleStore} {fresh : ProcessState} (hl : s.states.lookup key = some state)
    (hgeneration : state.generation = fresh.generation) (hretired : state.retired = false) :
    s.ensureState key fresh = (true, s) := by
  rw [ensureState, hl]
  dsimp only
  rw [if_pos hgeneration, hretired]
  rfl

theorem exited_startTask {name : String} : (state.startTask taskKey name).exited = state.exited := by
  have hbucket : (state.bucketName name).2.exited = state.exited := by
    unfold ProcessState.bucketName
    split
    · rfl
    · rfl
  exact hbucket

theorem lookup_addTask {s : TaskLifecycleStore} {task : TaskStart} :
    ∃ f : ProcessState → ProcessState, (∀ state, (f state).exited = state.exited) ∧
      ∀ other, (s.addTask key task).states.lookup other =
        if other = key then (s.states.lookup key).map f else s.states.lookup other := by
  unfold addTask
  split
  · exact ⟨(·.addGap .stateCapacity), fun _ => rfl, fun other => lookup_adjust⟩
  refine ⟨(·.startTask (s.nextTaskKey task.tid task.observedAtNs).1 task.name),
    fun state => exited_startTask, fun other => ?_⟩
  dsimp only
  split
  next hnone =>
    have hmissing : s.states.lookup key = none := Option.isNone_iff_eq_none.mp hnone
    show s.states.lookup other = _
    by_cases hkey : other = key
    · rw [if_pos hkey, hkey, hmissing, Option.map_none]
    · rw [if_neg hkey]
  · exact lookup_adjust

/-- A start that takes the number of a thread of its own process ends that thread. -/
theorem lookup_reusedStart {s : TaskLifecycleStore} {task : TaskStart} (hstate : s.states.lookup key = some state)
    (hindex : s.taskIndex.lookup (key.tgid, task.tid) = some (key, taskKey))
    (htask : (state.tasks.lookup taskKey).isSome) : ∃ after, after.exited = saturatingAdd state.exited 1 ∧
      ∀ other, ((s.retireReusedTask (key.tgid, task.tid)).addTask key task).states.lookup other =
        if other = key then some after else s.states.lookup other := by
  obtain ⟨f, hf, hlookup⟩ := lookup_addTask
  have hretired : ∀ other, (s.retireReusedTask (key.tgid, task.tid)).states.lookup other =
      if other = key then some (state.retireTask taskKey) else s.states.lookup other := by
    intro other
    unfold retireReusedTask
    rw [hindex]
    refine lookup_adjust.trans ?_
    rw [hstate]
    rfl
  have hexited : (state.retireTask taskKey).exited = saturatingAdd state.exited 1 := by
    obtain ⟨_, hended⟩ := Option.isSome_iff_exists.mp htask
    rw [ProcessState.retireTask, hended]
    rfl
  refine ⟨f (state.retireTask taskKey), (hf _).trans hexited, fun other => ?_⟩
  rw [hlookup, hretired key, if_pos rfl, Option.map_some]
  by_cases hkey : other = key
  · rw [if_pos hkey, if_pos hkey]
  · rw [if_neg hkey, if_neg hkey, hretired, if_neg hkey]

section
variable {s : TaskLifecycleStore} {process : ProcessIdentity} {entries : List SnapshotEntry}
  (hunknown : s.states.lookup (keyOf process) = none) (hstates : size s.states < s.capacity)
  (hnodup : (threadsListed process.tgid entries).Nodup)
  (hroom : size s.taskIndex + (threadsListed process.tgid entries).length ≤ s.capacity)
include hunknown hstates hnodup hroom

/-- A process that is found running is put with its listed threads, and nothing else changes. -/
theorem bootstrapProcess_listed {observedAt : DateTime} {attribution : KubernetesAttribution}
    (generation : ProcessGenerationIdentity) :
    ∃ state, (∀ key, (s.bootstrapProcess observedAt attribution process generation (some entries)).states.lookup key =
        if key = keyOf process then some state else s.states.lookup key) ∧
      state.generation = generation ∧
      Listed (keyOf process) (threadsListed process.tgid entries).reverse
        (s.bootstrapProcess observedAt attribution process generation (some entries)) state := by
  let fresh := { ProcessState.new attribution process generation observedAt with baselineProvenance := .snapshot }
  let seeded := seedSnapshot (keyOf process) entries s fresh
  let state := { seeded.2 with
    activeAtStart := seeded.2.active, peakActive := seeded.2.active, baselineComplete := seeded.2.gaps.isEmpty }
  have hempty : Listed (keyOf process) [] s fresh := {
    nodup := nodup_nil
    live := fun _ => Iff.rfl
    index := nofun
    exited := rfl
    names := nofun
    gaps := nofun
    retired := rfl }
  have hlisted := hempty.seedSnapshot rfl nofun hnodup hroom
  rw [append_nil] at hlisted
  have hwindow := sameWindow_seedSnapshot (keyOf process) entries s fresh
  have hadmitted : ¬ ((s.states.lookup (keyOf process)).isSome ∨ size s.states ≥ s.capacity) := by
    rw [hunknown]
    rintro (hsome | hfull)
    · cases hsome
    · omega
  have hboot : s.bootstrapProcess observedAt attribution process generation (some entries) =
      { seeded.1 with states := seeded.1.states.insert (keyOf process) state } := if_neg hadmitted
  rw [hboot]
  have hstates : seeded.1.states = s.states := states_seedSnapshot (keyOf process) entries s fresh
  refine ⟨state, fun key => ?_, hwindow.generation, { hlisted with }⟩
  rw [← hstates]
  exact lookup_insert_eq

end

/-- The record of the start of a thread that the listing of its unknown process has: the thread is
active, and nothing is said to have ended or to be lost, exactly if the record is of time zero. -/
theorem listed_start_intact_iff (s : TaskLifecycleStore) (observedAt : DateTime) (attribution : KubernetesAttribution)
    (process : ProcessIdentity) (generation : ProcessGenerationIdentity) (entries : List SnapshotEntry)
    (task : TaskStart) (hunknown : s.states.lookup (keyOf process) = none) (hstates : size s.states < s.capacity)
    (hlisted : task.tid ∈ threadsListed process.tgid entries) (hnodup : (threadsListed process.tgid entries).Nodup)
    (hroom : size s.taskIndex + (threadsListed process.tgid entries).length ≤ s.capacity) :
    ∃ state, (∀ key, (s.observeTaskCreation observedAt attribution process generation (some entries) task).states.lookup
        key = if key = keyOf process then some state else s.states.lookup key) ∧
      (Intact task.tid state ↔ task.observedAtNs = 0) := by
  obtain ⟨state, hlookup, hgeneration, hseen⟩ := bootstrapProcess_listed hunknown hstates hnodup hroom generation
  have htid := mem_reverse.mpr hlisted
  obtain ⟨taskKey, hindex, hzero, htask⟩ := hseen.index task.tid htid
  have hstate := (hlookup (keyOf process)).trans (if_pos rfl)
  have hfresh : state.generation = (ProcessState.new attribution process generation observedAt).generation := hgeneration
  have hcounts := ensureState_of_counts hstate hfresh hseen.retired
  by_cases hns : task.observedAtNs = 0
  · -- the record is not later than the listed thread and is taken for an old one
    have hstale : (s.bootstrapProcess observedAt attribution process generation (some entries)).isStale
        ((keyOf process).tgid, task.tid) task.observedAtNs := by
      refine ⟨(keyOf process, taskKey), hindex, ?_⟩
      rw [hns]
      exact UInt64.zero_le
    have hsame : s.observeTaskCreation observedAt attribution process generation (some entries) task =
        s.bootstrapProcess observedAt attribution process generation (some entries) := by
      rw [observeTaskCreation, observeThreadStart, hcounts]
      exact if_pos hstale
    rw [hsame]
    exact ⟨state, hlookup, iff_of_true (hseen.intact htid) hns⟩
  · have hcurrent : ¬ (s.bootstrapProcess observedAt attribution process generation (some entries)).isStale
        ((keyOf process).tgid, task.tid) task.observedAtNs := by
      rintro ⟨indexed, hmem, hle⟩
      cases hindex.symm.trans hmem
      rw [hzero] at hle
      exact hns (UInt64.le_zero_iff.mp hle)
    obtain ⟨after, hexited, hafter⟩ := lookup_reusedStart hstate hindex htask
    have hreused := observeThreadStart_of_counts rfl hcounts hcurrent
    refine ⟨after, fun key => ?_, iff_of_false (fun hintact => ?_) hns⟩
    · unfold observeTaskCreation
      rw [hreused, hafter, hlookup]
      by_cases hkey : key = keyOf process
      · rw [if_pos hkey, if_pos hkey]
      · rw [if_neg hkey, if_neg hkey, if_neg hkey]
    · rw [hintact.exited, hseen.exited] at hexited
      exact absurd hexited (by decide)

/-- The process that is known under no number yet, with two threads besides the leader. -/
def twoListed : List SnapshotEntry := [.task 10 (some "app"), .task 11 (some "a"), .task 12 (some "b")]

theorem listed_start_intact_iff_zero :
    ∃ state, (∀ key, ((new 4).observeTaskCreation 0 paymentApi busyProcess busyGeneration
        (some twoListed) ⟨11, 0, "a"⟩).states.lookup key =
          if key = keyOf busyProcess then some state else (new 4).states.lookup key) ∧
      (Intact 11 state ↔ (0 : UInt64) = 0) :=
  listed_start_intact_iff (new 4) 0 paymentApi busyProcess busyGeneration twoListed ⟨11, 0, "a"⟩
    rfl (by decide) (by decide) (by decide) (by decide)

/-- The start of a listed thread, seen a second after the kernel started: an exit is counted and a
loss is noted. -/
theorem listed_start_exits : (new 4).states.lookup (keyOf busyProcess) = none ∧
      11 ∈ threadsListed busyProcess.tgid twoListed ∧
      (((new 4).observeTaskCreation 0 paymentApi busyProcess busyGeneration (some twoListed)
          ⟨11, 1000000000, "a"⟩).states.lookup (keyOf busyProcess)).map
        (fun state => (state.liveThreads.count 11, state.exited, state.gaps)) = some (1, 1, [.kernelLoss]) := by
  exact ⟨by decide +kernel, by decide +kernel, by decide +kernel⟩

end Okoscope.Agent.TaskLifecycle
