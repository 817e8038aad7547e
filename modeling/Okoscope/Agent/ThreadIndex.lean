import Okoscope.Agent.ThreadCompleteness

/-!
# The budget of the lifecycle store

A thread start and a bootstrap ask for room before they make a state, and a thread enters
the index only if that has room. A process start makes its state without asking.
-/
namespace Okoscope.Agent.TaskLifecycle

open Lib Lib.FiniteMap Lib.Run EventModel
open ProcessRuntime (ProcessKey)
open TaskLifecycleStore

/-- Both maps are within the capacity. -/
structure InBudget (s : TaskLifecycleStore) : Prop where
  states : size s.states ≤ s.capacity
  tasks : size s.taskIndex ≤ s.capacity

/-- A valid process start replaces a state or finds room for one. -/
def FindsRoom (s : TaskLifecycleStore) : Operation → Prop
  | .processStart _ _ _ process start =>
    start.validate = .ok () → (s.states.lookup (keyOf process)).isSome ∨ size s.states < s.capacity
  | _ => True

variable {s : TaskLifecycleStore}

theorem size_forgetTasks_le (index : Map Locator (ProcessKey × TaskKey)) {tgid : UInt32}
    {tasks : Map TaskKey TaskState} : size (forgetTasks index tgid tasks) ≤ size index := by
  unfold forgetTasks
  induction tasks.keys generalizing index with
  | nil => exact le_rfl
  | cons _ _ ih => exact (ih _).trans (size_erase_le _)

section
variable (h : InBudget s) (key : ProcessKey)
include h

theorem InBudget.modifyState {f : ProcessState → ProcessState} : InBudget (s.modifyState key f) :=
  ⟨size_adjust.trans_le h.states, h.tasks⟩

theorem InBudget.removeProcessState : InBudget (s.removeProcessState key) := by
  unfold TaskLifecycleStore.removeProcessState
  split
  · exact h
  · exact ⟨(size_erase_le _).trans h.states, (size_forgetTasks_le _).trans h.tasks⟩

theorem InBudget.insertState {state : ProcessState} : InBudget (s.insertState key state).2 := by
  unfold TaskLifecycleStore.insertState
  split
  · exact h
  next hroom =>
    have hsize := size_insert_le s.states key state
    exact ⟨hsize.trans (Nat.lt_of_not_le hroom), h.tasks⟩

theorem InBudget.ensureState (fresh : ProcessState) : InBudget (s.ensureState key fresh).2 := by
  unfold TaskLifecycleStore.ensureState
  split
  · exact h.insertState key
  · split
    · exact h
    · exact (h.removeProcessState key).insertState key

omit key in
theorem InBudget.retireReusedTask {locator : Locator} : InBudget (s.retireReusedTask locator) := by
  unfold TaskLifecycleStore.retireReusedTask
  split
  · exact h
  next key _ _ =>
    have herased : InBudget { s with taskIndex := s.taskIndex.erase locator } :=
      ⟨h.states, (size_erase_le _).trans h.tasks⟩
    exact herased.modifyState key

theorem InBudget.addTask {task : TaskStart} : InBudget (s.addTask key task) := by
  unfold TaskLifecycleStore.addTask
  split
  · exact h.modifyState key
  next hroom =>
    dsimp only
    split
    · exact ⟨h.states, h.tasks⟩
    · have hsize := size_insert_le s.taskIndex (key.tgid, task.tid) (key, (s.nextTaskKey task.tid task.observedAtNs).1)
      exact ⟨(h.modifyState key).states, hsize.trans (Nat.lt_of_not_le hroom)⟩

/-- A listing is read while the index has room. -/
theorem InBudget.seedSnapshot {entries : List SnapshotEntry} (state : ProcessState) :
    (seedSnapshot key entries s state).1.capacity = s.capacity ∧
      size (seedSnapshot key entries s state).1.taskIndex ≤ s.capacity := by
  induction entries generalizing s state with
  | nil => exact ⟨rfl, h.tasks⟩
  | cons entry _ ih =>
    cases entry with
    | task tid =>
      rw [TaskLifecycleStore.seedSnapshot]
      split
      · exact ih h state
      split
      · exact ⟨rfl, h.tasks⟩
      next hroom =>
        have hsize := size_insert_le s.taskIndex (key.tgid, tid) (key, (s.nextTaskKey tid 0).1)
        refine ih ?_ _
        exact ⟨h.states, hsize.trans (Nat.lt_of_not_le hroom)⟩
    | _ => exact ih h _

end

theorem InBudget.bootstrapProcess (h : InBudget s) (observedAt : DateTime) (attribution : KubernetesAttribution)
    (process : ProcessIdentity) (generation : ProcessGenerationIdentity) (listing : Option (List SnapshotEntry)) :
    InBudget (s.bootstrapProcess observedAt attribution process generation listing) := by
  unfold TaskLifecycleStore.bootstrapProcess
  dsimp only
  split
  · exact h
  next hroom =>
    have hfree : size s.states < s.capacity := Nat.lt_of_not_le fun hfull => hroom (.inr hfull)
    cases listing with
    | none => exact ⟨(size_insert_le _ _ _).trans hfree, h.tasks⟩
    | some =>
      obtain ⟨hcapacity, hindex⟩ := h.seedSnapshot (keyOf process)
        { ProcessState.new attribution process generation observedAt with baselineProvenance := .snapshot }
      refine ⟨(size_insert_le _ _ _).trans ?_, hindex.trans_eq hcapacity.symm⟩
      show size (TaskLifecycleStore.seedSnapshot _ _ _ _).1.states < (TaskLifecycleStore.seedSnapshot _ _ _ _).1.capacity
      rw [states_seedSnapshot, hcapacity]
      exact hfree

/-- A process start keeps to the budget exactly if it finds room. -/
theorem InBudget.processStart_iff (h : InBudget s) {eventId : Uuid} {observedAt : DateTime}
    {attribution : KubernetesAttribution} {process : ProcessIdentity} {start : ProcessStart} :
    InBudget (s.observeProcessStart eventId observedAt attribution process start).2 ↔
      FindsRoom s (.processStart eventId observedAt attribution process start) := by
  have hremoved := h.removeProcessState (keyOf process)
  have hcapacity : (s.removeProcessState (keyOf process)).capacity = s.capacity := by
    unfold TaskLifecycleStore.removeProcessState
    split <;> rfl
  by_cases hvalid : start.validate = .ok ()
  · rw [observeProcessStart_of_valid _ _ _ _ _ _ hvalid, FindsRoom, imp_iff_right hvalid]
    have hbudget : ∀ states, InBudget { s.removeProcessState (keyOf process) with states } ↔ size states ≤ s.capacity :=
      fun _ => ⟨fun hin => hin.states.trans_eq hcapacity, fun hsize => ⟨hsize.trans_eq hcapacity.symm, hremoved.tasks⟩⟩
    rw [hbudget]
    cases hl : s.states.lookup (keyOf process) with
    | none =>
      simp only [size_insert_of_none hl, Option.isSome_none, Bool.false_eq_true, false_or]
      omega
    | some => simp [size_insert_of_lookup hl, h.states]
  · rw [observeProcessStart, if_neg hvalid]
    exact iff_of_true hremoved fun hv => absurd hv hvalid

theorem InBudget.perform_iff (h : InBudget s) {operation : Operation} :
    InBudget (perform s operation).2 ↔ FindsRoom s operation := by
  cases operation with
  | processStart => exact h.processStart_iff ..
  | bootstrap => exact iff_of_true (h.bootstrapProcess ..) trivial
  | threadStart observedAt attribution process generation =>
    refine iff_of_true ?_ trivial
    have hensured := h.ensureState (keyOf process) (ProcessState.new attribution process generation observedAt)
    show InBudget (s.observeThreadStart ..)
    unfold observeThreadStart
    dsimp only
    split
    · exact hensured
    · split
      · exact hensured
      · exact hensured.retireReusedTask.addTask _
  | rename =>
    refine iff_of_true ?_ trivial
    show InBudget (s.observeRename ..)
    unfold observeRename
    split
    · exact h
    · split
      · exact h
      · exact h.modifyState _
  | threadExit =>
    refine iff_of_true ?_ trivial
    show InBudget (s.observeThreadExit ..)
    unfold observeThreadExit
    dsimp only
    split
    · exact h
    split
    · exact h
    split
    · exact h
    split
    · exact ⟨(h.modifyState _).states, (size_erase_le _).trans h.tasks⟩
    · exact h.modifyState _
  | processExit =>
    refine iff_of_true ?_ trivial
    show InBudget (s.observeProcessExit ..)
    unfold observeProcessExit
    dsimp only
    split
    · exact h
    · exact ⟨(h.modifyState _).states, (size_forgetTasks_le _).trans h.tasks⟩
  | flushDue => exact iff_of_true ⟨size_filterMap_le.trans h.states, h.tasks⟩ trivial

/-- In every run both maps are within the capacity after every operation exactly if every valid
process start replaces a state or finds room for one. -/
theorem budget_kept_iff (capacity : Nat) (operations : List Operation) :
    Along perform (fun s operation => InBudget (perform s operation).2) (.new capacity) operations ↔
      Along perform FindsRoom (.new capacity) operations := by
  have hnew : InBudget (.new capacity) := ⟨Nat.zero_le _, Nat.zero_le _⟩
  generalize TaskLifecycleStore.new capacity = s at hnew
  induction operations generalizing s with
  | nil => exact Iff.rfl
  | cons _ _ ih =>
    rw [Along, Along, hnew.perform_iff]
    exact and_congr_right fun hroom => ih _ (hnew.perform_iff.mpr hroom)

/-- A second process starts where there is room for one. -/
theorem budget_exceeded :
    size (trace perform (.new 1) [startProcess busyProcess 0, startProcess otherProcess 0]).2.states = 2 := by
  decide +kernel

end Okoscope.Agent.TaskLifecycle
