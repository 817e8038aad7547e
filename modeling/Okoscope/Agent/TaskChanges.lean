import Okoscope.Agent.TaskLifecycle

/-!
# What an operation does to the state of a process

An operation that is not a flush goes on with the state of a process, puts one where there is
none, or discards one: when a process starts, and when a thread of another generation does.
-/
namespace Okoscope.Agent.TaskLifecycle

open Lib Lib.FiniteMap Lib.Word EventModel
open ProcessRuntime (ProcessKey)
open ProcessState
open TaskLifecycleStore

/-! ## Going on -/

/-- The same generation in the same window; counts only grow, and what is incomplete stays so. -/
structure Continues (a b : ProcessState) : Prop where
  process : b.process = a.process
  generation : b.generation = a.generation
  windowStart : b.windowStart = a.windowStart
  created : a.created.toNat ≤ b.created.toNat
  exited : a.exited.toNat ≤ b.exited.toNat
  incomplete : a.baselineComplete = false → b.baselineComplete = false

theorem Continues.refl {a : ProcessState} : Continues a a :=
  ⟨rfl, rfl, rfl, le_rfl, le_rfl, fun h => h⟩

theorem Continues.trans {a b c : ProcessState} (h : Continues a b) (h' : Continues b c) : Continues a c where
  process := h'.process.trans h.process
  generation := h'.generation.trans h.generation
  windowStart := h'.windowStart.trans h.windowStart
  created := h.created.trans h'.created
  exited := h.exited.trans h'.exited
  incomplete := fun ha => h'.incomplete (h.incomplete ha)

theorem le_saturatingAdd {a b : UInt64} : a.toNat ≤ (saturatingAdd a b).toNat := by
  rw [toNat_saturatingAdd]
  have := a.toNat_lt
  omega

variable {taskKey : TaskKey} {reason : ThreadGapReason} {name : String}

section
variable (state : ProcessState)

theorem continues_addGap : Continues state (state.addGap reason) :=
  ⟨rfl, rfl, rfl, le_rfl, le_rfl, fun h => h⟩

theorem continues_bucketName (name : String) : Continues state (state.bucketName name).2 := by
  unfold bucketName
  split
  · exact .refl
  · exact ⟨rfl, rfl, rfl, le_rfl, le_rfl, fun h => h⟩

theorem continues_dropTask : Continues state ({ state with tasks := state.tasks.erase taskKey }.countExit name) :=
  ⟨rfl, rfl, rfl, le_rfl, le_saturatingAdd, fun h => h⟩

theorem continues_markLost : Continues state state.markLost :=
  ⟨rfl, rfl, rfl, le_rfl, le_rfl, fun _ => rfl⟩

theorem continues_retireTask : Continues state (state.retireTask taskKey) := by
  unfold retireTask
  split
  · exact .refl
  · exact (continues_dropTask state).trans (continues_markLost _)

theorem continues_renameTask : Continues state (state.renameTask taskKey name) := by
  have hbucket := continues_bucketName state name
  unfold renameTask
  dsimp only
  split
  · exact hbucket
  · split
    · exact hbucket
    · exact hbucket.trans ⟨rfl, rfl, rfl, le_rfl, le_rfl, fun h => h⟩

theorem continues_exitAll : Continues state state.exitAll := by
  refine exitAll_induction (P := Continues state) ?_ ?_ .refl
  · intro st taskKey hst
    exact hst.trans (continues_retireTask st)
  · intro st hst _
    exact hst.trans ⟨rfl, rfl, rfl, le_rfl, le_rfl, fun h => h⟩

end

/-- The same generation in the same window, with the same counts. -/
structure SameWindow (a b : ProcessState) : Prop where
  process : b.process = a.process
  generation : b.generation = a.generation
  windowStart : b.windowStart = a.windowStart
  created : b.created = a.created
  exited : b.exited = a.exited

theorem SameWindow.refl {a : ProcessState} : SameWindow a a := ⟨rfl, rfl, rfl, rfl, rfl⟩

theorem SameWindow.trans {a b c : ProcessState} (h : SameWindow a b) (h' : SameWindow b c) : SameWindow a c where
  process := h'.process.trans h.process
  generation := h'.generation.trans h.generation
  windowStart := h'.windowStart.trans h.windowStart
  created := h'.created.trans h.created
  exited := h'.exited.trans h.exited

theorem sameWindow_addGap {state : ProcessState} : SameWindow state (state.addGap reason) :=
  ⟨rfl, rfl, rfl, rfl, rfl⟩

theorem sameWindow_snapshotName (state : ProcessState) (comm : Option String) :
    SameWindow state (snapshotName state comm).2 := by
  unfold snapshotName
  split
  · exact .refl
  · exact sameWindow_addGap

theorem sameWindow_seedTask (state : ProcessState) (taskKey : TaskKey) (name : String) :
    SameWindow state (seedTask state taskKey name) := by
  have hbucket : SameWindow state (state.bucketName name).2 := by
    unfold bucketName
    split
    · exact .refl
    · exact ⟨rfl, rfl, rfl, rfl, rfl⟩
  exact hbucket.trans ⟨rfl, rfl, rfl, rfl, rfl⟩

/-! ## Operations -/

/-- The operation makes a state for the process of this key, with nothing counted. -/
inductive Operation.Creates (key : ProcessKey) (fresh : ProcessState) : Operation → Prop
  | processStart (eventId : Uuid) (observedAt : DateTime) (attribution : KubernetesAttribution)
      (process : ProcessIdentity) (start : ProcessStart) (hkey : key = keyOf process) (hstart : start.validate = .ok ())
      (hfresh : fresh = new attribution process start.generation observedAt) :
      Creates key fresh (.processStart eventId observedAt attribution process start)
  | threadStart (observedAt : DateTime) (attribution : KubernetesAttribution) (process : ProcessIdentity)
      (generation : ProcessGenerationIdentity) (task : TaskStart) (hkey : key = keyOf process)
      (hfresh : fresh = new attribution process generation observedAt) :
      Creates key fresh (.threadStart observedAt attribution process generation task)
  | bootstrap (observedAt : DateTime) (attribution : KubernetesAttribution) (process : ProcessIdentity)
      (generation : ProcessGenerationIdentity) (listing : Option (List SnapshotEntry)) (hkey : key = keyOf process)
      (hprocess : fresh.process = process) (hgeneration : fresh.generation = generation)
      (hwindow : fresh.windowStart = minuteStart observedAt) (hcreated : fresh.created = 0) (hexited : fresh.exited = 0) :
      Creates key fresh (.bootstrap observedAt attribution process generation listing)

/-- The operation discards the state of this key. -/
def Operation.Discards (key : ProcessKey) (state : ProcessState) : Operation → Prop
  | .processStart _ _ _ process _ => key = keyOf process
  | .threadStart _ _ process generation _ => key = keyOf process ∧ state.generation ≠ generation
  | _ => False

/-- The state of a key before and after an operation that is not a flush. -/
inductive Change (key : ProcessKey) (operation : Operation) : Option ProcessState → Option ProcessState → Prop
  | absent : Change key operation none none
  | kept {a b : ProcessState} : Continues a b → Change key operation (some a) (some b)
  | created {fresh b : ProcessState} : operation.Creates key fresh → Continues fresh b →
      Change key operation none (some b)
  | replaced {a fresh b : ProcessState} : operation.Discards key a → operation.Creates key fresh →
      Continues fresh b → Change key operation (some a) (some b)
  | discarded {a : ProcessState} : operation.Discards key a → Change key operation (some a) none

variable {f : ProcessState → ProcessState}

section
variable {key : ProcessKey} {operation : Operation}

theorem Change.same {o : Option ProcessState} : Change key operation o o := by
  cases o with
  | none => exact .absent
  | some => exact .kept .refl

/-- What an operation has made of the state of a key when the store has become another. -/
abbrev Changes (s : TaskLifecycleStore) (key : ProcessKey) (operation : Operation) (t : TaskLifecycleStore) : Prop :=
  Change key operation (s.states.lookup key) (t.states.lookup key)

section
variable {s t : TaskLifecycleStore} (h : Changes s key operation t)
include h

theorem Change.modifyState {key' : ProcessKey} (hf : ∀ state, Continues state (f state)) :
    Changes s key operation (t.modifyState key' f) := by
  show Change key operation _ ((adjust t.states key' f).lookup key)
  rw [lookup_adjust]
  by_cases hkey : key = key'
  · rw [if_pos hkey, ← hkey]
    -- a state that goes on after the change has changed in the same way
    unfold Changes at h
    generalize s.states.lookup key = o at h ⊢
    generalize t.states.lookup key = o' at h ⊢
    cases h with
    | absent => exact .absent
    | kept hab => exact .kept (hab.trans (hf _))
    | created hcreates hfresh => exact .created hcreates (hfresh.trans (hf _))
    | replaced hdiscards hcreates hfresh => exact .replaced hdiscards hcreates (hfresh.trans (hf _))
    | discarded hdiscards => exact .discarded hdiscards
  · rw [if_neg hkey]
    exact h

theorem Change.retireReusedTask {locator : Locator} : Changes s key operation (t.retireReusedTask locator) := by
  unfold TaskLifecycleStore.retireReusedTask
  split
  · exact h
  next =>
    have h' : Changes s key operation { t with taskIndex := t.taskIndex.erase locator } := h
    exact h'.modifyState fun state => continues_retireTask state

theorem Change.addTask {key' : ProcessKey} {task : TaskStart} : Changes s key operation (t.addTask key' task) := by
  unfold TaskLifecycleStore.addTask
  split
  · exact h.modifyState fun state => continues_addGap state
  dsimp only
  split
  · exact h
  · have h' : Changes s key operation (t.nextTaskKey task.tid task.observedAtNs).2 := h
    exact h'.modifyState fun state =>
      (continues_bucketName state task.name).trans ⟨rfl, rfl, rfl, le_saturatingAdd, le_rfl, fun h => h⟩

end

end

/-! ### Each of them -/

variable {observedAtNs : UInt64}

section
variable (s : TaskLifecycleStore) (key : ProcessKey)

theorem lookup_removeProcessState {key' : ProcessKey} :
    (s.removeProcessState key').states.lookup key = if key = key' then none else s.states.lookup key := by
  unfold removeProcessState
  split
  next hnone =>
    by_cases hkey : key = key'
    · rw [if_pos hkey, hkey, hnone]
    · rw [if_neg hkey]
  · exact lookup_erase_eq

section
variable (eventId : Uuid) (observedAt : DateTime) (attribution : KubernetesAttribution) (process : ProcessIdentity)
  (start : ProcessStart)

theorem observeProcessStart_of_valid (hvalid : start.validate = .ok ()) :
    (s.observeProcessStart eventId observedAt attribution process start).2 = { s.removeProcessState (keyOf process) with
        states := s.states.insert (keyOf process) (new attribution process start.generation observedAt) } := by
  rw [observeProcessStart, if_pos hvalid]
  unfold removeProcessState
  split
  · rfl
  · rw [insert_erase]

theorem change_processStart : Changes s key (.processStart eventId observedAt attribution process start)
      (s.observeProcessStart eventId observedAt attribution process start).2 := by
  unfold Changes
  by_cases hvalid : start.validate = .ok ()
  · rw [observeProcessStart_of_valid _ _ _ _ _ _ hvalid]
    dsimp only
    rw [lookup_insert_eq]
    split
    next hkey =>
      have hcreates := Operation.Creates.processStart eventId observedAt attribution process start hkey hvalid rfl
      cases s.states.lookup key with
      | none => exact .created hcreates .refl
      | some => exact .replaced hkey hcreates .refl
    · exact .same
  · rw [observeProcessStart, if_neg hvalid, lookup_removeProcessState]
    split
    next hkey =>
      cases s.states.lookup key with
      | none => exact .absent
      | some => exact .discarded hkey
    · exact .same

end

theorem lookup_insertState {key' : ProcessKey} {state : ProcessState} : (s.insertState key' state).2.states.lookup key =
      if key = key' ∧ size s.states < s.capacity then some state else s.states.lookup key := by
  unfold insertState
  by_cases hfull : size s.states ≥ s.capacity
  · rw [if_pos hfull, if_neg fun h => absurd h.2 (Nat.not_lt.mpr hfull)]
  · rw [if_neg hfull]
    refine lookup_insert_eq.trans ?_
    simp [Nat.lt_of_not_le hfull]

section
variable (observedAt : DateTime) (attribution : KubernetesAttribution) (process : ProcessIdentity)
  (generation : ProcessGenerationIdentity) (task : TaskStart)

/-- The state of a generation that counts is there; that of another generation is gone. -/
theorem change_ensureState : Changes s key (.threadStart observedAt attribution process generation task)
      (s.ensureState (keyOf process) (new attribution process generation observedAt)).2 := by
  unfold Changes ensureState
  by_cases hkey : key = keyOf process
  · have hcreates := Operation.Creates.threadStart observedAt attribution process generation task hkey rfl
    rw [← hkey]
    cases hl : s.states.lookup key with
    | none =>
      rw [lookup_insertState]
      split
      · exact .created hcreates .refl
      · rw [hl]
        exact .absent
    | some state =>
      dsimp only
      split
      · rw [hl]
        exact .same
      next hother =>
        have hdiscards : Operation.Discards key state (.threadStart observedAt attribution process generation task) :=
          ⟨hkey, hother⟩
        rw [lookup_insertState, lookup_removeProcessState, if_pos rfl]
        split
        · exact .replaced hdiscards hcreates .refl
        · exact .discarded hdiscards
  · have hsame : ∀ t : TaskLifecycleStore, t.states.lookup key = s.states.lookup key →
        Changes s key (.threadStart observedAt attribution process generation task)
          (t.insertState (keyOf process) (new attribution process generation observedAt)).2 := by
      intro t ht
      rw [Changes, lookup_insertState, if_neg fun h => hkey h.1, ht]
      exact .same
    split
    · exact hsame s rfl
    · split
      · exact .same
      · exact hsame _ ((lookup_removeProcessState s key).trans (if_neg hkey))

theorem change_threadStart : Changes s key (.threadStart observedAt attribution process generation task)
      (s.observeThreadStart observedAt attribution process generation task) := by
  have hensured := change_ensureState s key observedAt attribution process generation task
  unfold observeThreadStart
  dsimp only
  split
  · exact hensured
  · split
    · exact hensured
    · exact hensured.retireReusedTask.addTask

end

section
variable (key' : ProcessKey) (entries : List SnapshotEntry) (t : TaskLifecycleStore) (state : ProcessState)

theorem states_seedSnapshot : (seedSnapshot key' entries t state).1.states = t.states := by
  induction entries generalizing t state with
  | nil => rfl
  | cons entry _ ih =>
    cases entry with
    | task =>
      rw [seedSnapshot]
      split
      · exact ih t state
      · split
        · rfl
        · exact ih _ _
    | _ => exact ih t _

/-- It adds tasks to the state, under names, and gaps; the rest is as it was. -/
theorem sameWindow_seedSnapshot : SameWindow state (seedSnapshot key' entries t state).2 := by
  induction entries generalizing t state with
  | nil => exact .refl
  | cons entry _ ih =>
    cases entry with
    | task _ comm =>
      rw [seedSnapshot]
      split
      · exact ih t state
      · split
        · exact sameWindow_addGap
        · exact ((sameWindow_snapshotName state comm).trans (sameWindow_seedTask _ _ _)).trans (ih _ _)
    | _ => exact sameWindow_addGap.trans (ih t _)

end

theorem change_bootstrap {observedAt : DateTime} {attribution : KubernetesAttribution} {process : ProcessIdentity}
    {generation : ProcessGenerationIdentity} {listing : Option (List SnapshotEntry)} :
    Changes s key (.bootstrap observedAt attribution process generation listing)
      (s.bootstrapProcess observedAt attribution process generation listing) := by
  unfold bootstrapProcess
  dsimp only
  split
  · exact .same
  next habsent =>
    have hnone : s.states.lookup (keyOf process) = none :=
      Option.not_isSome_iff_eq_none.mp fun hsome => habsent (.inl hsome)
    have hstates : (s.snapshotState (keyOf process) (new attribution process generation observedAt)
        listing).1.states = s.states := by
      cases listing with
      | none => rfl
      | some => exact states_seedSnapshot _ _ _ _
    have hwindow : SameWindow (new attribution process generation observedAt)
        (s.snapshotState (keyOf process) (new attribution process generation observedAt) listing).2 := by
      cases listing with
      | none => exact ⟨rfl, rfl, rfl, rfl, rfl⟩
      | some =>
        have hfresh : SameWindow (new attribution process generation observedAt)
            { new attribution process generation observedAt with baselineProvenance := .snapshot } :=
          ⟨rfl, rfl, rfl, rfl, rfl⟩
        exact hfresh.trans (sameWindow_seedSnapshot _ _ _ _)
    refine Eq.mpr (congrArg (Change key _ _) lookup_insert_eq) ?_
    by_cases hkey : key = keyOf process
    · rw [if_pos hkey, hkey, hnone]
      apply Change.created _ .refl
      exact .bootstrap observedAt attribution process generation listing rfl hwindow.process hwindow.generation
        hwindow.windowStart hwindow.created hwindow.exited
    · rw [if_neg hkey, hstates]
      exact .same

theorem change_rename {processId taskId : UInt32} : Changes s key (.rename processId taskId observedAtNs name)
      (s.observeRename processId taskId observedAtNs name) := by
  unfold observeRename
  split
  · exact .same
  · split
    · exact .same
    · exact Change.same.modifyState fun state => continues_renameTask state

theorem change_threadExit {cgroupId : UInt64} {processId threadId : UInt32} :
    Changes s key (.threadExit cgroupId processId threadId observedAtNs)
      (s.observeThreadExit cgroupId processId threadId observedAtNs) := by
  unfold observeThreadExit
  dsimp only
  split
  · exact .same
  next taskKey _ =>
    split
    · exact .same
    split
    · exact .same
    have hexit : Changes s key (.threadExit cgroupId processId threadId observedAtNs)
        (s.modifyState ⟨cgroupId, processId⟩ (·.exitTask taskKey)) := by
      refine Change.same.modifyState fun state => ?_
      unfold exitTask
      split
      · exact continues_addGap state
      · exact continues_dropTask state
    split <;> exact hexit

theorem change_processExit {cgroupId : UInt64} {tgid : UInt32} :
    Changes s key (.processExit cgroupId tgid) (s.observeProcessExit cgroupId tgid) := by
  unfold observeProcessExit
  dsimp only
  split
  · exact .same
  · exact Change.same.modifyState continues_exitAll

end

def Operation.isFlush : Operation → Bool
  | .flushDue _ _ => true
  | _ => false

/-- What any operation but a flush does to the state of a key. -/
theorem change_perform (s : TaskLifecycleStore) {operation : Operation} (h : operation.isFlush = false)
    (key : ProcessKey) : Change key operation (s.states.lookup key) ((perform s operation).2.states.lookup key) := by
  cases operation with
  | processStart => exact change_processStart s key ..
  | bootstrap => exact change_bootstrap s key ..
  | threadStart => exact change_threadStart s key ..
  | rename => exact change_rename s key ..
  | threadExit => exact change_threadExit s key ..
  | processExit => exact change_processExit s key ..
  | flushDue => cases h

theorem lookup_flushDue {s : TaskLifecycleStore} {order : IterationOrder} {now : DateTime} {key : ProcessKey} :
    (perform s (.flushDue order now)).2.states.lookup key = (s.states.lookup key).bind (afterFlush order now) :=
  lookup_filterMap

end Okoscope.Agent.TaskLifecycle
