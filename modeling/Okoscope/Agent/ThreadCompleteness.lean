import Okoscope.Agent.ThreadEvidence

/-!
# What a complete window says

A window is complete if the baseline of its generation is and nothing was missed in the window
itself. A start or an end that the store drops is noted for one window at most, so a later window
of the generation may be complete again. Where every drop finds a state that is incomplete
already, and no state is made for a generation that had a drop, a complete window is one of a
generation without any drop.
-/
namespace Okoscope.Agent.TaskLifecycle

open Lib Lib.FiniteMap Lib.Run EventModel
open ProcessRuntime (ProcessKey)

/-! ## Drops -/

inductive DropReason where
  -- of a start
  | retired
  | storeFull
  | staleStart
  | indexFull
  -- of an end
  | unknownThread
  | otherProcess
  | staleExit
  | missingTask
  -- of either
  | missingState
  deriving DecidableEq

/-- Why the store does not count a start, if it does not. -/
def TaskLifecycleStore.startDrop (s : TaskLifecycleStore) (observedAt : DateTime)
    (attribution : KubernetesAttribution) (process : ProcessIdentity) (generation : ProcessGenerationIdentity)
    (task : TaskStart) : Option DropReason :=
  let key := keyOf process
  let (counts, s) := s.ensureState key (ProcessState.new attribution process generation observedAt)
  if ¬ counts then some (if (s.states.lookup key).isSome then .retired else .storeFull)
  else if s.isStale (key.tgid, task.tid) task.observedAtNs then some .staleStart
  else
    let s := s.retireReusedTask (key.tgid, task.tid)
    if size s.taskIndex ≥ s.capacity then some .indexFull
    else if (s.states.lookup key).isNone then some .missingState
    else none

/-- Why the store does not count an end, if it does not. -/
def TaskLifecycleStore.exitDrop (s : TaskLifecycleStore) (cgroupId : UInt64) (processId threadId : UInt32)
    (observedAtNs : UInt64) : Option DropReason :=
  let key : ProcessKey := ⟨cgroupId, processId⟩
  match s.taskIndex.lookup (processId, threadId) with
  | none => some .unknownThread
  | some (indexedKey, taskKey) =>
    if indexedKey ≠ key then some .otherProcess
    else if observedAtNs < taskKey.startedAtNs then some .staleExit
    else
      match s.states.lookup key with
      | none => some .missingState
      | some state => if (state.tasks.lookup taskKey).isSome then none else some .missingTask

/-! ### Drops count nothing -/

section
open TaskLifecycleStore
variable {s : TaskLifecycleStore} {observedAt : DateTime} {attribution : KubernetesAttribution}
  {process : ProcessIdentity} {generation : ProcessGenerationIdentity} {task : TaskStart}

/-- A start is counted exactly when the thread enters the index. -/
theorem startDrop_eq_none : s.startDrop observedAt attribution process generation task = none ↔
    let made := (s.ensureState (keyOf process) (.new attribution process generation observedAt)).2
    ∃ entry, (s.observeThreadStart observedAt attribution process generation task).taskIndex.lookup
      ((keyOf process).tgid, task.tid) = some entry ∧
      made.taskIndex.lookup ((keyOf process).tgid, task.tid) ≠ some entry := by
  unfold startDrop observeThreadStart
  dsimp only
  generalize s.ensureState (keyOf process) (.new attribution process generation observedAt) = made
  have hfree : (made.2.retireReusedTask ((keyOf process).tgid, task.tid)).taskIndex.lookup
      ((keyOf process).tgid, task.tid) = none := by
    unfold retireReusedTask
    split
    next hnone => exact hnone
    · exact AList.lookup_erase _ _
  split
  · simp
  split
  · simp
  next hfresh =>
  generalize made.2.retireReusedTask ((keyOf process).tgid, task.tid) = t at hfree
  unfold addTask
  split
  · simp [modifyState, hfree]
  split
  next hgone => simp [nextTaskKey, hgone, hfree]
  next hstate =>
    simp only [nextTaskKey, hstate, modifyState]
    -- what had the number before started earlier
    exact iff_of_true trivial ⟨_, AList.lookup_insert _, fun hsame => hfresh ⟨_, hsame, UInt64.le_refl _⟩⟩

/-- An end is counted exactly when the thread leaves the index. -/
theorem exitDrop_eq_none {cgroupId : UInt64} {processId threadId : UInt32} {observedAtNs : UInt64} :
    s.exitDrop cgroupId processId threadId observedAtNs = none ↔
      (s.taskIndex.lookup (processId, threadId)).isSome ∧
      (s.observeThreadExit cgroupId processId threadId observedAtNs).taskIndex.lookup (processId, threadId) = none := by
  unfold exitDrop observeThreadExit
  cases hindex : s.taskIndex.lookup (processId, threadId) with
  | none => simp
  | some entry =>
    by_cases hother : entry.1 ≠ ⟨cgroupId, processId⟩
    · simp [hother, hindex]
    by_cases hstale : observedAtNs < entry.2.startedAtNs
    · simp [hother, hstale, hindex]
    cases hstate : s.states.lookup ⟨cgroupId, processId⟩ with
    | none => simp [hother, hstale, hstate, hindex]
    | some state =>
      cases htask : state.tasks.lookup entry.2 <;>
        simp [hother, hstale, hstate, hindex, htask, modifyState]

end

/-! ### Runs with drops -/

/-- An operation, and the generation that the thread belongs to: the record of an end does not
name it, so the store is not given it. -/
structure Delivery where
  operation : Operation
  generation : ProcessGenerationIdentity

/-- A start or an end that was not counted. -/
structure Drop where
  reason : DropReason
  key : ProcessKey
  generation : ProcessGenerationIdentity
  deriving DecidableEq

def Delivery.drop? (s : TaskLifecycleStore) (d : Delivery) : Option Drop :=
  match d.operation with
  | .threadStart observedAt attribution process generation task =>
    (s.startDrop observedAt attribution process generation task).map (⟨·, keyOf process, generation⟩)
  | .threadExit cgroupId processId threadId observedAtNs =>
    (s.exitDrop cgroupId processId threadId observedAtNs).map (⟨·, ⟨cgroupId, processId⟩, d.generation⟩)
  | _ => none

/-- A store and what it has dropped so far. -/
structure Record where
  store : TaskLifecycleStore
  drops : List Drop

def Record.new (capacity : Nat) : Record := ⟨TaskLifecycleStore.new capacity, []⟩

def Record.step (r : Record) (d : Delivery) : List RuntimeEvent × Record :=
  ((perform r.store d.operation).1, {
    store := (perform r.store d.operation).2
    drops := r.drops ++ (d.drop? r.store).toList })

def record (capacity : Nat) (run : List Delivery) : Record := (trace Record.step (.new capacity) run).2

/-- The generation that the operation makes a state for. -/
def Operation.makes (s : TaskLifecycleStore) : Operation → Option (ProcessKey × ProcessGenerationIdentity)
  | .processStart _ _ _ process start => some (keyOf process, start.generation)
  | .threadStart _ _ process generation _ =>
    if (s.states.lookup (keyOf process)).map (·.generation) = some generation then none
    else some (keyOf process, generation)
  | .bootstrap _ _ process generation _ =>
    if (s.states.lookup (keyOf process)).isSome then none else some (keyOf process, generation)
  | _ => none

/-- A start or an end dropped for one of these reasons finds the state of its generation with an
incomplete baseline, and no state is made for a generation that had such a drop. -/
structure Sustains (reasons : DropReason → Prop) (r : Record) (d : Delivery) : Prop where
  noted : ∀ drop ∈ d.drop? r.store, reasons drop.reason → ∃ state ∈ r.store.states.lookup drop.key,
    state.generation = drop.generation ∧ state.baselineComplete = false
  remembered : ∀ drop ∈ r.drops, reasons drop.reason →
    d.operation.makes r.store ≠ some (drop.key, drop.generation)

instance (reasons : DropReason → Prop) [DecidablePred reasons] (r : Record) (d : Delivery) :
    Decidable (Sustains reasons r d) :=
  decidable_of_iff
    ((∀ drop ∈ d.drop? r.store, reasons drop.reason → ∃ state ∈ r.store.states.lookup drop.key,
        state.generation = drop.generation ∧ state.baselineComplete = false) ∧
      ∀ drop ∈ r.drops, reasons drop.reason → d.operation.makes r.store ≠ some (drop.key, drop.generation))
    ⟨fun h => ⟨h.1, h.2⟩, fun h => ⟨h.noted, h.remembered⟩⟩

/-! ## What is kept -/

variable {s : TaskLifecycleStore} {operation : Operation}

/-- A fresh state in place of none, or of one that is discarded, is one that is made. -/
theorem Operation.Creates.makes {key : ProcessKey} {fresh : ProcessState} (h : operation.Creates key fresh)
    (hbefore : ∀ state ∈ s.states.lookup key, operation.Discards key state) :
    operation.makes s = some (key, fresh.generation) := by
  cases h with
  | processStart _ _ _ _ _ hkey _ hfresh =>
    subst hkey hfresh
    rfl
  | threadStart _ _ _ _ _ hkey hfresh =>
    subst hkey hfresh
    apply if_neg
    intro hsame
    obtain ⟨state, hl, hgeneration⟩ := Option.map_eq_some_iff.mp hsame
    exact (hbefore state hl).2 hgeneration
  | bootstrap _ _ process _ _ hkey _ hgeneration =>
    subst hkey
    have hnone : ¬ (s.states.lookup (keyOf process)).isSome := by
      intro hsome
      obtain ⟨state, hl⟩ := Option.isSome_iff_exists.mp hsome
      exact hbefore state hl
    rw [Operation.makes, if_neg hnone, hgeneration]

/-- After an operation a state is one that went on, or one that the operation makes. -/
theorem perform_state (hflush : operation.isFlush = false) {key : ProcessKey} {b : ProcessState}
    (hl : (perform s operation).2.states.lookup key = some b) : (∃ a, s.states.lookup key = some a ∧ Continues a b) ∨
      ∃ fresh, operation.Creates key fresh ∧ Continues fresh b ∧ operation.makes s = some (key, b.generation) := by
  have hchange := change_perform s hflush key
  rw [hl] at hchange
  rcases hchange.origin with hkept | ⟨fresh, hfresh, hab, hbefore⟩
  · exact .inl hkept
  · exact .inr ⟨fresh, hfresh, hab, hab.generation ▸ hfresh.makes hbefore⟩

/-- The operation that drops a start or an end makes no state for a generation that has one. -/
theorem Delivery.drop_not_made {d : Delivery} {drop : Drop} (h : drop ∈ d.drop? s) {state : ProcessState}
    (hl : s.states.lookup drop.key = some state) (hgeneration : state.generation = drop.generation) :
    d.operation.makes s ≠ some (drop.key, drop.generation) := by
  unfold Delivery.drop? at h
  split at h
  next process generation _ hoperation =>
    obtain ⟨_, -, rfl⟩ := Option.map_eq_some_iff.mp h
    have hsame : (s.states.lookup (keyOf process)).map (·.generation) = some generation := by
      rw [hl]
      exact congrArg some hgeneration
    rw [hoperation, Operation.makes, if_pos hsame]
    intro hmakes
    cases hmakes
  next hoperation =>
    rw [hoperation]
    intro hmakes
    cases hmakes
  · cases h

/-- A generation with a drop is not complete. -/
structure Record.Noted (reasons : DropReason → Prop) (r : Record) : Prop where
  key : ∀ key state, r.store.states.lookup key = some state → keyOf state.process = key
  incomplete : ∀ drop ∈ r.drops, reasons drop.reason → ∀ state, r.store.states.lookup drop.key = some state →
    state.generation = drop.generation → state.baselineComplete = false

variable {reasons : DropReason → Prop}

theorem record_new_noted {capacity : Nat} : (Record.new capacity).Noted reasons where
  key _ _ hl := nomatch hl
  incomplete _ hdrop := nomatch hdrop

theorem Record.Noted.step {r : Record} (h : r.Noted reasons) {d : Delivery} (hsustains : Sustains reasons r d) :
    (r.step d).2.Noted reasons := by
  -- in the state before, the drops of this operation are noted as well
  have hbefore : ∀ drop ∈ r.drops ++ (d.drop? r.store).toList, reasons drop.reason →
      ∀ a, r.store.states.lookup drop.key = some a → a.generation = drop.generation → a.baselineComplete = false := by
    intro drop hdrop hreason a ha hgeneration
    rcases List.mem_append.mp hdrop with hold | hnew
    · exact h.incomplete drop hold hreason a ha hgeneration
    · obtain ⟨_, ha', -, hcomplete⟩ := hsustains.noted drop (Option.mem_toList.mp hnew) hreason
      cases ha.symm.trans ha'
      exact hcomplete
  have hmade : ∀ drop ∈ r.drops ++ (d.drop? r.store).toList, reasons drop.reason →
      d.operation.makes r.store ≠ some (drop.key, drop.generation) := by
    intro drop hdrop hreason
    rcases List.mem_append.mp hdrop with hold | hnew
    · exact hsustains.remembered drop hold hreason
    · have hmem := Option.mem_toList.mp hnew
      obtain ⟨_, ha, hgeneration, -⟩ := hsustains.noted drop hmem hreason
      exact Delivery.drop_not_made hmem ha hgeneration
  cases hflush : d.operation.isFlush with
  | false =>
    constructor
    case key =>
      intro key b hl
      rcases perform_state hflush hl with ⟨a, ha, hab⟩ | ⟨fresh, hfresh, hab, -⟩
      · rw [hab.process]
        exact h.key key a ha
      · rw [hab.process]
        exact hfresh.keyOf_process
    case incomplete =>
      intro drop hdrop hreason b hl hgeneration
      rcases perform_state hflush hl with ⟨a, ha, hab⟩ | ⟨fresh, hfresh, hab, hmakes⟩
      · exact hab.incomplete (hbefore drop hdrop hreason a ha (hab.generation.symm.trans hgeneration))
      · rw [hgeneration] at hmakes
        exact absurd hmakes (hmade drop hdrop hreason)
  | true =>
    obtain ⟨_, _, hoperation⟩ := eq_flushDue hflush
    have hstate : ∀ {key b}, (r.step d).2.store.states.lookup key = some b → ∃ a, r.store.states.lookup key = some a ∧
        b.process = a.process ∧ b.generation = a.generation ∧ b.baselineComplete = a.baselineComplete := by
      intro key b hl
      replace hl : (perform r.store d.operation).2.states.lookup key = some b := hl
      rw [hoperation] at hl
      obtain ⟨a, ha, hb⟩ := flushed_state hl
      rcases hb with ⟨-, rfl⟩ | ⟨-, rfl⟩
      · exact ⟨b, ha, rfl, rfl, rfl⟩
      · exact ⟨a, ha, rfl, rfl, rfl⟩
    constructor
    case key =>
      intro key b hl
      obtain ⟨a, ha, hprocess, -, -⟩ := hstate hl
      rw [hprocess]
      exact h.key key a ha
    case incomplete =>
      intro drop hdrop hreason b hl hgeneration
      obtain ⟨a, ha, -, hsame, hcomplete⟩ := hstate hl
      rw [hcomplete]
      exact hbefore drop hdrop hreason a ha (hsame.symm.trans hgeneration)

/-! ## Complete windows -/

/-- In a run that sustains its drops, a window that is reported complete is of a generation no
start and no end of which was dropped before. -/
theorem complete_window_sound (reasons : DropReason → Prop) (capacity : Nat) (run : List Delivery)
    (hsustains : Along Record.step (Sustains reasons) (.new capacity) run) (next : Delivery)
    (w : ThreadActivityWindow) (hw : w ∈ windowsOf ((record capacity run).step next).1)
    (hcomplete : w.baselineComplete) : ∀ drop ∈ (record capacity run).drops, reasons drop.reason →
      ¬ (drop.key = keyOf w.process ∧ drop.generation = w.generation) := by
  intro drop hdrop hreason hsame
  have hnoted : (record capacity run).Noted reasons := trace_invariant_along (fun _ r => r.Noted reasons)
    (fun _ _ _ hr hs => hr.step hs) record_new_noted hsustains
  obtain ⟨_, _, -, key, state, hl, -, rfl⟩ := windowsOf_performed hw
  have hkey : drop.key = key := hsame.1.trans (hnoted.key key state hl)
  have hincomplete := hnoted.incomplete drop hdrop hreason state (hkey ▸ hl) hsame.2.symm
  have hboth : (state.baselineComplete && state.gaps.isEmpty) := hcomplete
  rw [hincomplete] at hboth
  cases hboth

def freshGeneration : ProcessGenerationIdentity := ⟨2, Bytes.ByteVec.fill 16 1, true⟩

def startProcess (process : ProcessIdentity) (time : DateTime) : Operation :=
  .processStart (Bytes.ByteVec.fill 16 2) time paymentApi process ⟨freshGeneration, 1, 1, "init"⟩

def otherProcess : ProcessIdentity := ⟨8, 20, 20, "other"⟩

/-- A process whose start was not seen and that has lost an end, and one that is seen in full. -/
def twoProcesses : List Delivery :=
  [⟨.threadStart 0 paymentApi busyProcess busyGeneration ⟨11, 1, "a"⟩, busyGeneration⟩,
    ⟨.threadExit 7 10 99 2, busyGeneration⟩, ⟨startProcess otherProcess 0, freshGeneration⟩,
    ⟨.threadStart 0 paymentApi otherProcess freshGeneration ⟨21, 3, "b"⟩, freshGeneration⟩]

def flushedAt (n : Int) : Delivery := ⟨.flushDue inOrder (seconds n), freshGeneration⟩

theorem complete_window_sound_twoProcesses :
    (record 4 twoProcesses).drops = [⟨.unknownThread, busyKey, busyGeneration⟩] ∧
      ∃ w ∈ windowsOf ((record 4 twoProcesses).step (flushedAt 60)).1,
        w.baselineComplete ∧ w.generation = freshGeneration ∧ ∀ drop ∈ (record 4 twoProcesses).drops, True →
            ¬ (drop.key = keyOf w.process ∧ drop.generation = w.generation) := by
  have hsound := complete_window_sound (fun _ => True) 4 twoProcesses (by decide +kernel) (flushedAt 60)
  have hwindow : ∃ w ∈ windowsOf ((record 4 twoProcesses).step (flushedAt 60)).1,
      w.baselineComplete ∧ w.generation = freshGeneration := by decide +kernel
  obtain ⟨w, hw, hcomplete, hgeneration⟩ := hwindow
  exact ⟨by decide +kernel, w, hw, hcomplete, hgeneration, hsound w hw hcomplete⟩

/-- One process with one thread, and a second thread for which there is no room. -/
def crowdedProcess : List Delivery :=
  [startProcess busyProcess 0, .threadStart 0 paymentApi busyProcess freshGeneration ⟨11, 1, "a"⟩,
    .threadStart (seconds 10) paymentApi busyProcess freshGeneration ⟨12, 2, "b"⟩,
    .flushDue inOrder (seconds 60)].map (⟨·, freshGeneration⟩)

/-- The window in which it is dropped has a gap, the next one is complete. -/
theorem crowded_window_complete : (record 1 crowdedProcess).drops = [⟨.indexFull, busyKey, freshGeneration⟩] ∧
      (windowsOf ((record 1 crowdedProcess).step (flushedAt 120)).1).map
          (fun w => (keyOf w.process, w.generation, w.windowStartedAt, w.baselineComplete)) =
        [(busyKey, freshGeneration, seconds 60, true)] := by
  exact ⟨by decide +kernel, by decide +kernel⟩

end Okoscope.Agent.TaskLifecycle
