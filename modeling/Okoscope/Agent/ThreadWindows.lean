import Okoscope.Agent.ThreadCounts

/-!
# Thread windows are valid

In a run with fewer threads than words the counters of every process agree, so the windows
that a flush returns pass their own check. Counters stop at the largest word while the sum
over the names goes on: after that many threads in one window the check refuses it.
-/
namespace Okoscope.Agent.TaskLifecycle

open Lib Lib.FiniteMap Lib.Word Lib.Run EventModel
open ProcessRuntime (ProcessKey)
open ProcessState List

/-! ## The store -/

/-- The identities a process is reported under can be put in a window. -/
structure Identified (process : ProcessIdentity) (generation : ProcessGenerationIdentity) : Prop where
  generation : generation.validate = .ok ()
  cgroupId : process.cgroupId ≠ 0
  tgid : process.tgid ≠ 0
  leader : process.pid = process.tgid

/-- What an operation is supplied with is proper. -/
def Operation.Supplied : Operation → Prop
  | .processStart _ _ _ process start => Identified process start.generation
  | .bootstrap _ _ process generation _ => Identified process generation
  | .threadStart _ _ process generation task => Identified process generation ∧ validName task.name
  | .rename _ _ _ name => validName name
  | .threadExit _ _ _ _ => True
  | .processExit _ _ => True
  | .flushDue _ _ => True

/-- The most threads an operation can add. -/
def Operation.threads : Operation → Nat
  | .bootstrap _ _ _ _ (some entries) => entries.length
  | .threadStart _ _ _ _ _ => 1
  | _ => 0

variable {state : ProcessState}

theorem tallied_empty (n : Nat) (htasks : state.tasks = ∅) (hnames : state.names = ∅)
    (hcreated : state.created = 0) (hexited : state.exited = 0) : Tallied n state where
  numbered := by
    intro k task hk
    rw [htasks] at hk
    cases hk
  few := by
    rw [htasks]
    exact Nat.zero_le n
  active := by
    intro name
    rw [htasks, hnames]
    rfl
  allActive := by
    rw [htasks, hnames]
    rfl
  created := by
    rw [hnames, hcreated]
    rfl
  exited := by
    rw [hnames, hexited]
    rfl

variable {process : ProcessIdentity} {generation : ProcessGenerationIdentity} {key : ProcessKey} {name : String}

theorem labelled_new (attribution : KubernetesAttribution) (h : Identified process generation) (observedAt : DateTime) :
    Labelled (new attribution process generation observedAt) where
  names := ⟨fun name entry hl => (by cases hl), .inl (Nat.zero_le _)⟩
  gaps := nodup_nil
  complete := by
    intro hstart
    replace hstart : generation.startObserved := hstart
    simp [new, hstart]
  generation := h.generation
  cgroupId := h.cgroupId
  pid := h.leader ▸ h.tgid
  leader := h.leader

theorem sound_new {n : Nat} (attribution : KubernetesAttribution) (h : Identified process generation)
    (observedAt : DateTime) : Sound n (new attribution process generation observedAt) where
  tallied := tallied_empty n rfl rfl rfl rfl
  balanced := ⟨rfl, Nat.zero_le n, le_rfl, le_rfl, le_rfl⟩
  labelled := labelled_new attribution h observedAt

structure StoreSound (n : Nat) (s : TaskLifecycleStore) : Prop where
  numbered : Numbered n s
  states : ∀ key state, s.states.lookup key = some state → Sound n state

variable {attribution : KubernetesAttribution} {order : IterationOrder} {observedAt : DateTime}
variable {operation : Operation} {observedAtNs : UInt64}

section
variable {n : Nat} {s : TaskLifecycleStore}

section
variable (h : StoreSound n s)
include h

theorem StoreSound.withIndex {taskIndex : Map Locator (ProcessKey × TaskKey)} :
    StoreSound n { s with taskIndex } := ⟨h.numbered, h.states⟩

theorem StoreSound.insert (hstate : Sound n state) : StoreSound n { s with states := s.states.insert key state } where
  numbered := h.numbered
  states := by
    intro key' state' hl
    obtain ⟨-, rfl⟩ | ⟨-, hl⟩ := lookup_insert_some hl
    · exact hstate
    · exact h.states key' state' hl

/-- Changing one state, with `m` keys handed out in all. -/
theorem StoreSound.modifyState {m : Nat} (hm : n ≤ m) {f : ProcessState → ProcessState}
    (hf : ∀ state, Sound n state → Sound m (f state)) {t : TaskLifecycleStore} (hnumbered : Numbered m t)
    (hstates : t.states = adjust s.states key f) : StoreSound m t where
  numbered := hnumbered
  states := by
    intro key' state' hl
    rw [hstates, lookup_adjust] at hl
    split at hl
    · obtain ⟨state, hstate, rfl⟩ := Option.map_eq_some_iff.mp hl
      exact hf state (h.states key state hstate)
    · exact (h.states key' state' hl).mono hm

theorem StoreSound.removeProcessState : StoreSound n (s.removeProcessState key) := by
  unfold TaskLifecycleStore.removeProcessState
  split
  · exact h
  · refine ⟨h.numbered, ?_⟩
    intro key' state' hl
    exact h.states key' state' (lookup_erase_some hl).2

theorem StoreSound.insertState (hstate : Sound n state) : StoreSound n (s.insertState key state).2 := by
  unfold TaskLifecycleStore.insertState
  split
  · exact h
  · exact h.insert hstate

theorem StoreSound.ensureState (key : ProcessKey) {fresh : ProcessState} (hfresh : Sound n fresh) :
    StoreSound n (s.ensureState key fresh).2 := by
  unfold TaskLifecycleStore.ensureState
  split
  · exact h.insertState hfresh
  · split
    · exact h
    · exact h.removeProcessState.insertState hfresh

theorem StoreSound.retireReusedTask (hn : n < 2 ^ 64) (locator : Locator) :
    StoreSound n (s.retireReusedTask locator) := by
  unfold TaskLifecycleStore.retireReusedTask
  split
  · exact h
  · exact h.withIndex.modifyState le_rfl (fun _ hstate => hstate.retireTask hn) h.numbered rfl

theorem StoreSound.addTask (hn : n + 1 < 2 ^ 64) (key : ProcessKey) {task : TaskStart}
    (hname : validName task.name) : ∃ m, n ≤ m ∧ m ≤ n + 1 ∧ StoreSound m (s.addTask key task) := by
  obtain ⟨hk, hnumbered⟩ := h.numbered.nextTaskKey hn
  unfold TaskLifecycleStore.addTask
  split
  · exact ⟨n, le_rfl, Nat.le_succ n, h.modifyState le_rfl (fun _ hstate => hstate.addGap _) h.numbered rfl⟩
  dsimp only
  refine ⟨n + 1, Nat.le_succ n, le_rfl, ?_⟩
  split
  · exact ⟨hnumbered, fun key' state' hl => (h.states key' state' hl).mono (Nat.le_succ n)⟩
  · exact h.modifyState (Nat.le_succ n) (fun _ hstate => hstate.startTask hn hk hname) hnumbered rfl

theorem StoreSound.observeThreadStart (hn : n + 1 < 2 ^ 64) {task : TaskStart}
    (hprocess : Identified process generation) (hname : validName task.name) :
    ∃ m, n ≤ m ∧ m ≤ n + 1 ∧ StoreSound m (s.observeThreadStart observedAt attribution process generation task) := by
  have hensured := h.ensureState (keyOf process) (sound_new attribution hprocess observedAt)
  unfold TaskLifecycleStore.observeThreadStart
  dsimp only
  split
  · exact ⟨n, le_rfl, Nat.le_succ n, hensured⟩
  · split
    · exact ⟨n, le_rfl, Nat.le_succ n, hensured⟩
    · exact (hensured.retireReusedTask (by omega) _).addTask hn _ hname

theorem StoreSound.bootstrapProcess (hprocess : Identified process generation) {listing : Option (List SnapshotEntry)}
    (hn : n + (listing.getD []).length < 2 ^ 64) : ∃ m, n ≤ m ∧ m ≤ n + (listing.getD []).length ∧
      StoreSound m (s.bootstrapProcess observedAt attribution process generation listing) := by
  have hlabels := labelled_new attribution hprocess observedAt
  have htallied : Tallied n (new attribution process generation observedAt) := tallied_empty n rfl rfl rfl rfl
  unfold TaskLifecycleStore.bootstrapProcess
  dsimp only
  split
  · exact ⟨n, le_rfl, Nat.le_add_right _ _, h⟩
  cases listing with
  | none =>
    refine ⟨n, le_rfl, le_rfl, h.insert ?_⟩
    refine ⟨{ htallied with }, ⟨rfl, Nat.zero_le n, le_rfl, le_rfl, le_rfl⟩, ?_⟩
    exact { hlabels with gaps := nodup_singleton _, complete := fun hfalse => by cases hfalse }
  | some entries =>
    have hseeded : Seeded n
        { new attribution process generation observedAt with baselineProvenance := .snapshot } := by
      have hsnapshot : BaselineProvenance.snapshot ≠ .unavailable := by decide
      exact ⟨{ htallied with }, { hlabels with complete := fun _ => hsnapshot }, rfl, rfl, rfl⟩
    have hn' : n + entries.length < 2 ^ 64 := hn
    obtain ⟨m, hle, hm, hnumbered, hst, hstates⟩ := seedSnapshot_sound (keyOf process) hn' h.numbered hseeded
    have hseededStore : StoreSound m (TaskLifecycleStore.seedSnapshot (keyOf process) entries s
        { new attribution process generation observedAt with
          baselineProvenance := .snapshot }).1 := by
      refine ⟨hnumbered, fun key state hl => ?_⟩
      rw [hstates] at hl
      exact (h.states key state hl).mono hle
    exact ⟨m, hle, hm, hseededStore.insert (hst.sound (by omega))⟩

theorem StoreSound.observeProcessStart {eventId : Uuid} {start : ProcessStart}
    (hprocess : Identified process start.generation) :
    StoreSound n (s.observeProcessStart eventId observedAt attribution process start).2 := by
  unfold TaskLifecycleStore.observeProcessStart
  split
  · exact h.removeProcessState.insert (sound_new attribution hprocess observedAt)
  · exact h.removeProcessState

section
variable (hn : n < 2 ^ 64)
include hn

theorem StoreSound.observeRename {processId taskId : UInt32} (hname : validName name) :
    StoreSound n (s.observeRename processId taskId observedAtNs name) := by
  unfold TaskLifecycleStore.observeRename
  split
  · exact h
  · split
    · exact h
    · exact h.modifyState le_rfl (fun _ hstate => hstate.renameTask hn hname) h.numbered rfl

theorem StoreSound.observeThreadExit {cgroupId : UInt64} {processId threadId : UInt32} :
    StoreSound n (s.observeThreadExit cgroupId processId threadId observedAtNs) := by
  unfold TaskLifecycleStore.observeThreadExit
  dsimp only
  split
  · exact h
  next taskKey _ =>
    split
    · exact h
    split
    · exact h
    have hexit : StoreSound n (s.modifyState ⟨cgroupId, processId⟩ (·.exitTask taskKey)) :=
      h.modifyState le_rfl (fun _ hstate => hstate.exitTask hn) h.numbered rfl
    split
    · exact hexit.withIndex
    · exact hexit

theorem StoreSound.observeProcessExit {cgroupId : UInt64} {tgid : UInt32} :
    StoreSound n (s.observeProcessExit cgroupId tgid) := by
  unfold TaskLifecycleStore.observeProcessExit
  dsimp only
  split
  · exact h
  · exact h.modifyState le_rfl (fun _ hstate => hstate.exitAll hn) h.numbered rfl

theorem StoreSound.flushDue {now : DateTime} : StoreSound n (s.flushDue order now).2 where
  numbered := h.numbered
  states := by
    intro key state hl
    replace hl : (filterMap (fun _ state => TaskLifecycleStore.afterFlush order now state) s.states).lookup key =
      some state := hl
    rw [lookup_filterMap] at hl
    obtain ⟨before, hbefore, hafter⟩ := Option.bind_eq_some_iff.mp hl
    have hsound := h.states key before hbefore
    unfold TaskLifecycleStore.afterFlush at hafter
    split at hafter
    · cases hafter
    cases hafter
    unfold flush
    split
    · exact hsound.resetWindow hn
    · exact hsound

end

/-- An operation keeps the store sound and hands out no more keys than it has threads. -/
theorem StoreSound.perform (hsupplied : operation.Supplied) (hn : n + operation.threads < 2 ^ 64) :
    ∃ m, m ≤ n + operation.threads ∧ StoreSound m (TaskLifecycle.perform s operation).2 := by
  cases operation with
  | processStart =>
    exact ⟨n, le_rfl, h.observeProcessStart hsupplied⟩
  | bootstrap observedAt attribution process generation listing =>
    have hthreads : (Operation.bootstrap observedAt attribution process generation listing).threads =
        (listing.getD []).length := by cases listing <;> rfl
    rw [hthreads] at hn ⊢
    obtain ⟨m, -, hm, hsound⟩ := h.bootstrapProcess hsupplied hn
    exact ⟨m, hm, hsound⟩
  | threadStart =>
    obtain ⟨m, -, hm, hsound⟩ := h.observeThreadStart hn hsupplied.1 hsupplied.2
    exact ⟨m, hm, hsound⟩
  | rename =>
    exact ⟨n, le_rfl, h.observeRename hn hsupplied⟩
  | threadExit => exact ⟨n, le_rfl, h.observeThreadExit hn ..⟩
  | processExit => exact ⟨n, le_rfl, h.observeProcessExit hn ..⟩
  | flushDue => exact ⟨n, le_rfl, h.flushDue hn ..⟩

end

end

/-! ## Windows -/

theorem versionedId_ne_nil {digest : Bytes.ByteVec 32} : versionedId digest ≠ Uuid.nil := by
  intro h
  have hbyte := congrArg (fun u : Uuid => u.toList[6]?) h
  have hnil : Uuid.nil.toList[6]? = some 0 := rfl
  have hlen : digest.toList.length = 32 := digest.toList_length
  obtain ⟨b, hb⟩ : ∃ b, (digest.toList.take 16)[6]? = some b := by
    rw [getElem?_take_of_lt (by decide)]
    exact ⟨_, getElem?_eq_getElem (by omega)⟩
  have hversion : (versionedId digest).toList[6]? = some ((b &&& 0x0f) ||| 0x50) := by
    show (((digest.toList.take 16).modify 6 _).modify 8 _)[6]? = _
    rw [getElem?_modify, getElem?_modify, hb]
    rfl
  simp only [hversion, hnil, Option.some.injEq] at hbyte
  have hle : (0x50 : UInt8).toNat ≤ ((b &&& 0x0f) ||| 0x50).toNat := by
    exact Nat.right_le_or
  rw [hbyte] at hle
  exact absurd hle (by decide)

variable {n : Nat}

theorem Sound.window_wellFormed (h : Sound n state) (order : IterationOrder) : (state.window order).WellFormed where
  generation := h.labelled.generation
  id := versionedId_ne_nil
  cgroupId := h.labelled.cgroupId
  pid := h.labelled.pid
  leader := h.labelled.leader
  bounds := add_sub_cancel_left state.windowStart minute
  few := by
    have hlength : (order.names.apply state.aggregates).length = size state.names := by
      rw [(order.names.perm _).length_eq, aggregates, length_map, size]
    show (order.names.apply state.aggregates).length ≤ maxThreadNames + 2
    obtain hfew | ⟨hmore, -⟩ := h.labelled.names.few
    · omega
    · omega
  valid := by
    intro a ha
    obtain ⟨e, he, rfl⟩ := mem_map.mp ((order.names.perm _).mem_iff.mp ha)
    exact h.labelled.names.valid e.1 e.2 (mem_entries_iff.mp he)
  distinct := by
    have hkeys : state.aggregates.map (·.name) = state.names.keys := map_map
    show ((order.names.apply state.aggregates).map (·.name)).Nodup
    rw [((order.names.perm _).map _).nodup_iff, hkeys]
    exact state.names.keys_nodup
  complete := by
    intro hcomplete
    obtain ⟨hbaseline, hgaps⟩ := Bool.and_eq_true_iff.mp hcomplete
    refine ⟨h.labelled.complete hbaseline, ?_⟩
    show order.gaps.apply state.gaps = []
    rw [isEmpty_iff.mp hgaps]
    exact (order.gaps.perm []).eq_nil
  gaps := (order.gaps.perm _).nodup_iff.mpr h.labelled.gaps

theorem sum_aggregates (state : ProcessState) {f : String → NameState → Nat} {g : ThreadNameAggregate → Nat}
    (hg : ∀ name entry, g ⟨name, entry.created, entry.exited, entry.active⟩ = f name entry) :
    ((order.names.apply state.aggregates).map g).sum = total f state.names := by
  rw [((order.names.perm _).map g).sum_eq, aggregates, map_map, total]
  exact congrArg List.sum (map_congr_left fun e _ => hg e.1 e.2)

theorem Sound.window_reconciles (h : Sound n state) (hn : n < 2 ^ 64)
    (order : IterationOrder) : (state.window order).Reconciles := by
  have hactive := toNat_active (h.tallied.few.trans_lt hn)
  refine ⟨?_, h.balanced.bound.trans_lt hn, h.balanced.start_le_peak, hactive.trans_le h.balanced.active_le_peak,
    h.balanced.peak_le, ?_, ?_, ?_⟩
  · show state.activeAtStart.toNat + state.created.toNat = state.active.toNat + state.exited.toNat
    rw [hactive]
    exact h.balanced.balance
  · exact (sum_aggregates state fun _ _ => rfl).trans h.tallied.created
  · exact (sum_aggregates state fun _ _ => rfl).trans h.tallied.exited
  · exact ((sum_aggregates state fun _ _ => rfl).trans h.tallied.allActive).trans hactive.symm

/-- The windows among the events that are returned. -/
def windowsOf (events : List RuntimeEvent) : List ThreadActivityWindow :=
  events.filterMap fun event =>
    match event.payload with
    | .threadActivityWindow window => some window
    | _ => none

variable {s : TaskLifecycleStore}

theorem windowsOf_performed {w : ThreadActivityWindow} (h : w ∈ windowsOf (perform s operation).1) :
    ∃ order now, operation = .flushDue order now ∧
      ∃ key state, s.states.lookup key = some state ∧ state.isDue now ∧ w = state.window order := by
  obtain ⟨event, hevent, hw⟩ := mem_filterMap.mp h
  cases operation with
  | flushDue order now =>
    have hmem := (order.states.perm _).mem_iff.mp hevent
    obtain ⟨e, he, hflush⟩ := mem_filterMap.mp hmem
    unfold flush at hflush
    split at hflush
    next hdue =>
      cases hflush
      cases hw
      exact ⟨order, now, rfl, e.1, e.2, mem_entries_iff.mp he, hdue, rfl⟩
    · cases hflush
  | processStart eventId observedAt attribution process start =>
    replace hevent : event ∈ (s.observeProcessStart eventId observedAt attribution process start).1.toList := hevent
    unfold TaskLifecycleStore.observeProcessStart at hevent
    split at hevent
    · cases mem_singleton.mp hevent
      cases hw
    · cases hevent
  | _ => cases hevent

theorem window_mem_flushDue {now : DateTime} (hl : s.states.lookup key = some state) (hdue : state.isDue now) :
    state.window order ∈ windowsOf (perform s (.flushDue order now)).1 := by
  have hflush : (state.flush order now).1 = some (state.windowEvent order) := by
    rw [flush, if_pos hdue]
  have hevent : state.windowEvent order ∈ (s.flushDue order now).1 :=
    (order.states.perm _).mem_iff.mpr (mem_filterMap.mpr ⟨⟨key, state⟩, mem_entries_iff.mpr hl, hflush⟩)
  exact mem_filterMap.mpr ⟨state.windowEvent order, hevent, rfl⟩

theorem StoreSound.windows_valid (h : StoreSound n s) {operations : List Operation}
    (hsupplied : ∀ operation ∈ operations, operation.Supplied)
    (hthreads : n + (operations.map Operation.threads).sum < 2 ^ 64) :
    ∀ performed ∈ (trace TaskLifecycle.perform s operations).1,
      ∀ w ∈ windowsOf performed.2, w.validate = .ok () ∧ w.Reconciles := by
  induction operations generalizing n s with
  | nil =>
    intro performed hmem
    cases hmem
  | cons _ _ ih =>
    rw [map_cons, sum_cons] at hthreads
    obtain ⟨hfirst, hrest⟩ := forall_mem_cons.mp hsupplied
    intro performed hmem
    obtain rfl | hmem := mem_cons.mp hmem
    · intro w hw
      obtain ⟨order, _, -, key, state, hstate, -, rfl⟩ := windowsOf_performed hw
      have hsound := h.states key state hstate
      have hreconciles := hsound.window_reconciles (by omega) order
      exact ⟨ThreadActivityWindow.validate_eq_ok (hsound.window_wellFormed order) hreconciles, hreconciles⟩
    · obtain ⟨_, hm, hnext⟩ := h.perform hfirst (by omega)
      exact ih hnext hrest (by omega) performed hmem

theorem storeSound_new {capacity : Nat} : StoreSound 0 (TaskLifecycleStore.new capacity) := by
  refine ⟨rfl, ?_⟩
  intro key state hl
  cases hl

/-- In a run with fewer threads than words, every window that is returned is valid and adds up. -/
theorem thread_windows_valid (capacity : Nat) (operations : List Operation)
    (hsupplied : ∀ operation ∈ operations, operation.Supplied)
    (hthreads : (operations.map Operation.threads).sum < 2 ^ 64) :
    ∀ performed ∈ (trace perform (TaskLifecycleStore.new capacity) operations).1,
      ∀ w ∈ windowsOf performed.2, w.validate = .ok () ∧ w.Reconciles :=
  storeSound_new.windows_valid hsupplied (by omega)

/-! ## More threads than words -/

def inOrder : IterationOrder := ⟨.asIs, .asIs, .asIs⟩

def busyProcess : ProcessIdentity := ⟨7, 10, 10, "app"⟩
def busyGeneration : ProcessGenerationIdentity := ⟨1, Bytes.ByteVec.fill 16 1, false⟩
def busyKey : ProcessKey := ⟨7, 10⟩

/-- A thread of this name that starts and ends. -/
def briefThread (name : String) : List Operation :=
  [.threadStart 0 paymentApi busyProcess busyGeneration ⟨11, 1, name⟩, .threadExit 7 10 11 1]

/-- So many threads of each name have started and ended. -/
structure Busy (created : String → Nat) (s : TaskLifecycleStore) (state : ProcessState) : Prop where
  capacity : s.capacity = 1
  index : s.taskIndex = ∅
  lookup : s.states.lookup busyKey = some state
  generation : state.generation = busyGeneration
  retired : state.retired = false
  tasks : state.tasks = ∅
  windowStart : state.windowStart = 0
  known : ∀ name entry, state.names.lookup name = some entry → name = "a" ∨ name = "b"
  created : ∀ name, part createdOf state.names name = created name

theorem size_le_two {names : Map String NameState}
    (h : ∀ name entry, names.lookup name = some entry → name = "a" ∨ name = "b") : size names ≤ 2 := by
  refine size_le_card (s := {"a", "b"}) fun name hname => ?_
  obtain ⟨entry, hentry⟩ := Option.isSome_iff_exists.mp (AList.lookup_isSome.mpr hname)
  simpa using h name entry hentry

/-- The key the next thread gets. -/
def nextKey (s : TaskLifecycleStore) : TaskKey := ⟨11, s.nextTaskGeneration, 1⟩

section
variable {created : String → Nat} {s : TaskLifecycleStore} {state : ProcessState}

section
variable (h : Busy created s state)
include h

theorem Busy.threadStart : (perform s (.threadStart 0 paymentApi busyProcess busyGeneration ⟨11, 1, name⟩)).2 = { s with
        states := s.states.insert busyKey (state.countStart (nextKey s) name)
        taskIndex := s.taskIndex.insert (10, 11) (busyKey, nextKey s)
        nextTaskGeneration := max (saturatingAdd s.nextTaskGeneration 1) 1 } := by
  have hensure : s.ensureState busyKey (new paymentApi busyProcess busyGeneration 0) = (true, s) := by
    rw [TaskLifecycleStore.ensureState, h.lookup]
    exact (if_pos h.generation).trans (by rw [h.retired]; rfl)
  have hstale : ¬ s.isStale (10, 11) 1 := by
    rintro ⟨indexed, hindexed, -⟩
    rw [h.index] at hindexed
    cases hindexed
  have hretire : s.retireReusedTask (10, 11) = s := by
    rw [TaskLifecycleStore.retireReusedTask, h.index]
    rfl
  have hstart : state.startTask (nextKey s) name = state.countStart (nextKey s) name := by
    have hsize := size_le_two h.known
    have hroom : state.bucketName name = (name, state) := if_pos (.inr (by unfold maxThreadNames; omega))
    rw [startTask, hroom]
  have hroom : size s.taskIndex < s.capacity := by
    rw [h.index, h.capacity]
    decide
  have hperformed : s.observeThreadStart 0 paymentApi busyProcess busyGeneration ⟨11, 1, name⟩ =
      (s.retireReusedTask (10, 11)).addTask busyKey ⟨11, 1, name⟩ :=
    TaskLifecycleStore.observeThreadStart_of_counts rfl hensure hstale
  have hsome : ¬ (s.states.lookup busyKey).isNone := by
    rw [h.lookup]
    exact Bool.false_ne_true
  have hadjust := adjust_of_lookup h.lookup (·.startTask (nextKey s) name)
  refine hperformed.trans ?_
  rw [hretire, TaskLifecycleStore.addTask, if_neg (Nat.not_le.mpr hroom)]
  refine (if_neg hsome).trans ?_
  rw [← hstart, ← hadjust]
  rfl

theorem Busy.briefThread (hname : name = "a" ∨ name = "b") (hroom : created name + 1 < 2 ^ 64) :
    ∃ state', Busy (Function.update created name (created name + 1)) (trace perform s (briefThread name)).2 state' := by
  have hbegun : (state.countStart (nextKey s) name).tasks.lookup (nextKey s) = some { name } := by
    show (state.tasks.insert (nextKey s) { name }).lookup (nextKey s) = _
    rw [AList.lookup_insert]
  let started : TaskLifecycleStore := { s with
    states := s.states.insert busyKey (state.countStart (nextKey s) name)
    taskIndex := s.taskIndex.insert (10, 11) (busyKey, nextKey s)
    nextTaskGeneration := max (saturatingAdd s.nextTaskGeneration 1) 1 }
  have hns : (nextKey s).startedAtNs ≤ 1 := UInt64.le_refl 1
  have hindex : started.taskIndex.lookup (busyKey.tgid, 11) = some (busyKey, nextKey s) := AList.lookup_insert _
  have hstate : started.states.lookup busyKey = some (state.countStart (nextKey s) name) := AList.lookup_insert _
  have hended := TaskLifecycleStore.observeThreadExit_of_task hindex hns hstate hbegun
  have hrun : (trace perform s (TaskLifecycle.briefThread name)).2 =
      started.observeThreadExit busyKey.cgroupId busyKey.tgid 11 1 := by
    show (perform (perform s _).2 (.threadExit 7 10 11 1)).2 = _
    rw [h.threadStart]
    rfl
  have hnames : ({ state.countStart (nextKey s) name with
      tasks := (state.countStart (nextKey s) name).tasks.erase (nextKey s) }.countExit name).names =
      (state.names.insert name { state.nameState name with
        created := saturatingAdd (state.nameState name).created 1
        active := saturatingAdd (state.nameState name).active 1 }).insert name
      { created := saturatingAdd (state.nameState name).created 1
        exited := saturatingAdd (state.nameState name).exited 1
        active := saturatingSub (saturatingAdd (state.nameState name).active 1) 1 } :=
    adjust_of_lookup (AList.lookup_insert _) _
  rw [hrun, hended]
  refine ⟨_, h.capacity, ?_, AList.lookup_insert _, h.generation, h.retired, ?_, h.windowStart, ?_, ?_⟩
  · show (s.taskIndex.insert (10, 11) (busyKey, nextKey s)).erase (10, 11) = ∅
    rw [erase_insert, h.index]
    rfl
  · show (state.tasks.insert (nextKey s) { name }).erase (nextKey s) = ∅
    rw [erase_insert, h.tasks]
    rfl
  · intro name' entry' hl
    rw [hnames] at hl
    obtain ⟨rfl, -⟩ | ⟨hother, hl⟩ := lookup_insert_some hl
    · exact hname
    · exact h.known name' entry' ((lookup_insert_some hl).resolve_left fun hsame => hother hsame.1).2
  · intro name'
    rw [hnames, part_insert, part_insert, Function.update_apply]
    by_cases hsame : name' = name
    · rw [if_pos hsame, if_pos hsame]
      have hbefore := h.created name
      rw [← part_nameState (fun _ => rfl)] at hbefore
      simp only [createdOf] at hbefore ⊢
      rw [toNat_succ (by omega), hbefore]
    · rw [if_neg hsame, if_neg hsame, if_neg hsame]
      exact h.created name'

theorem Busy.briefThreads (hname : name = "a" ∨ name = "b") (n : Nat) (hroom : created name + n < 2 ^ 64) :
    ∃ state', Busy (Function.update created name (created name + n))
      (trace perform s (replicate n (TaskLifecycle.briefThread name)).flatten).2 state' := by
  induction n generalizing created s state with
  | zero =>
    refine ⟨state, ?_⟩
    rw [Nat.add_zero, Function.update_eq_self]
    exact h
  | succ n ih =>
    obtain ⟨_, h'⟩ := h.briefThread hname (by omega)
    have hnext := ih h' (by rw [Function.update_self]; omega)
    rwa [Function.update_self, Function.update_idem, Nat.add_assoc, Nat.add_comm 1 n] at hnext

/-- The names of a busy process say more than a word can hold. -/
theorem Busy.window_invalid (hsum : 2 ^ 64 ≤ created "a" + created "b")
    (order : IterationOrder) : (state.window order).validate ≠ .ok () := by
  intro hvalid
  have hlt := ThreadActivityWindow.created_of_validate hvalid
  have htotal : (((state.window order).names).map (·.created.toNat)).sum = total createdOf state.names :=
    sum_aggregates state fun _ _ => rfl
  have hne : "b" ≠ "a" := by decide
  have hparts := part_add_part_le_total createdOf state.names hne
  rw [h.created, h.created] at hparts
  omega

end

end

/-- A process found without threads, then `n` short threads of one name and `m` of another, and the
end of the minute. -/
def shortThreads (n m : Nat) : List Operation :=
  .bootstrap 0 paymentApi busyProcess busyGeneration (some []) ::
    ((replicate n (briefThread "a")).flatten ++ (replicate m (briefThread "b")).flatten ++
      [.flushDue inOrder minute])

theorem shortThreads_supplied {m : Nat} : ∀ operation ∈ shortThreads n m, operation.Supplied := by
  have hprocess : Identified busyProcess busyGeneration := ⟨by decide, by decide, by decide, rfl⟩
  have hbrief : ∀ name, validName name → ∀ k, ∀ operation ∈ (replicate k (briefThread name)).flatten,
      operation.Supplied := by
    intro name hname k operation hmem
    obtain ⟨_, hpair, hmem⟩ := mem_flatten.mp hmem
    rw [eq_of_mem_replicate hpair] at hmem
    simp only [briefThread, mem_cons, not_mem_nil, or_false] at hmem
    obtain rfl | rfl := hmem
    · exact ⟨hprocess, hname⟩
    · trivial
  intro operation hmem
  simp only [shortThreads, mem_cons, mem_append, not_mem_nil, or_false] at hmem
  obtain rfl | (hmem | hmem) | rfl := hmem
  · exact hprocess
  · exact hbrief "a" (by decide) n operation hmem
  · exact hbrief "b" (by decide) m operation hmem
  · trivial

theorem shortThreads_invalid {m : Nat} (hn : n < 2 ^ 64) (hm : m < 2 ^ 64) (hsum : 2 ^ 64 ≤ n + m) :
    ∃ performed ∈ (trace perform (TaskLifecycleStore.new 1) (shortThreads n m)).1,
      ∃ w ∈ windowsOf performed.2, w.validate ≠ .ok () := by
  have hfound : ∃ state, Busy (fun _ => 0)
      (perform (TaskLifecycleStore.new 1) (.bootstrap 0 paymentApi busyProcess busyGeneration (some []))).2 state := by
    refine ⟨_, rfl, rfl, rfl, rfl, rfl, rfl, rfl, ?_, fun _ => rfl⟩
    intro name entry hl
    cases hl
  obtain ⟨_, hfound⟩ := hfound
  obtain ⟨_, hmiddle⟩ := hfound.briefThreads (.inl rfl) n (by omega)
  obtain ⟨last, hlast⟩ := hmiddle.briefThreads (.inr rfl) m (by simpa using hm)
  have hboth := hlast.window_invalid (by simpa using hsum) inOrder
  have hdue : last.isDue minute := by
    show last.windowStart + minute ≤ minute
    rw [hlast.windowStart, zero_add]
  have hwindow : last.window inOrder ∈ windowsOf (perform _ (.flushDue inOrder minute)).1 :=
    window_mem_flushDue hlast.lookup hdue
  refine ⟨(.flushDue inOrder minute, (perform _ (.flushDue inOrder minute)).1), ?_, _, hwindow, hboth⟩
  rw [shortThreads, trace, trace_append_fst, trace_append]
  exact mem_cons_of_mem _ mem_concat_self

/-- Two threads of one name and one of another: the flush returns a window, and it is valid. -/
theorem thread_windows_valid_shortThreads : ((shortThreads 2 1).map Operation.threads).sum < 2 ^ 64 ∧
      (∃ performed ∈ (trace perform (TaskLifecycleStore.new 1) (shortThreads 2 1)).1, windowsOf performed.2 ≠ []) ∧
      ∀ performed ∈ (trace perform (TaskLifecycleStore.new 1) (shortThreads 2 1)).1,
        ∀ w ∈ windowsOf performed.2, w.validate = .ok () ∧ w.Reconciles := by
  have hthreads : ((shortThreads 2 1).map Operation.threads).sum < 2 ^ 64 := by decide
  have hsome : ∃ performed ∈ (trace perform (TaskLifecycleStore.new 1) (shortThreads 2 1)).1,
      windowsOf performed.2 ≠ [] := by decide +kernel
  exact ⟨hthreads, hsome, thread_windows_valid 1 (shortThreads 2 1) shortThreads_supplied hthreads⟩

/-- Two names with half of all words each: their sum is no word. -/
theorem saturated_window_invalid : (∀ operation ∈ shortThreads (2 ^ 63) (2 ^ 63), operation.Supplied) ∧
      ∃ performed ∈ (trace perform (TaskLifecycleStore.new 1) (shortThreads (2 ^ 63) (2 ^ 63))).1,
        ∃ w ∈ windowsOf performed.2, w.validate ≠ .ok () :=
  ⟨shortThreads_supplied, shortThreads_invalid (by omega) (by omega) (by omega)⟩

end Okoscope.Agent.TaskLifecycle
