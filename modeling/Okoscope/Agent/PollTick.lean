import Okoscope.Agent.Emission
import Okoscope.Lib.Slots

/-!
# Poll ticks

Every ten milliseconds the agent drains its rings in a fixed order: sockets,
then the main ring with the executions, then created tasks, then exits. Which
records share a tick is up to the scheduler. The correlation of a process that
starts, executes once and exits depends on it.
-/
namespace Okoscope.Agent.PollTick

open Lib Lib.Run EventModel
open KernelRecords ProcessRuntime Emission
open ProcessGenerationStore List

/-- What the rings hold when a tick drains them. -/
structure Tick where
  items : Ring → List (Surroundings × List UInt8)

/-- The records of one ring, in the order they are read. -/
def Tick.read (tick : Tick) (ring : Ring) : List (Surroundings × Record) :=
  (tick.items ring).filterMap fun item => (readRecord ring item.2).map fun record => (item.1, record)

/-- The records of a tick, in the order in which the loop drains the rings. -/
def Tick.records (tick : Tick) : List (Surroundings × Record) :=
  tick.read .inbound ++ tick.read .events ++ tick.read .creations ++ tick.read .exits

def pollRecords (ticks : List Tick) : List (Surroundings × Record) := ticks.flatMap Tick.records

/-- The process whose generation a record reads or writes. -/
def generationKey : Record → Option ProcessKey
  | .event kernel =>
    if kernel.eventKind = eventKindExec then some ⟨kernel.cgroupId, tgidOf kernel.pidTgid⟩ else none
  | .inbound _ => none
  | .creation decoded => some ⟨decoded.kernel.cgroupId, decoded.kernel.childTgid⟩
  | .exit decoded =>
    if pidOf decoded.kernel.pidTgid = tgidOf decoded.kernel.pidTgid then
      some ⟨decoded.kernel.cgroupId, tgidOf decoded.kernel.pidTgid⟩
    else none

def touches (key : ProcessKey) (input : Surroundings × Record) : Bool := generationKey input.2 = some key

/-- Every record finds the store below its capacity. -/
def BelowCapacity (architecture : Architecture) : ProcessGenerationStore → List (Surroundings × Record) → Prop
  | _, [] => True
  | s, input :: inputs =>
    s.HasRoom ∧ ∀ output t, handle architecture s input = .ok (output, t) → BelowCapacity architecture t inputs

/-! ## Lifecycle events of a process -/

/-- The generation of a start, an execution or an exit. -/
def lifecycleGeneration : EventPayload → Option (Option ProcessGenerationIdentity)
  | .processStart start => some (some start.generation)
  | .processExec exec => some exec.generation
  | .processExit exit => some exit.generation
  | _ => none

/-- The event is a start, an execution or an exit of the process. -/
def IsLifecycleOf (key : ProcessKey) (event : RuntimeEvent) : Prop :=
  event.process.cgroupId = key.cgroupId ∧ event.process.tgid = key.tgid ∧
    lifecycleGeneration event.payload ≠ none

/-- The start, the execution and the exit of the process carry one generation, and the
exit names the execution. -/
structure Correlated (key : ProcessKey) (execId : Uuid) (events : List RuntimeEvent)
    (generation : ProcessGenerationIdentity) : Prop where
  sameGeneration : ∀ e ∈ events, IsLifecycleOf key e → lifecycleGeneration e.payload = some (some generation)
  start : ∃ e ∈ events, IsLifecycleOf key e ∧ ∃ start, e.payload = .processStart start
  execution : ∃ e ∈ events, IsLifecycleOf key e ∧ e.id = execId ∧ ∃ exec, e.payload = .processExec exec
  exit : ∃ e ∈ events, IsLifecycleOf key e ∧ ∃ exit executable, e.payload = .processExit exit ∧
    exit.correlation = .observed generation.generation execId executable

/-- One process in a run of the loop: its creation, its only execution and its exit, and
the ticks in which they are read. No other record touches its generation. -/
structure Lifetime (key : ProcessKey) (ticks : List Tick) where
  creationEnv : Surroundings
  creation : DecodedTaskCreation
  creationTick : Nat
  execEnv : Surroundings
  exec : KernelEvent
  execTick : Nat
  exitEnv : Surroundings
  exit : DecodedExitEvent
  exitTick : Nat
  leader : creation.kernel.childPid = creation.kernel.childTgid
  creationAttributed : creationEnv.attribution.isSome
  execAttributed : execEnv.attribution.isSome
  exitAttributed : exitEnv.attribution.isSome
  created_lt_executed : creation.kernel.timestampNs < exec.timestampNs
  executed_lt_exited : exec.timestampNs < exit.kernel.timestampNs
  creation_le_exec : creationTick ≤ execTick
  exec_le_exit : execTick ≤ exitTick
  exit_lt : exitTick < ticks.length
  creations : ∀ n tick, ticks[n]? = some tick → (tick.read .creations).filter (touches key) =
    if n = creationTick then [(creationEnv, .creation creation)] else []
  executions : ∀ n tick, ticks[n]? = some tick → (tick.read .events).filter (touches key) =
    if n = execTick then [(execEnv, .event exec)] else []
  exits : ∀ n tick, ticks[n]? = some tick → (tick.read .exits).filter (touches key) =
    if n = exitTick then [(exitEnv, .exit exit)] else []

/-- The agent that started with this epoch emits the start of the process: one with a parent whose name is valid. -/
def StartValid (epoch : Uuid) (creation : DecodedTaskCreation) : Prop :=
  (startOf creation ⟨1, epoch, true⟩).validate = .ok ()

/-! ## The order of the three records -/

variable {n i : Nat} {tick : Tick} {s t : ProcessGenerationStore} {input : Surroundings × Record}
variable {output : Option RuntimeEvent} {inputs : List (Surroundings × Record)}
variable {outputs : List (Option RuntimeEvent)}

section
variable {key : ProcessKey} {ticks : List Tick} (life : Lifetime key ticks)

theorem inbound_filter : (tick.read .inbound).filter (touches key) = [] := by
  rw [filter_eq_nil_iff]
  intro input hinput
  simp only [Tick.read, mem_filterMap, readRecord, Option.map_map, Option.map_eq_some_iff] at hinput
  obtain ⟨_, -, _, -, rfl⟩ := hinput
  simp [touches, generationKey]

def Lifetime.creationInput : Surroundings × Record := (life.creationEnv, .creation life.creation)
def Lifetime.execInput : Surroundings × Record := (life.execEnv, .event life.exec)
def Lifetime.exitInput : Surroundings × Record := (life.exitEnv, .exit life.exit)

theorem records_filter (h : ticks[n]? = some tick) : tick.records.filter (touches key) =
      ((if n = life.execTick then [life.execInput] else []) ++
        if n = life.creationTick then [life.creationInput] else []) ++
      if n = life.exitTick then [life.exitInput] else [] := by
  simp only [Tick.records, filter_append, inbound_filter, life.executions n tick h, life.creations n tick h,
    life.exits n tick h, nil_append]
  rfl

theorem slot_ne_nil {α : Type} {a : α} (h : (if n = i then [a] else []) ≠ []) : n = i := by
  by_contra hne
  exact h (if_neg hne)

theorem slots_le {α : Type} {a b : α} {j : Nat} (hij : i ≤ j) (m n : Nat) (hm : (if m = j then [a] else []) ≠ [])
    (hn : (if n = i then [b] else []) ≠ []) : n ≤ m := by
  rw [slot_ne_nil hm, slot_ne_nil hn]
  exact hij

/-- The creation comes first exactly when it is read in an earlier tick. -/
theorem pollRecords_filter : (pollRecords ticks).filter (touches key) =
      if life.creationTick < life.execTick then [life.creationInput, life.execInput, life.exitInput]
      else [life.execInput, life.creationInput, life.exitInput] := by
  have hce := life.creation_le_exec
  have hex := life.exec_le_exit
  have hlt := life.exit_lt
  have hslots := Slots.flatMap_eq_fill fun n tick h => records_filter life h
  have hexit : ∀ m n, (if m = life.exitTick then [life.exitInput] else []) ≠ [] →
      ((if n = life.execTick then [life.execInput] else []) ++
        if n = life.creationTick then [life.creationInput] else []) ≠ [] → n ≤ m := by
    intro m n hm hn
    rw [Ne, append_eq_nil_iff, not_and_or] at hn
    rcases hn with hn | hn
    · exact slots_le hex m n hm hn
    · exact slots_le (hce.trans hex) m n hm hn
  rw [pollRecords, filter_flatMap, hslots, Slots.fill_append hexit, Slots.fill_single hlt]
  split
  · next =>
    have hswap : (fun n => (if n = life.execTick then [life.execInput] else []) ++
        if n = life.creationTick then [life.creationInput] else []) =
        fun n => (if n = life.creationTick then [life.creationInput] else []) ++
          if n = life.execTick then [life.execInput] else [] := by
      funext n
      by_cases hn : n = life.execTick
      · rw [if_pos hn, if_neg (by omega), append_nil, nil_append]
      · rw [if_neg hn, append_nil, nil_append]
    rw [hswap, Slots.fill_append (slots_le hce), Slots.fill_single (by omega), Slots.fill_single (by omega)]
    rfl
  · rw [Slots.fill_append (slots_le (by omega)), Slots.fill_single (by omega), Slots.fill_single (by omega)]
    rfl

end

/-! ## What a record does to a process it does not touch -/

section
variable {architecture : Architecture} {key : ProcessKey}

theorem key_eq {a b : ProcessKey} (hc : a.cgroupId = b.cgroupId) (ht : a.tgid = b.tgid) : a = b := by
  cases a
  cases hc
  cases ht
  rfl

/-- A record leaves the store alone and emits no event of a lifecycle, or it changes the
entry of the process it touches and emits events of this process only. -/
theorem handle_cases (hroom : s.HasRoom) (h : handle architecture s input = .ok (output, t)) :
    (t = s ∧ ∀ e, output = some e → lifecycleGeneration e.payload = none) ∨
    ∃ key, generationKey input.2 = some key ∧ s.ChangesOnly key 2 t ∧
      ∀ e, output = some e → e.process.cgroupId = key.cgroupId ∧ e.process.tgid = key.tgid := by
  have hone : ∀ {key u}, s.ChangesOnly key 1 u → s.ChangesOnly key 2 u :=
    fun h => ⟨⟨h.grows.1, h.grows.2.trans (Nat.le_succ _)⟩, h.others⟩
  obtain ⟨env, record⟩ := input
  cases record with
  | event kernel =>
    rcases observeKernelEvent_cases env kernel with
      he | ⟨a, -, hkind, he⟩ | ⟨a, payload, -, hp, hexec, he⟩ <;> cases (congrArg Except.ok he).symm.trans h
    · exact .inl ⟨rfl, fun e he => nomatch he⟩
    · refine .inr ⟨_, if_pos hkind, changesOnly_observeExec env.order _ hroom _ _, ?_⟩
      rintro e ⟨⟩
      exact ⟨rfl, rfl⟩
    · refine .inl ⟨rfl, ?_⟩
      rintro e ⟨⟩
      rcases kernelPayload_cases hp with ⟨-, rfl⟩ | ⟨-, _, -, rfl⟩ | ⟨-, _, -, rfl⟩
      · exact absurd rfl (hexec _)
      · rfl
      · rfl
  | inbound =>
    obtain ⟨hevent, rfl⟩ := Prod.mk.inj (Except.ok.inj h)
    refine .inl ⟨rfl, ?_⟩
    rintro e rfl
    obtain ⟨_, _, -, hp, rfl⟩ := runtimeInboundEvent_eq_some hevent
    rcases inboundPayload_cases hp with ⟨_, _, _, _, -, rfl⟩ | ⟨_, _, _, _, _, _, -, rfl⟩ <;> rfl
  | creation =>
    rcases observeTaskCreation_cases with ⟨-, he⟩ | ⟨_, -, -, he⟩ | ⟨-, he⟩ <;>
      cases (congrArg Except.ok he).symm.trans h
    · exact .inl ⟨rfl, fun e he => nomatch he⟩
    · refine .inr ⟨_, rfl, hone (changesOnly_allocate env.order _ hroom), fun e he => ?_⟩
      split at he
      · cases he
        exact ⟨rfl, rfl⟩
      · cases he
    · exact .inr ⟨_, rfl, hone (changesOnly_ensureGeneration env.order _ hroom), fun e he => nomatch he⟩
  | exit =>
    rcases observeExit_cases h with ⟨rfl, rfl, -⟩ | ⟨_, _, -, hleader, hconsumed, rfl⟩
    · exact .inl ⟨rfl, fun e he => nomatch he⟩
    refine .inr ⟨_, if_pos hleader, hone (changesOnly_consumeExit env.order _ hroom hconsumed), ?_⟩
    rintro e ⟨⟩
    exact ⟨rfl, rfl⟩

/-- A record of another process keeps this one's record and emits none of its events. -/
theorem handle_untouched (hroom : s.HasRoom) (hother : touches key input = false)
    (h : handle architecture s input = .ok (output, t)) :
    t.entries.lookup key = s.entries.lookup key ∧ ∀ e, output = some e → ¬ IsLifecycleOf key e := by
  obtain ⟨rfl, hsilent⟩ | ⟨key', hkey, honly, hown⟩ := handle_cases hroom h
  · exact ⟨rfl, fun e he hl => hl.2.2 (hsilent e he)⟩
  have hne : key ≠ key' := by
    rintro rfl
    simp [touches, hkey] at hother
  refine ⟨honly.others key hne, fun e he hl => hne ?_⟩
  exact key_eq (hl.1.symm.trans (hown e he).1) (hl.2.1.symm.trans (hown e he).2)

/-- The events among the outputs of a run. -/
def emitted (outputs : List (Option RuntimeEvent)) : List RuntimeEvent := outputs.filterMap id

theorem emitted_cons {e : RuntimeEvent} : e ∈ emitted (output :: outputs) ↔ output = some e ∨ e ∈ emitted outputs := by
  cases output with
  | none => simp [emitted]
  | some => simp [emitted, eq_comm]

theorem run_untouched (hroom : BelowCapacity architecture s inputs) (hother : inputs.filter (touches key) = [])
    (h : run (handle architecture) s inputs = .ok (outputs, t)) : ∀ e ∈ emitted outputs, ¬ IsLifecycleOf key e := by
  induction inputs generalizing s outputs with
  | nil =>
    cases h
    exact fun e he => nomatch he
  | cons _ _ ih =>
    obtain ⟨_, _, _, hs, hr, rfl⟩ := run_cons_eq_ok.mp h
    rw [filter_eq_nil_iff, forall_mem_cons] at hother
    obtain ⟨-, hsilent⟩ := handle_untouched hroom.1 (by simpa using hother.1) hs
    intro e he
    rcases emitted_cons.mp he with hhead | htail
    · exact hsilent e hhead
    · exact ih (hroom.2 _ _ hs) (filter_eq_nil_iff.mpr hother.2) hr e htail

/-- The next record of the process in a run: the records before it leave its entry and
its events alone. -/
theorem run_next {rest : List (Surroundings × Record)}
    (hroom : BelowCapacity architecture s inputs) (hfilter : inputs.filter (touches key) = input :: rest)
    (h : run (handle architecture) s inputs = .ok (outputs, t)) :
    ∃ s₁ output s₂ inputs' outputs', s₁.HasRoom ∧ (∀ epoch, s.Sound epoch (fun _ => True) → s₁.Sound epoch fun _ => True) ∧
      s₁.entries.lookup key = s.entries.lookup key ∧
      handle architecture s₁ input = .ok (output, s₂) ∧ BelowCapacity architecture s₂ inputs' ∧
      inputs'.filter (touches key) = rest ∧ run (handle architecture) s₂ inputs' = .ok (outputs', t) ∧
      ∀ e, IsLifecycleOf key e → (e ∈ emitted outputs ↔ output = some e ∨ e ∈ emitted outputs') := by
  induction inputs generalizing s outputs with
  | nil => cases hfilter
  | cons head inputs ih =>
    obtain ⟨output, s', outputs', hs, hr, rfl⟩ := run_cons_eq_ok.mp h
    by_cases htouches : touches key head
    · rw [filter_cons_of_pos htouches] at hfilter
      obtain ⟨rfl, hrest⟩ := List.cons.inj hfilter
      exact ⟨s, output, s', inputs, outputs', hroom.1, fun _ h => h, rfl, hs, hroom.2 _ _ hs, hrest, hr,
        fun e _ => emitted_cons⟩
    · rw [filter_cons_of_neg htouches] at hfilter
      obtain ⟨hlookup, hsilent⟩ := handle_untouched hroom.1 (by simpa using htouches) hs
      obtain ⟨s₁, output', s₂, inputs', rest', hroom₁, hsound, hlookup₁, hrest⟩ := ih (hroom.2 _ _ hs) hfilter hr
      obtain ⟨hhandle, hbelow, hf, hrun, hevents⟩ := hrest
      refine ⟨s₁, output', s₂, inputs', rest', hroom₁, fun epoch h => hsound epoch (handle_sound h ?_ hs),
        hlookup₁.trans hlookup, hhandle, hbelow, hf, hrun, ?_⟩
      · obtain ⟨_, _ | _ | _ | _⟩ := head <;> simp [RecordValid]
      intro e he
      rw [emitted_cons, hevents e he]
      exact or_iff_right fun hhead => hsilent e hhead he

end

/-! ## The three records of a lifetime -/

section
variable {architecture : Architecture} {key : ProcessKey} {ticks : List Tick} (life : Lifetime key ticks)

theorem mem_pollRecords_touches (h : input ∈ [life.creationInput, life.execInput, life.exitInput]) :
    touches key input := by
  have hfilter := pollRecords_filter life
  have hmem : input ∈ (pollRecords ticks).filter (touches key) := by
    rw [hfilter]
    split
    · exact h
    · simp only [mem_cons, not_mem_nil, or_false] at h ⊢
      tauto
  exact of_mem_filter hmem

/-- Which number a generation has makes no difference to its start. -/
theorem startValid_iff {epoch : Uuid} {creation : DecodedTaskCreation} (hs : s.Sound epoch fun _ => True) :
    (startOf creation (s.nextIdentity true)).validate = .ok () ↔ StartValid epoch creation := by
  have hidentity : (s.nextIdentity true).validate = (⟨1, epoch, true⟩ : ProcessGenerationIdentity).validate := by
    simp [ProcessGenerationIdentity.validate, nextIdentity, hs.next, hs.epoch_eq]
  have hstart : (startOf creation (s.nextIdentity true)).validate = (startOf creation ⟨1, epoch, true⟩).validate := by
    simp only [ProcessStart.validate, startOf, hidentity]
    simp [nextIdentity]
  rw [StartValid, hstart]

/-- The creation gives the process a fresh generation without evidence, and its start is emitted if it is valid. -/
theorem handle_creation (hroom : s.HasRoom) (h : handle architecture s life.creationInput = .ok (output, t)) :
    t.entries.lookup key = some ⟨s.nextIdentity true, life.creation.kernel.timestampNs, none⟩ ∧
      (∀ e, output = some e → IsLifecycleOf key e ∧ e.payload = .processStart (startOf life.creation (s.nextIdentity true))) ∧
      (output.isSome ↔ (startOf life.creation (s.nextIdentity true)).validate = .ok ()) := by
  obtain ⟨_, ha⟩ := Option.isSome_iff_exists.mp life.creationAttributed
  rcases observeTaskCreation_cases with ⟨ha', -⟩ | ⟨_, -, -, he⟩ | ⟨hthread, -⟩
  · cases ha'.symm.trans ha
  · cases (congrArg Except.ok he).symm.trans h
    have hkey := mem_pollRecords_touches life mem_cons_self
    simp only [touches, generationKey, Lifetime.creationInput, decide_eq_true_eq, Option.some.injEq] at hkey
    refine ⟨?_, fun e he => ?_, ?_⟩
    · rw [hkey, observeStart, allocate_entries life.creationEnv.order _ hroom, AList.lookup_insert]
    · obtain ⟨-, he⟩ := Option.ite_none_right_eq_some.mp he
      cases he
      exact ⟨⟨congrArg ProcessKey.cgroupId hkey, congrArg ProcessKey.tgid hkey, by simp [eventOf, lifecycleGeneration]⟩, rfl⟩
    · rw [Option.isSome_ite]
      rfl
  · exact absurd life.leader hthread

/-- The event of the execution, under the generation the store answered. -/
theorem handle_exec (h : handle architecture s life.execInput = .ok (output, t)) :
    let observed := s.observeExec life.execEnv.order key life.exec.timestampNs life.execEnv.eventId
      (executableOf life.execEnv life.exec)
    t = observed.2 ∧ ∃ e, output = some e ∧ IsLifecycleOf key e ∧ e.id = life.execEnv.eventId ∧
      e.payload = .processExec ⟨executableOf life.execEnv life.exec, none, some observed.1⟩ := by
  obtain ⟨_, ha⟩ := Option.isSome_iff_exists.mp life.execAttributed
  obtain ⟨hkind, hkey⟩ : life.exec.eventKind = eventKindExec ∧
      (⟨life.exec.cgroupId, tgidOf life.exec.pidTgid⟩ : ProcessKey) = key := by
    simpa [touches, generationKey, Lifetime.execInput] using mem_pollRecords_touches life (mem_cons_of_mem _ mem_cons_self)
  rcases observeKernelEvent_cases life.execEnv life.exec with
    he | ⟨a, -, -, he⟩ | ⟨a, payload, -, hp, hexec, he⟩
  · simp only [observeKernelEvent, runtimeEvent, kernelPayload, ha, if_pos hkind, Option.bind_eq_bind,
      Option.bind_some] at he
    cases congrArg Prod.fst he
  · cases (congrArg Except.ok he).symm.trans h
    rw [hkey]
    exact ⟨rfl, _, rfl, ⟨congrArg ProcessKey.cgroupId hkey, congrArg ProcessKey.tgid hkey, by simp [eventOf, lifecycleGeneration]⟩,
      rfl, rfl⟩
  · rcases kernelPayload_cases hp with ⟨-, rfl⟩ | ⟨hkind', -⟩ | ⟨hkind', -⟩
    · exact absurd rfl (hexec _)
    · exact absurd (hkind.symm.trans hkind') (by decide)
    · exact absurd (hkind.symm.trans hkind') (by decide)

/-- The exit of a remembered process carries its generation and its correlation. -/
theorem handle_exit {g : ProcessGeneration}
    (hlookup : s.entries.lookup key = some g) (hcreated : g.observedAtNs = life.creation.kernel.timestampNs)
    (h : handle architecture s life.exitInput = .ok (output, t)) :
    ∃ e exit correlation, output = some e ∧ IsLifecycleOf key e ∧ e.payload = .processExit exit ∧
      exit.generation = some g.identity ∧ correlate g = .ok correlation ∧ exit.correlation = correlation := by
  obtain ⟨_, ha⟩ := Option.isSome_iff_exists.mp life.exitAttributed
  have htouches := mem_pollRecords_touches life (mem_cons_of_mem _ (mem_cons_of_mem _ mem_cons_self))
  obtain ⟨hleader, hkey⟩ : pidOf life.exit.kernel.pidTgid = tgidOf life.exit.kernel.pidTgid ∧
      (⟨life.exit.kernel.cgroupId, tgidOf life.exit.kernel.pidTgid⟩ : ProcessKey) = key := by
    simpa [touches, generationKey, Lifetime.exitInput] using htouches
  rcases observeExit_cases h with ⟨-, -, hthread | ha'⟩ | ⟨_, consumed, -, -, hconsumed, rfl⟩
  · exact absurd hleader hthread
  · cases ha'.symm.trans ha
  obtain ⟨-, -, hcorrelation, hgeneration, -⟩ := exitOf_fields consumed
  have htime : ¬ g.observedAtNs > life.exit.kernel.timestampNs :=
    hcreated ▸ UInt64.not_lt.mpr (UInt64.le_of_lt (UInt64.lt_trans life.created_lt_executed life.executed_lt_exited))
  rw [hkey, consumeExit_of_lookup _ _ hlookup htime, Outcome.map_eq_ok] at hconsumed
  obtain ⟨correlation, hcorrelate, heq⟩ := hconsumed
  cases heq
  refine ⟨_, _, correlation, rfl, ⟨congrArg ProcessKey.cgroupId hkey, congrArg ProcessKey.tgid hkey, ?_⟩, rfl,
    hgeneration, hcorrelate, hcorrelation⟩
  simp [eventOf, lifecycleGeneration]

/-- Read in an earlier tick than the execution, the creation gives all three events one
generation, and the exit names the execution; all there are, if the start is valid. -/
theorem correlated_iff_of_earlier {epoch : Uuid} (hsound : s.Sound epoch fun _ => True)
    (hroom : BelowCapacity architecture s inputs)
    (hfilter : inputs.filter (touches key) = [life.creationInput, life.execInput, life.exitInput])
    (hrun : run (handle architecture) s inputs = .ok (outputs, t)) :
    (∃ generation, Correlated key life.execEnv.eventId (emitted outputs) generation) ↔
      StartValid epoch life.creation := by
  obtain ⟨s₁, o₁, _, _, _, hroom₁, hs₁, -, h₁, hb₁, hf₁, hr₁, he₁⟩ := run_next hroom hfilter hrun
  obtain ⟨_, _, _, _, _, -, -, hl₂, h₂, hb₂, hf₂, hr₂, he₂⟩ := run_next hb₁ hf₁ hr₁
  obtain ⟨_, _, _, _, _, -, -, hl₃, h₃, hb₃, hf₃, hr₃, he₃⟩ := run_next hb₂ hf₂ hr₂
  have hrest := run_untouched hb₃ hf₃ hr₃
  obtain ⟨hcreated, hstart, hemitted⟩ := handle_creation life hroom₁ h₁
  rw [← startValid_iff (hs₁ epoch hsound), ← hemitted]
  obtain ⟨rfl, e, rfl, hle, hid, hexec⟩ := handle_exec life h₂
  rw [observeExec_of_lookup _ _ (hl₂.trans hcreated)] at hexec hl₃
  rw [AList.lookup_insert] at hl₃
  obtain ⟨x, exit, _, rfl, hlx, hexit, hgeneration, hcorrelate, hcorrelation⟩ := handle_exit life hl₃ rfl h₃
  have hmem : ∀ e', IsLifecycleOf key e' → (e' ∈ emitted outputs ↔ o₁ = some e' ∨ e = e' ∨ x = e') := by
    intro e' hl
    rw [he₁ e' hl, he₂ e' hl, he₃ e' hl, Option.some.injEq, Option.some.injEq]
    tauto
  constructor
  · rintro ⟨_, hcorrelated⟩
    obtain ⟨e', hm, hl, _, hpayload⟩ := hcorrelated.start
    rcases (hmem e' hl).mp hm with hs | rfl | rfl
    · rw [hs]
      rfl
    · cases hexec.symm.trans hpayload
    · cases hexit.symm.trans hpayload
  intro hsome
  obtain ⟨e₁, hs⟩ := Option.isSome_iff_exists.mp hsome
  obtain ⟨hl₁, hpayload⟩ := hstart e₁ hs
  refine ⟨s₁.nextIdentity true, ?_, ⟨e₁, (hmem e₁ hl₁).mpr (.inl hs), hl₁, _, hpayload⟩,
    ⟨e, (hmem e hle).mpr (.inr (.inl rfl)), hle, hid, _, hexec⟩,
    ⟨x, (hmem x hlx).mpr (.inr (.inr rfl)), hlx, exit, executableOf life.execEnv life.exec, hexit, ?_⟩⟩
  · intro e' hm hl
    rcases (hmem e' hl).mp hm with hs | rfl | rfl
    · rw [(hstart e' hs).2]
      rfl
    · rw [hexec]
      rfl
    · rw [hexit, lifecycleGeneration, hgeneration]
  · rw [hcorrelation]
    exact correlate_observed rfl hcorrelate

/-- Read in the tick of the execution, the creation is handled after it: the execution and
the exit carry different generations. -/
theorem not_correlated_of_same_tick (hroom : BelowCapacity architecture s inputs)
    (habsent : s.entries.lookup key = none)
    (hfilter : inputs.filter (touches key) = [life.execInput, life.creationInput, life.exitInput])
    (hrun : run (handle architecture) s inputs = .ok (outputs, t)) :
    ¬ ∃ generation, Correlated key life.execEnv.eventId (emitted outputs) generation := by
  obtain ⟨_, _, _, _, _, hroom₁, -, hl₁, h₁, hb₁, hf₁, hr₁, he₁⟩ := run_next hroom hfilter hrun
  obtain ⟨_, _, _, _, _, hroom₂, -, -, h₂, hb₂, hf₂, hr₂, he₂⟩ := run_next hb₁ hf₁ hr₁
  obtain ⟨_, _, _, _, _, -, -, hl₃, h₃, -, -, -, he₃⟩ := run_next hb₂ hf₂ hr₂
  obtain ⟨-, e, rfl, hle, -, hexec⟩ := handle_exec life h₁
  rw [(observeExec_of_absent _ _ hroom₁ (hl₁.trans habsent) _).1] at hexec
  obtain ⟨hcreated, -⟩ := handle_creation life hroom₂ h₂
  obtain ⟨x, _, -, rfl, hlx, hexit, hgeneration, -⟩ := handle_exit life (hl₃.trans hcreated) rfl h₃
  rintro ⟨generation, hcorrelated⟩
  have hexecuted := hcorrelated.sameGeneration e ((he₁ e hle).mpr (.inl rfl)) hle
  have hexited := hcorrelated.sameGeneration x
    ((he₁ x hlx).mpr (.inr ((he₂ x hlx).mpr (.inr ((he₃ x hlx).mpr (.inl rfl)))))) hlx
  rw [hexec] at hexecuted
  rw [hexit, lifecycleGeneration, hgeneration, ← hexecuted] at hexited
  have hstart : some (some true) = some (some false) :=
    congrArg (Option.map (Option.map ProcessGenerationIdentity.startObserved)) hexited
  cases hstart

end

/-- Little-endian words, for the bytes of concrete records. -/
def leWord (width n : Nat) : List UInt8 := (Bytes.beBytes width n).reverse

def serverKey : ProcessKey := ⟨20, 10⟩

def commandField : List UInt8 := Bytes.utf8Bytes "server" ++ replicate 10 0

/-- Process 10 is created by process 1 at 100, executes at 101 and exits with status 0 at 102. -/
def serverCreation : List UInt8 :=
  leWord 8 100 ++ leWord 8 20 ++ leWord 4 10 ++ leWord 4 10 ++ leWord 4 1 ++ leWord 4 1 ++ commandField ++ commandField

def serverExec : List UInt8 :=
  leWord 8 101 ++ leWord 8 20 ++ leWord 8 (10 * 2 ^ 32 + 10) ++ replicate 8 0 ++ [eventKindExec] ++
    replicate 23 0 ++ commandField

def serverExit : List UInt8 :=
  leWord 8 102 ++ leWord 8 20 ++ leWord 8 (10 * 2 ^ 32 + 10) ++ replicate 8 0 ++ commandField

def serverCommand : Bytes.ByteVec commandLen := arrayAt commandLen commandField 0

def serverCreated : DecodedTaskCreation where
  kernel := ⟨100, 20, 10, 10, 1, 1, serverCommand, serverCommand⟩
  childCommand := "server"
  parentCommand := "server"

def serverExecuted : KernelEvent :=
  ⟨101, 20, 42949672970, 0, 0, eventKindExec, 0, 0, 0, 0, 0, Bytes.ByteVec.fill 16 0, serverCommand⟩

def serverExited : DecodedExitEvent where
  kernel := ⟨102, 20, 42949672970, 0, 0, serverCommand⟩
  termination := .exited 0

theorem decode_serverCreation : decodeTaskCreation serverCreation = .ok serverCreated := by decide +kernel
theorem decode_serverExec : decode serverExec = .ok serverExecuted := by decide +kernel
theorem decode_serverExit : decodeExit serverExit = .ok serverExited := by decide +kernel

noncomputable def serverSurroundings : Surroundings where
  attribution := some paymentApi
  eventId := Bytes.ByteVec.fill 16 7
  now := 0
  exe := some "/usr/bin/server"
  addresses := fun _ _ => []
  contextNow := 0
  order := default

/-- The creation is read in tick `i`, the execution in tick `j` and the exit in tick `l`. -/
noncomputable def serverTick (i j l n : Nat) : Tick where
  items
    | .inbound => []
    | .events => if n = j then [(serverSurroundings, serverExec)] else []
    | .creations => if n = i then [(serverSurroundings, serverCreation)] else []
    | .exits => if n = l then [(serverSurroundings, serverExit)] else []

noncomputable def serverTicks (i j l : Nat) : List Tick := (List.range (l + 1)).map (serverTick i j l)

theorem read_filter {key : ProcessKey} {ring : Ring} {env : Surroundings} {bytes : List UInt8}
    {record : Record} (hitems : tick.items ring = if n = i then [(env, bytes)] else [])
    (hread : readRecord ring bytes = some record) (htouches : touches key (env, record)) :
    (tick.read ring).filter (touches key) = if n = i then [(env, record)] else [] := by
  rw [Tick.read, hitems]
  split
  · simp [hread, htouches]
  · rfl

theorem serverTicks_get {j l : Nat} (h : (serverTicks i j l)[n]? = some tick) : tick = serverTick i j l n := by
  simp only [serverTicks, getElem?_map, Option.map_eq_some_iff] at h
  obtain ⟨_, hm, rfl⟩ := h
  rw [(List.getElem?_eq_some_iff.mp hm).2.symm, List.getElem_range]

noncomputable def serverLife {i j l : Nat} (hij : i ≤ j) (hjl : j ≤ l) :
    Lifetime serverKey (serverTicks i j l) where
  creationEnv := serverSurroundings
  creation := serverCreated
  creationTick := i
  execEnv := serverSurroundings
  exec := serverExecuted
  execTick := j
  exitEnv := serverSurroundings
  exit := serverExited
  exitTick := l
  leader := rfl
  creationAttributed := rfl
  execAttributed := rfl
  exitAttributed := rfl
  created_lt_executed := by decide
  executed_lt_exited := by decide
  creation_le_exec := hij
  exec_le_exit := hjl
  exit_lt := by simp [serverTicks]
  creations := fun n tick h => read_filter (congrArg (Tick.items · .creations) (serverTicks_get h))
    (by rw [readRecord, decode_serverCreation]; rfl) (by decide)
  executions := fun n tick h => read_filter (congrArg (Tick.items · .events) (serverTicks_get h))
    (by rw [readRecord, decode_serverExec]; rfl) (by decide)
  exits := fun n tick h => read_filter (congrArg (Tick.items · .exits) (serverTicks_get h))
    (by rw [readRecord, decode_serverExit]; rfl) (by decide)

variable {architecture : Architecture}

theorem handle_grows (hroom : s.HasRoom) (h : handle architecture s input = .ok (output, t)) : s.Grows 2 t := by
  obtain ⟨rfl, -⟩ | ⟨_, -, honly, -⟩ := handle_cases hroom h
  · exact ⟨rfl, Nat.le_add_right _ _⟩
  · exact honly.grows

theorem belowCapacity_of_length (h : s.entries.entries.length + 2 * inputs.length ≤ s.capacity) :
    BelowCapacity architecture s inputs := by
  induction inputs generalizing s with
  | nil => trivial
  | cons _ _ ih =>
    rw [length_cons] at h
    have hroom : s.HasRoom := by
      unfold ProcessGenerationStore.HasRoom
      omega
    refine ⟨hroom, fun output t ht => ih ?_⟩
    obtain ⟨hcapacity, hlength⟩ := handle_grows hroom ht
    omega

theorem serverTick_records {j l : Nat} : (serverTick i j l n).records =
      ((if n = j then [(serverSurroundings, Record.event serverExecuted)] else []) ++
        if n = i then [(serverSurroundings, Record.creation serverCreated)] else []) ++
      if n = l then [(serverSurroundings, Record.exit serverExited)] else [] := by
  have hexec : readRecord .events serverExec = some (.event serverExecuted) := by
    rfl
  have hcreation : readRecord .creations serverCreation = some (.creation serverCreated) := by
    rfl
  have hexit : readRecord .exits serverExit = some (.exit serverExited) := by
    rfl
  simp only [Tick.records, Tick.read, serverTick]
  split <;> split <;> split <;> simp [hexec, hcreation, hexit]

theorem serverTicks_valid {j l : Nat} : ∀ input ∈ pollRecords (serverTicks i j l), RecordValid (validText ·) input := by
  intro input hinput
  simp only [pollRecords, serverTicks, mem_flatMap, mem_map] at hinput
  obtain ⟨_, ⟨n, -, rfl⟩, hmem⟩ := hinput
  simp only [serverTick_records, mem_append, mem_ite_nil_right, mem_singleton] at hmem
  obtain (⟨-, rfl⟩ | ⟨-, rfl⟩) | ⟨-, rfl⟩ := hmem
  · intro _
    decide
  · trivial
  · trivial

def serverEpoch : Uuid := Bytes.ByteVec.fill 16 1

end Okoscope.Agent.PollTick
