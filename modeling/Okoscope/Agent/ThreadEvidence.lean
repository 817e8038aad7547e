import Okoscope.Agent.TaskChanges
import Okoscope.Agent.ThreadWindows

/-!
# What becomes of the threads that are counted

A ledger follows a run of the store: what every operation counts, by generation and window, and
the windows that the flushes report. As long as no operation discards a state with counts that
are not reported yet, the reported windows and the states together hold what was counted, and a
flush a minute after the last operation leaves nothing in the states.
-/
namespace Okoscope.Agent.TaskLifecycle

open Lib Lib.FiniteMap Lib.Run Lib.Bytes EventModel
open ProcessRuntime (ProcessKey)
open DateTime List

/-! ## Counts by window -/

/-- A window of a generation of a process. -/
structure Slot where
  key : ProcessKey
  generation : ProcessGenerationIdentity
  start : DateTime
  deriving DecidableEq

def slotOf (w : ThreadActivityWindow) : Slot := ⟨keyOf w.process, w.generation, w.windowStartedAt⟩

inductive Counter where
  | created
  | exited
  deriving DecidableEq

def Counter.inState (state : ProcessState) : Counter → Nat
  | .created => state.created.toNat
  | .exited => state.exited.toNat

def Counter.inWindow (w : ThreadActivityWindow) : Counter → Nat
  | .created => w.created.toNat
  | .exited => w.exited.toNat

/-- What a state has counted for a window and not reported yet. -/
def pendingIn (c : Counter) (slot : Slot) : Option ProcessState → Nat
  | none => 0
  | some state => if state.generation = slot.generation ∧ state.windowStart = slot.start then c.inState state else 0

def pending (c : Counter) (s : TaskLifecycleStore) (slot : Slot) : Nat := pendingIn c slot (s.states.lookup slot.key)

/-- What an operation counts for a window: what it adds to the counter of the state. A flush
counts nothing, it moves what is counted into windows. -/
def counts (c : Counter) (s : TaskLifecycleStore) (operation : Operation) (slot : Slot) : Nat :=
  if operation.isFlush then 0 else pending c (perform s operation).2 slot - pending c s slot

/-! ## Runs -/

/-- An operation and when it is performed. -/
structure Timed where
  time : DateTime
  operation : Operation

/-- The time that the operation is given, if it is given one, is the time of the clock. -/
def Operation.TakenAt (time : DateTime) : Operation → Prop
  | .processStart _ observedAt _ _ _ => observedAt = time
  | .bootstrap observedAt _ _ _ _ => observedAt = time
  | .threadStart observedAt _ _ _ _ => observedAt = time
  | .flushDue _ now => now = time
  | _ => True

instance (time : DateTime) (operation : Operation) : Decidable (operation.TakenAt time) :=
  match operation with
  | .processStart _ _ _ _ _ | .bootstrap _ _ _ _ _ | .threadStart _ _ _ _ _ | .flushDue _ _ =>
    inferInstanceAs (Decidable (_ = _))
  | .rename _ _ _ _ | .threadExit _ _ _ _ | .processExit _ _ => inferInstanceAs (Decidable True)

variable {operation : Operation}

theorem eq_flushDue (hflush : operation.isFlush) : ∃ order now, operation = .flushDue order now := by
  cases operation with
  | flushDue order now => exact ⟨order, now, rfl⟩
  | _ => cases hflush

/-- A run by a clock that does not go back, between 1970 and 2262. -/
structure WellTimed (run : List Timed) : Prop where
  taken : ∀ t ∈ run, t.operation.TakenAt t.time
  ordered : run.Pairwise fun a b => a.time ≤ b.time
  epoch : ∀ t ∈ run, 0 ≤ t.time ∧ t.time < 2 ^ 63

structure Ledger where
  store : TaskLifecycleStore
  clock : DateTime
  counted : Counter → Slot → Nat
  windows : List ThreadActivityWindow

def Ledger.new (capacity : Nat) : Ledger := ⟨TaskLifecycleStore.new capacity, 0, fun _ _ => 0, []⟩

def Ledger.step (l : Ledger) (t : Timed) : List RuntimeEvent × Ledger :=
  ((perform l.store t.operation).1, {
    store := (perform l.store t.operation).2
    clock := t.time
    counted := fun c slot => l.counted c slot + counts c l.store t.operation slot
    windows := l.windows ++ windowsOf (perform l.store t.operation).1 })

/-- The ledger after a run of a new store. -/
def ledger (capacity : Nat) (run : List Timed) : Ledger := (trace Ledger.step (.new capacity) run).2

/-- A state that the operation discards has counted nothing since its last window: no process
starts in its place and no thread of another generation does. -/
def KeepsCounts (s : TaskLifecycleStore) : Operation → Prop
  | .processStart _ _ _ process _ =>
    ∀ state ∈ s.states.lookup (keyOf process), state.created = 0 ∧ state.exited = 0
  | .threadStart _ _ process generation _ =>
    ∀ state ∈ s.states.lookup (keyOf process), state.generation ≠ generation →
      state.created = 0 ∧ state.exited = 0
  | _ => True

instance (s : TaskLifecycleStore) (operation : Operation) : Decidable (KeepsCounts s operation) :=
  match operation with
  | .processStart _ _ _ _ _ => inferInstanceAs (Decidable (∀ state ∈ _, _))
  | .threadStart _ _ _ _ _ => inferInstanceAs (Decidable (∀ state ∈ _, _))
  | .bootstrap _ _ _ _ _ | .rename _ _ _ _ | .threadExit _ _ _ _ | .processExit _ _ | .flushDue _ _ =>
    inferInstanceAs (Decidable True)

/-- Everything counted is reported, once, and nothing else is. -/
structure Accounted (l : Ledger) : Prop where
  reported : ∀ c slot, 0 < l.counted c slot → ∃ w ∈ l.windows, slotOf w = slot
  once : (l.windows.map slotOf).Nodup
  exact : ∀ w ∈ l.windows, ∀ c : Counter, c.inWindow w = l.counted c (slotOf w)
  disjoint : l.windows.Pairwise fun w w' => keyOf w.process = keyOf w'.process → w.windowEndedAt ≤ w'.windowStartedAt
  ids : l.windows.Pairwise fun w w' => keyOf w.process = keyOf w'.process → w.generation = w'.generation → w.id ≠ w'.id

/-! ## One operation -/

variable {s : TaskLifecycleStore} {key : ProcessKey} {state b : ProcessState} {slot : Slot}
variable {w : ThreadActivityWindow}

theorem KeepsCounts.discarded (h : KeepsCounts s operation)
    (hl : s.states.lookup key = some state) (hd : operation.Discards key state) (c : Counter) :
    c.inState state = 0 := by
  have hzero : state.created = 0 ∧ state.exited = 0 := by
    cases operation with
    | processStart =>
      cases hd
      exact h state hl
    | threadStart =>
      obtain ⟨rfl, hne⟩ := hd
      exact h state hl hne
    | _ => cases hd
  cases c with
  | created => exact congrArg UInt64.toNat hzero.1
  | exited => exact congrArg UInt64.toNat hzero.2

theorem Continues.inState_le {a : ProcessState} (h : Continues a b) (c : Counter) : c.inState a ≤ c.inState b := by
  cases c with
  | created => exact h.created
  | exited => exact h.exited

variable {c : Counter}

theorem pendingIn_le : pendingIn c slot (some state) ≤ c.inState state := by
  unfold pendingIn
  dsimp only
  split
  · exact le_rfl
  · exact Nat.zero_le _

/-- What is pending only grows, unless counts are discarded. -/
theorem pending_mono (hflush : operation.isFlush = false) (hkeeps : KeepsCounts s operation) :
    pending c s slot ≤ pending c (perform s operation).2 slot := by
  unfold pending
  have hchange := change_perform s hflush slot.key
  have hdiscard : ∀ state, s.states.lookup slot.key = some state → operation.Discards slot.key state →
      pendingIn c slot (some state) = 0 := fun state hl hd =>
    Nat.le_zero.mp (pendingIn_le.trans (hkeeps.discarded hl hd c).le)
  generalize s.states.lookup slot.key = before at hchange hdiscard
  generalize (perform s operation).2.states.lookup slot.key = after at hchange
  cases hchange with
  | absent => exact le_rfl
  | kept hab =>
    unfold pendingIn
    dsimp only
    rw [hab.generation, hab.windowStart]
    split
    · exact hab.inState_le c
    · exact le_rfl
  | created => exact Nat.zero_le _
  | replaced hd =>
    rw [hdiscard _ rfl hd]
    exact Nat.zero_le _
  | discarded hd =>
    rw [hdiscard _ rfl hd]
    exact Nat.zero_le _

theorem minute_dvd_minuteStart {time : DateTime} : minute ∣ minuteStart time := Int.dvd_self_sub_emod

theorem minuteStart_le {time : DateTime} : minuteStart time ≤ time :=
  Int.sub_le_self time (Int.emod_nonneg time (show minute ≠ 0 by decide))

variable {time : DateTime}

variable {start : DateTime}

theorem le_minuteStart (hdvd : minute ∣ start) (hle : start ≤ time) : start ≤ minuteStart time := by
  obtain ⟨k, rfl⟩ := hdvd
  have hpos : (0 : Int) < minute := by decide
  have hk : k ≤ time / minute := by
    rw [Int.le_ediv_iff_mul_le hpos, Int.mul_comm]
    exact hle
  have hstart : minuteStart time = minute * (time / minute) := by
    rw [minuteStart, Int.emod_def]
    exact sub_sub_cancel time _
  rw [hstart]
  exact Int.mul_le_mul_of_nonneg_left hk hpos.le

/-- What is so of the state of a key. -/
structure Placed (clock : DateTime) (key : ProcessKey) (state : ProcessState) : Prop where
  key : keyOf state.process = key
  full : minute ∣ state.windowStart
  epoch : 0 ≤ state.windowStart
  past : state.windowStart ≤ clock

variable {clock : DateTime}

theorem Placed.later {clock' : DateTime} (h : Placed clock key state)
    (hle : clock ≤ clock') : Placed clock' key state :=
  { h with past := h.past.trans hle }

theorem Placed.continues {a : ProcessState} (h : Placed clock key a) (hab : Continues a b) : Placed clock key b where
  key := hab.process ▸ h.key
  full := hab.windowStart ▸ h.full
  epoch := hab.windowStart ▸ h.epoch
  past := hab.windowStart ▸ h.past

variable {fresh : ProcessState}

section
variable (h : operation.Creates key fresh)
include h

theorem Operation.Creates.keyOf_process : keyOf fresh.process = key := by
  cases h with
  | processStart _ _ _ _ _ hkey _ hfresh => exact hfresh ▸ hkey.symm
  | threadStart _ _ _ _ _ hkey hfresh => exact hfresh ▸ hkey.symm
  | bootstrap _ _ _ _ _ hkey hprocess => exact hprocess ▸ hkey.symm

/-- A state is made in the window of its time. -/
theorem Operation.Creates.starts (htaken : operation.TakenAt time) : fresh.windowStart = minuteStart time := by
  cases h with
  | processStart _ _ _ _ _ _ _ hfresh =>
    cases htaken
    exact hfresh ▸ rfl
  | threadStart _ _ _ _ _ _ hfresh =>
    cases htaken
    exact hfresh ▸ rfl
  | bootstrap _ _ _ _ _ _ _ _ hwindow =>
    cases htaken
    exact hwindow

theorem Operation.Creates.placed (htaken : operation.TakenAt time) (hepoch : 0 ≤ time) : Placed time key fresh := by
  have hstart := h.starts htaken
  have hzero : (0 : Int) ≤ minuteStart time := le_minuteStart (Int.dvd_zero _) hepoch
  exact {
    key := h.keyOf_process
    full := hstart ▸ minute_dvd_minuteStart
    epoch := hstart ▸ hzero
    past := hstart ▸ minuteStart_le }

end

/-- After an operation a state is one that was there and went on, or one made in place of none or of one
that is discarded. -/
theorem Change.origin {before : Option ProcessState} (h : Change key operation before (some b)) :
    (∃ a, before = some a ∧ Continues a b) ∨
      ∃ fresh, operation.Creates key fresh ∧ Continues fresh b ∧ ∀ a ∈ before, operation.Discards key a := by
  cases h with
  | kept hab => exact .inl ⟨_, rfl, hab⟩
  | created hfresh hab => exact .inr ⟨_, hfresh, hab, nofun⟩
  | replaced hd hfresh hab => exact .inr ⟨_, hfresh, hab, fun _ ha => Option.some.inj ha ▸ hd⟩

/-! ## The ledger -/

/-- What is so of a reported window. -/
structure Over (clock : DateTime) (w : ThreadActivityWindow) : Prop where
  length : w.windowEndedAt = w.windowStartedAt + minute
  full : minute ∣ w.windowStartedAt
  epoch : 0 ≤ w.windowStartedAt
  past : w.windowEndedAt ≤ clock

theorem Over.starts_before (h : Over clock w) : w.windowStartedAt < w.windowEndedAt := by
  rw [h.length]
  exact lt_add_of_pos_right _ (by decide)

theorem Over.full_end (h : Over clock w) : minute ∣ w.windowEndedAt := by
  rw [h.length]
  exact Int.dvd_add h.full (Int.dvd_refl _)

/-- What is counted is reported or pending. A state in a window that starts after `bound`
has counted nothing. -/
structure Ledger.Sound (bound : DateTime) (l : Ledger) : Prop where
  exact : ∀ w ∈ l.windows, ∀ c : Counter, l.counted c (slotOf w) = c.inWindow w
  rest : ∀ slot, (∀ w ∈ l.windows, slotOf w ≠ slot) → ∀ c, l.counted c slot = pending c l.store slot
  ended : ∀ w ∈ l.windows, Over l.clock w
  placed : ∀ key state, l.store.states.lookup key = some state → Placed l.clock key state
  after : ∀ w ∈ l.windows, ∀ state, l.store.states.lookup (keyOf w.process) = some state →
    w.windowEndedAt ≤ state.windowStart
  disjoint : l.windows.Pairwise fun w w' => keyOf w.process = keyOf w'.process → w.windowEndedAt ≤ w'.windowStartedAt
  settled : ∀ key state, l.store.states.lookup key = some state →
    state.windowStart ≤ bound ∨ ∀ c : Counter, c.inState state = 0

theorem ledger_new_sound {bound : DateTime} {capacity : Nat} : (Ledger.new capacity).Sound bound where
  exact _ hw := nomatch hw
  rest _ _ _ := rfl
  ended _ hw := nomatch hw
  placed _ _ hl := nomatch hl
  after _ hw := nomatch hw
  disjoint := .nil
  settled _ _ hl := nomatch hl

theorem windowsOf_of_not_flush (hflush : operation.isFlush = false) : windowsOf (perform s operation).1 = [] := by
  apply eq_nil_iff_forall_not_mem.mpr
  intro w hw
  obtain ⟨_, _, rfl, -⟩ := windowsOf_performed hw
  cases hflush

section
variable {bound : DateTime} {l : Ledger} (h : l.Sound bound) {t : Timed} (hclock : l.clock ≤ t.time)
include h hclock

section
variable (hflush : t.operation.isFlush = false) (htaken : t.operation.TakenAt t.time)
include hflush htaken

/-- The state of a reported process is in a later window, whatever the operation. -/
theorem Ledger.Sound.after_change (hw : w ∈ l.windows)
    (hl : (perform l.store t.operation).2.states.lookup (keyOf w.process) = some state) :
    w.windowEndedAt ≤ state.windowStart := by
  have hchange := change_perform l.store hflush (keyOf w.process)
  rw [hl] at hchange
  have hover := h.ended w hw
  rcases hchange.origin with ⟨a, ha, hab⟩ | ⟨fresh, hfresh, hab, -⟩
  · rw [hab.windowStart]
    exact h.after w hw a ha
  · rw [hab.windowStart, hfresh.starts htaken]
    exact le_minuteStart hover.full_end (hover.past.trans hclock)

theorem Ledger.Sound.placed_change (hepoch : 0 ≤ t.time)
    (hl : (perform l.store t.operation).2.states.lookup key = some state) : Placed t.time key state := by
  have hchange := change_perform l.store hflush key
  rw [hl] at hchange
  rcases hchange.origin with ⟨a, ha, hab⟩ | ⟨fresh, hfresh, hab, -⟩
  · exact ((h.placed key a ha).later hclock).continues hab
  · exact (hfresh.placed htaken hepoch).continues hab

/-- An operation that is not a flush adds to what is pending what it counts. -/
theorem Ledger.Sound.step_change (hepoch : 0 ≤ t.time) (hbound : t.time ≤ bound)
    (hkeeps : KeepsCounts l.store t.operation) : (l.step t).2.Sound bound := by
  have hwindows : (l.step t).2.windows = l.windows := by
    show l.windows ++ windowsOf (perform l.store t.operation).1 = l.windows
    rw [windowsOf_of_not_flush hflush, append_nil]
  have hcounts : ∀ c slot, counts c l.store t.operation slot =
      pending c (perform l.store t.operation).2 slot - pending c l.store slot := by
    intro c slot
    rw [counts, hflush]
    rfl
  constructor
  case exact =>
    intro w hw c
    rw [hwindows] at hw
    have hzero : pending c (perform l.store t.operation).2 (slotOf w) = 0 := by
      unfold pending pendingIn
      split
      · rfl
      next hl =>
        have hlater := (h.ended w hw).starts_before.trans_le (h.after_change hclock hflush htaken hw hl)
        exact if_neg fun hsame => hlater.ne' hsame.2
    show l.counted c (slotOf w) + counts c l.store t.operation (slotOf w) = _
    rw [hcounts, hzero, Nat.zero_sub, Nat.add_zero]
    exact h.exact w hw c
  case rest =>
    intro slot hslot c
    rw [hwindows] at hslot
    show l.counted c slot + counts c l.store t.operation slot = pending c (perform l.store t.operation).2 slot
    rw [hcounts, h.rest slot hslot c]
    exact Nat.add_sub_cancel' (pending_mono hflush hkeeps)
  case ended =>
    intro w hw
    rw [hwindows] at hw
    exact { h.ended w hw with past := (h.ended w hw).past.trans hclock }
  case placed =>
    intro key state hl
    exact h.placed_change hclock hflush htaken hepoch hl
  case after =>
    intro w hw state hl
    rw [hwindows] at hw
    exact h.after_change hclock hflush htaken hw hl
  case disjoint =>
    rw [hwindows]
    exact h.disjoint
  case settled =>
    intro key state hl
    exact .inl ((h.placed_change hclock hflush htaken hepoch hl).past.trans hbound)

end

end

/-! ## A flush -/

/-- The windows that a flush reports, in some order. -/
theorem windowsOf_flushDue_perm {order : IterationOrder} {now : DateTime} :
    (windowsOf (perform s (.flushDue order now)).1).Perm
      (s.states.entries.filterMap fun e => if e.2.isDue now then some (e.2.window order) else none) := by
  refine ((order.states.perm _).filterMap _).trans ?_
  rw [filterMap_filterMap]
  refine .of_eq (congrArg (List.filterMap · s.states.entries) (funext fun e => ?_))
  unfold ProcessState.flush
  split
  · rfl
  · rfl

variable {l : Ledger}

theorem Ledger.Sound.flush_pairwise {bound : DateTime} (h : l.Sound bound) {order : IterationOrder} {now : DateTime} :
    (windowsOf (perform l.store (.flushDue order now)).1).Pairwise fun w w' => keyOf w.process ≠ keyOf w'.process := by
  apply windowsOf_flushDue_perm.symm.pairwise _ fun hne heq => hne heq.symm
  have hkeys : l.store.states.entries.Pairwise fun e e' => keyOf e.2.process ≠ keyOf e'.2.process := by
    refine (nodupKeys_iff_pairwise.mp l.store.states.nodupKeys).imp_of_mem fun {e e'} he he' hne => ?_
    rw [(h.placed e.1 e.2 (mem_entries_iff.mp he)).key, (h.placed e'.1 e'.2 (mem_entries_iff.mp he')).key]
    exact hne
  refine hkeys.filterMap _ fun e e' hne w hw w' hw' => ?_
  have hwindow := (Option.ite_none_right_eq_some.mp hw).2
  have hwindow' := (Option.ite_none_right_eq_some.mp hw').2
  cases hwindow
  cases hwindow'
  exact hne

/-- A state after a flush: as it was, or with an empty window after the one that is reported. -/
theorem flushed_state {order : IterationOrder} {now : DateTime}
    (hl : (perform s (.flushDue order now)).2.states.lookup key = some b) : ∃ a, s.states.lookup key = some a ∧
      (¬ a.isDue now ∧ b = a ∨ a.isDue now ∧ b = a.resetWindow (a.windowStart + minute)) := by
  rw [lookup_flushDue] at hl
  obtain ⟨a, ha, hb⟩ := Option.bind_eq_some_iff.mp hl
  refine ⟨a, ha, ?_⟩
  unfold TaskLifecycleStore.afterFlush at hb
  split at hb
  · cases hb
  cases hb
  unfold ProcessState.flush
  split
  next hdue => exact .inr ⟨hdue, rfl⟩
  next hdue => exact .inl ⟨hdue, rfl⟩

theorem inState_resetWindow (c : Counter) : c.inState (state.resetWindow start) = 0 := by
  cases c with
  | created => rfl
  | exited => rfl

theorem pendingIn_resetWindow : pendingIn c slot (some (state.resetWindow start)) = 0 :=
  Nat.le_zero.mp (pendingIn_le.trans (inState_resetWindow c).le)

section
variable {bound : DateTime} {l : Ledger} (h : l.Sound bound) {order : IterationOrder} {now : DateTime}
include h

section
variable (hl : l.store.states.lookup key = some state)
include hl

theorem Ledger.Sound.slotOf_window : slotOf (state.window order) = ⟨key, state.generation, state.windowStart⟩ := by
  rw [← (h.placed key state hl).key]
  rfl

/-- What a flush reports for a state was not reported before. -/
theorem Ledger.Sound.slot_fresh (hw : w ∈ l.windows) : slotOf w ≠ ⟨key, state.generation, state.windowStart⟩ := by
  intro heq
  have hkey : keyOf w.process = key := congrArg Slot.key heq
  have hstart : w.windowStartedAt = state.windowStart := congrArg Slot.start heq
  have hafter := h.after w hw state (hkey ▸ hl)
  exact absurd (hstart ▸ (h.ended w hw).starts_before.trans_le hafter) (lt_irrefl _)

theorem Ledger.Sound.counted_window : l.counted c (slotOf (state.window order)) = c.inWindow (state.window order) := by
  rw [h.slotOf_window hl, h.rest _ (fun w hw => h.slot_fresh hl hw) c]
  have hpending : pending c l.store ⟨key, state.generation, state.windowStart⟩ = c.inState state := by
    unfold pending
    rw [hl]
    exact if_pos ⟨rfl, rfl⟩
  rw [hpending]
  cases c with
  | created => rfl
  | exited => rfl

end

/-- A flush leaves pending what it does not report. -/
theorem Ledger.Sound.pending_flush
    (hslot : ∀ w ∈ windowsOf (perform l.store (.flushDue order now)).1, slotOf w ≠ slot) :
    pending c (perform l.store (.flushDue order now)).2 slot = pending c l.store slot := by
  cases hl : l.store.states.lookup slot.key with
  | none =>
    unfold pending
    rw [lookup_flushDue, hl]
    rfl
  | some a =>
    by_cases hdue : a.isDue now
    · have hne : ¬ (a.generation = slot.generation ∧ a.windowStart = slot.start) := by
        intro hsame
        apply hslot (a.window order) (window_mem_flushDue hl hdue)
        rw [h.slotOf_window hl, hsame.1, hsame.2]
      have hbefore : pending c l.store slot = 0 := by
        unfold pending
        rw [hl]
        exact if_neg hne
      rw [hbefore]
      unfold pending pendingIn
      cases hl' : (perform l.store (.flushDue order now)).2.states.lookup slot.key with
      | none => rfl
      | some =>
        obtain ⟨_, ha', hb⟩ := flushed_state hl'
        cases hl.symm.trans ha'
        rcases hb with ⟨hnot, -⟩ | ⟨-, rfl⟩
        · exact absurd hdue hnot
        · exact pendingIn_resetWindow
    · unfold pending
      rw [lookup_flushDue, hl]
      have hafter : TaskLifecycleStore.afterFlush order now a = some a := by
        rw [TaskLifecycleStore.afterFlush, if_neg fun hboth => hdue hboth.1, ProcessState.flush, if_neg hdue]
      exact congrArg (pendingIn c slot) hafter

variable {t : Timed} (hclock : l.clock ≤ t.time) (hoperation : t.operation = .flushDue order t.time)
include hclock hoperation

theorem Ledger.Sound.step_flush : (l.step t).2.Sound bound := by
  have hnew : ∀ {w}, w ∈ windowsOf (perform l.store (.flushDue order t.time)).1 →
      ∃ key state, l.store.states.lookup key = some state ∧ state.isDue t.time ∧ w = state.window order := by
    intro w hw
    obtain ⟨_, _, hflush, hstate⟩ := windowsOf_performed hw
    cases hflush
    exact hstate
  have hstep : (l.step t).2 = {
      store := (perform l.store (.flushDue order t.time)).2
      clock := t.time
      counted := l.counted
      windows := l.windows ++ windowsOf (perform l.store (.flushDue order t.time)).1 } := by
    unfold Ledger.step
    rw [hoperation]
    rfl
  rw [hstep]
  constructor
  case exact =>
    intro w hw c
    rcases mem_append.mp hw with hw | hw
    · exact h.exact w hw c
    · obtain ⟨_, _, hl, -, rfl⟩ := hnew hw
      exact h.counted_window hl
  case rest =>
    intro slot hslot c
    have hold := h.rest slot (fun w hw => hslot w (mem_append_left _ hw)) c
    exact hold.trans (h.pending_flush (fun w hw => hslot w (mem_append_right _ hw))).symm
  case ended =>
    intro w hw
    rcases mem_append.mp hw with hw | hw
    · exact { h.ended w hw with past := (h.ended w hw).past.trans hclock }
    · obtain ⟨key, state, hl, hdue, rfl⟩ := hnew hw
      have hplaced := h.placed key state hl
      exact ⟨rfl, hplaced.full, hplaced.epoch, hdue⟩
  case placed =>
    intro key b hl
    obtain ⟨a, ha, hb⟩ := flushed_state hl
    have hplaced := h.placed key a ha
    rcases hb with ⟨-, rfl⟩ | ⟨hdue, rfl⟩
    · exact hplaced.later hclock
    exact {
      key := hplaced.key
      full := Int.dvd_add hplaced.full (Int.dvd_refl _)
      epoch := Int.add_nonneg hplaced.epoch (by decide)
      past := hdue }
  case after =>
    intro w hw b hl
    obtain ⟨a, ha, hb⟩ := flushed_state hl
    rcases mem_append.mp hw with hw | hw
    · have hafter := h.after w hw a ha
      rcases hb with ⟨-, rfl⟩ | ⟨-, rfl⟩
      · exact hafter
      · exact hafter.trans (Int.le_add_of_nonneg_right (by decide))
    · -- the state reported under this process is the one that was there
      obtain ⟨key, state, hl', hdue, rfl⟩ := hnew hw
      replace ha : l.store.states.lookup (keyOf state.process) = some a := ha
      rw [(h.placed key state hl').key] at ha
      cases hl'.symm.trans ha
      rcases hb with ⟨hnot, -⟩ | ⟨-, rfl⟩
      · exact absurd hdue hnot
      · exact le_refl _
  case disjoint =>
    apply pairwise_append.mpr
    refine ⟨h.disjoint, h.flush_pairwise.imp fun hne heq => absurd heq hne, ?_⟩
    intro w hw w' hw' heq
    obtain ⟨key, state, hl, -, rfl⟩ := hnew hw'
    apply h.after w hw state
    rw [heq]
    exact (h.placed key state hl).key ▸ hl
  case settled =>
    intro key b hl
    obtain ⟨_, ha, hb⟩ := flushed_state hl
    rcases hb with ⟨-, rfl⟩ | ⟨-, rfl⟩
    · exact h.settled key b ha
    · exact .inr inState_resetWindow

end

/-! ## Whole runs -/

theorem Ledger.Sound.run {bound : DateTime} (h : l.Sound bound) {run : List Timed} (htimed : WellTimed run)
    (hclock : ∀ t ∈ run, l.clock ≤ t.time) (hbound : ∀ t ∈ run, t.operation.isFlush = false → t.time ≤ bound)
    (hkeeps : Along Ledger.step (fun l t => KeepsCounts l.store t.operation) l run) :
    (trace Ledger.step l run).2.Sound bound := by
  induction run generalizing l with
  | nil => exact h
  | cons t _ ih =>
    obtain ⟨hkeep, hkeeps⟩ := hkeeps
    obtain ⟨htaken, htakens⟩ := forall_mem_cons.mp htimed.taken
    obtain ⟨hlater, hordered⟩ := pairwise_cons.mp htimed.ordered
    obtain ⟨hepoch, hepochs⟩ := forall_mem_cons.mp htimed.epoch
    obtain ⟨hnow, -⟩ := forall_mem_cons.mp hclock
    obtain ⟨hlast, hlasts⟩ := forall_mem_cons.mp hbound
    have hstep : (l.step t).2.Sound bound := by
      cases hflush : t.operation.isFlush with
      | false => exact h.step_change hnow hflush htaken hepoch.1 (hlast hflush) hkeep
      | true =>
        obtain ⟨_, _, hoperation⟩ := eq_flushDue hflush
        rw [hoperation] at htaken
        cases htaken
        exact h.step_flush hnow hoperation
    exact ih hstep ⟨htakens, hordered, hepochs⟩ hlater hlasts hkeeps

theorem clock_le {now : DateTime} (hnow : l.clock ≤ now) {run : List Timed} (h : ∀ t ∈ run, t.time ≤ now) :
    (trace Ledger.step l run).2.clock ≤ now := by
  induction run generalizing l with
  | nil => exact hnow
  | cons t _ ih =>
    obtain ⟨ht, hrest⟩ := forall_mem_cons.mp h
    have hclock : (l.step t).2.clock ≤ now := ht
    exact ih hclock hrest

section
variable {bound : DateTime} {l : Ledger} (h : l.Sound bound)
include h

theorem Ledger.Sound.starts_differ : l.windows.Pairwise fun w w' =>
    keyOf w.process = keyOf w'.process → w.windowStartedAt ≠ w'.windowStartedAt := by
  refine h.disjoint.imp_of_mem fun {w w'} hw _ hdisjoint hkey hstart => ?_
  exact absurd ((h.ended w hw).starts_before.trans_le (hdisjoint hkey)) (hstart ▸ lt_irrefl _)

theorem Ledger.Sound.once : (l.windows.map slotOf).Nodup :=
  pairwise_map.mpr (h.starts_differ.imp fun hne heq => hne (congrArg Slot.key heq) (congrArg Slot.start heq))

theorem Ledger.Sound.ids (hclock : l.clock < 2 ^ 63)
    (hdigest : ∀ w ∈ l.windows, ∀ w' ∈ l.windows, w.id = w'.id →
      windowMessage w.process w.generation w.windowStartedAt = windowMessage w'.process w'.generation w'.windowStartedAt) :
    l.windows.Pairwise fun w w' => keyOf w.process = keyOf w'.process → w.generation = w'.generation → w.id ≠ w'.id := by
  have hfits : ∀ w ∈ l.windows, DateTime.Fits w.windowStartedAt := by
    intro w hw
    have hover := h.ended w hw
    exact ⟨(by decide : (-2 ^ 63 : Int) ≤ 0).trans hover.epoch, (hover.starts_before.trans_le hover.past).trans hclock⟩
  refine h.starts_differ.imp_of_mem fun {w w'} hw hw' hne hkey hgeneration hid => ?_
  have hmessage := hdigest w hw w' hw' hid
  have hcgroup : w.process.cgroupId = w'.process.cgroupId := congrArg ProcessKey.cgroupId hkey
  have htgid : w.process.tgid = w'.process.tgid := congrArg ProcessKey.tgid hkey
  unfold windowMessage at hmessage
  rw [hgeneration, hcgroup, htgid] at hmessage
  -- the messages end in the starts of the windows
  have hword := beBytes_inj (UInt64.toNat_lt _) (UInt64.toNat_lt _) (append_cancel_left hmessage)
  have hnanos : unixNanos w.windowStartedAt = unixNanos w'.windowStartedAt :=
    congrArg Int64.ofUInt64 (UInt64.toNat_inj.mp hword)
  have hinstant := congrArg Int64.toInt hnanos
  rw [toInt_unixNanos, toInt_unixNanos, onWire_of_fits (hfits w hw), onWire_of_fits (hfits w' hw')] at hinstant
  exact hne hkey hinstant

/-- A flush a minute after the last window that counts leaves nothing pending. -/
theorem Ledger.Sound.pending_after_flush {order : IterationOrder} {now : DateTime} (hnow : bound + minute ≤ now) :
    pending c (perform l.store (.flushDue order now)).2 slot = 0 := by
  unfold pending
  cases hl : (perform l.store (.flushDue order now)).2.states.lookup slot.key with
  | none => rfl
  | some b =>
    obtain ⟨_, ha, hb⟩ := flushed_state hl
    rcases hb with ⟨hnot, rfl⟩ | ⟨-, rfl⟩
    · rcases h.settled slot.key b ha with hstart | hzero
      · exact absurd ((Int.add_le_add_right hstart minute).trans hnow) hnot
      · exact Nat.le_zero.mp (pendingIn_le.trans (hzero c).le)
    · exact pendingIn_resetWindow

end

def lastFlush (order : IterationOrder) (now : DateTime) : Timed := ⟨now, .flushDue order now⟩

theorem WellTimed.of_append {run rest : List Timed} (h : WellTimed (run ++ rest)) : WellTimed run where
  taken t ht := h.taken t (mem_append_left _ ht)
  ordered := (pairwise_append.mp h.ordered).1
  epoch t ht := h.epoch t (mem_append_left _ ht)

theorem ledger_sound {bound : DateTime} {capacity : Nat} {run : List Timed} (htimed : WellTimed run)
    (hbound : ∀ t ∈ run, t.operation.isFlush = false → t.time ≤ bound)
    (hkeeps : Along Ledger.step (fun l t => KeepsCounts l.store t.operation) (.new capacity) run) :
    (ledger capacity run).Sound bound :=
  ledger_new_sound.run htimed (fun t ht => (htimed.epoch t ht).1) hbound hkeeps

/-- A flush a minute after the last operation leaves nothing pending. -/
theorem ledger_settled {capacity : Nat} {run : List Timed} {order : IterationOrder} {now : DateTime}
    (htimed : WellTimed (run ++ [lastFlush order now]))
    (hover : ∀ t ∈ run, t.operation.isFlush = false → t.time + minute ≤ now)
    (hkeeps : Along Ledger.step (fun l t => KeepsCounts l.store t.operation) (.new capacity) run) :
    (ledger capacity (run ++ [lastFlush order now])).Sound (now - minute) ∧
      ∀ c slot, pending c (ledger capacity (run ++ [lastFlush order now])).store slot = 0 := by
  have hsplit : ledger capacity (run ++ [lastFlush order now]) = ((ledger capacity run).step (lastFlush order now)).2 :=
    trace_append _ _ _
  have hsound : (ledger capacity run).Sound (now - minute) :=
    ledger_sound htimed.of_append (fun t ht hflush => Int.le_sub_right_of_add_le (hover t ht hflush)) hkeeps
  have hclock : (ledger capacity run).clock ≤ now := by
    apply clock_le (htimed.epoch (lastFlush order now) mem_concat_self).1
    exact fun t ht => (pairwise_append.mp htimed.ordered).2.2 t ht _ mem_cons_self
  rw [hsplit]
  exact ⟨hsound.step_flush hclock rfl, fun _ _ => hsound.pending_after_flush (Int.sub_add_cancel now minute).le⟩

/-- What is counted is reported once nothing is pending. -/
theorem Ledger.Sound.reported {bound : DateTime} (h : l.Sound bound) (hnone : ∀ c slot, pending c l.store slot = 0)
    (hcounted : 0 < l.counted c slot) : ∃ w ∈ l.windows, slotOf w = slot := by
  by_contra hmissing
  have hrest := h.rest slot (fun w hw heq => hmissing ⟨w, hw, heq⟩) c
  rw [hnone] at hrest
  exact absurd hrest hcounted.ne'

/-- Every run by a clock that does not go back, that discards no counts and that ends with a flush
a minute after the last operation reports everything it counted, once, in windows that do not
overlap. Their identifiers differ unless the digests of different windows collide. -/
theorem thread_evidence_accounted (capacity : Nat) (run : List Timed) (order : IterationOrder) (now : DateTime)
    (htimed : WellTimed (run ++ [lastFlush order now]))
    (hover : ∀ t ∈ run, t.operation.isFlush = false → t.time + minute ≤ now)
    (hkeeps : Along Ledger.step (fun l t => KeepsCounts l.store t.operation) (.new capacity) run)
    (hdigest : ∀ w ∈ (ledger capacity (run ++ [lastFlush order now])).windows,
      ∀ w' ∈ (ledger capacity (run ++ [lastFlush order now])).windows, w.id = w'.id →
        windowMessage w.process w.generation w.windowStartedAt =
          windowMessage w'.process w'.generation w'.windowStartedAt) :
    Accounted (ledger capacity (run ++ [lastFlush order now])) := by
  obtain ⟨hend, hnone⟩ := ledger_settled htimed hover hkeeps
  constructor
  case reported =>
    intro c slot hcounted
    exact hend.reported hnone hcounted
  case once => exact hend.once
  case exact =>
    intro w hw c
    exact (hend.exact w hw c).symm
  case disjoint => exact hend.disjoint
  case ids =>
    apply hend.ids _ hdigest
    have hclock : (ledger capacity (run ++ [lastFlush order now])).clock = now :=
      congrArg Ledger.clock (trace_append _ _ _)
    rw [hclock]
    exact (htimed.epoch (lastFlush order now) mem_concat_self).2

def seconds (n : Int) : DateTime := n * nanosPerSecond

def flushAt (n : Int) : Timed := lastFlush inOrder (seconds n)

/-- A thread starts, a window passes, and the process ends. -/
def endedProcess : List Timed :=
  [⟨0, .threadStart 0 paymentApi busyProcess busyGeneration ⟨11, 1, "a"⟩⟩, flushAt 60, ⟨seconds 70, .processExit 7 10⟩]

theorem thread_evidence_accounted_endedProcess : (ledger 4 (endedProcess ++ [flushAt 140])).windows.map slotOf =
        [⟨busyKey, busyGeneration, 0⟩, ⟨busyKey, busyGeneration, seconds 60⟩] ∧
      (ledger 4 (endedProcess ++ [flushAt 140])).windows.map (·.exited) = [0, 1] ∧
      Accounted (ledger 4 (endedProcess ++ [flushAt 140])) := by
  have htimed : WellTimed (endedProcess ++ [flushAt 140]) := ⟨by decide +kernel, by decide +kernel, by decide +kernel⟩
  have haccounted := thread_evidence_accounted 4 endedProcess inOrder (seconds 140) htimed (by decide +kernel)
    (by decide +kernel) (by decide +kernel)
  exact ⟨by decide +kernel, by decide +kernel, haccounted⟩

/-- A thread starts, its process ends, and its number is used again before the next flush. -/
def reusedProcess : List Timed :=
  [⟨0, .threadStart 0 paymentApi busyProcess busyGeneration ⟨11, 1, "a"⟩⟩, ⟨seconds 20, .processExit 7 10⟩,
    ⟨seconds 30, .processStart (Bytes.ByteVec.fill 16 2) (seconds 30) paymentApi busyProcess
      ⟨⟨2, Bytes.ByteVec.fill 16 1, true⟩, 1, 1, "init"⟩⟩,
    flushAt 60]

/-- What the first process has counted is reported in no window. -/
theorem reused_process_unreported : WellTimed (reusedProcess ++ [flushAt 120]) ∧
      (∀ t ∈ reusedProcess, t.operation.isFlush = false → t.time + minute ≤ seconds 120) ∧
      (ledger 4 (reusedProcess ++ [flushAt 120])).counted .created ⟨busyKey, busyGeneration, 0⟩ = 1 ∧
      (ledger 4 (reusedProcess ++ [flushAt 120])).counted .exited ⟨busyKey, busyGeneration, 0⟩ = 1 ∧
      (∀ w ∈ (ledger 4 (reusedProcess ++ [flushAt 120])).windows, w.generation ≠ busyGeneration) ∧
      ¬ Accounted (ledger 4 (reusedProcess ++ [flushAt 120])) := by
  have htimed : WellTimed (reusedProcess ++ [flushAt 120]) := ⟨by decide +kernel, by decide +kernel, by decide +kernel⟩
  have hcreated : (ledger 4 (reusedProcess ++ [flushAt 120])).counted .created ⟨busyKey, busyGeneration, 0⟩ = 1 := by
    decide +kernel
  have hnone : ∀ w ∈ (ledger 4 (reusedProcess ++ [flushAt 120])).windows, w.generation ≠ busyGeneration := by
    decide +kernel
  refine ⟨htimed, by decide +kernel, hcreated, by decide +kernel, hnone, fun haccounted => ?_⟩
  obtain ⟨w, hw, hslot⟩ := haccounted.reported .created ⟨busyKey, busyGeneration, 0⟩ (hcreated ▸ Nat.one_pos)
  exact hnone w hw (congrArg Slot.generation hslot)

end Okoscope.Agent.TaskLifecycle
