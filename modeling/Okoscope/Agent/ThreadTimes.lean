import Okoscope.Agent.ThreadEvidence

/-!
# In which window the threads are counted

A thread is counted in the window that the state of its process is in. Only a flush moves the
state on, so between the end of a minute and the next flush threads are counted in the window
that is over.
-/
namespace Okoscope.Agent.TaskLifecycle

open Lib Lib.Run EventModel List

/-- The operation starts or ends threads. -/
def Operation.isThread : Operation → Bool
  | .threadStart _ _ _ _ _ | .threadExit _ _ _ _ | .processExit _ _ => true
  | _ => false

/-- The state that counts for a window is in it at this time. -/
def OnTime (s : TaskLifecycleStore) (slot : Slot) (time : DateTime) : Prop :=
  ∀ state ∈ s.states.lookup slot.key, state.generation = slot.generation → ¬ state.isDue time

instance (s : TaskLifecycleStore) (slot : Slot) (time : DateTime) : Decidable (OnTime s slot time) :=
  inferInstanceAs (Decidable (∀ state ∈ _, _))

variable {c : Counter} {s : TaskLifecycleStore} {slot : Slot}

theorem lt_minuteStart_add {time : DateTime} : time < minuteStart time + minute := by
  have hlt : time % minute < minute := Int.emod_lt_of_pos time (by decide)
  exact Int.lt_add_of_sub_right_lt (Int.sub_lt_sub_left hlt time)

/-- What an operation counts it counts in the state that it leaves. -/
theorem counted_state {operation : Operation} (hcounts : 0 < counts c s operation slot) :
    operation.isFlush = false ∧ ∃ b, (perform s operation).2.states.lookup slot.key = some b ∧
      b.generation = slot.generation ∧ b.windowStart = slot.start := by
  unfold counts at hcounts
  split at hcounts
  · exact absurd hcounts (lt_irrefl 0)
  next hflush =>
    refine ⟨Bool.not_eq_true _ ▸ hflush, ?_⟩
    have hpending : 0 < pending c (perform s operation).2 slot := hcounts.trans_le (Nat.sub_le _ _)
    unfold pending at hpending
    cases hl : (perform s operation).2.states.lookup slot.key with
    | none =>
      rw [hl] at hpending
      cases hpending
    | some b =>
      rw [hl] at hpending
      by_contra hother
      have hzero : pendingIn c slot (some b) = 0 := if_neg fun hsame => hother ⟨b, rfl, hsame⟩
      omega

/-- Threads are counted in a window that has begun, and that is not over if the state is on time. -/
theorem Ledger.Sound.counted_slot {bound : DateTime} {l : Ledger} (h : l.Sound bound) {t : Timed}
    (hclock : l.clock ≤ t.time) (htaken : t.operation.TakenAt t.time) (hthread : t.operation.isThread)
    (hcounts : 0 < counts c l.store t.operation slot) :
    slot.start ≤ t.time ∧ (t.time < slot.start + minute ↔ OnTime l.store slot t.time) := by
  obtain ⟨hflush, b, hb, hgeneration, hstart⟩ := counted_state hcounts
  have hchange := change_perform l.store hflush slot.key
  rw [hb] at hchange
  rcases hchange.origin with ⟨a, ha, hab⟩ | ⟨fresh, hfresh, hab, hdiscards⟩
  · have hplaced := h.placed slot.key a ha
    rw [← hstart, hab.windowStart]
    refine ⟨hplaced.past.trans hclock, fun hlt state hstate _ hdue => ?_, fun hon => ?_⟩
    · cases ha.symm.trans hstate
      exact absurd hlt (not_lt.mpr hdue)
    · exact lt_of_not_ge (hon a ha (hab.generation.symm.trans hgeneration))
  · rw [← hstart, hab.windowStart, hfresh.starts htaken]
    refine ⟨minuteStart_le, fun _ state hstate hsame => ?_, fun _ => lt_minuteStart_add⟩
    -- a thread makes a new state only in place of one of another generation
    have hother : state.generation ≠ fresh.generation := by
      have hdiscard := hdiscards state hstate
      generalize t.operation = operation at hfresh hthread hdiscard
      cases hfresh with
      | threadStart _ _ _ _ _ _ hfresh =>
        cases hfresh
        exact hdiscard.2
      | _ => cases hthread
    exact absurd (hsame.trans (hgeneration.symm.trans hab.generation)) hother

theorem counted_mono {l : Ledger} {run : List Timed} : l.counted c slot ≤ (trace Ledger.step l run).2.counted c slot := by
  induction run generalizing l with
  | nil => exact le_rfl
  | cons t _ ih => exact (Nat.le_add_right _ _).trans (ih (l := (l.step t).2))

/-- In every run by a clock that does not go back, that discards no counts and that ends with a
flush a minute after the last operation, a start or an end of threads is counted and reported in the
window of its time if and only if it is counted while the state of the process is not in a window
that is over. -/
theorem thread_in_own_window_iff (capacity : Nat) (before after : List Timed) (t : Timed) (order : IterationOrder)
    (now : DateTime) (htimed : WellTimed (before ++ t :: after ++ [lastFlush order now]))
    (hover : ∀ u ∈ before ++ t :: after, u.operation.isFlush = false → u.time + minute ≤ now)
    (hkeeps : Along Ledger.step (fun l u => KeepsCounts l.store u.operation) (.new capacity) (before ++ t :: after))
    (hthread : t.operation.isThread) (c : Counter) :
    (∃ slot, 0 < counts c (ledger capacity before).store t.operation slot ∧
      ∃ w ∈ (ledger capacity (before ++ t :: after ++ [lastFlush order now])).windows,
        slotOf w = slot ∧ w.windowStartedAt ≤ t.time ∧ t.time < w.windowEndedAt) ↔
    ∃ slot, 0 < counts c (ledger capacity before).store t.operation slot ∧
      OnTime (ledger capacity before).store slot t.time := by
  refine exists_congr fun slot => and_congr_right fun hcounts => ?_
  obtain ⟨hend, hnone⟩ := ledger_settled htimed hover hkeeps
  have hrun : before ++ t :: after ++ [lastFlush order now] = before ++ t :: (after ++ [lastFlush order now]) := by
    rw [append_assoc, cons_append]
  have hmem : t ∈ before ++ t :: after ++ [lastFlush order now] := hrun ▸ mem_append_right _ mem_cons_self
  have hbefore : (ledger capacity before).Sound (2 ^ 63) := by
    apply ledger_sound htimed.of_append.of_append _ (along_append.mp hkeeps).1
    exact fun u hu _ => (htimed.of_append.of_append.epoch u hu).2.le
  have hclock : (ledger capacity before).clock ≤ t.time := by
    apply clock_le (htimed.epoch t hmem).1
    exact fun u hu => (pairwise_append.mp htimed.of_append.ordered).2.2 u hu t mem_cons_self
  obtain ⟨hstart, hiff⟩ := hbefore.counted_slot hclock (htimed.taken t hmem) hthread hcounts
  have hcounted : 0 < (ledger capacity (before ++ t :: after ++ [lastFlush order now])).counted c slot := by
    have hstep : 0 < ((ledger capacity before).step t).2.counted c slot := hcounts.trans_le (Nat.le_add_left _ _)
    rw [hrun, ledger, trace_append]
    exact hstep.trans_le counted_mono
  obtain ⟨w, hw, rfl⟩ := hend.reported hnone hcounted
  rw [← hiff]
  constructor
  · rintro ⟨w', hw', hslot, -, hlt⟩
    rw [(hend.ended w' hw').length] at hlt
    exact congrArg Slot.start hslot ▸ hlt
  · intro hlt
    exact ⟨w, hw, rfl, hstart, (hend.ended w hw).length ▸ hlt⟩

theorem thread_in_own_window_endedProcess :
    ∃ slot, 0 < counts .exited (ledger 4 (endedProcess.take 2)).store (.processExit 7 10) slot ∧
      ∃ w ∈ (ledger 4 (endedProcess ++ [flushAt 140])).windows, slotOf w = slot ∧
        w.windowStartedAt ≤ seconds 70 ∧ seconds 70 < w.windowEndedAt := by
  have htimed : WellTimed (endedProcess ++ [flushAt 140]) := ⟨by decide +kernel, by decide +kernel, by decide +kernel⟩
  exact (thread_in_own_window_iff 4 (endedProcess.take 2) [] ⟨seconds 70, .processExit 7 10⟩ inOrder (seconds 140) htimed
    (by decide +kernel) (by decide +kernel) rfl .exited).mpr
      ⟨⟨busyKey, busyGeneration, seconds 60⟩, by decide +kernel, by decide +kernel⟩

/-- Threads that start ten seconds before the end of a minute and a second after it, with flushes that
are at most fifteen seconds apart. -/
def lateThread : List Timed :=
  [flushAt 30, flushAt 45, ⟨seconds 50, .threadStart (seconds 50) paymentApi busyProcess busyGeneration ⟨11, 1, "a"⟩⟩,
    flushAt 59, ⟨seconds 61, .threadStart (seconds 61) paymentApi busyProcess busyGeneration ⟨12, 2, "a"⟩⟩,
    flushAt 70, flushAt 85, flushAt 100, flushAt 115, flushAt 130]

/-- The second thread is counted in the window that ended before it started. -/
theorem late_thread_counted_early : WellTimed lateThread ∧
      ((lateThread.filter (·.operation.isFlush)).map (·.time)).IsChain (fun a b => b ≤ a + seconds 15) ∧
      counts .created (ledger 4 (lateThread.take 4)).store
        (.threadStart (seconds 61) paymentApi busyProcess busyGeneration ⟨12, 2, "a"⟩) ⟨busyKey, busyGeneration, 0⟩ = 1 ∧
      (ledger 4 lateThread).windows.map (fun w => (slotOf w, w.windowEndedAt, w.created)) =
        [(⟨busyKey, busyGeneration, 0⟩, seconds 60, 2), (⟨busyKey, busyGeneration, seconds 60⟩, seconds 120, 0)] :=
  ⟨⟨by decide +kernel, by decide +kernel, by decide +kernel⟩, by decide +kernel, by decide +kernel, by decide +kernel⟩

end Okoscope.Agent.TaskLifecycle
