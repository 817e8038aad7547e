import Mathlib.Algebra.Order.BigOperators.Group.List
import Mathlib.Algebra.Order.Group.Nat
import Okoscope.EventModel.Event
import Okoscope.Lib.Ledger
import Okoscope.Lib.Run

/-!
# Delivery of runtime events

The bounded buffer between the collector and one application stream. Events wait
in a queue, leave it in numbered batches, and every batch stays pending until the
server acknowledges its number, so that a reconnect can replay it. A limiter
counts what it lets through in windows of a second.
-/
namespace Okoscope.Agent.Delivery

open Lib Lib.Run Lib.Word EventModel List

/-- The counters the streams advance, as wrapping 64-bit words. -/
structure Counters where
  capacityDropped : UInt64
  sent : UInt64
  retried : UInt64
  acknowledged : UInt64
  resourceQueueDropped : UInt64
  resourceExpired : UInt64
  resourceRetried : UInt64
  resourceAcknowledged : UInt64
deriving DecidableEq, Inhabited

structure ApplicationCounters where
  dropped : UInt64
  deliveryRetry : UInt64
deriving DecidableEq, Inhabited

/-- At most so many events a second; times are nanoseconds of the monotonic clock. -/
structure EventRateLimiter where
  maxEventsPerSecond : UInt32
  rate_pos : 0 < maxEventsPerSecond
  windowStarted : Nat
  accepted : UInt32
  accepted_le : accepted ≤ maxEventsPerSecond

/-- The rate is asserted: a limiter that lets nothing through is not built. -/
def EventRateLimiter.new (maxEventsPerSecond : UInt32) (now : Nat) : Option EventRateLimiter :=
  if h : maxEventsPerSecond > 0 then
    some {
      maxEventsPerSecond
      rate_pos := h
      windowStarted := now
      accepted := 0
      accepted_le := UInt32.zero_le }
  else
    none

namespace EventRateLimiter

def second : Nat := 1000000000

/-- The window that a call falls into. -/
def windowAt (l : EventRateLimiter) (now : Nat) : EventRateLimiter :=
  if now - l.windowStarted ≥ second then
    { l with windowStarted := now, accepted := 0, accepted_le := UInt32.zero_le }
  else l

def allowAt (l : EventRateLimiter) (now : Nat) : Bool × EventRateLimiter :=
  if h : (l.windowAt now).accepted ≥ (l.windowAt now).maxEventsPerSecond then (false, l.windowAt now)
  else (true, { l.windowAt now with accepted := (l.windowAt now).accepted + 1, accepted_le := by grind })

/-- How many more events the window lets through. -/
def room (l : EventRateLimiter) : Nat := l.maxEventsPerSecond.toNat - l.accepted.toNat

/-- How many calls let an event through. -/
def admitted (l : EventRateLimiter) (times : List Nat) : Nat := (trace allowAt l times).1.countP Prod.snd

variable {l : EventRateLimiter} {now a : Nat} {times : List Nat}

/-- A call lets an event through if its window has room, and takes the room. -/
theorem allowAt_spec (l : EventRateLimiter) (now : Nat) :
    (l.allowAt now).2.windowStarted = (l.windowAt now).windowStarted ∧
      (l.allowAt now).2.maxEventsPerSecond = l.maxEventsPerSecond ∧
      (l.allowAt now).1.toNat + (l.allowAt now).2.room = (l.windowAt now).room := by
  have hmax : (l.windowAt now).maxEventsPerSecond = l.maxEventsPerSecond := by
    unfold windowAt
    split <;> rfl
  unfold allowAt
  split
  · exact ⟨rfl, hmax, Nat.zero_add _⟩
  next h =>
    refine ⟨rfl, hmax, ?_⟩
    have hlt := UInt32.lt_iff_toNat_lt.mp (UInt32.not_le.mp h)
    have hsucc : ((l.windowAt now).accepted + 1).toNat = (l.windowAt now).accepted.toNat + 1 := by
      rw [UInt32.toNat_add]
      exact Nat.mod_eq_of_lt (Nat.lt_of_le_of_lt hlt (UInt32.toNat_lt _))
    simp only [room, Bool.toNat_true]
    omega

theorem windowAt_of_lt (h : now < l.windowStarted + second) : l.windowAt now = l :=
  if_neg (by unfold second at *; omega)

theorem admitted_cons : admitted l (now :: times) = (l.allowAt now).1.toNat + admitted (l.allowAt now).2 times := by
  rw [admitted, trace, countP_cons, Nat.add_comm]
  cases (l.allowAt now).1 <;> rfl

/-- As long as its window lasts, a limiter lets through what there is room for. -/
theorem admitted_le_room (h : ∀ t ∈ times, t < l.windowStarted + second) : admitted l times ≤ l.room := by
  induction times generalizing l with
  | nil => exact Nat.zero_le _
  | cons now times ih =>
    obtain ⟨hnow, hrest⟩ := forall_mem_cons.mp h
    obtain ⟨hstart, -, hroom⟩ := allowAt_spec l now
    rw [windowAt_of_lt hnow] at hstart hroom
    rw [admitted_cons, ← hroom]
    exact Nat.add_le_add_left (ih (hstart ▸ hrest)) _

/-- Within a second, wherever it begins, no more than twice the rate is let through. -/
theorem admitted_per_second (l : EventRateLimiter) (h : ∀ t ∈ times, a ≤ t ∧ t < a + second) :
    admitted l times ≤ 2 * l.maxEventsPerSecond.toNat := by
  -- a new window begins at most once: the first one has its room left, the second one all of it
  suffices hroom : admitted l times ≤ l.room + l.maxEventsPerSecond.toNat by
    unfold room at hroom
    omega
  induction times generalizing l with
  | nil => exact Nat.zero_le _
  | cons now times ih =>
    obtain ⟨⟨hfrom, -⟩, hrest⟩ := forall_mem_cons.mp h
    obtain ⟨hstart, hmax, hroom⟩ := allowAt_spec l now
    rw [admitted_cons]
    by_cases hwindow : now < l.windowStarted + second
    · rw [windowAt_of_lt hwindow] at hroom
      have hle := ih (l.allowAt now).2 hrest
      rw [hmax] at hle
      omega
    · have hnew : l.windowAt now = _ := if_pos (by omega)
      rw [hnew] at hstart hroom
      have hle : admitted (l.allowAt now).2 times ≤ (l.allowAt now).2.room := admitted_le_room fun t ht => by
        rw [hstart]
        exact (hrest t ht).2.trans_le (Nat.add_le_add_right hfrom _)
      have hall : (l.allowAt now).1.toNat + (l.allowAt now).2.room = l.maxEventsPerSecond.toNat := hroom
      omega

def twoASecond : EventRateLimiter := ⟨2, by decide, 0, 0, by decide⟩

/-- Where one window follows another, four pass within four nanoseconds. -/
theorem admitted_twoASecond : admitted twoASecond [999999998, 999999999, 1000000000, 1000000001] = 4 ∧
    admitted twoASecond [999999998, 999999999, 1000000000, 1000000001] ≤ 2 * 2 :=
  ⟨by decide, admitted_per_second (a := 999999998) twoASecond (by decide)⟩

end EventRateLimiter

structure PendingBatch where
  sequence : Nat
  events : List RuntimeEvent

structure EventBuffer where
  capacity : Nat
  batchSize : Nat
  batchSize_pos : 0 < batchSize
  batchSize_le : batchSize ≤ capacity
  nextSequence : Nat
  queued : List RuntimeEvent
  pending : OrderedMap Nat PendingBatch

namespace EventBuffer

/-- The bounds are asserted: a buffer that breaks them is not built. -/
def new (capacity batchSize : Nat) : Option EventBuffer :=
  if h : capacity > 0 ∧ batchSize > 0 ∧ batchSize ≤ capacity then
    some {
      capacity
      batchSize
      batchSize_pos := h.2.1
      batchSize_le := h.2.2
      nextSequence := 1
      queued := []
      pending := .empty }
  else
    none

def pendingCount (b : EventBuffer) : Nat := (b.pending.values.map fun batch => batch.events.length).sum

def occupied (b : EventBuffer) : Nat := b.queued.length + b.pendingCount

def push (b : EventBuffer) (event : RuntimeEvent) (counters : Counters) : Bool × EventBuffer × Counters :=
  if b.occupied ≥ b.capacity then
    (false, b, { counters with capacityDropped := counters.capacityDropped + 1 })
  else
    (true, { b with queued := b.queued ++ [event] }, counters)

def nextBatch (b : EventBuffer) (counters : Counters) : Option PendingBatch × EventBuffer × Counters :=
  if b.queued.isEmpty then
    (none, b, counters)
  else
    let count := min b.batchSize b.queued.length
    let batch : PendingBatch := { sequence := b.nextSequence, events := b.queued.take count }
    (some batch,
      { b with
        nextSequence := saturatingSucc b.nextSequence
        queued := b.queued.drop count
        pending := b.pending.insert batch.sequence batch },
      { counters with sent := counters.sent + UInt64.ofNat batch.events.length })

def acknowledge (b : EventBuffer) (sequence : Nat) (counters : Counters) : Bool × EventBuffer × Counters :=
  match b.pending.lookup sequence with
  | none => (false, b, counters)
  | some batch =>
    (true, { b with pending := b.pending.erase sequence },
      { counters with acknowledged := counters.acknowledged + UInt64.ofNat batch.events.length })

def replayPending (b : EventBuffer) (counters : Counters) (application : ApplicationCounters) :
    List PendingBatch × Counters × ApplicationCounters :=
  let batches := b.pending.values
  let count := UInt64.ofNat (batches.map fun batch => batch.events.length).sum
  (batches, { counters with retried := counters.retried + count },
    { application with deliveryRetry := application.deliveryRetry + count })

end EventBuffer

/-! ## The buffer in use -/

/-- The buffer of one stream with the counters it advances. -/
structure Sender where
  buffer : EventBuffer
  counters : Counters
  application : ApplicationCounters

inductive Op where
  | push (event : RuntimeEvent)
  | nextBatch
  | acknowledge (sequence : Nat)
  | replayPending

inductive Output where
  | pushed (accepted : Bool)
  | batch (batch : Option PendingBatch)
  | acknowledged (known : Bool)
  | replayed (batches : List PendingBatch)

def step (s : Sender) : Op → Output × Sender
  | .push event =>
    let (accepted, buffer, counters) := s.buffer.push event s.counters
    (.pushed accepted, { s with buffer, counters })
  | .nextBatch =>
    let (batch, buffer, counters) := s.buffer.nextBatch s.counters
    (.batch batch, { s with buffer, counters })
  | .acknowledge sequence =>
    let (known, buffer, counters) := s.buffer.acknowledge sequence s.counters
    (.acknowledged known, { s with buffer, counters })
  | .replayPending =>
    let (batches, counters, application) := s.buffer.replayPending s.counters s.application
    (.replayed batches, { s with counters, application })

/-- The events that were accepted, in the order they were pushed. -/
def accepted (history : List (Op × Output)) : List RuntimeEvent :=
  history.filterMap fun
    | (.push event, .pushed true) => some event
    | _ => none

/-- The batches that were produced, in order. -/
def produced (history : List (Op × Output)) : List PendingBatch :=
  history.filterMap fun
    | (_, .batch batch) => batch
    | _ => none

/-- The sequence numbers whose acknowledgement was taken. -/
def acknowledged (history : List (Op × Output)) : List Nat :=
  history.filterMap fun
    | (.acknowledge sequence, .acknowledged true) => some sequence
    | _ => none

/-- What was produced and acknowledged, by sequence number. -/
def ledger (history : List (Op × Output)) : Ledger Nat PendingBatch where
  produced := (produced history).map fun batch => (batch.sequence, batch)
  acknowledged := acknowledged history

open PendingBatch

theorem sequences_ledger {history : List (Op × Output)} :
    (ledger history).produced.map Prod.fst = (produced history).map sequence := by
  simp [ledger]

/-! ## The invariant of a history -/

/-- What holds of the buffer after every history that has not used up the sequence numbers. -/
structure Consistent (history : List (Op × Output)) (b : EventBuffer) : Prop where
  in_order : (produced history).flatMap events ++ b.queued = accepted history
  sequences : (produced history).map sequence = List.range' 1 (produced history).length
  next : b.nextSequence = min ((produced history).length + 1) (2 ^ 64 - 1)
  sizes : ∀ batch ∈ produced history, 1 ≤ batch.events.length ∧ batch.events.length ≤ b.batchSize
  tracked : Ledger.Tracks b.pending (ledger history)
  bounded : b.occupied ≤ b.capacity

theorem consistent_new {capacity batchSize : Nat} {b : EventBuffer}
    (h : EventBuffer.new capacity batchSize = some b) : Consistent [] b := by
  unfold EventBuffer.new at h
  split at h
  · cases h
    exact {
      in_order := rfl
      sequences := rfl
      next := rfl
      sizes := nofun
      tracked := Ledger.tracks_empty
      bounded := Nat.zero_le _ }
  · cases h

variable {counters : Counters}

section
variable {history : List (Op × Output)} {b : EventBuffer}

section
variable (h : Consistent history b)
include h

theorem Consistent.values_pending :
    b.pending.values = (produced history).filter fun batch => batch.sequence ∉ acknowledged history := by
  rw [OrderedMap.values, h.tracked.entries, Ledger.outstanding, ledger, filter_map, map_map]
  exact map_id _

theorem Consistent.refuses_iff {event : RuntimeEvent} :
    (b.push event counters).1 = false ↔ b.occupied = b.capacity := by
  have hle := h.bounded
  unfold EventBuffer.push
  split
  · next =>
    have heq : b.occupied = b.capacity := by omega
    simp [heq]
  · next =>
    have hne : b.occupied ≠ b.capacity := by omega
    simp [hne]

theorem Consistent.lookup_eq_none_iff {sequence : Nat} : b.pending.lookup sequence = none ↔
      sequence ∉ (produced history).map PendingBatch.sequence ∨ sequence ∈ acknowledged history := by
  rw [OrderedMap.lookup_eq_none_iff, h.tracked.mem_keys_iff, sequences_ledger]
  tauto

/-- A call that accepts, produces and acknowledges nothing, on an unchanged buffer. -/
theorem Consistent.quiet {entry : Op × Output} (ha : accepted [entry] = []) (hp : produced [entry] = [])
    (hk : acknowledged [entry] = []) : Consistent (history ++ [entry]) b := by
  have hacc : accepted (history ++ [entry]) = accepted history := by
    rw [accepted, filterMap_append, ← accepted, ← accepted, ha, append_nil]
  have hprod : produced (history ++ [entry]) = produced history := by
    rw [produced, filterMap_append, ← produced, ← produced, hp, append_nil]
  have hack : acknowledged (history ++ [entry]) = acknowledged history := by
    rw [acknowledged, filterMap_append, ← acknowledged, ← acknowledged, hk, append_nil]
  have hledger : ledger (history ++ [entry]) = ledger history := by
    rw [ledger, hprod, hack, ledger]
  exact {
    in_order := by rw [hprod, hacc, h.in_order]
    sequences := by rw [hprod, h.sequences]
    next := by rw [hprod, h.next]
    sizes := by rw [hprod]; exact h.sizes
    tracked := by rw [hledger]; exact h.tracked
    bounded := h.bounded }

theorem Consistent.push {event : RuntimeEvent} :
    Consistent (history ++ [(.push event, .pushed (b.push event counters).1)]) (b.push event counters).2.1 := by
  unfold EventBuffer.push
  split
  · exact h.quiet rfl rfl rfl
  next hlt =>
  have hprod : produced (history ++ [(.push event, .pushed true)]) = produced history := by simp [produced]
  have hledger : ledger (history ++ [(.push event, .pushed true)]) = ledger history := by
    simp [ledger, produced, acknowledged]
  exact {
    in_order := by
      rw [hprod, ← append_assoc, h.in_order]
      simp [accepted]
    sequences := by rw [hprod, h.sequences]
    next := by rw [hprod]; exact h.next
    sizes := by rw [hprod]; exact h.sizes
    tracked := by rw [hledger]; exact h.tracked
    bounded := by
      have hoccupied : b.queued.length + b.pendingCount < b.capacity := by
        have := Nat.not_le.mp hlt
        exact this
      show (b.queued ++ [event]).length + b.pendingCount ≤ b.capacity
      rw [length_append, length_singleton]
      omega }

/-- Taking the first events of the queue as the next batch. -/
theorem Consistent.takeBatch {count : Nat} (hpos : 0 < count) (hbatch : count ≤ b.batchSize)
    (hcount : count ≤ b.queued.length) (hroom : (produced history).length + 1 < 2 ^ 64) {batch : PendingBatch}
    (heq : batch = { sequence := b.nextSequence, events := b.queued.take count }) :
    Consistent (history ++ [(.nextBatch, .batch (some batch))])
      { b with
        nextSequence := saturatingSucc b.nextSequence
        queued := b.queued.drop count
        pending := b.pending.insert batch.sequence batch } := by
  -- the sequence numbers still reach the batch, which is numbered above all earlier ones
  have hnext : b.nextSequence = (produced history).length + 1 := by
    rw [h.next]
    omega
  have hgt : ∀ k ∈ (ledger history).produced.map Prod.fst, k < b.nextSequence := by
    intro k hk
    rw [sequences_ledger, h.sequences, mem_range'_1] at hk
    omega
  have hseq : batch.sequence = b.nextSequence := by rw [heq]
  have hevents : batch.events = b.queued.take count := by rw [heq]
  have hsize : batch.events.length = count := by rw [hevents, length_take, Nat.min_eq_left hcount]
  have hprod : produced (history ++ [(.nextBatch, .batch (some batch))]) = produced history ++ [batch] := by
    simp [produced]
  have hacc : accepted (history ++ [(.nextBatch, .batch (some batch))]) = accepted history := by simp [accepted]
  have hledger : ledger (history ++ [(.nextBatch, .batch (some batch))]) =
      ⟨(ledger history).produced ++ [(batch.sequence, batch)], (ledger history).acknowledged⟩ := by
    simp [ledger, produced, acknowledged]
  rw [← hseq] at hgt
  have hcountPending : (b.pending.insert batch.sequence batch).values = b.pending.values ++ [batch] := by
    have hkeys := OrderedMap.entries_insert_of_gt batch fun k hk => hgt k (h.tracked.mem_keys_iff.mp hk).1
    rw [OrderedMap.values, hkeys, map_append, map_singleton, OrderedMap.values]
  exact {
    in_order := by
      rw [hprod, hacc, flatMap_append, flatMap_singleton, hevents, append_assoc, take_append_drop, h.in_order]
    sequences := by
      rw [hprod, map_append, h.sequences, length_append, length_singleton, range'_1_concat,
        map_singleton, hseq, hnext, Nat.add_comm 1]
    next := by
      rw [hprod, length_append, length_singleton]
      rw [hnext, saturatingSucc]
    sizes := by
      intro batch' hmem
      rw [hprod, mem_append, mem_singleton] at hmem
      rcases hmem with hmem | rfl
      · exact h.sizes batch' hmem
      · rw [hsize]
        exact ⟨hpos, hbatch⟩
    tracked := by
      rw [hledger]
      exact h.tracked.produce batch hgt
    bounded := by
      have hoccupied := h.bounded
      unfold EventBuffer.occupied EventBuffer.pendingCount at hoccupied ⊢
      dsimp only
      rw [hcountPending, map_append, sum_append, map_singleton, sum_singleton, hsize, length_drop]
      omega }

theorem Consistent.nextBatch
    (hroom : (produced (history ++ [(.nextBatch, .batch (b.nextBatch counters).1)])).length < 2 ^ 64) :
    Consistent (history ++ [(.nextBatch, .batch (b.nextBatch counters).1)]) (b.nextBatch counters).2.1 := by
  unfold EventBuffer.nextBatch at hroom ⊢
  split at hroom
  · next hempty =>
    rw [if_pos hempty]
    exact h.quiet rfl rfl rfl
  next hne =>
  rw [if_neg hne]
  have hlen : b.queued.length ≠ 0 := by simpa using hne
  have hpos := b.batchSize_pos
  have hproduced : (produced history).length + 1 < 2 ^ 64 := by simpa [produced] using hroom
  exact h.takeBatch (by omega) (Nat.min_le_left _ _) (Nat.min_le_right _ _) hproduced rfl

theorem Consistent.acknowledge {sequence : Nat} :
    Consistent (history ++ [(.acknowledge sequence, .acknowledged (b.acknowledge sequence counters).1)])
      (b.acknowledge sequence counters).2.1 := by
  unfold EventBuffer.acknowledge
  split
  · exact h.quiet rfl rfl rfl
  next batch hlookup =>
  have hkey : sequence ∈ b.pending.keys := by
    by_contra hnot
    rw [OrderedMap.lookup_eq_none_iff.mpr hnot] at hlookup
    cases hlookup
  have hprod : produced (history ++ [(.acknowledge sequence, .acknowledged true)]) = produced history := by
    simp [produced]
  have hacc : accepted (history ++ [(.acknowledge sequence, .acknowledged true)]) = accepted history := by
    simp [accepted]
  have hledger : ledger (history ++ [(.acknowledge sequence, .acknowledged true)]) =
      ⟨(ledger history).produced, (ledger history).acknowledged ++ [sequence]⟩ := by
    simp [ledger, produced, acknowledged]
  exact {
    in_order := by rw [hprod, hacc]; exact h.in_order
    sequences := by rw [hprod, h.sequences]
    next := by rw [hprod]; exact h.next
    sizes := by rw [hprod]; exact h.sizes
    tracked := by
      rw [hledger]
      exact h.tracked.acknowledge hkey
    bounded := by
      have hoccupied := h.bounded
      have hfewer : ((b.pending.erase sequence).values.map fun batch => batch.events.length).sum ≤
          (b.pending.values.map fun batch => batch.events.length).sum :=
        ((filter_sublist.map _).map _).sum_le_sum fun _ _ => Nat.zero_le _
      exact le_trans (Nat.add_le_add_left hfewer _) hoccupied }

end

end

variable {history : List (Op × Output)} {s : Sender}

theorem step_consistent (h : (produced history).length < 2 ^ 64 → Consistent history s.buffer) (op : Op)
    (hroom : (produced (history ++ [(op, (step s op).1)])).length < 2 ^ 64) :
    Consistent (history ++ [(op, (step s op).1)]) (step s op).2.buffer := by
  have hfewer : (produced history).length ≤ (produced (history ++ [(op, (step s op).1)])).length := by
    rw [produced, produced, filterMap_append, length_append]
    exact Nat.le_add_right _ _
  have hcons := h (lt_of_le_of_lt hfewer hroom)
  cases op with
  | push => exact hcons.push
  | nextBatch => exact hcons.nextBatch hroom
  | acknowledge => exact hcons.acknowledge
  | replayPending => exact hcons.quiet rfl rfl rfl

/-! ## At least once, and nothing lost -/

/-- The events of the produced batches that were acknowledged. -/
def delivered (history : List (Op × Output)) : List RuntimeEvent :=
  ((produced history).filter fun batch => batch.sequence ∈ acknowledged history).flatMap events

/-- The batches a reconnect has to send again. -/
def unacknowledged (history : List (Op × Output)) : List PendingBatch :=
  (produced history).filter fun batch => batch.sequence ∉ acknowledged history

/-- Delivery at least once: what the buffer of the given bounds owes to its history. -/
structure AtLeastOnce (capacity batchSize : Nat) (history : List (Op × Output)) (s : Sender) : Prop where
  partition : (accepted history).Perm
    (s.buffer.queued ++ s.buffer.pending.values.flatMap PendingBatch.events ++ delivered history)
  in_order : (produced history).flatMap PendingBatch.events ++ s.buffer.queued = accepted history
  sequences : (produced history).map PendingBatch.sequence = List.range' 1 (produced history).length
  sizes : ∀ batch ∈ produced history, 1 ≤ batch.events.length ∧ batch.events.length ≤ batchSize
  bounded : s.buffer.occupied ≤ capacity
  refuses : ∀ event, (step s (.push event)).1 = .pushed false ↔ s.buffer.occupied = capacity
  acknowledged_once : (acknowledged history).Nodup
  acknowledged_known : ∀ sequence ∈ acknowledged history, sequence ∈ (produced history).map PendingBatch.sequence
  unknown : ∀ sequence,
    sequence ∉ (produced history).map PendingBatch.sequence ∨ sequence ∈ acknowledged history →
      step s (.acknowledge sequence) = (.acknowledged false, s)
  known : ∀ batch ∈ unacknowledged history, ∃ t, step s (.acknowledge batch.sequence) = (.acknowledged true, t) ∧
    t.buffer.queued = s.buffer.queued ∧
    t.buffer.pending.values = (unacknowledged history).filter (·.sequence ≠ batch.sequence)
  produces : s.buffer.queued ≠ [] → ∃ batch, (step s .nextBatch).1 = .batch (some batch)
  replay : (step s .replayPending).1 = .replayed (unacknowledged history)
  replay_unchanged : (step s .replayPending).2.buffer = s.buffer

theorem Consistent.partition {b : EventBuffer} (h : Consistent history b) : (accepted history).Perm
      (b.queued ++ b.pending.values.flatMap events ++ delivered history) := by
  -- the produced batches are the pending ones and the delivered ones, in some order
  have hsplit : (produced history).Perm (b.pending.values ++
      (produced history).filter fun batch => batch.sequence ∈ acknowledged history) := by
    rw [h.values_pending]
    refine (perm_append_comm.trans ?_).symm
    simpa using filter_append_perm (fun batch => decide (batch.sequence ∈ acknowledged history))
      (produced history)
  have hevents := hsplit.flatMap_right events
  rw [flatMap_append] at hevents
  calc accepted history
      = (produced history).flatMap events ++ b.queued := h.in_order.symm
    _ |>.Perm (b.queued ++ (produced history).flatMap events) := perm_append_comm
    _ |>.Perm _ := by
      rw [append_assoc]
      exact hevents.append_left _

theorem step_bounds (op : Op) :
    (step s op).2.buffer.capacity = s.buffer.capacity ∧ (step s op).2.buffer.batchSize = s.buffer.batchSize := by
  cases op with
  | push =>
    simp only [step, EventBuffer.push]
    split <;> exact ⟨rfl, rfl⟩
  | nextBatch =>
    simp only [step, EventBuffer.nextBatch]
    split <;> exact ⟨rfl, rfl⟩
  | acknowledge =>
    simp only [step, EventBuffer.acknowledge]
    split <;> exact ⟨rfl, rfl⟩
  | replayPending => exact ⟨rfl, rfl⟩

/-- Acknowledging a batch that is still owed removes this batch and no other. -/
theorem Consistent.known (h : Consistent history s.buffer) {batch : PendingBatch} (hbatch : batch ∈ unacknowledged history) :
    ∃ t, step s (.acknowledge batch.sequence) = (.acknowledged true, t) ∧ t.buffer.queued = s.buffer.queued ∧
      t.buffer.pending.values = (unacknowledged history).filter (·.sequence ≠ batch.sequence) := by
  obtain ⟨hproduced, hnot⟩ := mem_filter.mp hbatch
  obtain ⟨found, hfound⟩ : ∃ found, s.buffer.pending.lookup batch.sequence = some found := by
    refine Option.ne_none_iff_exists'.mp fun hnone => ?_
    rcases h.lookup_eq_none_iff.mp hnone with hunknown | hacknowledged
    · exact hunknown (mem_map_of_mem hproduced)
    · exact absurd hacknowledged (of_decide_eq_true hnot)
  have hnext : (s.buffer.acknowledge batch.sequence s.counters).2.1.pending.values = _ := h.acknowledge.values_pending
  simp only [step, EventBuffer.acknowledge, hfound] at hnext ⊢
  have hprod : produced (history ++ [(.acknowledge batch.sequence, .acknowledged true)]) = produced history := by
    simp [produced]
  have hack : acknowledged (history ++ [(.acknowledge batch.sequence, .acknowledged true)]) =
      acknowledged history ++ [batch.sequence] := by
    simp [acknowledged]
  rw [hprod, hack] at hnext
  refine ⟨_, rfl, rfl, hnext.trans ?_⟩
  simp [unacknowledged, filter_filter, and_comm]

theorem Consistent.atLeastOnce (h : Consistent history s.buffer) :
    AtLeastOnce s.buffer.capacity s.buffer.batchSize history s where
  partition := h.partition
  in_order := h.in_order
  sequences := h.sequences
  sizes := h.sizes
  bounded := h.bounded
  refuses := fun event =>
    ⟨fun hfull => h.refuses_iff.mp (Output.pushed.inj hfull),
      fun hfull => congrArg Output.pushed (h.refuses_iff.mpr hfull)⟩
  acknowledged_once := h.tracked.once
  acknowledged_known := fun sequence hack => by
    rw [← sequences_ledger]
    exact h.tracked.known sequence hack
  unknown := fun sequence hsequence => by
    simp [step, EventBuffer.acknowledge, h.lookup_eq_none_iff.mpr hsequence]
  known := fun _ => h.known
  produces := fun hqueued => by simp [step, EventBuffer.nextBatch, hqueued]
  replay := congrArg Output.replayed h.values_pending
  replay_unchanged := rfl

/-- A buffer built with bounds that it accepts conserves its events and delivers them at
least once, after every interleaving of calls that produces fewer batches than there are
sequence numbers. -/
theorem eventBuffer_atLeastOnce (capacity batchSize : Nat) (hpos : 0 < batchSize) (hle : batchSize ≤ capacity)
    (counters : Counters) (application : ApplicationCounters) :
    ∃ buffer, EventBuffer.new capacity batchSize = some buffer ∧
      ∀ ops, (produced (trace step ⟨buffer, counters, application⟩ ops).1).length < 2 ^ 64 →
        AtLeastOnce capacity batchSize (trace step ⟨buffer, counters, application⟩ ops).1
          (trace step ⟨buffer, counters, application⟩ ops).2 := by
  obtain ⟨buffer, hnew, hcapacity, hbatchSize⟩ : ∃ buffer, EventBuffer.new capacity batchSize = some buffer ∧
      buffer.capacity = capacity ∧ buffer.batchSize = batchSize :=
    ⟨_, dif_pos ⟨lt_of_lt_of_le hpos hle, hpos, hle⟩, rfl, rfl⟩
  refine ⟨buffer, hnew, fun ops hroom => ?_⟩
  have hbounds := trace_invariant step
    (fun _ s => s.buffer.capacity = capacity ∧ s.buffer.batchSize = batchSize)
    (fun _ s op h => ⟨(step_bounds op).1.trans h.1, (step_bounds op).2.trans h.2⟩)
    (s := ⟨buffer, counters, application⟩) ⟨hcapacity, hbatchSize⟩ ops
  have hconsistent := trace_invariant step
    (fun history s => (produced history).length < 2 ^ 64 → Consistent history s.buffer)
    (fun _ _ op h hroom => step_consistent h op hroom)
    (s := ⟨buffer, counters, application⟩) (fun _ => consistent_new hnew) ops hroom
  have hresult := hconsistent.atLeastOnce
  rw [hbounds.1, hbounds.2] at hresult
  exact hresult

/-- The execution of a program in a container of `payment-api`. -/
def execOf (executable : String) : RuntimeEvent where
  id := Bytes.ByteVec.fill 16 7
  observedAt := 0
  schemaVersion := eventSchemaVersion
  attribution := paymentApi
  process := { cgroupId := 42, pid := 100, tgid := 100, command := "api" }
  payload := .processExec { executable, parentCommand := none, generation := none }

/-- A full buffer refuses the third event; of its two batches the second one is
acknowledged, twice, and the first one is replayed. -/
def reconnect : List Op :=
  [.push (execOf "/bin/a"), .push (execOf "/bin/b"), .push (execOf "/bin/c"), .nextBatch, .nextBatch,
    .acknowledge 2, .acknowledge 2, .replayPending]

theorem reconnect_atLeastOnce : ∃ buffer, EventBuffer.new 2 1 = some buffer ∧
      AtLeastOnce 2 1 (trace step ⟨buffer, default, default⟩ reconnect).1
        (trace step ⟨buffer, default, default⟩ reconnect).2 ∧
      accepted (trace step ⟨buffer, default, default⟩ reconnect).1 = [execOf "/bin/a", execOf "/bin/b"] ∧
      unacknowledged (trace step ⟨buffer, default, default⟩ reconnect).1 = [⟨1, [execOf "/bin/a"]⟩] := by
  obtain ⟨_, hnew, hall⟩ := eventBuffer_atLeastOnce 2 1 (by decide) (by decide) default default
  cases hnew
  exact ⟨_, rfl, hall reconnect (by decide), rfl, rfl⟩

end Okoscope.Agent.Delivery
