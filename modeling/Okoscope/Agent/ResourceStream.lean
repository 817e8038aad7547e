import Okoscope.Agent.Delivery

/-!
# Delivery of resource aggregates

The resource half of one application stream. Aggregates wait in a queue, a flush
moves some of them under the current sequence number into the pending map and sends
them, and an acknowledgement of the number removes them. A send that fails ends the
session; the next session replays the pending map first.
-/
namespace Okoscope.Agent.ResourceStream

open Lib Lib.Run Lib.Word Delivery List

-- the stream never looks inside an aggregate
variable {Aggregate : Type}

/-- The resource state of one stream across its sessions. -/
structure Stream (Aggregate : Type) where
  connected : Bool
  queued : List Aggregate
  pending : OrderedMap Nat (List Aggregate)
  sequence : Nat
  counters : Counters
  application : ApplicationCounters

def Stream.new (Aggregate : Type) : Stream Aggregate where
  connected := false
  queued := []
  pending := .empty
  sequence := 1
  counters := default
  application := default

/-- The resource case of the items that arrive from the collector. -/
def bufferStreamItem (capacity : Nat) (s : Stream Aggregate) (aggregate : Aggregate) : Stream Aggregate :=
  if s.queued.length < capacity then
    { s with queued := s.queued ++ [aggregate] }
  else
    { s with
      counters := { s.counters with resourceQueueDropped := s.counters.resourceQueueDropped + 1 }
      application := { s.application with dropped := s.application.dropped + 1 } }

/-- The batch that the flush took from the queue, if any, and whether the flush succeeded. -/
structure Flushed (Aggregate : Type) where
  drained : Option (Nat × List Aggregate)
  ok : Bool

/-- One flush; a send that it makes succeeds or fails as given. -/
def flushResourceQueue (bounds : Nat × Nat) (sendOk : Bool) (s : Stream Aggregate) :
    Flushed Aggregate × Stream Aggregate :=
  let (capacity, batchSize) := bounds
  if s.queued.isEmpty then
    (⟨none, true⟩, s)
  else
    let pendingCount := (s.pending.values.map List.length).sum
    let available := capacity - pendingCount
    if available = 0 then
      let count := UInt64.ofNat s.queued.length
      (⟨none, true⟩, { s with
        queued := []
        counters := { s.counters with resourceQueueDropped := s.counters.resourceQueueDropped + count }
        application := { s.application with dropped := s.application.dropped + count } })
    else
      let splitAt := min (min s.queued.length batchSize) available
      let aggregates := s.queued.take splitAt
      let s' := { s with queued := s.queued.drop splitAt, pending := s.pending.insert s.sequence aggregates }
      -- the number advances only after the send
      if sendOk then
        (⟨some (s.sequence, aggregates), true⟩, { s' with sequence := saturatingSucc s.sequence })
      else
        (⟨some (s.sequence, aggregates), false⟩, s')

/-- Counts the pending batches as they are sent again; the first send that fails is the last one. -/
def replayResourceBatches (sent : Nat) (s : Stream Aggregate) : Stream Aggregate :=
  let count := UInt64.ofNat ((s.pending.values.take (sent + 1)).map List.length).sum
  { s with
    counters := { s.counters with resourceRetried := s.counters.resourceRetried + count }
    application := { s.application with deliveryRetry := s.application.deliveryRetry + count } }

/-- The resource acknowledgement among the server's messages. -/
def handleServerMessage (sequence : Nat) (retentionExpired : UInt32) (s : Stream Aggregate) : Stream Aggregate :=
  match s.pending.lookup sequence with
  | none => s
  | some values =>
    { s with
      pending := s.pending.erase sequence
      counters := { s.counters with
        resourceAcknowledged := s.counters.resourceAcknowledged + UInt64.ofNat values.length
        resourceExpired := s.counters.resourceExpired + retentionExpired.toUInt64 } }

/-! ## The stream's loop -/

inductive Step (Aggregate : Type) where
  /-- A new session, whose replay gets the given number of batches out. -/
  | connect (sent : Nat)
  | resource (aggregate : Aggregate)
  | flush (sendOk : Bool)
  | acknowledge (sequence : Nat) (retentionExpired : UInt32)
  /-- Any other end of the session. -/
  | disconnect

inductive Output (Aggregate : Type) where
  | done
  | flushed (drained : Option (Nat × List Aggregate))
  | acknowledged (sequence : Nat)
  /-- The step is not one of this phase of the loop: a session has to be open to
  buffer, flush and listen, and closed to connect. -/
  | skipped

/-- One turn of the loop: a session starts with the replay, and a flush that fails ends it. -/
def runStream (bounds : Nat × Nat) (s : Stream Aggregate) (step : Step Aggregate) :
    Output Aggregate × Stream Aggregate :=
  match s.connected, step with
  | false, .connect sent => (.done, { replayResourceBatches sent s with connected := true })
  | true, .resource aggregate => (.done, bufferStreamItem bounds.1 s aggregate)
  | true, .flush sendOk =>
    let (flushed, s') := flushResourceQueue bounds sendOk s
    (.flushed flushed.drained, { s' with connected := flushed.ok })
  | true, .acknowledge sequence retentionExpired =>
    (.acknowledged sequence, handleServerMessage sequence retentionExpired s)
  | true, .disconnect => (.done, { s with connected := false })
  | _, _ => (.skipped, s)

/-- The batches taken from the queue, with their sequence numbers, in order. -/
def drained (history : List (Step Aggregate × Output Aggregate)) : List (Nat × List Aggregate) :=
  history.filterMap fun
    | (_, .flushed batch) => batch
    | _ => none

/-- The batches taken from the queue for which no acknowledgement has arrived since. -/
def awaiting (history : List (Step Aggregate × Output Aggregate)) : List (Nat × List Aggregate) :=
  history.foldl (fun batches entry =>
    match entry.2 with
    | .flushed (some batch) => batches ++ [batch]
    | .acknowledged sequence => batches.filter fun batch => batch.1 ≠ sequence
    | _ => batches) []

/-- Nothing is lost: a batch stays pending until it is acknowledged, and no sequence
number labels two batches. -/
structure Lossless (history : List (Step Aggregate × Output Aggregate)) (s : Stream Aggregate) : Prop where
  retained : ∀ batch ∈ awaiting history, s.pending.lookup batch.1 = some batch.2
  distinct : ((drained history).map Prod.fst).Nodup

/-! ## Runs in which no flush fails -/

/-- The pending map is what awaits acknowledgement, and the numbers are used in turn. -/
structure Consistent (history : List (Step Aggregate × Output Aggregate)) (s : Stream Aggregate) : Prop where
  pending : s.pending.entries = awaiting history
  labels : (drained history).map Prod.fst = List.range' 1 (drained history).length
  next : s.sequence = min ((drained history).length + 1) (2 ^ 64 - 1)
  below : ∀ batch ∈ awaiting history, batch.1 ≤ (drained history).length

theorem consistent_new : Consistent [] (Stream.new Aggregate) where
  pending := rfl
  labels := rfl
  next := rfl
  below := nofun

variable {step : Step Aggregate} {s' : Stream Aggregate}

section
variable {history : List (Step Aggregate × Output Aggregate)} {s : Stream Aggregate}

section
variable (h : Consistent history s)
include h

theorem Consistent.lossless : Lossless history s where
  retained := fun batch hbatch => OrderedMap.lookup_of_mem (by rw [h.pending]; exact hbatch)
  distinct := by
    rw [h.labels]
    exact nodup_range'

/-- A step that takes no batch and brings no acknowledgement. -/
theorem Consistent.quiet {entry : Step Aggregate × Output Aggregate}
    (hd : drained [entry] = []) (ha : ∀ sequence, entry.2 ≠ .acknowledged sequence) (hp : s'.pending = s.pending)
    (hs : s'.sequence = s.sequence) : Consistent (history ++ [entry]) s' := by
  have hdrained : drained (history ++ [entry]) = drained history := by
    rw [drained, filterMap_append, ← drained, ← drained, hd, append_nil]
  have hawaiting : awaiting (history ++ [entry]) = awaiting history := by
    obtain ⟨_, output⟩ := entry
    rw [awaiting, foldl_append, ← awaiting]
    cases output with
    | acknowledged sequence => exact absurd rfl (ha sequence)
    | flushed batch =>
      cases batch with
      | none => rfl
      | some => cases hd
    | _ => rfl
  exact {
    pending := by rw [hp, hawaiting, h.pending]
    labels := by rw [hdrained, h.labels]
    next := by rw [hs, hdrained, h.next]
    below := by rw [hawaiting, hdrained]; exact h.below }

/-- A batch that is taken under the next number and sent. -/
theorem Consistent.flushed (hroom : (drained history).length + 1 < 2 ^ 64)
    {aggregates : List Aggregate} (hp : s'.pending = s.pending.insert s.sequence aggregates)
    (hs : s'.sequence = saturatingSucc s.sequence) :
    Consistent (history ++ [(step, .flushed (some (s.sequence, aggregates)))]) s' := by
  have hnext : s.sequence = (drained history).length + 1 := by
    rw [h.next]
    omega
  have hdrained : drained (history ++ [(step, .flushed (some (s.sequence, aggregates)))]) =
      drained history ++ [(s.sequence, aggregates)] := by
    simp [drained]
  have hawaiting : awaiting (history ++ [(step, .flushed (some (s.sequence, aggregates)))]) =
      awaiting history ++ [(s.sequence, aggregates)] := by
    rw [awaiting, foldl_append, ← awaiting]
    rfl
  have hlength : (drained (history ++ [(step, .flushed (some (s.sequence, aggregates)))])).length =
      (drained history).length + 1 := by
    rw [hdrained, length_append, length_singleton]
  have hgt : ∀ k ∈ s.pending.keys, k < s.sequence := by
    intro k hk
    rw [OrderedMap.keys, h.pending] at hk
    obtain ⟨batch, hbatch, rfl⟩ := mem_map.mp hk
    have hle := h.below batch hbatch
    omega
  exact {
    pending := by rw [hp, OrderedMap.entries_insert_of_gt aggregates hgt, h.pending, hawaiting]
    labels := by
      rw [hlength, hdrained, map_append, h.labels, range'_1_concat, map_singleton, hnext, Nat.add_comm 1]
    next := by rw [hs, hlength, hnext, saturatingSucc]
    below := by
      intro batch hbatch
      rw [hawaiting, mem_append, mem_singleton] at hbatch
      rw [hlength]
      rcases hbatch with hbatch | rfl
      · exact Nat.le_succ_of_le (h.below batch hbatch)
      · exact le_of_eq hnext }

theorem Consistent.acknowledged {sequence : Nat} {retentionExpired : UInt32} :
    Consistent (history ++ [(step, .acknowledged sequence)]) (handleServerMessage sequence retentionExpired s) := by
  have hdrained : drained (history ++ [(step, .acknowledged sequence)]) = drained history := by simp [drained]
  have hawaiting : awaiting (history ++ [(step, .acknowledged sequence)]) =
      (awaiting history).filter fun batch => batch.1 ≠ sequence := by
    rw [awaiting, foldl_append, ← awaiting]
    rfl
  have hpending : (handleServerMessage sequence retentionExpired s).pending = s.pending.erase sequence := by
    unfold handleServerMessage
    split
    · next hnone => exact (OrderedMap.erase_of_lookup_eq_none hnone).symm
    · rfl
  have hsequence : (handleServerMessage sequence retentionExpired s).sequence = s.sequence := by
    unfold handleServerMessage
    split <;> rfl
  exact {
    pending := by rw [hpending, hawaiting, ← h.pending, OrderedMap.erase]
    labels := by rw [hdrained, h.labels]
    next := by rw [hsequence, hdrained, h.next]
    below := by
      intro batch hbatch
      rw [hdrained]
      rw [hawaiting] at hbatch
      exact h.below batch (mem_of_mem_filter hbatch) }

end

/-- Every turn of the loop other than a failed flush keeps the stream consistent. -/
theorem runStream_consistent (h : Consistent history s) {bounds : Nat × Nat} (hsend : step ≠ .flush false)
    (hroom : (drained (history ++ [(step, (runStream bounds s step).1)])).length < 2 ^ 64) :
    Consistent (history ++ [(step, (runStream bounds s step).1)]) (runStream bounds s step).2 := by
  have hskip : runStream bounds s step = (.skipped, s) →
      Consistent (history ++ [(step, (runStream bounds s step).1)]) (runStream bounds s step).2 := by
    intro heq
    rw [heq]
    exact h.quiet rfl nofun rfl rfl
  cases hc : s.connected with
  | false =>
    cases step with
    | connect sent =>
      have heq : runStream bounds s (.connect sent) =
          (.done, { replayResourceBatches sent s with connected := true }) := by simp [runStream, hc]
      rw [heq]
      exact h.quiet rfl nofun rfl rfl
    | resource _ | flush _ | acknowledge _ _ | disconnect => exact hskip (by simp only [runStream, hc])
  | true =>
    cases step with
    | connect => exact hskip (by simp only [runStream, hc])
    | resource aggregate =>
      have heq : runStream bounds s (.resource aggregate) = (.done, bufferStreamItem bounds.1 s aggregate) := by
        simp [runStream, hc]
      rw [heq, bufferStreamItem]
      split <;> exact h.quiet rfl nofun rfl rfl
    | flush sendOk =>
      cases sendOk with
      | false => exact absurd rfl hsend
      | true =>
        have heq : runStream bounds s (.flush true) = (.flushed (flushResourceQueue bounds true s).1.drained,
            { (flushResourceQueue bounds true s).2 with connected := (flushResourceQueue bounds true s).1.ok }) := by
          simp [runStream, hc]
        rw [heq, flushResourceQueue] at hroom ⊢
        dsimp only at hroom ⊢
        split
        · exact h.quiet rfl nofun rfl rfl
        split
        · exact h.quiet rfl nofun rfl rfl
        next hbatch hleft =>
        rw [if_neg hbatch, if_neg hleft] at hroom
        exact h.flushed (by simpa [drained] using hroom) rfl rfl
    | acknowledge sequence retentionExpired =>
      have heq : runStream bounds s (.acknowledge sequence retentionExpired) =
          (.acknowledged sequence, handleServerMessage sequence retentionExpired s) := by simp [runStream, hc]
      rw [heq]
      exact h.acknowledged
    | disconnect =>
      have heq : runStream bounds s .disconnect = (.done, { s with connected := false }) := by
        simp [runStream, hc]
      rw [heq]
      exact h.quiet rfl nofun rfl rfl

end

/-- In every run of the loop in which no flush fails to send, and which takes fewer batches
than there are sequence numbers, nothing is lost and no number is used twice. -/
theorem lossless_of_sends_succeed (bounds : Nat × Nat) (steps : List (Step Aggregate))
    (hsends : Step.flush false ∉ steps)
    (hroom : (drained (trace (runStream bounds) (Stream.new Aggregate) steps).1).length < 2 ^ 64) :
    Lossless (trace (runStream bounds) (Stream.new Aggregate) steps).1
      (trace (runStream bounds) (Stream.new Aggregate) steps).2 := by
  have hinv := trace_invariant (runStream bounds)
    (fun history s => Step.flush false ∉ history.map Prod.fst → (drained history).length < 2 ^ 64 →
      Consistent history s)
    (fun history s step h hsend hroom => by
      rw [map_append, mem_append, not_or] at hsend
      have hfewer : (drained history).length ≤ (drained (history ++ [(step, (runStream bounds s step).1)])).length := by
        rw [drained, drained, filterMap_append, length_append]
        exact Nat.le_add_right _ _
      have hstep : step ≠ .flush false := fun heq => hsend.2 (by simp [heq])
      exact runStream_consistent (h hsend.1 (lt_of_le_of_lt hfewer hroom)) hstep hroom)
    (s := Stream.new Aggregate) (fun _ _ => consistent_new) steps
  rw [map_fst_trace] at hinv
  exact (hinv hsends hroom).lossless

/-- Two flushed aggregates, a reconnect, and the acknowledgement of the first one. -/
def delivering : List (Step String) :=
  [.connect 0, .resource "cpu", .flush true, .disconnect, .connect 1, .resource "memory", .flush true,
    .acknowledge 1 0]

theorem delivering_lossless : Lossless (trace (runStream (8, 4)) (Stream.new String) delivering).1
        (trace (runStream (8, 4)) (Stream.new String) delivering).2 ∧
      awaiting (trace (runStream (8, 4)) (Stream.new String) delivering).1 = [(2, ["memory"])] :=
  ⟨lossless_of_sends_succeed (8, 4) delivering (by simp [delivering]) (by decide), rfl⟩

/-- A send that fails after the batch was put under its number: the next session replays
the batch, and the next flush puts another batch under the same number. -/
def failing : List (Step String) :=
  [.connect 0, .resource "cpu", .flush false, .connect 1, .resource "memory", .flush true]

theorem failed_send_loses_batch :
    drained (trace (runStream (8, 4)) (Stream.new String) failing).1 = [(1, ["cpu"]), (1, ["memory"])] ∧
      (1, ["cpu"]) ∈ awaiting (trace (runStream (8, 4)) (Stream.new String) failing).1 ∧
      (trace (runStream (8, 4)) (Stream.new String) failing).2.pending.entries = [(1, ["memory"])] ∧
      ¬ Lossless (trace (runStream (8, 4)) (Stream.new String) failing).1
        (trace (runStream (8, 4)) (Stream.new String) failing).2 := by
  refine ⟨rfl, by decide, rfl, fun h => ?_⟩
  exact absurd h.distinct (by decide)

end Okoscope.Agent.ResourceStream
