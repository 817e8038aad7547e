import Mathlib.Data.String.Basic
import Okoscope.EventModel.Release
import Okoscope.Lib.OrderedMap
import Okoscope.Lib.Run
import Okoscope.Lib.Uuid

/-!
# Release observations of an application's stream

The stream keeps the last observation of every key and sends all of them again when one changed or a
session began. Nothing is ever taken out: an observation with a new key is kept, and sent, exactly when the
keys seen so far leave room for it.
-/
namespace Okoscope.Agent.ReleaseStream

open Lib Lib.Run EventModel List

inductive ReleaseObservation where
  | evidence (routeId : Uuid) (value : WorkloadRevisionEvidence)
  | snapshot (routeId : Uuid) (value : RevisionReadinessSnapshot)
  deriving DecidableEq

def releaseObservationKey : ReleaseObservation → String
  | .evidence _ value => "e:" ++ value.evidenceId
  | .snapshot _ value => "s:" ++ String.ofList (Bytes.hexText value.revisionDigest.toList)

structure Stream where
  releasePending : OrderedMap String ReleaseObservation
  releaseDirty : Bool

/-- The stream in its first session. -/
def new : Stream where
  releasePending := .empty
  releaseDirty := true

/-- Whether the observation is kept, and not dropped, and the stream after it. -/
def bufferStreamItem (queueCapacity : Nat) (s : Stream) (observation : ReleaseObservation) : Bool × Stream :=
  let key := releaseObservationKey observation
  if s.releasePending.entries.length < queueCapacity ∨ s.releasePending.lookup key ≠ none then
    (true, { releasePending := s.releasePending.insert key observation, releaseDirty := true })
  else (false, s)

/-- The observations that are sent, when the session takes so many messages before it fails. -/
def flushReleaseObservations (s : Stream) (taken : Nat) : List ReleaseObservation × Stream :=
  if s.releaseDirty = false then ([], s)
  else (s.releasePending.values.take taken, { s with releaseDirty := taken < s.releasePending.values.length })

inductive Turn where
  | connect
  | item (observation : ReleaseObservation)
  | flush (taken : Nat)

/-- One turn of the stream, with the observations it sends. -/
def turn (queueCapacity : Nat) (s : Stream) : Turn → List ReleaseObservation × Stream
  | .connect => ([], { s with releaseDirty := true })
  | .item observation => ([], (bufferStreamItem queueCapacity s observation).2)
  | .flush taken => flushReleaseObservations s taken

variable {queueCapacity : Nat} {s : Stream} {observation : ReleaseObservation}

/-- The observation is kept and will be sent by the next flush. -/
structure Awaiting (observation : ReleaseObservation) (s : Stream) : Prop where
  kept : (releaseObservationKey observation, observation) ∈ s.releasePending.entries
  dirty : s.releaseDirty

/-- The turn brings another observation of the key. -/
def Replaces (observation : ReleaseObservation) : Turn → Prop
  | .item other => releaseObservationKey other = releaseObservationKey observation
  | .connect | .flush _ => False

theorem awaiting_bufferStreamItem (h : (bufferStreamItem queueCapacity s observation).1) :
    Awaiting observation (bufferStreamItem queueCapacity s observation).2 := by
  unfold bufferStreamItem at h ⊢
  dsimp only at h ⊢
  split
  · exact ⟨OrderedMap.mem_entries_insert.mpr (.inl rfl), rfl⟩
  next hfull =>
    rw [if_neg hfull] at h
    cases h

section
variable (h : Awaiting observation s)
include h

theorem awaiting_flush {taken : Nat} :
    observation ∈ (flushReleaseObservations s taken).1 ∨ Awaiting observation (flushReleaseObservations s taken).2 := by
  have hmem : observation ∈ s.releasePending.values := mem_map_of_mem h.kept
  rw [flushReleaseObservations, if_neg (by rw [h.dirty]; decide)]
  by_cases hall : taken < s.releasePending.values.length
  · exact .inr ⟨h.kept, decide_eq_true hall⟩
  · rw [take_of_length_le (Nat.le_of_not_lt hall)]
    exact .inl hmem

theorem awaiting_turn {next : Turn} (hnext : ¬ Replaces observation next) :
    observation ∈ (turn queueCapacity s next).1 ∨ Awaiting observation (turn queueCapacity s next).2 := by
  cases next with
  | connect => exact .inr ⟨h.kept, rfl⟩
  | flush => exact awaiting_flush h
  | item =>
    refine .inr ?_
    simp only [turn, bufferStreamItem]
    split
    · exact ⟨OrderedMap.mem_entries_insert.mpr (.inr ⟨h.kept, fun heq => hnext heq.symm⟩), rfl⟩
    · exact h

theorem awaiting_run {later : List Turn} (hlater : ∀ next ∈ later, ¬ Replaces observation next) :
    observation ∈ (trace (turn queueCapacity) s later).1.flatMap Prod.snd ∨
      Awaiting observation (trace (turn queueCapacity) s later).2 := by
  induction later generalizing s with
  | nil => exact .inr h
  | cons _ _ ih =>
    obtain ⟨hnext, hlater⟩ := forall_mem_cons.mp hlater
    rw [trace, flatMap_cons, mem_append]
    obtain hsent | hwaits := awaiting_turn h hnext
    · exact .inl (.inl hsent)
    · exact (ih hwaits hlater).imp_left .inr

end

/-- An observation with a new key is kept, and sent before or with any flush that the session takes as a whole,
exactly when there are fewer keys than the capacity. -/
theorem fresh_observation_sent_iff (queueCapacity : Nat) (history : List Turn) (observation : ReleaseObservation) :
    let s := (trace (turn queueCapacity) new history).2
    s.releasePending.lookup (releaseObservationKey observation) = none →
    (((bufferStreamItem queueCapacity s observation).1 ∧ ∀ later taken, (∀ next ∈ later, ¬ Replaces observation next) →
        let t := trace (turn queueCapacity) (bufferStreamItem queueCapacity s observation).2 later
        t.2.releasePending.values.length ≤ taken →
        observation ∈ t.1.flatMap Prod.snd ++ (turn queueCapacity t.2 (.flush taken)).1) ↔
      s.releasePending.entries.length < queueCapacity) := by
  intro s hnew
  have hkept : (bufferStreamItem queueCapacity s observation).1 ↔ s.releasePending.entries.length < queueCapacity := by
    simp only [bufferStreamItem, hnew, ne_eq, not_true_eq_false, or_false]
    split <;> simp [*]
  refine ⟨fun h => hkept.mp h.1, fun hroom => ⟨hkept.mpr hroom, fun later taken hlater => ?_⟩⟩
  intro t htaken
  rw [mem_append]
  refine (awaiting_run (awaiting_bufferStreamItem (hkept.mpr hroom)) hlater).imp_right fun hwaits => ?_
  rw [turn, flushReleaseObservations, if_neg (by rw [hwaits.dirty]; decide), take_of_length_le htaken]
  exact mem_map_of_mem hwaits.kept

def snapshotOf (digest : UInt8) : ReleaseObservation :=
  .snapshot Uuid.nil ⟨"", 0, true, true, Bytes.ByteVec.fill 32 digest, 0, 0, 0⟩

/-- After the first observation was sent, the next one is kept and sent too, by another session. -/
theorem second_observation_sent :
    let s := (trace (turn 2) new [.item (snapshotOf 0), .flush 1]).2
    let t := trace (turn 2) (bufferStreamItem 2 s (snapshotOf 1)).2 [.connect]
    (bufferStreamItem 2 s (snapshotOf 1)).1 ∧
      snapshotOf 1 ∈ t.1.flatMap Prod.snd ++ (turn 2 t.2 (.flush 2)).1 := by
  obtain ⟨hkept, hsent⟩ := (fresh_observation_sent_iff 2 [.item (snapshotOf 0), .flush 1] (snapshotOf 1)
    (by decide +kernel)).mpr (by decide +kernel)
  exact ⟨hkept, hsent [.connect] 2 (by simp [Replaces]) (by decide +kernel)⟩

/-- The only kept observation was sent, and the next one is dropped. -/
theorem fresh_observation_dropped :
    let history := [.item (snapshotOf 0), .flush 1]
    let s := (trace (turn 1) new history).2
    (trace (turn 1) new history).1.flatMap Prod.snd = s.releasePending.values ∧ s.releaseDirty = false ∧
      s.releasePending.lookup (releaseObservationKey (snapshotOf 1)) = none ∧
      (bufferStreamItem 1 s (snapshotOf 1)).1 = false := by
  decide +kernel

end Okoscope.Agent.ReleaseStream
