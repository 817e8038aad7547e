import Mathlib.Data.List.Destutter
import Mathlib.Data.List.Sort
import Okoscope.Lib.Outcome
import Okoscope.Lib.Text
import Okoscope.Lib.Time
import Okoscope.Lib.Uuid
import Okoscope.Lib.Word

/-!
# Process-start and named-thread lifecycle evidence

Generations name one lifetime of a process inside an observation epoch. Thread
activity windows carry counters that must add up over exactly one minute.
-/
namespace Okoscope.EventModel

open Lib Lib.Outcome List

def maxThreadNameBytes : Nat := 15
def maxThreadNames : Nat := 64
def threadWindowSeconds : Int := 60

structure ProcessIdentity where
  cgroupId : UInt64
  pid : UInt32
  tgid : UInt32
  command : String
  deriving DecidableEq

inductive BaselineProvenance where
  | observed
  | snapshot
  | unavailable
  deriving DecidableEq, Repr

inductive ThreadGapReason where
  | kernelLoss
  | decodeFailure
  | attributionFailure
  | stateCapacity
  | snapshotRace
  | snapshotPermission
  | snapshotTruncated
  | deliveryGap
  deriving DecidableEq, Repr

/-- The discriminant the source sorts by. -/
def ThreadGapReason.rank : ThreadGapReason → Nat
  | .kernelLoss => 0
  | .decodeFailure => 1
  | .attributionFailure => 2
  | .stateCapacity => 3
  | .snapshotRace => 4
  | .snapshotPermission => 5
  | .snapshotTruncated => 6
  | .deliveryGap => 7

structure ProcessGenerationIdentity where
  generation : UInt64
  observationEpoch : Uuid
  startObserved : Bool
  deriving DecidableEq

structure ProcessStart where
  generation : ProcessGenerationIdentity
  parentPid : UInt32
  parentTgid : UInt32
  parentCommand : String
  deriving DecidableEq

structure ThreadNameAggregate where
  name : String
  created : UInt64
  exited : UInt64
  active : UInt64
  deriving DecidableEq

structure ThreadActivityWindow where
  id : Uuid
  process : ProcessIdentity
  generation : ProcessGenerationIdentity
  windowStartedAt : DateTime
  windowEndedAt : DateTime
  created : UInt64
  exited : UInt64
  activeAtStart : UInt64
  activeAtEnd : UInt64
  peakActive : UInt64
  names : List ThreadNameAggregate
  baselineProvenance : BaselineProvenance
  baselineComplete : Bool
  nameOverflow : UInt64
  gaps : List ThreadGapReason
  deriving DecidableEq

inductive LifecycleValidationError where
  | invalidIdentifier
  | invalidBounds
  | invalidCounters
  | invalidName
  | nameCapacity
  | duplicateGap
  deriving DecidableEq, Repr

/-- A thread or command name: short, non-empty and free of control characters. -/
def validName (value : String) : Bool :=
  value ≠ "" && Text.len value ≤ maxThreadNameBytes && !Text.contains value '\x00' &&
    !value.toList.any Text.isControl

/-- Sum of two 64-bit counters, unless it overflows. -/
def checkedAdd (a b : UInt64) : Option UInt64 :=
  if a.toNat + b.toNat < 2 ^ 64 then some (a + b) else none

def checkedSum (values : List UInt64) : Except LifecycleValidationError UInt64 :=
  values.foldlM (fun sum value => okOr (checkedAdd sum value) .invalidCounters) 0

def ProcessGenerationIdentity.validate (g : ProcessGenerationIdentity) : Except LifecycleValidationError Unit :=
  if g.generation = 0 ∨ g.observationEpoch = Uuid.nil then .error .invalidIdentifier else .ok ()

def ProcessStart.validate (s : ProcessStart) : Except LifecycleValidationError Unit := do
  s.generation.validate
  if ¬ s.generation.startObserved ∨ s.parentPid = 0 ∨ s.parentTgid = 0 ∨ ¬ validName s.parentCommand then
    .error .invalidIdentifier
  else .ok ()

namespace ThreadActivityWindow

/-- Walks the aggregates with the set of names seen so far. -/
def validateNameEntries : List String → List ThreadNameAggregate → Except LifecycleValidationError Unit
  | _, [] => .ok ()
  | seen, entry :: rest =>
    if ¬ validName entry.name ∨ entry.name ∈ seen then .error .invalidName
    else validateNameEntries (entry.name :: seen) rest

def validateNames (w : ThreadActivityWindow) : Except LifecycleValidationError Unit :=
  if maxThreadNames + 2 < w.names.length then .error .nameCapacity
  else validateNameEntries [] w.names

/-- The window's own totals against its start, its end and its peak. -/
def validateCounters (w : ThreadActivityWindow) : Except LifecycleValidationError Unit := do
  let expectedEnd ← okOr (checkedAdd w.activeAtStart w.created) .invalidCounters
  if expectedEnd < w.exited ∨ expectedEnd - w.exited ≠ w.activeAtEnd ∨
      w.peakActive < max w.activeAtStart w.activeAtEnd ∨ w.peakActive > expectedEnd then
    .error .invalidCounters
  else .ok ()

/-- The sums over the names against the window's totals. -/
def validateNameTotals (w : ThreadActivityWindow) : Except LifecycleValidationError Unit := do
  let nameCreated ← checkedSum (w.names.map (·.created))
  let nameExited ← checkedSum (w.names.map (·.exited))
  let nameActive ← checkedSum (w.names.map (·.active))
  if nameCreated ≠ w.created ∨ nameExited ≠ w.exited ∨ nameActive ≠ w.activeAtEnd ∨
      (w.baselineComplete ∧ (w.baselineProvenance = .unavailable ∨ w.gaps ≠ [])) then
    .error .invalidCounters
  else .ok ()

/-- Sorting and removing neighbours must not lose a reason. -/
def validateGaps (w : ThreadActivityWindow) : Except LifecycleValidationError Unit :=
  let sorted := w.gaps.insertionSort (fun a b => a.rank ≤ b.rank)
  if (sorted.destutter (· ≠ ·)).length ≠ w.gaps.length then .error .duplicateGap else .ok ()

def validate (w : ThreadActivityWindow) : Except LifecycleValidationError Unit := do
  w.generation.validate
  if w.id = Uuid.nil ∨ w.process.cgroupId = 0 ∨ w.process.pid = 0 ∨ w.process.pid ≠ w.process.tgid then
    .error .invalidIdentifier
  else if w.windowEndedAt - w.windowStartedAt ≠ threadWindowSeconds * DateTime.nanosPerSecond then
    .error .invalidBounds
  else do
    w.validateCounters
    w.validateNames
    w.validateNameTotals
    w.validateGaps

end ThreadActivityWindow

theorem ProcessGenerationIdentity.validate_eq_ok {g : ProcessGenerationIdentity} :
    g.validate = .ok () ↔ g.generation ≠ 0 ∧ g.observationEpoch ≠ Uuid.nil := by
  simp [validate, not_or]

/-! ## Windows that pass -/

/-- The sum is exact, or refused when it does not fit. -/
theorem checkedSum_eq_ok {values : List UInt64} {sum : UInt64} :
    checkedSum values = .ok sum ↔ (values.map UInt64.toNat).sum = sum.toNat := by
  have hfrom : ∀ start : UInt64,
      values.foldlM (fun sum value => okOr (checkedAdd sum value) LifecycleValidationError.invalidCounters) start =
        .ok sum ↔ start.toNat + (values.map UInt64.toNat).sum = sum.toNat := by
    induction values with
    | nil =>
      intro start
      rw [foldlM_nil, pure_eq_ok, ← UInt64.toNat_inj]
      rfl
    | cons value _ ih =>
      intro start
      rw [foldlM_cons, map_cons, sum_cons]
      by_cases hfits : start.toNat + value.toNat < 2 ^ 64
      · have hadd : (start + value).toNat = start.toNat + value.toNat := by
          rw [UInt64.toNat_add, Nat.mod_eq_of_lt hfits]
        rw [checkedAdd, if_pos hfits]
        refine (ih (start + value)).trans ?_
        rw [hadd, Nat.add_assoc]
      · rw [checkedAdd, if_neg hfits]
        have hlt := sum.toNat_lt
        constructor
        · intro h
          cases h
        · omega
  rw [checkedSum, hfrom 0, UInt64.toNat_zero, Nat.zero_add]

namespace ThreadActivityWindow

/-- Valid names pass if they differ from each other and from those seen. -/
theorem validateNameEntries_eq_ok {seen : List String} {entries : List ThreadNameAggregate}
    (hvalid : ∀ e ∈ entries, validName e.name) (hseen : ∀ e ∈ entries, e.name ∉ seen)
    (hnodup : (entries.map (·.name)).Nodup) : validateNameEntries seen entries = .ok () := by
  induction entries generalizing seen with
  | nil => rfl
  | cons e _ ih =>
    obtain ⟨hfirst, hrest⟩ := nodup_cons.mp hnodup
    have he : ¬ (¬ validName e.name ∨ e.name ∈ seen) := by
      rw [not_or, not_not]
      exact ⟨hvalid e mem_cons_self, hseen e mem_cons_self⟩
    rw [validateNameEntries, if_neg he]
    refine ih (fun e' he' => hvalid e' (mem_cons_of_mem _ he')) ?_ hrest
    intro e' he' hmem
    obtain hsame | hmem := mem_cons.mp hmem
    · exact hfirst (mem_map.mpr ⟨e', he', hsame⟩)
    · exact hseen e' (mem_cons_of_mem _ he') hmem

variable {w : ThreadActivityWindow}

/-- Sorting a list without repetitions leaves no neighbours to merge. -/
theorem validateGaps_eq_ok (h : w.gaps.Nodup) : w.validateGaps = .ok () := by
  have hperm := perm_insertionSort (fun a b : ThreadGapReason => a.rank ≤ b.rank) w.gaps
  have hchain := List.Pairwise.isChain (hperm.nodup_iff.mpr h)
  have hsorted := destutter_of_isChain (R := (· ≠ ·)) _ hchain
  simp [validateGaps, hsorted, hperm.length_eq]

/-- The counters of a window, as numbers. -/
structure Reconciles (w : ThreadActivityWindow) : Prop where
  balance : w.activeAtStart.toNat + w.created.toNat = w.activeAtEnd.toNat + w.exited.toNat
  fits : w.activeAtStart.toNat + w.created.toNat < 2 ^ 64
  start_le_peak : w.activeAtStart.toNat ≤ w.peakActive.toNat
  end_le_peak : w.activeAtEnd.toNat ≤ w.peakActive.toNat
  peak_le : w.peakActive.toNat ≤ w.activeAtStart.toNat + w.created.toNat
  created : (w.names.map (·.created.toNat)).sum = w.created.toNat
  exited : (w.names.map (·.exited.toNat)).sum = w.exited.toNat
  active : (w.names.map (·.active.toNat)).sum = w.activeAtEnd.toNat

theorem Reconciles.validateCounters (h : w.Reconciles) : w.validateCounters = .ok () := by
  have hadd : (w.activeAtStart + w.created).toNat = w.activeAtStart.toNat + w.created.toNat := by
    rw [UInt64.toNat_add, Nat.mod_eq_of_lt h.fits]
  have hexited : w.exited ≤ w.activeAtStart + w.created := by
    rw [UInt64.le_iff_toNat_le, hadd, h.balance]
    omega
  have hlow : ¬ w.activeAtStart + w.created < w.exited := UInt64.not_lt.mpr hexited
  have hend : w.activeAtStart + w.created - w.exited = w.activeAtEnd := by
    rw [← UInt64.toNat_inj, UInt64.toNat_sub_of_le _ _ hexited, hadd, h.balance]
    omega
  have hpeak : ¬ w.peakActive > w.activeAtStart + w.created := by
    rw [gt_iff_lt, UInt64.lt_iff_toNat_lt, hadd]
    have := h.peak_le
    omega
  have hmax : ¬ w.peakActive < max w.activeAtStart w.activeAtEnd := by
    rw [UInt64.lt_iff_toNat_lt, Word.toNat_max]
    have hstart := h.start_le_peak
    have hlast := h.end_le_peak
    omega
  rw [ThreadActivityWindow.validateCounters, checkedAdd, if_pos h.fits]
  exact if_neg (not_or.mpr ⟨hlow, not_or.mpr ⟨not_not.mpr hend, not_or.mpr ⟨hmax, hpeak⟩⟩⟩)

/-- The rest of what is checked. -/
structure WellFormed (w : ThreadActivityWindow) : Prop where
  generation : w.generation.validate = .ok ()
  id : w.id ≠ Uuid.nil
  cgroupId : w.process.cgroupId ≠ 0
  pid : w.process.pid ≠ 0
  leader : w.process.pid = w.process.tgid
  bounds : w.windowEndedAt - w.windowStartedAt = threadWindowSeconds * DateTime.nanosPerSecond
  few : w.names.length ≤ maxThreadNames + 2
  valid : ∀ e ∈ w.names, validName e.name
  distinct : (w.names.map (·.name)).Nodup
  complete : w.baselineComplete → w.baselineProvenance ≠ .unavailable ∧ w.gaps = []
  gaps : w.gaps.Nodup

/-- A window that is well formed and whose counters add up is valid. -/
theorem validate_eq_ok (h : w.WellFormed) (hcounters : w.Reconciles) : w.validate = .ok () := by
  have hidentity : ¬ (w.id = Uuid.nil ∨ w.process.cgroupId = 0 ∨ w.process.pid = 0 ∨ w.process.pid ≠ w.process.tgid) := by
    simp only [not_or, not_not]
    exact ⟨h.id, h.cgroupId, h.pid, h.leader⟩
  have hnames : w.validateNames = .ok () := by
    rw [validateNames, if_neg (Nat.not_lt.mpr h.few)]
    exact validateNameEntries_eq_ok h.valid (fun _ _ => not_mem_nil) h.distinct
  have htotals : w.validateNameTotals = .ok () := by
    have hcreated : checkedSum (w.names.map (·.created)) = .ok w.created := by
      rw [checkedSum_eq_ok, map_map]
      exact hcounters.created
    have hexited : checkedSum (w.names.map (·.exited)) = .ok w.exited := by
      rw [checkedSum_eq_ok, map_map]
      exact hcounters.exited
    have hactive : checkedSum (w.names.map (·.active)) = .ok w.activeAtEnd := by
      rw [checkedSum_eq_ok, map_map]
      exact hcounters.active
    rw [validateNameTotals, hcreated, hexited, hactive]
    show (if _ then _ else _) = _
    rw [if_neg]
    simp only [ne_eq, not_true_eq_false, false_or, not_and, not_or, not_not]
    exact h.complete
  rw [validate, h.generation]
  rw [if_neg hidentity, if_neg (not_not.mpr h.bounds), hcounters.validateCounters, hnames, htotals, validateGaps_eq_ok h.gaps]
  rfl

/-- A valid window has a sum of what its names created. -/
theorem created_of_validate (h : w.validate = .ok ()) : (w.names.map (·.created.toNat)).sum < 2 ^ 64 := by
  simp only [validate, bind_unit_eq_ok, ite_error_eq_ok] at h
  obtain ⟨-, -, -, -, -, htotals, -⟩ := h
  obtain ⟨created, hcreated, -⟩ := bind_eq_ok.mp htotals
  rw [checkedSum_eq_ok, map_map] at hcreated
  exact hcreated.trans_lt created.toNat_lt

end ThreadActivityWindow
end Okoscope.EventModel
