import Okoscope.Lib.Double
import Okoscope.Server.ResourceAccounting

/-!
# Whether metrics are finite

A metric is a quotient of counts, and a count that is divided by is looked at first. The
rates of operations are the exception: an aggregate may cover no time.
-/
namespace Okoscope.Server.Resources

open Lib Lib.Double
open EventModel
open List

variable {r : Rounding}

instance : Doubles (Double r) where
  ofNat n := of n
  add := add
  sub := sub
  mul := mul
  div := div
  least := lift fun a b => some (min a b)
  greatest := lift fun a b => some (max a b)
  positive := Option.any (0 < ·)

/-- The values and limits are finite and not negative. -/
def AllFinite (metrics : List (MetricContribution (Double r))) : Prop :=
  ∀ m ∈ metrics, Nonneg m.value ∧ ∀ limit ∈ m.limit, Nonneg limit

theorem allFinite_append {l l' : List (MetricContribution (Double r))} :
    AllFinite (l ++ l') ↔ AllFinite l ∧ AllFinite l' := forall_mem_append

theorem allFinite_flatMap {ν : Type} {rows : List ν} {push : ν → List (MetricContribution (Double r))}
    (h : ∀ row, AllFinite (push row)) : AllFinite (rows.flatMap push) :=
  forall_mem_flatMap.mpr fun row _ => h row

variable {v : UInt64} {n : ℕ} {name unit : String} {x y : Double r}

theorem allFinite_one : AllFinite [⟨name, unit, x, none⟩] ↔ Nonneg x := by simp [AllFinite]

theorem allFinite_limited : AllFinite [⟨name, unit, x, some y⟩] ↔ Nonneg x ∧ Nonneg y := by simp [AllFinite]

theorem scaled_ofNat (h : 0 < n) (hn : n < 2 ^ 64) : Scaled 64 (Doubles.ofNat n : Double r) :=
  scaled_of (by decide)
    ⟨(zpow_le_one_of_nonpos₀ one_le_two (by decide)).trans (by exact_mod_cast h), by exact_mod_cast hn.le⟩

theorem scaled_u64 (h : 0 < v) : Scaled 64 (u64AsF64 v : Double r) := scaled_ofNat h v.toNat_lt

theorem u64_zero : (u64AsF64 0 : Double r) = some 0 := of_zero

theorem tame_u64 : Tame 64 (u64AsF64 v : Double r) :=
  tame_of (by decide) (Nat.cast_nonneg _) (by exact_mod_cast v.toNat_lt.le)

theorem tame_quotient (hy : Scaled 64 y) : Tame 128 (Doubles.div (u64AsF64 v) y) :=
  .div (m := 64) (by decide) tame_u64 hy

theorem scaled_million : Scaled 64 (Doubles.ofNat 1000000 : Double r) := scaled_ofNat (by decide) (by decide)

theorem tame_perSecond (hy : Scaled 64 y) : Tame 192 (perSecond v y) :=
  .div (m := 128) (by decide) (.mul (m := 64) (by decide) tame_u64 scaled_million.tame) hy

theorem allFinite_pushRatio {numerator denominator : Option UInt64} :
    AllFinite (r := r) (pushRatio name unit numerator denominator) := by
  unfold pushRatio
  split
  · split
    next hd => exact allFinite_one.mpr (tame_quotient (scaled_u64 hd)).nonneg
    · exact nofun
  · exact nofun

section
variable (hy : Scaled 64 y)
include hy

theorem allFinite_pushScaled {value : Option UInt64} : AllFinite (pushScaled name unit value y) := by
  cases value with
  | none => exact nofun
  | some => exact allFinite_one.mpr (tame_quotient hy).nonneg

theorem allFinite_pushGauge {sum limit : Option UInt64} : AllFinite (pushGauge name unit sum limit y) := by
  cases sum with
  | none => exact nofun
  | some v =>
    have hvalue := (tame_quotient (v := v) hy).nonneg
    cases limit with
    | none => exact allFinite_one.mpr hvalue
    | some => exact allFinite_limited.mpr ⟨hvalue, tame_u64.nonneg⟩

theorem allFinite_pushMemoryHeadroom {values : ResourceValues} : AllFinite (pushMemoryHeadroom values y) := by
  unfold pushMemoryHeadroom
  split
  next sum limit _ _ =>
    split
    next hlimit =>
      obtain ⟨q, hq⟩ := exists_sub_div (by decide) (by decide) (scaled_u64 hlimit) (tame_quotient (v := sum) hy)
      refine allFinite_limited.mpr ⟨⟨max q 0, ?_, le_max_right _ _⟩, tame_u64.nonneg⟩
      exact congrArg₂ Doubles.greatest hq u64_zero
    · exact nofun
  · exact nofun

end

theorem allFinite_pushRate {value : Option UInt64} {covered : UInt64} :
    AllFinite (r := r) (pushRate name unit value (u64AsF64 covered)) := by
  unfold pushRate
  split
  · split
    next hpositive =>
      refine allFinite_one.mpr (tame_perSecond (scaled_u64 (UInt64.pos_iff_ne_zero.mpr ?_))).nonneg
      rintro rfl
      rw [u64_zero] at hpositive
      cases hpositive
    · exact nofun
  · exact nofun

section
variable {values : ResourceValues} {covered : UInt64}

theorem allFinite_pushCpuQuota : AllFinite (r := r) (pushCpuQuota values covered) := by
  unfold pushCpuQuota
  split
  · split
    next h =>
      obtain ⟨hq, hp, hc⟩ := h
      have hquota := (scaled_u64 (r := r) hq).div (by decide) (scaled_u64 hp)
      exact allFinite_limited.mpr ⟨((tame_quotient (scaled_u64 hc)).div (by decide) hquota).nonneg, hquota.tame.nonneg⟩
    · exact nofun
  · exact nofun

/-- A rate of operations over no time is no number. -/
theorem allFinite_pushIoRates : AllFinite (r := r) (pushIoRates values (u64AsF64 covered)) ↔
      (covered = 0 → values.ioReadOperations = none ∧ values.ioWriteOperations = none) := by
  have hrate : ∀ {value : UInt64}, Nonneg (perSecond value (u64AsF64 covered) : Double r) ↔ covered ≠ 0 := by
    intro value
    constructor
    · rintro ⟨q, hq, -⟩ rfl
      rw [perSecond, u64_zero] at hq
      exact nomatch hq.symm.trans div_zero
    · intro h
      exact (tame_perSecond (scaled_u64 (UInt64.pos_iff_ne_zero.mpr h))).nonneg
  cases hread : values.ioReadOperations <;> cases hwrite : values.ioWriteOperations <;>
    simp [pushIoRates, AllFinite, hread, hwrite, hrate]

theorem allFinite_metricContributions {sampleCount : UInt32} :
    AllFinite (r := r) (metricContributions values covered sampleCount) ↔
      (covered = 0 → values.ioReadOperations = none ∧ values.ioWriteOperations = none) := by
  have hsamples : Scaled 64 (Doubles.ofNat (max sampleCount.toNat 1) : Double r) := by
    have hlt := sampleCount.toNat_lt
    exact scaled_ofNat (by omega) (by omega)
  have hone : Scaled 64 (Doubles.ofNat 1 : Double r) := scaled_ofNat (by decide) (by decide)
  have hcounts : AllFinite (r := r) (pushCountMetrics values) := allFinite_flatMap fun _ => allFinite_pushScaled hone
  have hpressure : AllFinite (r := r) (pushPressureMetrics values covered) :=
    allFinite_flatMap fun _ => allFinite_pushRatio
  rw [← allFinite_pushIoRates (r := r)]
  simp [metricContributions, pushMemoryMetrics, allFinite_append, allFinite_pushRatio, allFinite_pushCpuQuota,
    allFinite_pushScaled scaled_million, allFinite_pushScaled hone, allFinite_pushGauge hsamples,
    allFinite_pushMemoryHeadroom hsamples, hcounts, hpressure, allFinite_pushRate]

end

/-- The metrics of an aggregate are finite and not negative, with each name once, exactly if it
covers some time or counts no operations; whether it is accepted makes no difference. -/
theorem metrics_finite_iff (r : Rounding) (aggregate : ResourceAggregate) :
    let metrics := metricContributions (F := Double r) aggregate.values aggregate.coveredUsec aggregate.sampleCount
    (AllFinite metrics ∧ (metrics.map MetricContribution.name).Nodup) ↔
      (aggregate.coveredUsec = 0 → aggregate.values.ioReadOperations = none ∧ aggregate.values.ioWriteOperations = none) :=
  (and_iff_left (nodup_names _ _ _)).trans allFinite_metricContributions

/-- A minute of one read, all of it covered. -/
def coveredMinute : ResourceAggregate := { paymentMinute with values := { ioReadOperations := some 1 } }

theorem metrics_finite_coveredMinute :
    AllFinite (r := .exact)
      (metricContributions coveredMinute.values coveredMinute.coveredUsec coveredMinute.sampleCount) :=
  ((metrics_finite_iff .exact coveredMinute).mpr fun h => absurd h (by decide)).1

/-- A minute of which nothing was covered, with one read. -/
def uncoveredMinute : ResourceAggregate :=
  { paymentMinute with coveredUsec := 0, values := { ioReadOperations := some 1 } }

theorem uncovered_not_finite : uncoveredMinute.validate = .ok () ∧ ∀ r : Rounding,
    ¬AllFinite (r := r)
      (metricContributions uncoveredMinute.values uncoveredMinute.coveredUsec uncoveredMinute.sampleCount) := by
  refine ⟨by decide +kernel, fun r hfinite => ?_⟩
  exact nomatch (allFinite_metricContributions.mp hfinite rfl).1

end Okoscope.Server.Resources
