import Okoscope.Agent.ResourceSampling

/-!
# Limits of the processor

A quota and a period are read from one file and merged each on its own. A container
without a finite quota has a period but no quota, and so has every aggregate that is
merged from such containers only. If no container is unlimited, the limits of an
aggregate are both there or both missing, and they are those of one reading.
-/
namespace Okoscope.Agent.ResourceLimits

open Lib Lib.Outcome EventModel Config
open ResourceSnapshot ResourceSampling ResourceSampling.ResourceSampler

/-- A scan reads the limits of a container that is attributed to a workload. -/
def Reads (scan : Scan) (quota : Option UInt64) (period : UInt64) : Prop :=
  ∃ cgroups, scan.cgroups = .ok cgroups ∧ ∃ cgroup ∈ cgroups, (scan.resolve cgroup.containerId).isSome ∧
    readLimitPair (scan.files cgroup.path) "cpu.max" = some (quota, period)

/-- Both limits are missing, or both are there and come from one reading. -/
def Coherent (scans : List Scan) (values : ResourceValues) : Prop :=
  (values.cpuQuotaUsec = none ∧ values.cpuPeriodUsec = none) ∨
    ∃ quota period, values.cpuQuotaUsec = some quota ∧ values.cpuPeriodUsec = some period ∧
      ∃ scan ∈ scans, Reads scan (some quota) period

variable {values : ResourceValues} {scans : List Scan}

theorem Coherent.isSome_eq (h : Coherent scans values) : values.cpuQuotaUsec.isSome = values.cpuPeriodUsec.isSome := by
  rcases h with ⟨hquota, hperiod⟩ | ⟨quota, period, hquota, hperiod, -⟩
  · rw [hquota, hperiod]
  · rw [hquota, hperiod]
    rfl

/-- A merge has the limits of the later values if these have any. -/
theorem Coherent.merge {target value : ResourceValues} (htarget : Coherent scans target)
    (hvalue : Coherent scans value) : Coherent scans (mergeValues target value) := by
  rcases hvalue with ⟨hquota, hperiod⟩ | ⟨quota, period, hquota, hperiod, hreads⟩
  · simpa only [Coherent, mergeValues, hquota, hperiod, Option.none_or, Option.orElse_eq_orElse,
      Option.orElse_eq_or] using htarget
  · refine .inr ⟨quota, period, ?_, ?_, hreads⟩
    · simp [mergeValues, hquota]
    · simp [mergeValues, hperiod]

/-- Some container of the scan has no finite quota. -/
def Unlimited (scan : Scan) : Prop := ∃ period, Reads scan none period

/-- The contribution of a container that is not unlimited is coherent. -/
theorem coherent_of_observe {scan : Scan} (hscan : scan ∈ scans) (hlimited : ¬ Unlimited scan)
    {sampler : ResourceSampler} {cgroups : List ContainerCgroup} (hcgroups : scan.cgroups = .ok cgroups)
    {cgroup : ContainerCgroup} (hcgroup : cgroup ∈ cgroups) {contribution : Contribution}
    (h : (sampler.observe scan cgroup).1 = some contribution) : Coherent scans contribution.values := by
  obtain ⟨hresolve, _, hdelta⟩ := observe_eq_some h
  unfold delta at hdelta
  simp only [bind_eq_ok, pure_eq_ok] at hdelta
  -- one step for each counter; none of them touches the limits
  obtain ⟨_, -, _, -, _, -, _, -, _, -, _, -, _, -, _, -, _, -, _, -, _, -, _, -, _, -, _, -, _, -, _, -, _, -, _, -,
    _, -, hvalues⟩ := hdelta
  unfold Coherent
  rw [← hvalues]
  unfold readSnapshot
  cases hpair : readLimitPair (scan.files cgroup.path) "cpu.max" with
  | none => exact .inl ⟨rfl, rfl⟩
  | some pair =>
    obtain ⟨quota, period⟩ := pair
    have hreads : Reads scan quota period := ⟨cgroups, hcgroups, cgroup, hcgroup, Option.isSome_of_mem hresolve, hpair⟩
    cases quota with
    | none => exact absurd ⟨period, hreads⟩ hlimited
    | some quota => exact .inr ⟨quota, period, rfl, rfl, scan, hscan, hreads⟩

/-- In every run of the sampler whose scans meet no container without a finite quota, every aggregate that
is completed has both limits or none, both from one reading, and passes the check of its limits. -/
theorem limits_coherent (config : ResourceObservationConfig) (scans : List Scan)
    (h : ∀ scan ∈ scans, ¬ Unlimited scan) : ∀ entry ∈ ((new config).sampleAll scans).1, ∀ value ∈ entry.2,
      Coherent scans value.2.values ∧ value.2.validate ≠ .error .cpuLimit := by
  have hadd : ∀ scan ∈ scans, ∀ (sampler : ResourceSampler) cgroups, scan.cgroups = .ok cgroups →
      ∀ cgroup ∈ cgroups, ∀ contribution, (sampler.observe scan cgroup).1 = some contribution →
        ∀ bucket : OpenAggregate, Coherent scans bucket.values → Coherent scans (bucket.add contribution).values := by
    intro scan hscan sampler cgroups hcgroups cgroup hcgroup contribution hcontribution bucket hbucket
    exact hbucket.merge (coherent_of_observe hscan (h scan hscan) hcgroups hcgroup hcontribution)
  have hempty : ∀ entry ∈ (new config).openAggregates.entries, Coherent scans entry.2.values := by
    intro entry hentry
    cases hentry
  intro entry hentry value hvalue
  obtain ⟨_, _, _, hcoherent, rfl⟩ :=
    forall_completed (fun _ => .inl ⟨rfl, rfl⟩) hadd hempty entry hentry value hvalue
  exact ⟨hcoherent, ResourceAggregate.validate_ne_cpuLimit (Coherent.isSome_eq hcoherent)⟩

/-! ## Limited and unlimited containers -/

/-- A container with the text of its limits. -/
def limitedTo (cpuMax : String) (second : Int) : Scan where
  now := second * 1000000000
  cgroups := .ok [⟨1, "a", "/a"⟩]
  resolve := fun _ => some paymentApi
  files := fun _ name => if name = "cpu.max" then some cpuMax else none
  ids := fun _ => Uuid.nil

/-- Scans over the end of a minute. -/
def overMinute (cpuMax : String) : List Scan := [0, 10, 70].map (limitedTo cpuMax)

theorem limits_coherent_halfCore : (∃ entry ∈ ((new {}).sampleAll (overMinute "50000 100000")).1, ∃ value ∈ entry.2,
      value.2.values.cpuQuotaUsec = some 50000) ∧
      ∀ entry ∈ ((new {}).sampleAll (overMinute "50000 100000")).1, ∀ value ∈ entry.2,
        Coherent (overMinute "50000 100000") value.2.values ∧ value.2.validate ≠ .error .cpuLimit := by
  refine ⟨by decide +kernel, limits_coherent {} (overMinute "50000 100000") ?_⟩
  intro scan hscan hunlimited
  obtain ⟨_, -, rfl⟩ := List.mem_map.mp hscan
  obtain ⟨_, _, -, _, -, -, hpair⟩ := hunlimited
  have hread : readLimitPair ((limitedTo "50000 100000" 0).files "/a") "cpu.max" = some (some 50000, 100000) := by
    decide +kernel
  cases hread.symm.trans hpair

/-- The aggregate of a container without a finite quota has a period only, and the check rejects it. -/
theorem limits_incoherent_unlimited : ∃ entry ∈ ((new {}).sampleAll (overMinute "max 100000")).1, ∃ value ∈ entry.2,
      ¬ Coherent (overMinute "max 100000") value.2.values ∧ value.2.validate = .error .cpuLimit := by
  have hrun : ∃ entry ∈ ((new {}).sampleAll (overMinute "max 100000")).1, ∃ value ∈ entry.2,
      value.2.values.cpuQuotaUsec.isSome ≠ value.2.values.cpuPeriodUsec.isSome ∧
        value.2.validate = .error .cpuLimit := by
    decide +kernel
  obtain ⟨entry, hentry, value, hvalue, hlimits, hvalidate⟩ := hrun
  exact ⟨entry, hentry, value, hvalue, fun hcoherent => hlimits hcoherent.isSome_eq, hvalidate⟩

end Okoscope.Agent.ResourceLimits
