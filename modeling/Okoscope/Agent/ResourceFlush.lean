import Okoscope.Agent.ResourceSampling

/-!
# Completion of earlier minutes

Aggregates are kept in the order of their routes first and of their minutes second, and
completing them stops at the first one that is not due. So a flush is exact exactly if no
aggregate that is not due stands before one that is. Scans whose minutes never go back
keep all open aggregates in one minute, and then it is.
-/
namespace Okoscope.Agent.ResourceFlush

open Lib EventModel Config
open ResourceSampling ResourceSampling.ResourceSampler List

/-- A flush completes exactly the aggregates of minutes before the boundary, each once and with its route,
and leaves exactly the others. -/
structure FlushExact (sampler : ResourceSampler) (boundary : DateTime) (ids : Nat → Uuid) : Prop where
  completed : (sampler.flushBefore boundary ids).1 =
    completions ids (sampler.openAggregates.entries.filter fun entry => due boundary entry.1)
  left : (sampler.flushBefore boundary ids).2.openAggregates.entries =
    sampler.openAggregates.entries.filter fun entry => !due boundary entry.1

/-- No aggregate that is not due comes before one that is. -/
def DueFirst (sampler : ResourceSampler) (boundary : DateTime) : Prop :=
  ∀ entry ∈ sampler.openAggregates.entries, ∀ entry' ∈ sampler.openAggregates.entries, entry.1 < entry'.1 →
    due boundary entry'.1 → due boundary entry.1

/-- No open aggregate is of a minute before that of the time. -/
def NothingEarlier (sampler : ResourceSampler) (now : DateTime) : Prop :=
  ∀ entry ∈ sampler.openAggregates.entries, due (bucketStart now) entry.1 = false

instance (sampler : ResourceSampler) (now : DateTime) : Decidable (NothingEarlier sampler now) :=
  inferInstanceAs (Decidable (∀ entry ∈ _, _))

/-- What is left of a flush is not due exactly if no aggregate stood in the way of one that was. -/
theorem left_not_due_iff {sampler : ResourceSampler} {boundary : DateTime} (ids : Nat → Uuid) :
    (∀ entry ∈ (sampler.flushBefore boundary ids).2.openAggregates.entries, due boundary entry.1 = false) ↔
      DueFirst sampler boundary :=
  OrderedMap.forall_mem_dropWhile_iff.trans OrderedMap.pairwise_entries_iff

theorem flushExact_iff {sampler : ResourceSampler} (boundary : DateTime) (ids : Nat → Uuid) :
    FlushExact sampler boundary ids ↔ DueFirst sampler boundary := by
  rw [← left_not_due_iff ids]
  constructor
  · exact fun h => OrderedMap.dropWhile_eq_filter_iff.mp h.left
  intro h
  refine ⟨?_, OrderedMap.dropWhile_eq_filter_iff.mpr h⟩
  show completions ids (sampler.openAggregates.entries.takeWhile fun entry => due boundary entry.1) = _
  rw [OrderedMap.takeWhile_eq_filter h]

/-! ## Scans -/

variable {sampler : ResourceSampler}

variable {cgroups : List ContainerCgroup} {scan : Scan}

theorem bucketStart_sampleCgroups (p : DateTime → Prop) (hnow : p (bucketStart scan.now))
    (h : ∀ entry ∈ sampler.openAggregates.entries, p entry.1.bucketStart) :
    ∀ entry ∈ (sampler.sampleCgroups scan cgroups).2.openAggregates.entries, p entry.1.bucketStart := by
  refine sampleCgroups_invariant (fun sampler => ∀ entry ∈ sampler.openAggregates.entries, p entry.1.bucketStart) ?_ h
  intro sampler cgroup _ h entry hentry
  rcases sampleCgroup_cases with hnone | ⟨contribution, -, hadded⟩
  · rw [hnone] at hentry
    exact h entry hentry
  rw [hadded] at hentry
  rcases mem_entries_add hentry with hold | ⟨hkey, -⟩
  · exact h entry hold
  · rw [hkey]
    exact hnow

theorem exists_mem_sampleCgroups {key : AggregateKey} (h : ∃ bucket, (key, bucket) ∈ sampler.openAggregates.entries) :
    ∃ bucket, (key, bucket) ∈ (sampler.sampleCgroups scan cgroups).2.openAggregates.entries := by
  refine sampleCgroups_invariant (fun sampler => ∃ bucket, (key, bucket) ∈ sampler.openAggregates.entries) ?_ h
  rintro sampler cgroup - ⟨bucket, hbucket⟩
  rcases sampleCgroup_cases with hnone | ⟨contribution, -, hadded⟩
  · rw [hnone]
    exact ⟨bucket, hbucket⟩
  rw [hadded]
  by_cases hkey : key = contribution.key scan.now
  · exact ⟨_, OrderedMap.mem_entries_insert.mpr (.inl (by rw [hkey]))⟩
  · exact ⟨bucket, OrderedMap.mem_entries_insert.mpr (.inr ⟨hbucket, hkey⟩)⟩

theorem nothingEarlier_sample_iff (scan : Scan) :
    NothingEarlier (sampler.sample scan).2 scan.now ↔ DueFirst sampler (bucketStart scan.now) := by
  rw [← left_not_due_iff scan.ids]
  unfold sample
  cases hcgroups : scan.cgroups with
  | error => exact Iff.rfl
  | ok =>
    constructor
    · intro h entry hentry
      obtain ⟨bucket, hbucket⟩ := exists_mem_sampleCgroups ⟨entry.2, hentry⟩
      exact h (entry.1, bucket) hbucket
    · intro h
      exact bucketStart_sampleCgroups (fun start => decide (start < bucketStart scan.now) = false) (by simp) h

/-- Every flush of a sampler is exact for the boundaries, and every scan leaves nothing of an earlier minute
for the times, for which no aggregate that is not due comes before one that is. -/
theorem flush_exact_iff (sampler : ResourceSampler) :
    (∀ boundary ids, FlushExact sampler boundary ids ↔ DueFirst sampler boundary) ∧
      ∀ scan, NothingEarlier (sampler.sample scan).2 scan.now ↔ DueFirst sampler (bucketStart scan.now) :=
  ⟨flushExact_iff, nothingEarlier_sample_iff⟩

/-! ## Clocks that do not step back -/

/-- All open aggregates are of one minute. -/
def OneMinute (sampler : ResourceSampler) (start : DateTime) : Prop :=
  ∀ entry ∈ sampler.openAggregates.entries, entry.1.bucketStart = start

variable {start : DateTime}

section
variable (h : OneMinute sampler start)
include h

theorem OneMinute.dueFirst {boundary : DateTime} : DueFirst sampler boundary := by
  intro entry hentry entry' hentry' _ hdue
  unfold due at hdue ⊢
  rwa [h entry hentry, ← h entry' hentry']

theorem OneMinute.sample (hstart : start ≤ bucketStart scan.now) :
    OneMinute (sampler.sample scan).2 (bucketStart scan.now) := by
  have hleft : OneMinute (sampler.flushBefore (bucketStart scan.now) scan.ids).2 (bucketStart scan.now) := by
    intro entry hentry
    have hdue := (left_not_due_iff scan.ids).mpr h.dueFirst entry hentry
    have hminute := h entry (dropWhile_subset _ hentry)
    rw [due, decide_eq_false_iff_not, hminute] at hdue
    rw [hminute]
    exact le_antisymm hstart (not_lt.mp hdue)
  unfold ResourceSampler.sample
  cases scan.cgroups with
  | error => exact hleft
  | ok => exact bucketStart_sampleCgroups (· = bucketStart scan.now) rfl hleft

theorem OneMinute.sampleAll
    {scans : List Scan} (hscans : (start :: scans.map fun scan => bucketStart scan.now).Pairwise (· ≤ ·)) :
    ∃ last ∈ start :: scans.map (fun scan => bucketStart scan.now), OneMinute (sampler.sampleAll scans).2 last := by
  induction scans generalizing sampler start with
  | nil => exact ⟨start, mem_cons_self, h⟩
  | cons _ _ ih =>
    obtain ⟨hle, hrest⟩ := pairwise_cons.mp hscans
    obtain ⟨last, hlast, hminute⟩ := ih (h.sample (hle _ mem_cons_self)) hrest
    exact ⟨last, mem_cons_of_mem _ hlast, hminute⟩

end

/-- As long as the minutes of scans do not go back, every flush is exact and nothing of an earlier minute
is left after a scan. -/
theorem flushExact_of_ascending {config : ResourceObservationConfig} {scans : List Scan}
    (h : ((scans ++ [scan]).map fun scan => bucketStart scan.now).Pairwise (· ≤ ·)) :
    FlushExact ((new config).sampleAll scans).2 (bucketStart scan.now) scan.ids ∧
      NothingEarlier (((new config).sampleAll scans).2.sample scan).2 scan.now := by
  have hone : ∃ start, OneMinute ((new config).sampleAll scans).2 start := by
    cases scans with
    | nil => exact ⟨0, fun entry hentry => by cases hentry⟩
    | cons first =>
      have hempty : OneMinute (new config) (bucketStart first.now) := fun entry hentry => by cases hentry
      rw [map_append, pairwise_append] at h
      obtain ⟨last, -, hlast⟩ := (hempty.sample le_rfl).sampleAll h.1
      exact ⟨last, hlast⟩
  obtain ⟨_, hstart⟩ := hone
  exact ⟨(flushExact_iff _ _).mpr hstart.dueFirst, (nothingEarlier_sample_iff _).mpr hstart.dueFirst⟩

/-! ## A clock that steps back -/

def nodeAttribution (route : UInt8) : KubernetesAttribution :=
  { paymentApi with applicationId := Bytes.ByteVec.fill 16 route }

/-- Two containers of two routes, whose files cannot be read. -/
def twoRoutes (second : Int) : Scan where
  now := second * 1000000000
  cgroups := .ok [⟨1, "a", "/a"⟩, ⟨2, "b", "/b"⟩]
  resolve := fun id => some (nodeAttribution (if id = "a" then 1 else 2))
  files := fun _ _ => none
  ids := fun _ => Uuid.nil

theorem flushExact_twoRoutes :
    FlushExact ((new {}).sampleAll [twoRoutes 10, twoRoutes 50]).2 (bucketStart (twoRoutes 70).now) (twoRoutes 70).ids ∧
      NothingEarlier (((new {}).sampleAll [twoRoutes 10, twoRoutes 50]).2.sample (twoRoutes 70)).2 (twoRoutes 70).now :=
  flushExact_of_ascending (by decide)

/-- The clock goes back from the third minute to the second one, and on to the third one again. -/
def steppedBack : List Scan := [twoRoutes 130, twoRoutes 140, twoRoutes 100, twoRoutes 110, twoRoutes 130]

/-- After the last scan, in the third minute, the second route still has its aggregate of the second minute:
that of the first route, of the third minute, stood before it. -/
theorem earlier_minute_left_steppedBack : ((new {}).sampleAll steppedBack).2.openAggregates.entries.map
        (fun entry => (entry.1.routeId, entry.1.bucketStart)) =
      [(Bytes.ByteVec.fill 16 1, 120000000000), (Bytes.ByteVec.fill 16 2, 60000000000),
        (Bytes.ByteVec.fill 16 2, 120000000000)] ∧
      ¬ NothingEarlier ((new {}).sampleAll steppedBack).2 130000000000 := by
  decide +kernel

end Okoscope.Agent.ResourceFlush
