import Mathlib.Data.List.Lex
import Mathlib.Data.Prod.Lex
import Mathlib.Data.String.Basic
import Mathlib.Order.WithBot
import Okoscope.Agent.Config
import Okoscope.Agent.ResourceSnapshot
import Okoscope.Lib.OrderedMap

/-!
# The sampler of resource counters

Every scan reads the counters of all containers that are attributed to a workload, and
adds what they grew by since the scan before to the open aggregate of the workload and
the minute. Aggregates of earlier minutes are completed at the start of a scan.
-/
namespace Okoscope.Agent.ResourceSampling

open Lib Lib.Bytes Lib.FiniteMap EventModel
open Config ResourceSnapshot List

/-- How reading a directory can end; directories may vanish while they are read. -/
inductive IoErrorKind where
  | notFound
  | other
  deriving DecidableEq, Repr

/-- A directory of the tree of control groups that is taken for that of a container. -/
structure ContainerCgroup where
  inode : UInt64
  containerId : String
  path : String

structure LifetimeKey where
  inode : UInt64
  containerId : String
  deriving DecidableEq

@[ext] structure AggregateKey where
  routeId : Uuid
  bucketStart : DateTime
  «namespace» : String
  workloadUid : String
  workloadKind : String
  workloadName : String
  containerName : String
  releaseDigest : Option (ByteVec 32)
  deriving DecidableEq

namespace AggregateKey

def bytesOf {n : Nat} (bytes : ByteVec n) : List ℕ := bytes.toList.map UInt8.toNat

theorem bytesOf_injective {n : Nat} : Function.Injective (bytesOf (n := n)) := by
  intro a b h
  have hlist : a.toList = b.toList := map_injective_iff.mpr (fun _ _ => UInt8.toNat_inj.mp) h
  exact List.Vector.toList_injective hlist

/-- The fields in the order of their declaration, which is the order they are compared in. -/
def fields (key : AggregateKey) :
    List ℕ ×ₗ ℤ ×ₗ String ×ₗ String ×ₗ String ×ₗ String ×ₗ String ×ₗ WithBot (List ℕ) :=
  toLex (bytesOf key.routeId, toLex (key.bucketStart, toLex (key.namespace, toLex (key.workloadUid,
    toLex (key.workloadKind, toLex (key.workloadName, toLex (key.containerName,
      key.releaseDigest.map bytesOf)))))))

theorem fields_injective : Function.Injective fields := by
  intro a b h
  simp only [fields, toLex_inj, Prod.mk.injEq] at h
  obtain ⟨hroute, hstart, hnamespace, huid, hkind, hname, hlast⟩ := h
  obtain ⟨hcontainer, hdigest⟩ := Prod.mk.inj hlast
  rw [AggregateKey.ext_iff]
  exact ⟨bytesOf_injective hroute, hstart, hnamespace, huid, hkind, hname, hcontainer,
    Option.map_injective bytesOf_injective hdigest⟩

instance : LinearOrder AggregateKey := LinearOrder.lift' fields fields_injective

end AggregateKey

structure Previous where
  observedAt : DateTime
  snapshot : Snapshot

structure OpenAggregate where
  attribution : KubernetesAttribution
  coveredUsec : UInt64 := 0
  sampleCount : UInt32 := 0
  contributors : Finset LifetimeKey := ∅
  readyContainers : Finset LifetimeKey := ∅
  unavailable : UInt64 := 0
  values : ResourceValues := {}

structure ResourceSampler where
  stateLimit : Nat
  aggregateLimit : Nat
  sampleIntervalSeconds : UInt64
  previous : Map LifetimeKey Previous := ∅
  openAggregates : OrderedMap AggregateKey OpenAggregate := .empty

def new (config : ResourceObservationConfig) : ResourceSampler where
  stateLimit := config.maxCgroupStates
  aggregateLimit := config.maxOpenAggregates
  sampleIntervalSeconds := config.sampleIntervalSeconds

/-! ## Time -/

/-- The start of the minute; an instant whose minute starts before all instants is its own. -/
def bucketStart (now : DateTime) : DateTime :=
  let second := now / DateTime.nanosPerSecond
  (DateTime.fromTimestamp (second - second % 60) 0).getD now

/-- The microseconds of a duration, cut off towards zero, if they are a signed 64-bit number. -/
def numMicroseconds (duration : Int) : Option Int :=
  let micros := duration.tdiv 1000
  if -2 ^ 63 ≤ micros ∧ micros < 2 ^ 63 then some micros else none

/-- A signed 64-bit number as an unsigned one. -/
def tryFromSigned (value : Int) : Option UInt64 := if 0 ≤ value then some (UInt64.ofNat value.toNat) else none

/-- How much of a minute a sample covers: all the time since the one before. One that crosses into the minute
covers the interval between samples at most, and nothing if it is more than two seconds late. -/
def usableCoverage (previous current : DateTime) (sampleIntervalSeconds : UInt64) : Option UInt64 := do
  let micros ← numMicroseconds (current - previous)
  let covered ← tryFromSigned micros
  if bucketStart previous ≠ bucketStart current then
    if covered ≤ Word.saturatingMul (Word.saturatingAdd sampleIntervalSeconds 2) 1000000 then
      some (min covered (Word.saturatingMul sampleIntervalSeconds 1000000))
    else none
  else some covered

/-! ## Scans -/

/-- What a scan meets: the container directories, or the failure to find them; the attribution of each
container; the files of each directory; and the ids that are drawn for aggregates. -/
structure Scan where
  now : DateTime
  cgroups : Except IoErrorKind (List ContainerCgroup)
  resolve : String → Option KubernetesAttribution
  files : String → Files
  ids : Nat → Uuid

/-- What a container adds to an aggregate. -/
structure Contribution where
  attribution : KubernetesAttribution
  lifetime : LifetimeKey
  covered : UInt64
  unavailable : UInt64
  values : ResourceValues

def Contribution.key (contribution : Contribution) (now : DateTime) : AggregateKey where
  routeId := contribution.attribution.applicationId
  bucketStart := ResourceSampling.bucketStart now
  «namespace» := contribution.attribution.namespace
  workloadUid := contribution.attribution.workloadUid
  workloadKind := contribution.attribution.workloadKind
  workloadName := contribution.attribution.workloadName
  containerName := contribution.attribution.containerName
  releaseDigest := contribution.attribution.releaseIdentity.map ReleaseIdentity.digest

def OpenAggregate.add (bucket : OpenAggregate) (contribution : Contribution) : OpenAggregate :=
  { bucket with
    coveredUsec := Word.saturatingAdd bucket.coveredUsec contribution.covered
    sampleCount := Word.saturating32 (bucket.sampleCount.toNat + 1)
    contributors := insert contribution.lifetime bucket.contributors
    readyContainers := insert contribution.lifetime bucket.readyContainers
    unavailable := bucket.unavailable ||| contribution.unavailable
    values := mergeValues bucket.values contribution.values }

def lifetimeOf (cgroup : ContainerCgroup) : LifetimeKey := ⟨cgroup.inode, cgroup.containerId⟩

variable {sampler : ResourceSampler} {scan : Scan}

variable {entry : AggregateKey × OpenAggregate} {good : OpenAggregate → Prop} {contribution : Contribution}
variable {cgroup : ContainerCgroup}

namespace ResourceSampler

/-- What a container directory contributes, and what is remembered of it for the next scan. The first reading
of a container contributes nothing, and neither does one after which a counter was reset. -/
def observe (sampler : ResourceSampler) (scan : Scan) (cgroup : ContainerCgroup) :
    Option Contribution × Map LifetimeKey Previous :=
  match scan.resolve cgroup.containerId with
  | none => (none, sampler.previous)
  | some attribution =>
    let snapshot := readSnapshot (scan.files cgroup.path)
    let current : Previous := ⟨scan.now, snapshot⟩
    match sampler.previous.lookup (lifetimeOf cgroup) with
    | none =>
      (none, if size sampler.previous < sampler.stateLimit then sampler.previous.insert (lifetimeOf cgroup) current
        else sampler.previous)
    | some previous =>
      let contribution := do
        let covered ← usableCoverage previous.observedAt scan.now sampler.sampleIntervalSeconds
        let values ← (delta snapshot previous.snapshot).toOption
        return { attribution, lifetime := lifetimeOf cgroup, covered, unavailable := snapshot.unavailable, values }
      (contribution, sampler.previous.insert (lifetimeOf cgroup) current)

/-- There is an aggregate of the key, or room for one. -/
def admits (sampler : ResourceSampler) (key : AggregateKey) : Bool :=
  (sampler.openAggregates.lookup key).isSome || sampler.openAggregates.entries.length < sampler.aggregateLimit

def add (sampler : ResourceSampler) (now : DateTime) (contribution : Contribution) : ResourceSampler :=
  let bucket := (sampler.openAggregates.lookup (contribution.key now)).getD { attribution := contribution.attribution }
  { sampler with
    openAggregates := sampler.openAggregates.insert (contribution.key now) (bucket.add contribution) }

/-- The first part is what the directory added to an aggregate. -/
def sampleCgroup (sampler : ResourceSampler) (scan : Scan) (cgroup : ContainerCgroup) :
    Option Contribution × ResourceSampler :=
  let (contribution, previous) := sampler.observe scan cgroup
  let sampler := { sampler with previous }
  match contribution with
  | none => (none, sampler)
  | some contribution =>
    if sampler.admits (contribution.key scan.now) then (some contribution, sampler.add scan.now contribution)
    else (none, sampler)

/-- The directories one after the other, each with what it added. -/
def sampleCgroups (sampler : ResourceSampler) (scan : Scan) (cgroups : List ContainerCgroup) :
    List (ContainerCgroup × Option Contribution) × ResourceSampler :=
  Run.trace (fun sampler cgroup => sampler.sampleCgroup scan cgroup) sampler cgroups

/-- The aggregate of a minute as it is sent. -/
def completed (id : Uuid) (key : AggregateKey) (bucket : OpenAggregate) : ResourceAggregate where
  id := id
  schemaVersion := resourceSchemaVersion
  intervalStart := key.bucketStart
  intervalEnd := key.bucketStart + 60000000000
  coveredUsec := bucket.coveredUsec
  sampleCount := bucket.sampleCount
  contributingContainers := Word.saturating32 bucket.contributors.card
  readyContainers := Word.saturating32 bucket.readyContainers.card
  «namespace» := key.namespace
  workloadUid := key.workloadUid
  workloadKind := key.workloadKind
  workloadName := key.workloadName
  containerName := key.containerName
  nodeName := bucket.attribution.nodeName
  releaseIdentity := bucket.attribution.releaseIdentity
  unavailableSources := bucket.unavailable
  values := bucket.values

/-- What is sent for entries, each with its route. -/
def completions (ids : Nat → Uuid) (entries : List (AggregateKey × OpenAggregate)) : List (Uuid × ResourceAggregate) :=
  entries.zipIdx.map fun entry => (entry.1.1.routeId, completed (ids entry.2) entry.1.1 entry.1.2)

/-- The aggregate is of a minute before the boundary. -/
def due (boundary : DateTime) (key : AggregateKey) : Bool := key.bucketStart < boundary

/-- Removes and completes aggregates from the first one on, up to one that is not due. -/
def flushBefore (sampler : ResourceSampler) (boundary : DateTime) (ids : Nat → Uuid) :
    List (Uuid × ResourceAggregate) × ResourceSampler :=
  (completions ids (sampler.openAggregates.entries.takeWhile fun entry => due boundary entry.1),
    { sampler with openAggregates := sampler.openAggregates.dropWhile (due boundary) })

/-- The containers that are attributed to a workload. -/
def seen (scan : Scan) (cgroups : List ContainerCgroup) : List LifetimeKey :=
  (cgroups.filter fun cgroup => (scan.resolve cgroup.containerId).isSome).map lifetimeOf

/-- Forgets the containers that were not seen. -/
def retain (sampler : ResourceSampler) (seen : List LifetimeKey) : ResourceSampler :=
  { sampler with
    previous := filterMap (fun key previous => if key ∈ seen then some previous else none) sampler.previous }

def sample (sampler : ResourceSampler) (scan : Scan) : List (Uuid × ResourceAggregate) × ResourceSampler :=
  let (completed, sampler) := sampler.flushBefore (bucketStart scan.now) scan.ids
  match scan.cgroups with
  | .error _ => (completed, sampler)
  | .ok cgroups => (completed, ((sampler.sampleCgroups scan cgroups).2).retain (seen scan cgroups))

/-- The scans one after the other, each with what it completed. -/
def sampleAll (sampler : ResourceSampler) (scans : List Scan) :
    List (Scan × List (Uuid × ResourceAggregate)) × ResourceSampler :=
  Run.trace sample sampler scans

/-! ## What a directory does to the sampler -/

/-- A directory that contributes is attributed and was read before. -/
theorem observe_eq_some (h : (sampler.observe scan cgroup).1 = some contribution) :
    scan.resolve cgroup.containerId = some contribution.attribution ∧
      ∃ previous, delta (readSnapshot (scan.files cgroup.path)) previous = .ok contribution.values := by
  unfold observe at h
  cases hresolve : scan.resolve cgroup.containerId with
  | none =>
    rw [hresolve] at h
    cases h
  | some =>
    simp only [hresolve] at h
    cases hlookup : sampler.previous.lookup (lifetimeOf cgroup) with
    | none =>
      simp only [hlookup] at h
      cases h
    | some previous =>
      simp only [hlookup] at h
      obtain ⟨_, -, h⟩ := Option.bind_eq_some_iff.mp h
      obtain ⟨_, hvalues, h⟩ := Option.bind_eq_some_iff.mp h
      cases h
      exact ⟨rfl, previous.snapshot, Outcome.toOption_eq_some.mp hvalues⟩

/-- A directory changes what is remembered, and it adds its contribution or it does not. -/
theorem sampleCgroup_cases :
    sampler.sampleCgroup scan cgroup = (none, { sampler with previous := (sampler.observe scan cgroup).2 }) ∨
      ∃ contribution, (sampler.observe scan cgroup).1 = some contribution ∧
        sampler.sampleCgroup scan cgroup = (some contribution,
          ({ sampler with previous := (sampler.observe scan cgroup).2 }).add scan.now contribution) := by
  unfold sampleCgroup
  cases hcontribution : (sampler.observe scan cgroup).1 with
  | none => exact .inl (by simp only [hcontribution])
  | some contribution =>
    simp only [hcontribution]
    split
    · exact .inr ⟨contribution, rfl, rfl⟩
    · exact .inl rfl

/-- The rule for what every directory of a scan keeps of the sampler. -/
theorem sampleCgroups_invariant (inv : ResourceSampler → Prop) {cgroups : List ContainerCgroup}
    (hstep : ∀ sampler, ∀ cgroup ∈ cgroups, inv sampler → inv (sampler.sampleCgroup scan cgroup).2) (h : inv sampler) :
    inv (sampler.sampleCgroups scan cgroups).2 := by
  exact Run.trace_invariant_along (fun _ sampler => inv sampler)
    (fun _ sampler cgroup hinv hmem => hstep sampler cgroup hmem hinv) h (Run.along_of_forall (fun _ hmem => hmem) _)

/-- An aggregate after a contribution was there before, or it is the one that was added to. -/
theorem mem_entries_add {now : DateTime} (h : entry ∈ (sampler.add now contribution).openAggregates.entries) :
    entry ∈ sampler.openAggregates.entries ∨ entry.1 = contribution.key now ∧ ∃ bucket,
      (((entry.1, bucket) ∈ sampler.openAggregates.entries) ∨ bucket = { attribution := contribution.attribution }) ∧
        entry.2 = bucket.add contribution := by
  rcases OrderedMap.mem_entries_insert.mp h with rfl | ⟨hmem, -⟩
  · refine .inr ⟨rfl, _, ?_, rfl⟩
    cases hlookup : sampler.openAggregates.lookup (contribution.key now) with
    | none => exact .inr rfl
    | some => exact .inl (OrderedMap.mem_entries_of_lookup hlookup)
  · exact .inl hmem

/-- The rule for what holds of every open aggregate after a scan. -/
theorem forall_entries_sample (hnew : ∀ attribution, good { attribution })
    (hadd : ∀ (sampler : ResourceSampler) cgroups, scan.cgroups = .ok cgroups → ∀ cgroup ∈ cgroups,
      ∀ contribution, (sampler.observe scan cgroup).1 = some contribution →
        ∀ bucket, good bucket → good (bucket.add contribution))
    (h : ∀ entry ∈ sampler.openAggregates.entries, good entry.2) :
    ∀ entry ∈ (sampler.sample scan).2.openAggregates.entries, good entry.2 := by
  have hleft : ∀ entry ∈ (sampler.flushBefore (bucketStart scan.now) scan.ids).2.openAggregates.entries,
      good entry.2 := fun entry hentry => h entry (dropWhile_subset _ hentry)
  unfold sample
  cases hcgroups : scan.cgroups with
  | error => exact hleft
  | ok cgroups =>
    refine sampleCgroups_invariant (fun sampler => ∀ entry ∈ sampler.openAggregates.entries, good entry.2) ?_ hleft
    intro sampler cgroup hcgroup hgood entry hentry
    rcases sampleCgroup_cases with hnone | ⟨contribution, hcontribution, hadded⟩
    · rw [hnone] at hentry
      exact hgood entry hentry
    rw [hadded] at hentry
    rcases mem_entries_add hentry with hold | ⟨-, bucket, hbucket, hentry⟩
    · exact hgood entry hold
    rw [hentry]
    refine hadd sampler cgroups hcgroups cgroup hcgroup contribution hcontribution bucket ?_
    rcases hbucket with hmem | rfl
    · exact hgood _ hmem
    · exact hnew _

/-- The rule for what holds of everything that scans complete. -/
theorem forall_completed (hnew : ∀ attribution, good { attribution }) {scans : List Scan}
    (hadd : ∀ scan ∈ scans, ∀ (sampler : ResourceSampler) cgroups, scan.cgroups = .ok cgroups → ∀ cgroup ∈ cgroups,
      ∀ contribution, (sampler.observe scan cgroup).1 = some contribution →
        ∀ bucket, good bucket → good (bucket.add contribution))
    (h : ∀ entry ∈ sampler.openAggregates.entries, good entry.2) :
    ∀ entry ∈ (sampler.sampleAll scans).1, ∀ value ∈ entry.2, ∃ key bucket id, good bucket ∧
      value = (key.routeId, completed id key bucket) := by
  induction scans generalizing sampler with
  | nil =>
    intro entry hentry
    cases hentry
  | cons _ _ ih =>
    obtain ⟨hfirst, hrest⟩ := forall_mem_cons.mp hadd
    intro entry hentry value hvalue
    rcases mem_cons.mp hentry with rfl | hentry
    · -- what a scan completes is an aggregate that was open before it
      have hflush : ∀ scan : Scan, (sampler.sample scan).1 = (sampler.flushBefore (bucketStart scan.now) scan.ids).1 := by
        intro scan
        unfold sample
        cases scan.cgroups <;> rfl
      rw [hflush] at hvalue
      obtain ⟨aggregate, hmem, rfl⟩ := mem_map.mp hvalue
      exact ⟨_, _, _, h aggregate.1 (takeWhile_subset _ (fst_mem_of_mem_zipIdx hmem)), rfl⟩
    · exact ih hrest (forall_entries_sample hnew hfirst h) entry hentry value hvalue

end ResourceSampler

end Okoscope.Agent.ResourceSampling
