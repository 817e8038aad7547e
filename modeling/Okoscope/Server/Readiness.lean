import Okoscope.Lib.Latch
import Okoscope.Server.EpisodeReplay

/-!
# Readiness snapshots in any order

What the current episode of a revision shows after a set of snapshots has arrived in some
order. An episode is a latch: a complete snapshot without pods ends it once it is a
stabilization period later than everything observed, any other snapshot is recorded, and
neither looks at the time of the snapshot that was recorded before.
-/
namespace Okoscope.Server.Readiness

open Lib Lib.Bytes Lib.Outcome EventModel Protocol
open Deployments (Db Episode PodCounts hasNul storedAt)
open ReleaseDiscovery (persistReadinessSnapshot storedCount storedCounts isEmptied stabilizationSeconds)
open DeploymentInvariants RevisionSession EpisodeReplay
open Deployments Latch List

/-- The stored counts of an episode and the time of the snapshot they come from. -/
structure Shown where
  pods : Nat
  ready : Nat
  workloadReady : Nat
  observedAt : Option Int
  deriving DecidableEq

def shownBy (ep : Episode) : Shown :=
  ⟨ep.counts.pods, ep.counts.ready, ep.counts.workloadReady, ep.snapshotObservedAt⟩

/-- What an episode shows when it shows this snapshot, in the units of its columns. -/
def shownFor (snapshot : RevisionReadinessSnapshot) : Shown :=
  ⟨storedCount snapshot.podCount, storedCount snapshot.readyPodCount, storedCount snapshot.workloadReadyPodCount,
    some (storedAt snapshot.observedAt)⟩

/-- The episode a revision opened last. -/
def currentEpisode (db : Db) (revisionId : Nat) : Option Episode := (episodesOf db revisionId).getLast?

/-! ## An episode as a latch -/

def latchOf (ep : Episode) : Latch Shown := ⟨shownBy ep, ep.lastObservedAt, !ep.state.isOpen⟩

def observationOf (snapshot : RevisionReadinessSnapshot) : Latch.Observation Shown :=
  ⟨shownFor snapshot, storedAt snapshot.observedAt, isEmptied snapshot⟩

/-- The stabilization period in microseconds. -/
def quietPeriod (stabilization : Option String) : Int := stabilizationSeconds stabilization * 1000000

/-- What a snapshot with these counts does to an open episode of its revision. -/
def observeSnapshot (stabilization : Option String) (snapshot : RevisionReadinessSnapshot) (counts : PodCounts)
    (ep : Episode) : Episode :=
  if isEmptied snapshot then
    ep.finish counts.workloadReady (storedAt snapshot.observedAt) (stabilizationSeconds stabilization)
  else
    ep.recordPods counts (storedAt snapshot.observedAt)

section
variable {stabilization : Option String} {snapshot : RevisionReadinessSnapshot} {counts : PodCounts}

@[simp] theorem observeSnapshot_revisionId (ep : Episode) :
    (observeSnapshot stabilization snapshot counts ep).revisionId = ep.revisionId := by
  unfold observeSnapshot
  split <;> simp

/-- The episode takes a snapshot as the latch takes its observation. -/
theorem latchOf_observeSnapshot (hcounts : storedCounts snapshot = .ok counts) {ep : Episode} :
    latchOf (observeSnapshot stabilization snapshot counts ep) =
      observe (quietPeriod stabilization) (latchOf ep) (observationOf snapshot) := by
  obtain ⟨hpods, hready, hworkload⟩ : counts.pods = storedCount snapshot.podCount ∧
      counts.ready = storedCount snapshot.readyPodCount ∧
        counts.workloadReady = storedCount snapshot.workloadReadyPodCount := by
    unfold storedCounts at hcounts
    split at hcounts
    · cases hcounts
      exact ⟨rfl, rfl, rfl⟩
    · cases hcounts
  unfold observeSnapshot
  cases hopen : ep.state.isOpen with
  | false =>
    have hclosed : (latchOf ep).closed := by simp [latchOf, hopen]
    rw [observe_of_closed hclosed]
    simp [Episode.finish, Episode.recordPods, hopen]
  | true =>
    have hnot : (latchOf ep).closed = false := by simp [latchOf, hopen]
    cases hempty : isEmptied snapshot with
    | false =>
      rw [observe_of_record hnot hempty]
      simp only [Bool.false_eq_true, if_false, Episode.recordPods, hopen, dif_pos]
      simp [latchOf, shownBy, shownFor, observationOf, hpods, hready, hworkload, hopen]
    | true =>
      simp only [if_true]
      by_cases hlate : ep.lastObservedAt + quietPeriod stabilization ≤ storedAt snapshot.observedAt
      · rw [observe_of_late hnot hempty hlate]
        -- a snapshot without pods has no ready pods either
        have hzero : storedCount snapshot.podCount = 0 := by
          simp only [isEmptied, Bool.and_eq_true, decide_eq_true_eq] at hempty
          rw [hempty.2]
          rfl
        have hle := counts.ready_le_pods
        have hnone : storedCount snapshot.readyPodCount = 0 := by omega
        have hfinish : ep.state.isOpen ∧
            storedAt snapshot.observedAt ≥ ep.lastObservedAt + stabilizationSeconds stabilization * 1000000 :=
          ⟨hopen, hlate⟩
        simp only [Episode.finish, dif_pos hfinish]
        simp only [latchOf, shownBy, shownFor, observationOf, hworkload, hzero, hnone]
        rfl
      · rw [observe_of_early hnot hempty (not_le.mp hlate)]
        have hfinish : ¬ (ep.state.isOpen ∧
            storedAt snapshot.observedAt ≥ ep.lastObservedAt + stabilizationSeconds stabilization * 1000000) :=
          fun hn => hlate hn.2
        simp [Episode.finish, dif_neg hfinish]

end

/-! ## Persisting snapshots -/

/-- A snapshot the wire decoder accepts and whose id a text column can hold. -/
structure Persistable (snapshot : RevisionReadinessSnapshot) : Prop where
  decoded : ∃ wire, tryFromReadinessSnapshot wire = .ok snapshot
  text : hasNul snapshot.snapshotId = false

theorem storedCount_mono {a b : UInt32} (h : a ≤ b) : storedCount a ≤ storedCount b :=
  min_le_min_right _ (UInt32.le_iff_toNat_le.mp h)

/-- The decoder's guarantees are the checks of the table. -/
theorem Persistable.checks {snapshot : RevisionReadinessSnapshot} (h : Persistable snapshot) :
    boundedText 200 snapshot.snapshotId ∧ ∃ counts, storedCounts snapshot = .ok counts := by
  obtain ⟨_, hwire⟩ := h.decoded
  simp only [tryFromReadinessSnapshot, bind_eq_ok, exists_unit, ite_error_eq_ok, pure_eq_ok,
    requireBounded_eq_ok, not_or, UInt32.not_lt, gt_iff_lt] at hwire
  obtain ⟨⟨htrim, hne, hlen⟩, ⟨hpods, hworkload⟩, _, -, _, -, rfl⟩ := hwire
  exact ⟨boundedText_of_bounded (btrim_of_trim htrim) hne hlen,
    _, dif_pos ⟨storedCount_mono hpods, storedCount_mono hworkload⟩⟩

section
variable {stabilization : Option String} {db db' : Db} {snapshot : RevisionReadinessSnapshot} {revisionId : Nat}

/-- A persistable snapshot of a known revision is applied to each of the revision's episodes. -/
theorem persistReadinessSnapshot_ok
    (hrevision : revisionByDigest db snapshot.revisionDigest = some revisionId) (h : Persistable snapshot) :
    ∃ counts db', storedCounts snapshot = .ok counts ∧
      persistReadinessSnapshot stabilization db snapshot = .ok db' ∧ db'.revisions = db.revisions ∧
      db'.episodes = db.episodes.map fun ep =>
        if ep.revisionId = revisionId then observeSnapshot stabilization snapshot counts ep else ep := by
  obtain ⟨hbounded, counts, hcounts⟩ := h.checks
  obtain ⟨db', hinsert, hrevisions, hepisodes⟩ : ∃ db', insertSnapshot db {
      revisionId
      snapshotId := snapshot.snapshotId
      observedAt := storedAt snapshot.observedAt
      initialized := snapshot.initialized
      continuous := snapshot.continuous
      counts } = .ok db' ∧ db'.revisions = db.revisions ∧ db'.episodes = db.episodes := by
    unfold insertSnapshot
    rw [if_neg (by simp [h.text]), if_neg (by simp [hbounded])]
    split
    · exact ⟨db, rfl, rfl, rfl⟩
    · exact ⟨_, rfl, rfl, rfl⟩
  refine ⟨counts, updateEpisodes db' fun ep =>
    if ep.revisionId = revisionId then observeSnapshot stabilization snapshot counts ep else ep,
    hcounts, ?_, hrevisions, congrArg _ hepisodes⟩
  simp only [persistReadinessSnapshot, hrevision, bind_eq_ok]
  refine ⟨counts, hcounts, db', hinsert, ?_⟩
  unfold observeSnapshot
  split <;> rfl

theorem currentEpisode_map {f : Episode → Episode} (hf : ∀ ep, (f ep).revisionId = ep.revisionId)
    (hepisodes : db'.episodes = db.episodes.map fun ep => if ep.revisionId = revisionId then f ep else ep) :
    currentEpisode db' revisionId = (currentEpisode db revisionId).map f := by
  have hkeeps : ∀ ep, (if ep.revisionId = revisionId then f ep else ep).revisionId = ep.revisionId := by
    intro ep
    split
    · exact hf ep
    · rfl
  have hof : episodesOf db' revisionId = (episodesOf db revisionId).map f := by
    simp only [episodesOf, hepisodes, filter_map, Function.comp_def, hkeeps]
    exact map_congr_left fun ep hep => if_pos (of_decide_eq_true (mem_filter.mp hep).2)
  rw [currentEpisode, hof, getLast?_map, currentEpisode]

end

/-! ## Arrivals in some order -/

def persistAll (stabilization : Option String) (db : Db) (arrivals : List RevisionReadinessSnapshot) :
    Except Deployments.SqlError Db :=
  arrivals.foldlM (persistReadinessSnapshot stabilization) db

/-- Snapshots of one revision that can all be persisted. -/
def AllOf (digest : ByteVec 32) (snapshots : List RevisionReadinessSnapshot) : Prop :=
  ∀ s ∈ snapshots, s.revisionDigest = digest ∧ Persistable s

variable {arrivals : List RevisionReadinessSnapshot}

/-- Persisting the arrivals runs the latch of the current episode over their observations. -/
theorem persistAll_current {stabilization : Option String} {db : Db} {digest : ByteVec 32} {revisionId : Nat}
    {ep : Episode} (hrevision : revisionByDigest db digest = some revisionId)
    (hcurrent : currentEpisode db revisionId = some ep) (harrivals : AllOf digest arrivals) :
    ∃ db' ep', persistAll stabilization db arrivals = .ok db' ∧ currentEpisode db' revisionId = some ep' ∧
      latchOf ep' = observeAll (quietPeriod stabilization) (latchOf ep) (arrivals.map observationOf) := by
  induction arrivals generalizing db ep with
  | nil => exact ⟨db, ep, rfl, hcurrent, rfl⟩
  | cons _ _ ih =>
    obtain ⟨⟨hdigest, hs⟩, hrest⟩ := forall_mem_cons.mp harrivals
    obtain ⟨_, db₁, hcounts, hok, hrevisions, hepisodes⟩ := persistReadinessSnapshot_ok (hdigest ▸ hrevision) hs
    -- the revision's current episode takes the snapshot
    have hcurrent₁ := currentEpisode_map observeSnapshot_revisionId hepisodes
    rw [hcurrent, Option.map_some] at hcurrent₁
    have hrevision₁ : revisionByDigest db₁ digest = some revisionId := by
      rw [← hrevision, revisionByDigest, hrevisions, revisionByDigest]
    obtain ⟨db₂, ep₂, hall, hcurrent₂, hlatch₂⟩ := ih hrevision₁ hcurrent₁ hrest
    refine ⟨db₂, ep₂, ?_, hcurrent₂, ?_⟩
    · rw [persistAll, foldlM_cons, bind_eq_ok]
      exact ⟨db₁, hok, hall⟩
    · rw [hlatch₂, latchOf_observeSnapshot hcounts, map_cons, observeAll, observeAll, foldl_cons]

/-- The snapshot observed last, among snapshots observed at distinct times. -/
structure Newest (newest : RevisionReadinessSnapshot) (snapshots : List RevisionReadinessSnapshot) : Prop where
  mem : newest ∈ snapshots
  greatest : ∀ s ∈ snapshots, s.observedAt ≤ newest.observedAt
  distinct : snapshots.Pairwise fun s t => s.observedAt ≠ t.observedAt

/-- After these arrivals the current episode shows the counts and the snapshot time given, and
has ended or not. -/
def Leaves (stabilization : Option String) (db : Db) (revisionId : Nat) (arrivals : List RevisionReadinessSnapshot)
    (shown : Shown) (ended : Bool) : Prop :=
  ∃ db' ep, persistAll stabilization db arrivals = .ok db' ∧ currentEpisode db' revisionId = some ep ∧
    shownBy ep = shown ∧ (!ep.state.isOpen) = ended

/-- Whatever the order, the current episode ends up showing the newest snapshot, and ends up in
the same state. -/
def NewestPrevails (stabilization : Option String) (db : Db) (revisionId : Nat)
    (snapshots : List RevisionReadinessSnapshot) (orders : List RevisionReadinessSnapshot → Prop) : Prop :=
  ∀ newest, Newest newest snapshots →
    ∃ ended, ∀ arrivals, orders arrivals → Leaves stabilization db revisionId arrivals (shownFor newest) ended

theorem leaves_iff {stabilization : Option String} {db : Db} {digest : ByteVec 32} {revisionId : Nat} {ep : Episode}
    (hrevision : revisionByDigest db digest = some revisionId) (hcurrent : currentEpisode db revisionId = some ep)
    (harrivals : AllOf digest arrivals) {shown : Shown} {ended : Bool} :
    Leaves stabilization db revisionId arrivals shown ended ↔
      (observeAll (quietPeriod stabilization) (latchOf ep) (arrivals.map observationOf)).image = shown ∧
      (observeAll (quietPeriod stabilization) (latchOf ep) (arrivals.map observationOf)).closed = ended := by
  obtain ⟨db', ep', hall, hcurrent', hlatch⟩ := persistAll_current hrevision hcurrent harrivals
  rw [← hlatch]
  constructor
  · rintro ⟨t, ep'', ht, hep'', hshown, hended⟩
    cases hall.symm.trans ht
    cases hcurrent'.symm.trans hep''
    exact ⟨hshown, hended⟩
  · rintro ⟨hshown, hended⟩
    exact ⟨db', ep', hall, hcurrent', hshown, hended⟩

section
variable {stabilization : Option String} {db : Db} {digest : ByteVec 32} {revisionId : Nat} {ep : Episode}
  {snapshots : List RevisionReadinessSnapshot}

section
variable (hrevision : revisionByDigest db digest = some revisionId) (hcurrent : currentEpisode db revisionId = some ep)
  (hsnapshots : AllOf digest snapshots)
include hrevision hcurrent hsnapshots

theorem settles_of_newestPrevails (h : NewestPrevails stabilization db revisionId snapshots (·.Perm snapshots))
    {newest : RevisionReadinessSnapshot} (hnewest : Newest newest snapshots) :
    (latchOf ep).Settles (quietPeriod stabilization) (snapshots.map observationOf) (shownFor newest) := by
  obtain ⟨ended, hleaves⟩ := h newest hnewest
  have hshows : (latchOf ep).ShowsAfter (quietPeriod stabilization) (·.Perm (snapshots.map observationOf))
      (shownFor newest) ended := by
    intro _ hperm
    obtain ⟨arrivals, harrivals, rfl⟩ := exists_perm_map hperm
    exact (leaves_iff hrevision hcurrent (fun s hs => hsnapshots s (harrivals.mem_iff.mp hs))).mp
      (hleaves arrivals harrivals)
  exact settles_of_showsAfter hshows

theorem newestPrevails_of_settles
    (h : ∀ newest, Newest newest snapshots →
      (latchOf ep).Settles (quietPeriod stabilization) (snapshots.map observationOf) (shownFor newest)) :
    NewestPrevails stabilization db revisionId snapshots fun arrivals => ∀ s, s ∈ arrivals ↔ s ∈ snapshots := by
  intro newest hnewest
  obtain ⟨ended, hshows⟩ := (h newest hnewest).showsAfter
  refine ⟨ended, fun arrivals hmem => ?_⟩
  refine (leaves_iff hrevision hcurrent (fun s hs => hsnapshots s ((hmem s).mp hs))).mpr
    (hshows (arrivals.map observationOf) fun o => ?_)
  simp [mem_map, hmem]

end

end

/-- The newest snapshot prevails in every order exactly when the episode settles on it: the
conditions are the same for every order of the snapshots and for every sequence of arrivals
that also repeats some of them. -/
theorem newestPrevails_iff_settles (stabilization : Option String) (db : Db) (digest : ByteVec 32) (revisionId : Nat)
    (ep : Episode) (snapshots : List RevisionReadinessSnapshot)
    (hrevision : revisionByDigest db digest = some revisionId)
    (hcurrent : currentEpisode db revisionId = some ep) (hsnapshots : AllOf digest snapshots) :
    (NewestPrevails stabilization db revisionId snapshots (·.Perm snapshots) ↔ ∀ newest, Newest newest snapshots →
        (latchOf ep).Settles (quietPeriod stabilization) (snapshots.map observationOf) (shownFor newest)) ∧
    (NewestPrevails stabilization db revisionId snapshots (fun arrivals => ∀ s, s ∈ arrivals ↔ s ∈ snapshots) ↔
      ∀ newest, Newest newest snapshots →
        (latchOf ep).Settles (quietPeriod stabilization) (snapshots.map observationOf) (shownFor newest)) := by
  -- an order of the snapshots has the same members
  have hperm (h : NewestPrevails stabilization db revisionId snapshots fun arrivals =>
      ∀ s, s ∈ arrivals ↔ s ∈ snapshots) :
      NewestPrevails stabilization db revisionId snapshots (·.Perm snapshots) := by
    intro newest hnewest
    obtain ⟨ended, hleaves⟩ := h newest hnewest
    exact ⟨ended, fun arrivals harrivals => hleaves arrivals fun _ => harrivals.mem_iff⟩
  refine ⟨⟨fun h _ hnewest => ?_, fun h => hperm ?_⟩, fun h _ hnewest => ?_, fun h => ?_⟩
  · exact settles_of_newestPrevails hrevision hcurrent hsnapshots h hnewest
  · exact newestPrevails_of_settles hrevision hcurrent hsnapshots h
  · exact settles_of_newestPrevails hrevision hcurrent hsnapshots (hperm h) hnewest
  · exact newestPrevails_of_settles hrevision hcurrent hsnapshots h

/-- The tables after one ready pod has been reported. -/
def started : Db := receiveAll none Db.empty [observation]

theorem started_current : (currentEpisode started 1).isSome := by
  decide +kernel

/-- A complete snapshot of that revision, with so many pods, all ready. -/
def snapshotAt (snapshotId : String) (seconds : Int) (pods : UInt32) : RevisionReadinessSnapshot where
  snapshotId
  observedAt := seconds * DateTime.nanosPerSecond
  initialized := true
  continuous := true
  revisionDigest := revisionDigest (report "rs-a" 0xaa)
  podCount := pods
  readyPodCount := pods
  workloadReadyPodCount := pods

/-- What the current episode shows after the arrivals, and whether it has ended. -/
def finalShown (arrivals : List RevisionReadinessSnapshot) : Option (Shown × Bool) :=
  match persistAll none started arrivals with
  | .ok db => (currentEpisode db 1).map fun ep => (shownBy ep, !ep.state.isOpen)
  | .error _ => none

theorem Leaves.finalShown {shown : Shown} {ended : Bool}
    (h : Leaves none started 1 arrivals shown ended) : finalShown arrivals = some (shown, ended) := by
  obtain ⟨_, _, hall, hcurrent, hshown, hended⟩ := h
  simp [Readiness.finalShown, hall, hcurrent, hshown, hended]

theorem newest_pair {older newer : RevisionReadinessSnapshot} (h : older.observedAt < newer.observedAt) :
    Newest newer [older, newer] where
  mem := by simp
  greatest := by simp [h.le]
  distinct := by simp [h.ne]

theorem eq_of_newest_pair {older newer newest : RevisionReadinessSnapshot} (h : older.observedAt < newer.observedAt)
    (hnewest : Newest newest [older, newer]) : newest = newer := by
  have hmem := hnewest.mem
  simp only [mem_cons, not_mem_nil, or_false] at hmem
  rcases hmem with rfl | rfl
  · exact absurd (hnewest.greatest newer (by simp)) (not_le.mpr h)
  · rfl

/-- Pods, and their departure long after: the departure prevails in either order. -/
theorem departure_prevails : NewestPrevails none started 1 [snapshotAt "three" 20 3, snapshotAt "none" 400 0]
      fun arrivals => ∀ s, s ∈ arrivals ↔ s ∈ [snapshotAt "three" 20 3, snapshotAt "none" 400 0] := by
  refine (newestPrevails_iff_settles none started (revisionDigest (report "rs-a" 0xaa)) 1
    ((currentEpisode started 1).get started_current) _ (by decide +kernel)
    (Option.some_get started_current).symm ?_).2.mpr ?_
  · intro s hs
    simp only [mem_cons, not_mem_nil, or_false] at hs
    rcases hs with rfl | rfl
    · exact ⟨rfl, ⟨fromReadinessSnapshot (snapshotAt "three" 20 3), by decide +kernel⟩, by decide +kernel⟩
    · exact ⟨rfl, ⟨fromReadinessSnapshot (snapshotAt "none" 400 0), by decide +kernel⟩, by decide +kernel⟩
  · intro newest hnewest
    rw [eq_of_newest_pair (by decide +kernel) hnewest]
    decide +kernel

/-- The older of two snapshots, arriving last, replaces the counts of the newer; and whether the
episode ends depends on which of a departure and a shortly earlier snapshot arrives first. -/
theorem older_snapshot_overwrites :
    finalShown [snapshotAt "three" 20 3, snapshotAt "one" 10 1] = some (shownFor (snapshotAt "one" 10 1), false) ∧
      ¬ NewestPrevails none started 1 [snapshotAt "one" 10 1, snapshotAt "three" 20 3]
        (·.Perm [snapshotAt "one" 10 1, snapshotAt "three" 20 3]) ∧
      finalShown [snapshotAt "none" 400 0, snapshotAt "one" 390 1] = some (shownFor (snapshotAt "none" 400 0), true) ∧
      finalShown [snapshotAt "one" 390 1, snapshotAt "none" 400 0] =
        some (shownFor (snapshotAt "one" 390 1), false) := by
  have hruns : finalShown [snapshotAt "three" 20 3, snapshotAt "one" 10 1] =
        some (shownFor (snapshotAt "one" 10 1), false) ∧
      finalShown [snapshotAt "none" 400 0, snapshotAt "one" 390 1] = some (shownFor (snapshotAt "none" 400 0), true) ∧
      finalShown [snapshotAt "one" 390 1, snapshotAt "none" 400 0] =
        some (shownFor (snapshotAt "one" 390 1), false) := by
    decide +kernel
  obtain ⟨hlast, hended, hopen⟩ := hruns
  refine ⟨hlast, fun hprevails => ?_, hended, hopen⟩
  obtain ⟨_, hleaves⟩ := hprevails _ (newest_pair (by decide +kernel))
  have hshown := (hleaves _ (List.Perm.swap _ _ [])).finalShown
  rw [hlast, Option.some.injEq, Prod.mk.injEq] at hshown
  have hpods : storedCount 1 = storedCount 3 := congrArg Shown.pods hshown.1
  exact absurd hpods (by decide)

end Okoscope.Server.Readiness
