import Okoscope.Lib.Paging
import Okoscope.Lib.Time
import Mathlib.Data.List.Destutter
import Mathlib.Data.String.Basic

/-!
# Resource history

The buckets of a metric are shown in the order of time, with a point for every step that has
none and a marker where a release begins. Of markers that repeat only those next to each
other are dropped, so a release that comes back is marked again.
-/
namespace Okoscope.Server.ResourceHistory

open Lib Lib.Paging List

structure HistoryQuery where
  metric : String
  start : DateTime
  stop : DateTime
  step : String
  container : Option String
  mode : String

inductive ResourceServiceError where
  | invalid (message : String)
  deriving DecidableEq

structure ReleaseRef where
  id : Nat
  displayName : String

/-- A bucket. The id of a release refers to a row that has its name, so both are there or none. -/
structure HistoryRow where
  bucketStart : DateTime
  release : Option ReleaseRef
  containerName : String

structure ReleaseMarker where
  release : ReleaseRef
  observedAt : DateTime

structure HistoryPoint where
  start : DateTime
  stop : DateTime
  release : Option ReleaseRef
  container : Option String

structure HistoryResponse where
  points : List HistoryPoint
  releases : List ReleaseMarker
  containers : List String

def seconds (n : Nat) : Int := n * DateTime.nanosPerSecond

def nanosecond (t : DateTime) : Int := t % DateTime.nanosPerSecond
def second (t : DateTime) : Int := t / DateTime.nanosPerSecond % 60
def minute (t : DateTime) : Int := t / (60 * DateTime.nanosPerSecond) % 60

def resourceMetrics : List String :=
  ["cpu_usage_cores", "cpu_quota_ratio", "cpu_throttled_period_ratio", "cpu_throttled_seconds", "memory_current_bytes",
    "memory_anon_bytes", "memory_file_bytes", "memory_headroom_ratio", "memory_high_events", "memory_max_events",
    "oom_events", "oom_kill_events", "cpu_psi_some_ratio", "cpu_psi_full_ratio", "memory_psi_some_ratio",
    "memory_psi_full_ratio", "io_psi_some_ratio", "io_psi_full_ratio", "io_read_bytes", "io_write_bytes",
    "io_read_operations", "io_write_operations", "pids_current", "pids_limit_ratio", "pids_max_events"]

def validateHistoryQuery (query : HistoryQuery) : Except ResourceServiceError Nat :=
  if query.metric ∉ resourceMetrics then .error (.invalid "unsupported resource metric")
  else if query.start ≥ query.stop ∨ second query.start ≠ 0 ∨ nanosecond query.start ≠ 0 ∨ second query.stop ≠ 0 ∨
      nanosecond query.stop ≠ 0 then
    .error (.invalid "from and to must be aligned UTC minute bounds with from before to")
  else if query.container.any fun value => value.isEmpty || value.utf8ByteSize > 256 then
    .error (.invalid "container must contain 1..=256 bytes")
  else if query.mode ≠ "total" ∧ query.mode ≠ "per_ready_replica" then
    .error (.invalid "mode must be total or per_ready_replica")
  else if query.step = "minute" ∧ query.stop - query.start ≤ seconds (31 * 86400) then .ok 60
  else if query.step = "hour" ∧ query.stop - query.start ≤ seconds (366 * 86400) ∧ minute query.start = 0 ∧
      minute query.stop = 0 then .ok 3600
  else if query.step = "minute" ∨ query.step = "hour" then
    .error (.invalid "resource history range exceeds the selected step bound or is not hour aligned")
  else .error (.invalid "step must be minute or hour")

def historyPoint (step : Nat) (row : HistoryRow) : HistoryPoint :=
  ⟨row.bucketStart, row.bucketStart + seconds step, row.release, some row.containerName⟩

/-- The points of the steps without a bucket. The loop ends because a step takes time. -/
def appendHistoryGaps (observed : List DateTime) (stop : Int) (step : Nat) (bucket : Int) : List HistoryPoint :=
  if _ : bucket < stop ∧ 0 < step then
    let rest := appendHistoryGaps observed stop step (bucket + seconds step)
    if bucket ∈ observed then rest else ⟨bucket, bucket + seconds step, none, none⟩ :: rest
  else []
termination_by (stop - bucket).toNat
decreasing_by
  rw [seconds, DateTime.nanosPerSecond]
  omega

/-- Where a release is observed. -/
def occurrences (rows : List HistoryRow) : List ReleaseMarker :=
  rows.filterMap fun row => row.release.map (⟨·, row.bucketStart⟩)

def historyResponse (query : HistoryQuery) (step : Nat) (rows : List HistoryRow) : HistoryResponse where
  points := inOrder HistoryPoint.start (rows.map (historyPoint step) ++
    appendHistoryGaps (rows.map HistoryRow.bucketStart) query.stop step query.start)
  releases := ((inOrder ReleaseMarker.observedAt (occurrences rows)).destutter (·.release.id ≠ ·.release.id)).take 100
  containers := ((inOrder id (rows.map HistoryRow.containerName)).destutter (· ≠ ·)).take 24

/-! ## What is shown -/

/-- The releases in the order of time. -/
def releasesInOrder (rows : List HistoryRow) : List Nat :=
  (inOrder ReleaseMarker.observedAt (occurrences rows)).map (·.release.id)

/-- Every step has a point, the points are in order, and every release has one marker, at its earliest bucket, unless
there are too many. -/
structure Shown (query : HistoryQuery) (step : Nat) (rows : List HistoryRow) (response : HistoryResponse) : Prop where
  complete : ∀ k, query.start + seconds (k * step) < query.stop →
    ∃ p ∈ response.points, p.start = query.start + seconds (k * step)
  sorted : response.points.Pairwise (·.start ≤ ·.start)
  once : (response.releases.map (·.release.id)).Nodup
  earliest : ∀ m ∈ response.releases, m ∈ occurrences rows ∧
    ∀ o ∈ occurrences rows, o.release.id = m.release.id → m.observedAt ≤ o.observedAt
  all : (releasesInOrder rows).dedup.length ≤ 100 →
    ∀ o ∈ occurrences rows, ∃ m ∈ response.releases, m.release.id = o.release.id

/-- No release comes back after another one. -/
def NoneReturns (rows : List HistoryRow) : Prop := ∀ a b, [a, b, a] <+ releasesInOrder rows → b = a

theorem validateHistoryQuery_pos {query : HistoryQuery} {step : Nat} (h : validateHistoryQuery query = .ok step) :
    0 < step := by
  unfold validateHistoryQuery at h
  split_ifs at h <;> cases h <;> decide

theorem seconds_add (m n : Nat) : seconds (m + n) = seconds m + seconds n := by
  rw [seconds, seconds, seconds, Int.natCast_add, Int.add_mul]

theorem mem_appendHistoryGaps {observed : List DateTime} {stop bucket : Int} {step : Nat} (hstep : 0 < step)
    {k : Nat} (hlt : bucket + seconds (k * step) < stop) (hgap : bucket + seconds (k * step) ∉ observed) :
    ∃ p ∈ appendHistoryGaps observed stop step bucket, p.start = bucket + seconds (k * step) := by
  have hbucket : bucket < stop := by
    have hpast : 0 ≤ seconds (k * step) := Int.mul_nonneg (Int.natCast_nonneg _) (by decide)
    omega
  rw [appendHistoryGaps, dif_pos ⟨hbucket, hstep⟩]
  cases k with
  | zero =>
    have hnow : bucket + seconds (0 * step) = bucket := by simp [seconds]
    rw [hnow] at hgap ⊢
    rw [if_neg hgap]
    exact ⟨_, mem_cons_self, rfl⟩
  | succ k =>
    have hlater : bucket + seconds ((k + 1) * step) = bucket + seconds step + seconds (k * step) := by
      rw [Nat.succ_mul, seconds_add]
      omega
    rw [hlater] at hlt hgap ⊢
    obtain ⟨p, hp, heq⟩ := mem_appendHistoryGaps hstep hlt hgap
    refine ⟨p, ?_, heq⟩
    dsimp only
    split
    · exact hp
    · exact mem_cons_of_mem _ hp

/-- Dropping repeated markers next to each other keeps the first marker of every run of one release. -/
theorem exists_first_of_run {markers : List ReleaseMarker} (h : markers.Pairwise (·.observedAt ≤ ·.observedAt)) :
    ∀ o ∈ markers, ∃ m ∈ markers.destutter (·.release.id ≠ ·.release.id),
      m.release.id = o.release.id ∧ m.observedAt ≤ o.observedAt := by
  cases markers with
  | nil => simp
  | cons first rest =>
    rw [destutter_cons']
    induction rest generalizing first with
    | nil => simp
    | cons next rest ih =>
      obtain ⟨hfirst, hrest⟩ := pairwise_cons.mp h
      intro o ho
      by_cases hsame : first.release.id ≠ next.release.id
      · rw [destutter'_cons, if_pos hsame]
        obtain rfl | ho := mem_cons.mp ho
        · exact ⟨o, mem_cons_self, rfl, le_rfl⟩
        · obtain ⟨m, hm, hfits⟩ := ih next hrest o ho
          exact ⟨m, mem_cons_of_mem _ hm, hfits⟩
      · rw [destutter'_cons, if_neg hsame]
        have hsorted := h.sublist ((sublist_cons_self next rest).cons_cons first)
        obtain rfl | ho := mem_cons.mp ho
        · exact ih o hsorted o mem_cons_self
        obtain rfl | ho := mem_cons.mp ho
        · obtain ⟨m, hm, hid, hle⟩ := ih first hsorted first mem_cons_self
          exact ⟨m, hm, hid.trans (not_not.mp hsame), hle.trans (hfirst o mem_cons_self)⟩
        · exact ih first hsorted o (mem_cons_of_mem _ ho)

theorem mem_destutter {ids : List Nat} {a : Nat} : a ∈ ids.destutter (· ≠ ·) ↔ a ∈ ids := by
  refine ⟨fun h => (destutter_sublist _ _).mem h, fun h => ?_⟩
  induction ids with
  | nil => exact h
  | cons first rest ih =>
    rw [destutter_cons']
    cases rest with
    | nil => exact h
    | cons next rest =>
      rw [destutter_cons'] at ih
      by_cases hne : first ≠ next
      · rw [destutter'_cons, if_pos hne]
        exact mem_cons.mpr ((mem_cons.mp h).imp_right ih)
      · rw [destutter'_cons, if_neg hne]
        cases not_not.mp hne
        exact ih ((mem_cons.mp h).elim (· ▸ mem_cons_self) id)

/-- Neighbours that are equal apart, nothing repeats exactly if nothing comes back after something else. -/
theorem nodup_destutter_iff {ids : List Nat} :
    (ids.destutter (· ≠ ·)).Nodup ↔ ∀ a b, [a, b, a] <+ ids → b = a := by
  induction ids with
  | nil => simp
  | cons first rest ih =>
    cases rest with
    | nil => simp
    | cons next rest =>
      rw [destutter_cons'] at ih ⊢
      by_cases hne : first ≠ next
      · rw [destutter'_cons, if_pos hne, nodup_cons, ih, ← destutter_cons', mem_destutter]
        refine ⟨fun h a b hsub => ?_, fun h => ⟨fun hmem => ?_, fun a b hsub => h a b (hsub.cons _)⟩⟩
        · cases hsub with
          | cons _ hsub => exact h.2 a b hsub
          | cons_cons _ hsub => exact absurd (hsub.mem (mem_cons_of_mem _ mem_cons_self)) h.1
        · have hlater : first ∈ rest := (mem_cons.mp hmem).resolve_left hne
          exact hne (h first next (((singleton_sublist.mpr hlater).cons_cons next).cons_cons first)).symm
      · rw [destutter'_cons, if_neg hne]
        cases not_not.mp hne
        refine ih.trans ⟨fun h a b hsub => ?_, fun h a b hsub => h a b (hsub.cons _)⟩
        cases hsub with
        | cons _ hsub => exact h a b hsub
        | cons_cons _ hsub =>
          cases hsub with
          | cons _ hsub => exact h first b (hsub.cons_cons first)
          | cons_cons => rfl

theorem length_le_dedup {ids kept : List Nat} (h : kept.Nodup) (hsub : kept <+ ids.destutter (· ≠ ·)) :
    kept.length ≤ ids.dedup.length :=
  (subperm_of_subset h fun _ ha => mem_dedup.mpr (mem_destutter.mp (hsub.mem ha))).length_le

/-- Every step has a point, and a release has one marker at its earliest bucket, if no release comes back after another
one; with fewer than a hundred releases, only then. -/
theorem history_shown_iff {query : HistoryQuery} {step : Nat} (h : validateHistoryQuery query = .ok step)
    (rows : List HistoryRow) : (NoneReturns rows → Shown query step rows (historyResponse query step rows)) ∧
      ((releasesInOrder rows).dedup.length < 100 →
        Shown query step rows (historyResponse query step rows) → NoneReturns rows) := by
  have hids : (historyResponse query step rows).releases.map (·.release.id) =
      ((releasesInOrder rows).destutter (· ≠ ·)).take 100 := by
    rw [historyResponse, map_take]
    exact congrArg _ (map_destutter fun _ _ _ _ => Iff.rfl)
  have hperm := perm_insertionSort (fun a b : ReleaseMarker => a.observedAt ≤ b.observedAt) (occurrences rows)
  have hsorted : (inOrder ReleaseMarker.observedAt (occurrences rows)).Pairwise _ := pairwise_inOrder
  have hfirst := exists_first_of_run hsorted
  refine ⟨fun hnone => ?_, fun hfew hshown => ?_⟩
  swap
  · -- as many markers as releases at most, so none is cut off
    have honce := hshown.once
    rw [hids] at honce
    have hlength := (length_le_dedup honce (take_sublist _ _)).trans_lt hfew
    rw [take_of_length_le (by rw [length_take] at hlength; omega)] at honce
    exact nodup_destutter_iff.mp honce
  have hnodup := nodup_destutter_iff.mpr hnone
  have honce : ((historyResponse query step rows).releases.map (·.release.id)).Nodup :=
    hids ▸ hnodup.sublist (take_sublist _ _)
  refine ⟨fun k hk => ?_, pairwise_inOrder, honce, fun m hm => ?_, fun hfew o ho => ?_⟩
  · -- the step has a bucket, or it has a gap
    by_cases hobserved : query.start + seconds (k * step) ∈ rows.map HistoryRow.bucketStart
    · obtain ⟨row, hrow, heq⟩ := mem_map.mp hobserved
      exact ⟨historyPoint step row, (mem_insertionSort _).mpr (mem_append_left _ (mem_map_of_mem hrow)), heq⟩
    · obtain ⟨p, hp, heq⟩ := mem_appendHistoryGaps (validateHistoryQuery_pos h) hk hobserved
      exact ⟨p, (mem_insertionSort _).mpr (mem_append_right _ hp), heq⟩
  · refine ⟨hperm.mem_iff.mp ((destutter_sublist _ _).mem (mem_of_mem_take hm)), fun o ho hid => ?_⟩
    by_contra hearlier
    obtain ⟨m', hm', hid', hle⟩ := hfirst o (hperm.mem_iff.mpr ho)
    have hlt : m'.observedAt < m.observedAt := lt_of_le_of_lt hle (not_le.mp hearlier)
    -- a marker of the same release before this one would be shown too
    have hshown : m' ∈ (historyResponse query step rows).releases := by
      have hmarkers := hsorted.sublist (destutter_sublist (·.release.id ≠ ·.release.id) _)
      rw [← take_append_drop 100 (destutter _ _), mem_append] at hm'
      rw [← take_append_drop 100 (destutter _ _), pairwise_append] at hmarkers
      exact hm'.resolve_right fun hdropped => absurd hlt (not_lt.mpr (hmarkers.2.2 m hm m' hdropped))
    cases inj_on_of_nodup_map honce hshown hm (hid'.trans hid)
    exact absurd hlt (lt_irrefl _)
  · have hmem : o.release.id ∈ (historyResponse query step rows).releases.map (·.release.id) := by
      rw [hids, take_of_length_le, mem_destutter]
      · exact mem_map_of_mem (hperm.mem_iff.mpr ho)
      · exact (length_le_dedup hnodup (Sublist.refl _)).trans hfew
    obtain ⟨m, hm, hid⟩ := mem_map.mp hmem
    exact ⟨m, hm, hid⟩

/-- Three minutes of a rollout in which the first release comes back. -/
def rollout : List HistoryRow :=
  [⟨0, some ⟨1, "v1"⟩, "web"⟩, ⟨seconds 60, some ⟨2, "v2"⟩, "web"⟩, ⟨seconds 120, some ⟨1, "v1"⟩, "web"⟩]

def rolloutQuery : HistoryQuery := ⟨"cpu_usage_cores", 0, seconds 180, "minute", none, "total"⟩

/-- The history of the rollout has two markers of the first release. -/
theorem returning_release_marked_twice : validateHistoryQuery rolloutQuery = .ok 60 ∧
    (∀ row ∈ rollout, rolloutQuery.start ≤ row.bucketStart ∧ row.bucketStart < rolloutQuery.stop ∧
      row.bucketStart % seconds 60 = 0) ∧
    ¬ Shown rolloutQuery 60 rollout (historyResponse rolloutQuery 60 rollout) :=
  ⟨by decide +kernel, by decide +kernel, fun h => absurd h.once (by decide +kernel)⟩

/-- Before the first release comes back, the history is shown as it should be. -/
theorem rollout_shown : Shown rolloutQuery 60 (rollout.take 2) (historyResponse rolloutQuery 60 (rollout.take 2)) :=
  (history_shown_iff (by decide +kernel) _).1 (nodup_destutter_iff.mp (by decide +kernel))

end Okoscope.Server.ResourceHistory
