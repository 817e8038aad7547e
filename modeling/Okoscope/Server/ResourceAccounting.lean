import Mathlib.Algebra.Order.Ring.Unbundled.Rat
import Mathlib.Data.List.ProdSigma
import Okoscope.Server.Resources

/-!
# Each aggregate is added once

An aggregate is recognised by its contribution, and a contribution is deleted only when
it ended before the boundary of its project. As long as no aggregate from before the
boundary gets through to its transaction, none is added to a point twice. One that does
get through, because the days of detail were raised since, is added again to the hour
point that is still there.
-/
namespace Okoscope.Server.Resources

open Lib Lib.Bytes Lib.Table Lib.Watermark Lib.Tally Lib.Outcome
open EventModel
open Deployments (storedAt)
open RuntimeEvents (ApplicationScope SessionScope ApplicationCredentialScope)
open Addition MetricContribution List

variable {F : Type}

/-! ## The metrics of an aggregate -/

def metricNames : List String :=
  ["cpu_usage_cores", "cpu_quota_ratio", "cpu_throttled_period_ratio", "cpu_throttled_seconds",
    "memory_current_bytes", "memory_anon_bytes", "memory_file_bytes", "memory_headroom_ratio",
    "memory_high_events", "memory_max_events", "oom_events", "oom_kill_events",
    "cpu_psi_some_ratio", "cpu_psi_full_ratio", "memory_psi_some_ratio", "memory_psi_full_ratio",
    "io_psi_some_ratio", "io_psi_full_ratio", "io_read_bytes", "io_write_bytes",
    "io_read_operations", "io_write_operations", "pids_current", "pids_limit_ratio", "pids_max_events"]

variable {value : Option UInt64}

section
variable [Doubles F] (name unit : String)

theorem names_pushRatio {numerator denominator : Option UInt64} :
    ((pushRatio (F := F) name unit numerator denominator).map MetricContribution.name).Sublist [name] := by
  unfold pushRatio
  split
  · split <;> simp
  · simp

theorem names_pushScaled {scale : F} :
    ((pushScaled name unit value scale).map MetricContribution.name).Sublist [name] := by
  unfold pushScaled
  split <;> simp

theorem names_pushGauge {sum limit : Option UInt64} {divisor : F} :
    ((pushGauge name unit sum limit divisor).map MetricContribution.name).Sublist [name] := by
  unfold pushGauge
  split <;> simp

theorem names_pushRate {covered : F} :
    ((pushRate name unit value covered).map MetricContribution.name).Sublist [name] := by
  unfold pushRate
  split
  · split <;> simp
  · simp

end

variable {values : ResourceValues}

theorem names_pushCpuQuota [Doubles F] (covered : UInt64) :
    ((pushCpuQuota (F := F) values covered).map name).Sublist ["cpu_quota_ratio"] := by
  unfold pushCpuQuota
  split
  · split <;> simp
  · simp

theorem names_pushMemoryHeadroom [Doubles F] (samples : F) :
    ((pushMemoryHeadroom values samples).map name).Sublist ["memory_headroom_ratio"] := by
  unfold pushMemoryHeadroom
  split
  · split <;> simp
  · simp

/-- Metrics pushed one by one from a table of names. -/
theorem names_flatMap {ν : Type} {rows : List (String × ν)} {push : String × ν → List (MetricContribution F)}
    (h : ∀ r, ((push r).map name).Sublist [r.1]) : ((rows.flatMap push).map name).Sublist (rows.map Prod.fst) := by
  induction rows with
  | nil => simp
  | cons r _ ih =>
    rw [flatMap_cons, map_append, map_cons]
    exact (h r).append ih

theorem names_pushIoRates [Doubles F] (covered : F) :
    ((pushIoRates values covered).map name).Sublist ["io_read_operations", "io_write_operations"] := by
  refine names_flatMap fun r => ?_
  obtain ⟨_, value⟩ := r
  cases value <;> simp

/-- A metric is pushed at most once, in the order of the names. -/
theorem names_metricContributions [Doubles F] {coveredUsec : UInt64} {sampleCount : UInt32} :
    ((metricContributions (F := F) values coveredUsec sampleCount).map MetricContribution.name).Sublist metricNames := by
  have hcounts : ((pushCountMetrics (F := F) values).map MetricContribution.name).Sublist
      ["memory_high_events", "memory_max_events", "oom_events", "oom_kill_events"] :=
    names_flatMap fun r => names_pushScaled r.1 "count"
  have hpressure : ((pushPressureMetrics (F := F) values coveredUsec).map MetricContribution.name).Sublist
      ["cpu_psi_some_ratio", "cpu_psi_full_ratio", "memory_psi_some_ratio", "memory_psi_full_ratio",
        "io_psi_some_ratio", "io_psi_full_ratio"] :=
    names_flatMap fun r => names_pushRatio r.1 "ratio"
  simp only [metricContributions, pushMemoryMetrics, map_append, append_assoc]
  apply List.Sublist.append (names_pushRatio "cpu_usage_cores" _)
  apply List.Sublist.append (names_pushCpuQuota _)
  apply List.Sublist.append (names_pushRatio "cpu_throttled_period_ratio" _)
  apply List.Sublist.append (names_pushScaled "cpu_throttled_seconds" _)
  apply List.Sublist.append (names_pushGauge "memory_current_bytes" _)
  apply List.Sublist.append (names_pushGauge "memory_anon_bytes" _)
  apply List.Sublist.append (names_pushGauge "memory_file_bytes" _)
  apply List.Sublist.append (names_pushMemoryHeadroom _)
  apply List.Sublist.append hcounts
  apply List.Sublist.append hpressure
  apply List.Sublist.append (names_pushRate "io_read_bytes" _)
  apply List.Sublist.append (names_pushRate "io_write_bytes" _)
  apply List.Sublist.append (names_pushIoRates _)
  apply List.Sublist.append (names_pushGauge "pids_current" _)
  apply List.Sublist.append (names_pushRatio "pids_limit_ratio" _)
  exact names_pushScaled "pids_max_events" _

theorem nodup_names [Doubles F] (values : ResourceValues) (coveredUsec : UInt64) (sampleCount : UInt32) :
    ((metricContributions (F := F) values coveredUsec sampleCount).map name).Nodup :=
  names_metricContributions.nodup (by decide)

theorem nodup_points (F : Type) [Doubles F] (c : Contribution) :
    ((rollupAdditions F c.aggregate).map fun a => (rollupPoint c a.1 a.2).key).Nodup := by
  have hpairs : ((rollupAdditions F c.aggregate).map fun a => (a.1.name, a.2)).Nodup := by
    have hproduct := (nodup_names (F := F) c.aggregate.values c.aggregate.coveredUsec c.aggregate.sampleCount).product
      (show steps.Nodup by decide)
    change ((List.map _ _).flatMap fun name => steps.map (Prod.mk name)).Nodup at hproduct
    rw [rollupAdditions, map_flatMap]
    rw [flatMap_map] at hproduct
    simpa only [map_map, Function.comp_def] using hproduct
  refine List.Nodup.of_map (fun k : PointKey => (k.metric, k.stepSeconds)) ?_
  rw [map_map]
  exact hpairs

/-! ## What is known of the tables -/

/-- When an aggregate ends, by its key. -/
abbrev Stamp := ContributionKey → Int

def Addition.entry (a : Addition) : ContributionKey × PointKey := (a.contribution, a.point)

def Db.projectOf (db : Db F) (applicationId : Uuid) : Option Uuid :=
  (get? ApplicationScope.applicationId applicationId db.applications.rows).map ApplicationScope.projectId

def Db.closedBefore (db : Db F) (projectId : Uuid) : Option Int :=
  (get? Project.id projectId db.projects).bind Project.closedBefore

def Remembered (db : Db F) (entry : ContributionKey × PointKey) : Prop := ∃ c ∈ db.contributions, c.key = entry.1

/-- The aggregate ended before the boundary of its project. -/
def Closed (stamp : Stamp) (db : Db F) (entry : ContributionKey × PointKey) : Prop :=
  ∃ projectId, db.projectOf entry.1.applicationId = some projectId ∧
    past (db.closedBefore projectId) (stamp entry.1)

/-- The points count the additions to them. -/
structure Tallied (db : Db F) : Prop where
  unique : (db.points.map RollupPoint.key).Nodup
  tallies : Tallies RollupPoint.contributorCount RollupPoint.key db.points
    ((db.additions.filter held).map point)

structure Accounted (stamp : Stamp) (db : Db F) : Prop extends Tallied db where
  once : OnceOnly (Remembered db) (Closed stamp db) (db.additions.map entry)
  recorded : ∀ c ∈ db.contributions, c.scope ∈ db.applications.rows ∧ c.intervalEnd = stamp c.key

theorem accounted_start {stamp : Stamp} {organizations : List Organization} {projects : List Project}
    {applications : Applications} {agents : List Agent} {releases : List Release} :
    Accounted stamp (Db.start F organizations projects applications agents releases) where
  unique := nodup_nil
  tallies := tallies_nil
  once := onceOnly_nil
  recorded := fun _ h => nomatch h

variable {db db' : Db F} {c : Contribution} {stamp : Stamp} {projectId : Uuid} {detailBefore : Int}

theorem Db.projectOf_of_mem {scope : ApplicationScope} (h : scope ∈ db.applications.rows) :
    db.projectOf scope.applicationId = some scope.projectId := by
  rw [Db.projectOf, get?_of_mem db.applications.unique h]
  rfl

/-! ## Storing -/

theorem insertContribution_cases {inserted : Bool} (h : insertContribution db c = .ok (inserted, db')) :
    (inserted = false ∧ db' = db) ∨ (inserted ∧ db' = { db with contributions := db.contributions ++ [c] } ∧
        (∀ d ∈ db.contributions, d.key ≠ c.key) ∧ c.scope ∈ db.applications.rows) := by
  unfold insertContribution at h
  split at h
  · cases h
  split at h
  · cases h
  split at h
  · cases h
    exact .inl ⟨rfl, rfl⟩
  next hfree =>
  split at h
  · cases h
  next hlinked =>
  cases h
  refine .inr ⟨rfl, rfl, fun d hd heq => hfree ?_, ?_⟩
  · exact any_eq_true.mpr ⟨d, hd, by simpa using heq⟩
  · simp only [Contribution.linked, Bool.not_eq_true', Bool.not_eq_false, Bool.and_eq_true] at hlinked
    exact of_decide_eq_true hlinked.1.1

variable {a : MetricContribution F × Nat}

theorem upsertRollup_eq_ok [Doubles F] (h : upsertRollup c db a = .ok db') : db' = { db with
      points := upsert RollupPoint.key RollupPoint.merge (rollupPoint c a.1 a.2) db.points
      additions := db.additions ++ [⟨c.key, (rollupPoint c a.1 a.2).key, true⟩] } := by
  unfold upsertRollup at h
  dsimp only at h
  split at h
  · cases h
  split at h
  · cases h
  · cases h
    rfl

theorem Tallied.upsertRollup [Doubles F] (h : Tallied db) (hdb' : upsertRollup c db a = .ok db') : Tallied db' := by
  rw [upsertRollup_eq_ok hdb']
  constructor
  · exact nodup_map_upsert (fun _ => rfl) h.unique
  · rw [filter_append, map_append]
    exact h.tallies.count_in h.unique (fun _ => rfl) fun _ => rfl

/-- What adding the metrics of an aggregate does. -/
theorem rollups_added [Doubles F] {adds : List (MetricContribution F × Nat)}
    (h : adds.foldlM (upsertRollup c) db = .ok db') :
    db'.projects = db.projects ∧ db'.applications = db.applications ∧ db'.contributions = db.contributions ∧
      db'.additions = db.additions ++ adds.map (fun a => ⟨c.key, (rollupPoint c a.1 a.2).key, true⟩) ∧
      (Tallied db → Tallied db') := by
  induction adds generalizing db with
  | nil =>
    cases h
    simp
  | cons _ _ ih =>
    obtain ⟨_, hnext, h⟩ := bind_eq_ok.mp h
    obtain ⟨hprojects, happlications, hcontributions, hadditions, htallied⟩ := ih h
    have heq := upsertRollup_eq_ok hnext
    refine ⟨?_, ?_, ?_, ?_, fun hdb => htallied (hdb.upsertRollup hnext)⟩
    · rw [hprojects, heq]
    · rw [happlications, heq]
    · rw [hcontributions, heq]
    · rw [hadditions, heq, map_cons, append_assoc]
      rfl

theorem Accounted.persistTransaction [Doubles F] (h : Accounted stamp db) {outcome : PersistResourceOutcome}
    (hdb' : persistTransaction db c = .ok (outcome, db')) (hstamp : c.intervalEnd = stamp c.key)
    (hopen : past (db.closedBefore c.scope.projectId) c.intervalEnd = false) : Accounted stamp db' := by
  obtain ⟨⟨_, _⟩, hstored, hrest⟩ := bind_eq_ok.mp hdb'
  obtain ⟨hinserted, hsame⟩ | ⟨hinserted, hsame, hfree, hscope⟩ := insertContribution_cases hstored
  · subst hinserted hsame
    cases hrest
    exact h
  subst hinserted hsame
  obtain ⟨_, hrolled, hdone⟩ := bind_eq_ok.mp hrest
  cases hdone
  obtain ⟨hprojects, happlications, hcontributions, hadditions, htallied⟩ := rollups_added hrolled
  refine ⟨htallied ⟨h.unique, h.tallies⟩, ?_, ?_⟩
  · -- the aggregate was neither remembered nor closed, and is remembered from now on
    have hnew : ∀ entry ∈ (rollupAdditions F c.aggregate).map
        (fun a => (c.key, (rollupPoint c a.1 a.2).key)), entry.1 = c.key := by
      intro entry hentry
      obtain ⟨_, -, rfl⟩ := mem_map.mp hentry
      rfl
    have hkept : ∀ d ∈ db.contributions ++ [c], d ∈ db'.contributions := by
      rw [hcontributions]
      exact fun d hd => hd
    have hclosed : Closed stamp db' = Closed stamp db := by
      funext entry
      simp [Closed, Db.projectOf, Db.closedBefore, hprojects, happlications]
    rw [hadditions, map_append, map_map, hclosed]
    refine h.once.count ?_ (fun entry hentry => ⟨?_, ?_⟩) ?_ fun entry hentry => ?_
    · refine List.Nodup.of_map Prod.snd ?_
      rw [map_map]
      exact nodup_points F c
    · intro hremembered
      obtain ⟨d, hd, hkey⟩ := hremembered
      exact hfree d hd (hkey.trans (hnew entry hentry))
    · intro hclosed
      obtain ⟨_, hproject, hpast⟩ := hclosed
      rw [hnew entry hentry] at hproject hpast
      cases (Db.projectOf_of_mem hscope).symm.trans hproject
      rw [← hstamp, hopen] at hpast
      cases hpast
    · intro entry hremembered
      obtain ⟨d, hd, hkey⟩ := hremembered
      exact ⟨d, hkept d (mem_append_left _ hd), hkey⟩
    · exact ⟨c, hkept c mem_concat_self, (hnew entry hentry).symm⟩
  · rw [hcontributions, happlications]
    intro d hd
    obtain hd | rfl := mem_append_singleton.mp hd
    · exact h.recorded d hd
    · exact ⟨hscope, hstamp⟩

/-! ## Cleanup -/

variable {locked : List ContributionKey}

/-- The boundaries of a project after an update that keeps its id. -/
theorem Db.closedBefore_updateWhere {cond : Project → Bool} {f : Project → Project}
    (hprojects : db'.projects = updateWhere cond f db.projects) (hid : ∀ p, (f p).id = p.id) :
    db'.closedBefore projectId =
      (get? Project.id projectId db.projects).bind fun p => (if cond p then f p else p).closedBefore := by
  rw [Db.closedBefore, hprojects, get?_updateWhere hid, Option.bind_map]
  rfl

theorem closedBefore_advanced (db : Db F) (projectId : Uuid) (detailBefore rollupBefore : Int) (id : Uuid) :
    (advanceRetentionHorizons db projectId detailBefore rollupBefore).closedBefore id =
      (get? Project.id id db.projects).bind fun p =>
        if p.id = projectId then greatest p.closedBefore (some detailBefore) else p.closedBefore := by
  rw [Db.closedBefore_updateWhere (show _ = updateWhere _ _ db.projects from rfl) (by intro p; rfl)]
  congr 1
  funext p
  by_cases hp : p.id = projectId <;> simp [hp]

theorem Closed.mono {entry : ContributionKey × PointKey} (h : Closed stamp db entry)
    (happlications : db'.applications = db.applications)
    (hpast : ∀ projectId t, past (db.closedBefore projectId) t → past (db'.closedBefore projectId) t) :
    Closed stamp db' entry := by
  obtain ⟨projectId, hproject, hclosed⟩ := h
  refine ⟨projectId, ?_, hpast _ _ hclosed⟩
  rw [Db.projectOf, happlications]
  exact hproject

theorem past_advanced {rollupBefore : Int} (id : Uuid) (t : Int) (h : past (db.closedBefore id) t) :
    past ((advanceRetentionHorizons db projectId detailBefore rollupBefore).closedBefore id) t := by
  rw [closedBefore_advanced]
  rw [Db.closedBefore] at h
  cases hp : get? Project.id id db.projects with
  | none =>
    rw [hp] at h
    cases h
  | some =>
    rw [hp] at h
    rw [Option.bind_some]
    split
    · exact past_greatest (.inl h)
    · exact h

theorem Tallied.deleteExpiredRollups (h : Tallied db) (keys : List PointKey) :
    Tallied (deleteExpiredRollups db keys) := by
  constructor
  · exact h.unique.sublist (filter_sublist.map _)
  have hheld : ((db.additions.map fun a => if a.point ∈ keys then { a with held := false } else a).filter
      held).map point =
      ((db.additions.filter held).map point).filter fun k => k ∉ keys := by
    induction db.additions with
    | nil => rfl
    | cons a _ ih =>
      by_cases hk : a.point ∈ keys <;> cases hh : a.held <;> simp [hk, hh, ih]
  rw [Resources.deleteExpiredRollups, hheld]
  exact h.tallies.filter fun k => k ∉ keys

theorem entries_deleteExpiredRollups (db : Db F) (keys : List PointKey) :
    (deleteExpiredRollups db keys).additions.map entry = db.additions.map entry := by
  rw [deleteExpiredRollups, map_map]
  apply map_congr_left
  intro a _
  show entry (if a.point ∈ keys then { a with held := false } else a) = a.entry
  split <;> rfl

theorem Accounted.cleanupProject (h : Accounted stamp db) {now : DateTime} {limit : Int}
    {lockedPoints : List PointKey} {deleted : Nat}
    (hdb' : cleanupProject db projectId now limit locked lockedPoints = .ok (deleted, db')) : Accounted stamp db' := by
  obtain ⟨days, hdays, hrest⟩ := bind_eq_ok.mp hdb'
  unfold retentionDays at hdays
  split at hdays
  · cases hdays
  next hproject =>
  cases hrest
  refine ⟨Tallied.deleteExpiredRollups ?_ _, ?_, ?_⟩
  · exact ⟨h.unique, h.tallies⟩
  · rw [entries_deleteExpiredRollups]
    refine h.once.forget (fun entry hremembered => ?_) fun entry hclosed => hclosed.mono rfl past_advanced
    obtain ⟨c, hc, hkey⟩ := hremembered
    by_cases hexpired : c.key ∈ expiredContributions (advanceRetentionHorizons db projectId
        (storedAt (daysBefore now days.detail)) (storedAt (daysBefore now days.rollup))) projectId
        (storedAt (daysBefore now days.detail)) (clampLimit limit) locked
    · -- the contribution is forgotten, and ended before the boundary that was set just now
      right
      obtain ⟨d, hd, hdkey⟩ := mem_map.mp hexpired
      have hd := mem_of_mem_take hd
      rw [Paging.inOrder, mem_insertionSort, mem_filter] at hd
      simp only [Bool.and_eq_true, decide_eq_true_eq] at hd
      obtain ⟨hd, ⟨hdproject, hend⟩, -⟩ := hd
      obtain ⟨hdscope, hdstamp⟩ := h.recorded d hd
      refine ⟨projectId, ?_, ?_⟩
      · rw [← hkey, ← hdkey, ← hdproject]
        exact Db.projectOf_of_mem hdscope
      · rw [← hkey, ← hdkey, ← hdstamp]
        show past ((advanceRetentionHorizons db projectId _ (storedAt (daysBefore now days.rollup))).closedBefore _) _
        rw [closedBefore_advanced, hproject, Option.bind_some, if_pos (get?_eq_some hproject).2]
        exact past_greatest (.inr (past_eq_true.mpr ⟨_, rfl, hend⟩))
    · left
      exact ⟨c, mem_filter.mpr ⟨hc, by simpa using hexpired⟩, hkey⟩
  · intro c hc
    exact h.recorded c (mem_filter.mp hc).1

/-! ## Runs -/

/-- A request that comes to its transaction has the end of its aggregate, and its project is not
closed beyond that. -/
def onTime (stamp : Stamp) (w : World F) : Step → Bool
  | .persist n =>
    match w.inFlight[n]? with
    | some (.resolved request releaseId) =>
      storedAt request.aggregate.intervalEnd = stamp (request.contribution releaseId).key &&
        !past (w.db.closedBefore request.application.projectId) (storedAt request.aggregate.intervalEnd)
    | _ => true
  | _ => true

theorem Accounted.of_days (h : Accounted stamp db)
    (happlications : db'.applications = db.applications) (hcontributions : db'.contributions = db.contributions)
    (hpoints : db'.points = db.points) (hadditions : db'.additions = db.additions)
    (hclosed : ∀ projectId, db'.closedBefore projectId = db.closedBefore projectId) : Accounted stamp db' := by
  refine ⟨⟨?_, ?_⟩, ?_, ?_⟩
  · rw [hpoints]
    exact h.unique
  · rw [hpoints, hadditions]
    exact h.tallies
  · rw [hadditions]
    refine h.once.forget (fun entry hremembered => .inl ?_) fun entry hpast => hpast.mono happlications fun id t ht => ?_
    · rw [Remembered, hcontributions]
      exact hremembered
    · rw [hclosed]
      exact ht
  · rw [hcontributions, happlications]
    exact h.recorded

theorem Accounted.step [Doubles F] {w : World F} (h : Accounted stamp w.db) (s : Step)
    (hs : onTime stamp w s) : Accounted stamp (step w s).2.db := by
  cases s with
  | receive =>
    simp only [Resources.step]
    split <;> exact h
  | resolve =>
    simp only [Resources.step]
    split <;> exact h
  | persist =>
    simp only [Resources.step]
    simp only [onTime] at hs
    split
    · next hn =>
      rw [hn] at hs
      simp only [Bool.and_eq_true, decide_eq_true_eq, Bool.not_eq_true'] at hs
      split
      · exact h
      · next hdb => exact h.persistTransaction hdb hs.1 hs.2
    · exact h
  | cleanupProject =>
    simp only [Resources.step]
    split
    · exact h
    · next hdb => exact h.cleanupProject hdb
  | setProjectDays =>
    refine h.of_days rfl rfl rfl rfl fun id => ?_
    rw [Db.closedBefore_updateWhere (show _ = updateWhere _ _ w.db.projects from rfl) (by intro p; rfl), Db.closedBefore]
    congr 1
    funext p
    split <;> rfl
  | _ => exact h.of_days rfl rfl rfl rfl fun _ => rfl

/-- Over every run in which the requests come to their transactions on time, no aggregate is added
twice to a point, and every point counts the additions to it. -/
theorem aggregates_added_once [Doubles F] (stamp : Stamp) (organizations : List Organization) (projects : List Project)
    (applications : Applications) (agents : List Agent) (releases : List Release) (steps : List Step)
    (h : Run.Along step (fun w s => onTime stamp w s)
      ⟨Db.start F organizations projects applications agents releases, []⟩ steps) :
    let db := (Run.trace step ⟨Db.start F organizations projects applications agents releases, []⟩ steps).2.db
    (db.additions.map entry).Nodup ∧
      ∀ p ∈ db.points, p.contributorCount = db.additions.countP fun a => a.held && a.point = p.key := by
  intro db
  have haccounted : Accounted stamp db :=
    Run.trace_invariant_along (fun _ w => Accounted stamp w.db) (fun _ _ s hw hs => hw.step s hs)
      accounted_start h
  refine ⟨haccounted.once.nodup, fun p hp => ?_⟩
  rw [haccounted.tallies.count_eq haccounted.unique hp, countP_map, countP_filter]
  congr 1
  funext a
  exact Bool.and_comm _ _

/-! ## An aggregate sent again -/

/-- Fractions for doubles: exact for the numbers below. -/
instance : Doubles Rat where
  ofNat n := n
  add := (· + ·)
  sub := (· - ·)
  mul := (· * ·)
  div := (· / ·)
  least := min
  greatest := max
  positive x := 0 < x

def weekOfDetail : ResourceDays := ⟨⟨7, 90⟩, by decide, by decide⟩

def noDays : ProjectDays := ⟨none, none, by decide, by decide⟩

def monthOfDetail : ProjectDays := ⟨some 31, some 90, by decide, by decide⟩

def paymentScope : ApplicationScope := ⟨Uuid.nil, ByteVec.fill 16 1, ByteVec.fill 16 2⟩

/-- A minute of a container that used a third of a core. -/
def paymentMinute : ResourceAggregate where
  id := ByteVec.fill 16 3
  schemaVersion := 1
  intervalStart := 1700000040000000000
  intervalEnd := 1700000100000000000
  coveredUsec := 60000000
  sampleCount := 4
  contributingContainers := 1
  readyContainers := 1
  «namespace» := "payments"
  workloadUid := "deployment-1"
  workloadKind := "Deployment"
  workloadName := "payment-api"
  containerName := "api"
  nodeName := "node-1"
  releaseIdentity := none
  unavailableSources := 0
  values := { cpuUsageUsec := some 20000000 }

def paymentRequest : Request where
  scope := ⟨Uuid.nil, Uuid.nil⟩
  application := ⟨Uuid.nil, ByteVec.fill 16 1, ByteVec.fill 16 2⟩
  agentId := Uuid.nil
  aggregate := paymentMinute

def paymentWorld : World Rat :=
  ⟨Db.start Rat [⟨Uuid.nil, weekOfDetail⟩] [⟨paymentScope.projectId, Uuid.nil, noDays, none, none⟩]
    ⟨[paymentScope], by decide⟩ [⟨Uuid.nil, Uuid.nil, Uuid.nil⟩] [], []⟩

/-- The request, from its arrival to its transaction. -/
def sendPayment (now : DateTime) : List Step := [.receive paymentRequest now, .resolve 0, .persist 0]

def hours (n : Int) : Int := n * (3600 * DateTime.nanosPerSecond)

/-- A replay within the days of detail, and cleanup. -/
def promptRun : List Step :=
  sendPayment 1700000100000000000 ++ sendPayment (1700000100000000000 + hours 24) ++
    [.cleanupProject paymentScope.projectId (1700000100000000000 + hours 192) 500 [] []] ++
    sendPayment (1700000100000000000 + hours 193)

theorem aggregates_added_once_promptRun : ((Run.trace step paymentWorld promptRun).2.db.additions.map entry).Nodup ∧
      (Run.trace step paymentWorld promptRun).2.db.points.map (fun p => (p.key.stepSeconds, p.contributorCount)) =
        [(3600, 1)] := by
  refine ⟨(aggregates_added_once (fun _ => storedAt paymentMinute.intervalEnd) _ _ _ _ _ promptRun ?_).1, ?_⟩
  · decide +kernel
  · decide +kernel

/-- The aggregate is sent again after its contribution was deleted and the project keeps details for
longer: the hour counts it twice. -/
def raisedRun : List Step :=
  sendPayment 1700000100000000000 ++
    [.cleanupProject paymentScope.projectId (1700000100000000000 + hours 192) 500 [] [],
      .setProjectDays paymentScope.projectId monthOfDetail] ++
    sendPayment (1700000100000000000 + hours 193)

theorem aggregate_added_twice : ¬ ((Run.trace step paymentWorld raisedRun).2.db.additions.map entry).Nodup ∧
      (Run.trace step paymentWorld raisedRun).2.db.points.map (fun p => (p.key.stepSeconds, p.contributorCount)) =
        [(3600, 2), (60, 1)] := by
  refine ⟨?_, ?_⟩
  · decide +kernel
  · decide +kernel

end Okoscope.Server.Resources
