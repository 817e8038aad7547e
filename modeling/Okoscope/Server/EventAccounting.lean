import Okoscope.Server.EventLedger

/-!
# Every event is counted once

An event may be sent any number of times, in batches of any shape, between passes of
retention under policies that change at will. It is counted in its group at the first
time only: as long as its row is there the row gives it away, and the row is deleted
only when the project is closed beyond the observation, from when on the event is
turned away for its age. An agent stamps an event once, so that a repetition carries
the time of the first.
-/
namespace Okoscope.Server.RuntimeEvents

open Lib Lib.Table Lib.Tally Lib.Watermark Lib.Outcome
open EventModel Grouping
open Deployments (storedAt SqlError)
open Occurrence List

/-! ## Groups that an event joins -/

/-- The tables with one more membership, which the ledger keeps account of. -/
def Db.withMember (db : Db) (raw : Event) (key : GroupKey) (m : Membership) : Db :=
  { db with
    memberships := db.memberships ++ [m]
    ledger := db.ledger ++ [⟨raw.agentId, raw.eventId, key, m.groupId, .raw m raw.observedAt⟩] }

variable {groupId n : Nat} {releaseId : Option Nat} {closed : Option Int} {progress : Progress}
variable {organizationId projectId : Uuid}

section
variable {db db' : Db} {raw : Event} {key : GroupKey} {m : Membership} {scope : TrustedGroupingScope}

theorem addMembership_of_free (h : ∀ m' ∈ db.memberships, m'.eventId = m.eventId →
    m'.fingerprintVersion ≠ m.fingerprintVersion) : addMembership db raw key m = (true, db.withMember raw key m) := by
  rw [addMembership, if_neg]
  · rfl
  intro hany
  obtain ⟨m', hm', heq⟩ := any_eq_true.mp hany
  rw [Bool.and_eq_true, decide_eq_true_eq, decide_eq_true_eq] at heq
  exact h m' hm' heq.1 heq.2

/-- A new group starts with the event. -/
theorem joined_created {input : NewEventGroup} (hkey : input.key = key) (hevent : m.eventId = raw.id)
    (hversion : m.fingerprintVersion = key.fingerprintVersion) (hgroup : m.groupId = db.nextId) :
    Joined db (Db.withMember { db with nextId := db.nextId + 1, groups := db.groups ++ [input.row db.nextId] } raw key m)
      raw key m := by
  refine ⟨rfl, rfl, rfl, Nat.le_succ _, hevent, hversion, ?_, rfl, rfl, .created _ rfl hgroup.symm hkey rfl hgroup.ge⟩
  exact hgroup ▸ Nat.lt_succ_self _

/-- A group that is there counts one more. -/
theorem joined_raised (h : Sound db) {g : EventGroup} (hg : g ∈ db.groups) (hgkey : g.key = key)
    (hevent : m.eventId = raw.id) (hversion : m.fingerprintVersion = key.fingerprintVersion) (hgroup : m.groupId = g.id)
    {groups : List EventGroup} {f : EventGroup → EventGroup} (hgroups : groups = db.groups.map f)
    (hid : ∀ g, (f g).id = g.id) (hkey : ∀ g, (f g).key = g.key)
    (hcount : ∀ g', (f g').occurrenceCount = g'.occurrenceCount + if g'.id = g.id then 1 else 0) :
    Joined db { db.withMember raw key m with groups } raw key m := by
  refine ⟨rfl, rfl, rfl, le_rfl, hevent, hversion, hgroup ▸ h.group_lt g hg, rfl, rfl, ?_⟩
  exact .raised f hgroups hid hkey (hgroup ▸ hcount) ⟨g, hg, hgroup.symm, hgkey⟩

theorem lockExisting_eq_ok (h : lockExisting db key = .ok groupId) : ∃ g ∈ db.groups, g.key = key ∧ g.id = groupId := by
  unfold lockExisting at h
  split at h
  · next g hget =>
    cases h
    exact ⟨g, (get?_eq_some hget).1, (get?_eq_some hget).2, rfl⟩
  · cases h

/-- A stored event joins the group of its fingerprint. -/
theorem assignEvent_joined {event : RuntimeEvent} {outcome : GroupingOutcome} (h : Sound db)
    (hfree : ∀ m ∈ db.memberships, m.eventId ≠ raw.id)
    (hassign : assignEvent db raw releaseId scope event = .ok (outcome, db')) :
    ∃ key m, key.scope = scope ∧ key.fingerprintVersion = 1 ∧ Joined db db' raw key m := by
  obtain ⟨fingerprint, -, hassign⟩ := bind_eq_ok.mp hassign
  have hversion : fingerprint.version.number = 1 := by
    rfl
  refine ⟨⟨scope, fingerprint.version.number, fingerprint.digest⟩, ?_⟩
  dsimp only at hassign
  generalize hnew : NewEventGroup.mk ⟨scope, fingerprint.version.number, fingerprint.digest⟩
    fingerprint.summary.eventKind (storedAt event.observedAt) = input at hassign
  rw [insertIfAbsent] at hassign
  split at hassign
  · -- the key is taken
    obtain ⟨_, hgroup, hjoin⟩ := bind_eq_ok.mp hassign
    obtain ⟨g, hg, hgkey, rfl⟩ := lockExisting_eq_ok hgroup
    rw [joinGroup, addMembership_of_free fun m hm heq => absurd heq (hfree m hm)] at hjoin
    cases hjoin
    refine ⟨⟨raw.scope, raw.id, g.id, fingerprint.version.number, releaseId⟩, rfl, hversion, ?_⟩
    refine joined_raised h hg hgkey rfl rfl rfl rfl (fun g' => ?_) (fun g' => ?_) fun g' => ?_
    · split <;> rfl
    · split <;> rfl
    · by_cases hid : g'.id = g.id <;> simp [hid, EventGroup.occurred]
  · obtain ⟨_, hgroup, hjoin⟩ := bind_eq_ok.mp hassign
    cases hgroup
    rw [joinGroup, addMembership_of_free] at hjoin
    · cases hjoin
      refine ⟨⟨raw.scope, raw.id, db.nextId, fingerprint.version.number, releaseId⟩, rfl, hversion, ?_⟩
      exact joined_created (hnew ▸ rfl) rfl rfl rfl
    · exact fun m hm heq => absurd heq (hfree m hm)

/-- The key of the group of the restart loops of a container. -/
def restartLoopKey (scope : TrustedGroupingScope) (containerName : String) : GroupKey :=
  ⟨scope, derivedGroupFingerprintVersion, restartLoopDigest scope containerName⟩

section
variable (h : Sound db)
  (hfree : ∀ m ∈ db.memberships, m.eventId = raw.id → m.fingerprintVersion ≠ derivedGroupFingerprintVersion)
include h hfree

/-- A restart joins the group of the restart loops of its container. -/
theorem upsertRestartLoopGroup_joined :
    ∃ m, Joined db (upsertRestartLoopGroup db raw scope) raw (restartLoopKey scope raw.containerName) m := by
  unfold upsertRestartLoopGroup restartLoopKey
  dsimp only
  rw [upsertDerived]
  split
  · next g hget =>
    obtain ⟨hg, hgkey⟩ := get?_eq_some hget
    have hne : g.id ≠ db.nextId := (h.group_lt g hg).ne
    refine ⟨⟨raw.scope, raw.id, g.id, derivedGroupFingerprintVersion, none⟩, ?_⟩
    rw [addMembership_of_free hfree]
    rw [if_pos (by simpa using hne)]
    refine joined_raised h hg hgkey rfl rfl rfl map_map (fun g' => ?_) (fun g' => ?_) fun g' => ?_
    · rw [Function.comp_apply]
      split <;> split <;> rfl
    · rw [Function.comp_apply]
      split <;> split <;> rfl
    rw [Function.comp_apply]
    by_cases hid : g'.id = g.id
    · split <;> simp [hid]
    · split <;> simp [hid]
  · refine ⟨⟨raw.scope, raw.id, db.nextId, derivedGroupFingerprintVersion, none⟩, ?_⟩
    rw [addMembership_of_free hfree]
    rw [if_neg (by simp)]
    exact joined_created rfl rfl rfl rfl

/-- What the evidence of an event adds: at most a membership in a group of restart loops. -/
theorem projectDurableEvidence_cases {event : RuntimeEvent} :
    (∃ restarts, projectDurableEvidence db raw scope event = { db with restarts }) ∨
      ∃ restarts key m, key.scope = scope ∧ key.fingerprintVersion = derivedGroupFingerprintVersion ∧
        Joined { db with restarts } (projectDurableEvidence db raw scope event) raw key m := by
  unfold projectDurableEvidence
  split
  · unfold projectRestartLoop
    dsimp only
    rw [addRestart]
    split
    · exact .inl ⟨db.restarts, rfl⟩
    rw [if_pos rfl]
    split
    · have hjoined : ∀ restarts, ∃ m, Joined { db with restarts }
          (upsertRestartLoopGroup { db with restarts } raw scope) raw (restartLoopKey scope raw.containerName) m :=
        fun _ => upsertRestartLoopGroup_joined (h.of_eq rfl rfl rfl rfl rfl rfl) hfree
      exact .inr ⟨_, restartLoopKey scope raw.containerName, (hjoined _).imp fun m hj => ⟨rfl, rfl, hj⟩⟩
    · exact .inl ⟨_, rfl⟩
  · exact .inl ⟨db.restarts, rfl⟩

end

end

/-! ## Events that are sent again -/

/-- The time an agent stamped an event with. -/
abbrev Stamp := Uuid → Uuid → DateTime

/-- The row of the event is there, under the project of the group. -/
def Remembered (db : Db) (c : Contribution) : Prop :=
  ∃ e ∈ db.events, e.agentId = c.agentId ∧ e.eventId = c.eventId ∧ e.scope.projectId = c.key.scope.projectId

/-- The project is closed beyond the event. -/
def Closed (stamp : Stamp) (db : Db) (c : Contribution) : Prop :=
  past (db.closedBefore c.key.scope.projectId) (storedAt (stamp c.agentId c.eventId))

/-- Nothing was counted twice, and what was counted will be recognised. -/
structure Accounted (stamp : Stamp) (db : Db) : Prop extends Sound db where
  stamped : ∀ e ∈ db.events, e.observedAt = storedAt (stamp e.agentId e.eventId)
  once : OnceOnly (Remembered db) (Closed stamp db) (db.ledger.map contribution)

theorem accounted_start {stamp : Stamp} {organizations : List Organization} {projects : List Project}
    {applications : List ApplicationScope} : Accounted stamp (Db.start organizations projects applications) where
  event_ids := nodup_nil
  event_lt := nofun
  occurrence_lt := nofun
  members := rfl
  raw := nofun
  snapshot_indexes := nodup_nil
  tallies := tallies_nil
  group_ids := nodup_nil
  group_lt := nofun
  keys := nofun
  counts := nofun
  stamped := nofun
  once := onceOnly_nil

/-- An instant is cut to whole microseconds towards zero. -/
theorem lt_mul_of_tdiv_lt {x c : Int} (h : x.tdiv 1000 < c) : x < c * 1000 := by
  rcases le_or_gt 0 x with hle | hlt
  · rw [Int.tdiv_eq_ediv_of_nonneg hle] at h
    omega
  · have hneg : x.tdiv 1000 = -((-x) / 1000) := by
      rw [← Int.tdiv_eq_ediv_of_nonneg (by omega), Int.neg_tdiv, neg_neg]
    omega

theorem insertEvent_cases {db : Db} {event : Event} :
    (insertEvent db event = (none, db) ∧ ∃ e ∈ db.events, e.agentId = event.agentId ∧ e.eventId = event.eventId) ∨
      (insertEvent db event = (some event, { db with nextId := db.nextId + 1, events := db.events ++ [event] }) ∧
        ∀ e ∈ db.events, e.agentId = event.agentId → e.eventId ≠ event.eventId) := by
  unfold insertEvent
  split
  · next hthere =>
    obtain ⟨e, he, heq⟩ := any_eq_true.mp hthere
    rw [Bool.and_eq_true, decide_eq_true_eq, decide_eq_true_eq] at heq
    exact .inl ⟨rfl, e, he, heq⟩
  · next hnew =>
    refine .inr ⟨rfl, fun e he hagent hid => hnew (any_eq_true.mpr ⟨e, he, ?_⟩)⟩
    simp [hagent, hid]

variable {arrivals : List Arrival}

section
variable {stamp : Stamp} {db db' : Db} {context : IngestionContext} {arrival : Arrival}

/-- The contributions of an event that is stored and grouped: one for its fingerprint, and one for
the restart loop it may be part of. -/
theorem projectEvent_spec {raw : Event} (h : Sound db) (hraw : raw ∈ db.events)
    (hfree : ∀ m ∈ db.memberships, m.eventId ≠ raw.id)
    (hproject : projectEvent db context arrival raw releaseId = .ok (n, db')) :
    Sound db' ∧ db'.events = db.events ∧ db'.projects = db.projects ∧
      ∃ new : List Contribution, db'.ledger.map contribution = db.ledger.map contribution ++ new ∧ new.Nodup ∧
        ∀ c ∈ new, c.agentId = raw.agentId ∧ c.eventId = raw.eventId ∧
          c.key.scope.projectId = arrival.event.attribution.projectId := by
  obtain ⟨⟨_, db₁⟩, hassign, hproject⟩ := bind_eq_ok.mp hproject
  obtain ⟨-, hproject⟩ := bind_unit_eq_ok.mp hproject
  cases pure_eq_ok.mp hproject
  obtain ⟨key, _, hscope, hversion, hj⟩ := assignEvent_joined h hfree (mapError_eq_ok.mp hassign)
  have hsound := hj.sound h hraw
  -- an event that joined the group of its fingerprint is free to join one of restart loops
  have hfree₁ : ∀ m ∈ db₁.memberships, m.eventId = raw.id →
      m.fingerprintVersion ≠ derivedGroupFingerprintVersion := by
    intro m hm hid
    rw [hj.memberships] at hm
    obtain hm | rfl := mem_append_singleton.mp hm
    · exact absurd hid (hfree m hm)
    · rw [hj.version, hversion]
      decide
  rcases projectDurableEvidence_cases hsound hfree₁ with ⟨restarts, hdb⟩ | ⟨restarts, key', m', hscope', hversion', hj'⟩
  · rw [hdb]
    refine ⟨hsound.of_eq rfl rfl rfl rfl rfl rfl, hj.events, hj.projects, [⟨raw.agentId, raw.eventId, key⟩], ?_,
      nodup_singleton _, ?_⟩
    · rw [hj.ledger, map_append]
      rfl
    · intro c hc
      cases mem_singleton.mp hc
      exact ⟨rfl, rfl, hscope ▸ rfl⟩
  · have hsound' := hj'.sound (hsound.of_eq rfl rfl rfl rfl rfl rfl) (by rw [hj.events]; exact hraw)
    refine ⟨hsound', hj'.events.trans hj.events, hj'.projects.trans hj.projects,
      [⟨raw.agentId, raw.eventId, key⟩, ⟨raw.agentId, raw.eventId, key'⟩], ?_, ?_, ?_⟩
    · rw [hj'.ledger, map_append]
      rw [hj.ledger, map_append, append_assoc]
      rfl
    · -- the two groups have different fingerprint versions
      have hne : key ≠ key' := by
        intro heq
        rw [heq, hversion'] at hversion
        exact absurd hversion (by decide)
      simp [hne]
    · intro c hc
      rcases mem_pair.mp hc with rfl | rfl
      · exact ⟨rfl, rfl, hscope ▸ rfl⟩
      · exact ⟨rfl, rfl, hscope' ▸ rfl⟩

/-- The tables with one more event. -/
def Db.withEvent (db : Db) (context : IngestionContext) (arrival : Arrival) : Db :=
  { db with nextId := db.nextId + 1, events := db.events ++ [newEvent context arrival db.nextId] }

section
variable (h : Accounted stamp db) (hstamp : arrival.event.observedAt = stamp context.agentId arrival.event.id)
  (hopen : isExpired (db.closedBefore arrival.event.attribution.projectId) arrival.event.observedAt = false)
include h hstamp hopen

theorem Accounted.storeEvent (hstore : storeEvent db context arrival = .ok (n, db')) :
    Accounted stamp db' ∧ db'.projects = db.projects := by
  obtain ⟨releaseId, -, hproject⟩ := bind_eq_ok.mp hstore
  split at hproject
  · cases hproject
  rcases insertEvent_cases with ⟨hinsert, -⟩ | ⟨hinsert, hnew⟩
  · -- the event was stored before
    rw [hinsert] at hproject
    cases hproject
    exact ⟨h, rfl⟩
  rw [hinsert] at hproject
  have hsound : Sound (db.withEvent context arrival) := h.insert rfl
  have hfree : ∀ m ∈ db.memberships, m.eventId ≠ db.nextId := by
    intro m hm hid
    obtain ⟨o, ho, t, hp⟩ := h.exists_raw hm
    obtain ⟨-, e, he, heid, -⟩ := h.raw o ho m t hp
    have hlt := h.event_lt e he
    omega
  have hraw : newEvent context arrival db.nextId ∈ (db.withEvent context arrival).events := mem_concat_self
  obtain ⟨hsound', hevents, hkept, _, hledger, hnodup, hkeys⟩ := projectEvent_spec hsound hraw hfree hproject
  have hprojects : db'.projects = db.projects := hkept
  have hclosed : ∀ c, Closed stamp db' c ↔ Closed stamp db c := by
    intro c
    unfold Closed Db.closedBefore
    rw [hprojects]
  refine ⟨⟨hsound', ?_, ?_⟩, hprojects⟩
  · intro e he
    rw [hevents] at he
    obtain he | rfl := mem_append_singleton.mp he
    · exact h.stamped e he
    · exact congrArg storedAt hstamp
  · rw [hledger]
    refine (h.once.count hnodup ?_ ?_ ?_).forget (fun _ => .inl) fun c => (hclosed c).mpr
    · intro c hc
      obtain ⟨hagent, hid', hproject⟩ := hkeys c hc
      constructor
      · rintro ⟨e, he, heagent, heid, -⟩
        exact hnew e he (heagent.trans hagent) (heid.trans hid')
      intro hpast
      rw [Closed, hproject, hagent, hid'] at hpast
      rw [show stamp (newEvent context arrival db.nextId).agentId (newEvent context arrival db.nextId).eventId =
        arrival.event.observedAt from hstamp.symm] at hpast
      -- an instant that is stored as one before the boundary is before it in full precision
      obtain ⟨_, hboundary, hlt⟩ := past_eq_true.mp hpast
      rw [hboundary] at hopen
      exact absurd (past_eq_true.mpr ⟨_, rfl, Int.lt_add_of_sub_left_lt (lt_mul_of_tdiv_lt hlt)⟩) (Bool.eq_false_iff.mp hopen)
    · rintro c ⟨e, he, heq⟩
      exact ⟨e, hevents ▸ mem_append_left _ he, heq⟩
    · intro c hc
      obtain ⟨hagent, hid', hproject⟩ := hkeys c hc
      refine ⟨newEvent context arrival db.nextId, hevents ▸ hraw, hagent.symm, hid'.symm, ?_⟩
      rw [hproject]
      rfl

theorem Accounted.persistEvent (hpersist : persistEvent db context arrival = .ok (n, db')) :
    Accounted stamp db' ∧ db'.projects = db.projects := by
  obtain ⟨-, hpersist⟩ := bind_unit_eq_ok.mp hpersist
  split at hpersist
  · obtain ⟨_, -, heq⟩ := map_eq_ok.mp hpersist
    cases heq
    exact ⟨h, rfl⟩
  · exact h.storeEvent hstamp hopen hpersist

end

/-- One event of a batch, given the boundary of its project. -/
theorem Accounted.persistNext {progress' : Progress} (h : Accounted stamp progress.db)
    (hstamp : arrival.event.observedAt = stamp context.agentId arrival.event.id)
    (hclosed : progress.db.closedBefore arrival.event.attribution.projectId = closed)
    (hpersist : persistNext context closed progress arrival = .ok progress') :
    Accounted stamp progress'.db ∧ progress'.db.projects = progress.db.projects := by
  unfold RuntimeEvents.persistNext at hpersist
  split at hpersist
  · cases hpersist
    exact ⟨h, rfl⟩
  next hopen =>
  obtain ⟨⟨_, _⟩, hevent, hpersist⟩ := bind_eq_ok.mp hpersist
  cases pure_eq_ok.mp hpersist
  exact h.persistEvent hstamp (by simpa [hclosed] using hopen) hevent

theorem lockProject_eq_ok (h : lockProject db organizationId projectId = .ok closed) :
    db.closedBefore projectId = closed := by
  unfold lockProject at h
  unfold Db.closedBefore
  split at h
  · next hget =>
    split at h
    · cases h
      rw [hget]
      rfl
    · cases h
  · cases h

theorem Accounted.persistApplicationBatch {scope : SessionScope} {credential : ApplicationCredentialScope}
    {active : Bool} {agentId : Uuid} (h : Accounted stamp db)
    (hstamp : ∀ a ∈ arrivals, a.event.observedAt = stamp agentId a.event.id)
    (hpersist : persistApplicationBatch db scope credential active agentId arrivals = .ok progress) :
    Accounted stamp progress.db := by
  unfold RuntimeEvents.persistApplicationBatch at hpersist
  split at hpersist
  · cases hpersist
  split at hpersist
  · cases hpersist
  obtain ⟨closed, hlock, hpersist⟩ := bind_eq_ok.mp hpersist
  have hclosed := lockProject_eq_ok (mapError_eq_ok.mp hlock)
  -- the boundary stays what it was when the project was locked
  have hinv := foldlM_preserves (fun p : Progress => Accounted stamp p.db ∧ p.db.projects = db.projects)
    (fun p a ha p' hp hnext => ?_) ⟨h, rfl⟩ hpersist
  · exact hinv.1
  obtain ⟨arrival, harrival, rfl⟩ := mem_map.mp ha
  have hboundary : p.db.closedBefore credential.projectId = closed := by
    rw [← hclosed, Db.closedBefore, hp.2]
    rfl
  obtain ⟨hp', hprojects⟩ := hp.1.persistNext (hstamp arrival harrival) hboundary hnext
  exact ⟨hp', hprojects.trans hp.2⟩

theorem Accounted.persistBatch (h : Accounted stamp db)
    (hstamp : ∀ a ∈ arrivals, a.event.observedAt = stamp context.agentId a.event.id)
    (hpersist : persistBatch db context arrivals = .ok progress) : Accounted stamp progress.db := by
  obtain ⟨-, hpersist⟩ := bind_unit_eq_ok.mp hpersist
  refine foldlM_preserves (fun p : Progress => Accounted stamp p.db) (fun p a ha p' hp hnext => ?_) h hpersist
  exact (hp.persistNext (hstamp a ha) rfl hnext).1

end

/-! ## Passes of retention -/

section
variable {stamp : Stamp} {db db' : Db}

/-- Nothing changes but the boundaries, which only rise, and the events, of which those go that
lie before the boundary. -/
theorem Accounted.of_sound (h : Accounted stamp db) (hsound : Sound db') (hevents : ∀ e ∈ db'.events, e ∈ db.events)
    (hgone : ∀ e ∈ db.events, e ∈ db'.events ∨ past (db'.closedBefore e.scope.projectId) e.observedAt)
    (hclosed : ∀ projectId t, past (db.closedBefore projectId) t → past (db'.closedBefore projectId) t)
    (hledger : db'.ledger.map contribution = db.ledger.map contribution) : Accounted stamp db' := by
  refine ⟨hsound, fun e he => h.stamped e (hevents e he), ?_⟩
  rw [hledger]
  refine h.once.forget ?_ fun c => hclosed _ _
  rintro c ⟨e, he, hagent, hid, hproject⟩
  rcases hgone e he with he' | hpast
  · exact .inl ⟨e, he', hagent, hid, hproject⟩
  · refine .inr ?_
    rw [Closed, ← hproject, ← hagent, ← hid, ← h.stamped e he]
    exact hpast

theorem Accounted.of_eq (h : Accounted stamp db) (hsound : Sound db') (hevents : db'.events = db.events)
    (hclosed : ∀ projectId t, past (db.closedBefore projectId) t → past (db'.closedBefore projectId) t)
    (hledger : db'.ledger.map contribution = db.ledger.map contribution) : Accounted stamp db' :=
  h.of_sound hsound (fun _ he => hevents ▸ he) (fun _ he => .inl (hevents ▸ he)) hclosed hledger

/-- The boundary of a project after an update of projects that keeps their ids. -/
theorem closedBefore_updateWhere {cond : Project → Bool} {f : Project → Project}
    (hprojects : db'.projects = updateWhere cond f db.projects) (hid : ∀ p, (f p).id = p.id)
    (hmono : ∀ p t, past p.closedBefore t → past (f p).closedBefore t) (projectId : Uuid) (t : Int)
    (h : past (db.closedBefore projectId) t) : past (db'.closedBefore projectId) t := by
  unfold Db.closedBefore at h ⊢
  rw [hprojects, get?_updateWhere hid]
  cases hget : get? Project.id projectId db.projects with
  | none =>
    rw [hget] at h
    exact h
  | some p =>
    rw [hget] at h
    rw [Option.map_some, Option.bind_some]
    split
    · exact hmono p t h
    · exact h

theorem Accounted.closeProject {now : DateTime} (h : Accounted stamp db)
    (hclose : closeProject db organizationId projectId now = .ok db') : Accounted stamp db' := by
  obtain ⟨-, -, hclose⟩ := bind_eq_ok.mp hclose
  obtain ⟨_, -, hclose⟩ := bind_eq_ok.mp hclose
  split at hclose
  · cases pure_eq_ok.mp hclose
    exact h
  · cases pure_eq_ok.mp hclose
    refine h.of_eq (h.toSound.of_eq rfl rfl rfl rfl rfl rfl) rfl ?_ rfl
    exact closedBefore_updateWhere rfl (fun _ => rfl) fun p t hp => past_greatest (.inl hp)

theorem recountGroups_frame {groupIds : List Nat} :
    (recountGroups db groupIds).events = db.events ∧ (recountGroups db groupIds).projects = db.projects ∧
      (recountGroups db groupIds).ledger = db.ledger := by
  obtain ⟨_, hf, -⟩ := recountGroups_eq db
  rw [hf]
  exact ⟨rfl, rfl, rfl⟩

section
variable (h : Accounted stamp db)
include h

/-- The events that are compacted lie before the boundary of their project. -/
theorem Accounted.compact (eventIds : List Nat) (expiredBefore : Option Int)
    (hpast : ∀ id ∈ eventIds, ∃ e ∈ db.events, e.id = id ∧ past (db.closedBefore e.scope.projectId) e.observedAt) :
    Accounted stamp (compact db eventIds expiredBefore) := by
  obtain ⟨hevents, hprojects, hledger⟩ := recountGroups_frame
  have hclosed : ∀ projectId, (RuntimeEvents.compact db eventIds expiredBefore).closedBefore projectId =
      db.closedBefore projectId := by
    intro projectId
    exact congrArg (fun projects => (get? Project.id projectId projects).bind Project.closedBefore) hprojects
  refine h.of_sound h.toSound.compact (fun e he => ?_) (fun e he => ?_) (fun projectId t ht => ?_) ?_
  · rw [RuntimeEvents.compact, hevents] at he
    exact (mem_filter.mp he).1
  · rw [hclosed]
    by_cases hin : e.id ∈ eventIds
    · obtain ⟨_, he', hid, hpast⟩ := hpast e.id hin
      exact .inr (eq_of_key_eq h.event_ids he' he hid ▸ hpast)
    · refine .inl ?_
      rw [RuntimeEvents.compact, hevents]
      exact mem_filter.mpr ⟨he, by simpa using hin⟩
  · rw [hclosed]
    exact ht
  · rw [RuntimeEvents.compact, hledger]
    show (db.ledger.map _).map _ = _
    rw [map_map]
    exact map_congr_left fun o _ => moves_compact.contribution o

theorem Accounted.expire (projectId : Uuid) (expiredBefore : Option Int) (limit : Nat) :
    Accounted stamp (expire db projectId expiredBefore limit) := by
  obtain ⟨hevents, hprojects, hledger⟩ := recountGroups_frame
  refine h.of_eq h.toSound.expire hevents (fun projectId' t ht => ?_) ?_
  · unfold Db.closedBefore RuntimeEvents.expire
    rw [hprojects]
    exact ht
  rw [RuntimeEvents.expire, hledger]
  show (db.ledger.map _).map _ = _
  rw [map_map]
  exact map_congr_left fun o _ => moves_expire.contribution o

theorem Accounted.drainProject {now : DateTime} {limit : Int} {removable : List Nat}
    (hdrain : drainProject db organizationId projectId now limit removable = .ok (n, db')) : Accounted stamp db' := by
  obtain ⟨watermark, hlock, hdrain⟩ := bind_eq_ok.mp hdrain
  obtain ⟨policy, -, hdrain⟩ := bind_eq_ok.mp hdrain
  split at hdrain
  · cases pure_eq_ok.mp hdrain
    exact h
  cases pure_eq_ok.mp hdrain
  have hcompact := h.compact (closedEvents db projectId watermark (clampLimit limit))
    (policy.historyDays.map fun days => storedAt (dayCutoff now days)) fun id hin => ?_
  · have hexpire := hcompact.expire projectId (policy.historyDays.map fun days => storedAt (dayCutoff now days))
      (clampLimit limit)
    exact hexpire.of_eq (hexpire.toSound.deleteEmptyGroups projectId removable (clampLimit limit)) rfl
      (fun _ _ ht => ht) rfl
  · obtain ⟨e, he, hid⟩ := mem_map.mp hin
    obtain ⟨he, hclosed⟩ := mem_filter.mp ((perm_insertionSort _ _).mem_iff.mp (mem_of_mem_take he))
    simp only [isClosed, Bool.and_eq_true, decide_eq_true_eq] at hclosed
    refine ⟨e, he, hid, ?_⟩
    rw [hclosed.1.1.1, lockProject_eq_ok hlock]
    exact hclosed.1.2

end

end

/-! ## Runs -/

/-- Every event of the step carries the time its agent stamped it with. -/
def Stamped (stamp : Stamp) : Step → Prop
  | .persistApplicationBatch _ _ _ agentId arrivals => ∀ a ∈ arrivals, a.event.observedAt = stamp agentId a.event.id
  | .persistBatch context arrivals => ∀ a ∈ arrivals, a.event.observedAt = stamp context.agentId a.event.id
  | _ => True

theorem Accounted.step {stamp : Stamp} {db : Db} (h : Accounted stamp db) {s : Step} (hs : Stamped stamp s) :
    Accounted stamp (step db s).2 := by
  cases s with
  | persistApplicationBatch scope credential active agentId arrivals =>
    show Accounted stamp (stored db _).2
    cases hp : RuntimeEvents.persistApplicationBatch db scope credential active agentId arrivals with
    | error => exact h
    | ok => exact h.persistApplicationBatch hs hp
  | persistBatch context arrivals =>
    show Accounted stamp (stored db _).2
    cases hp : RuntimeEvents.persistBatch db context arrivals with
    | error => exact h
    | ok => exact h.persistBatch hs hp
  | closeProject organizationId projectId now =>
    simp only [RuntimeEvents.step]
    cases hc : RuntimeEvents.closeProject db organizationId projectId now with
    | error => exact h
    | ok => exact h.closeProject hc
  | drainProject organizationId projectId now limit removable =>
    simp only [RuntimeEvents.step]
    cases hd : RuntimeEvents.drainProject db organizationId projectId now limit removable with
    | error => exact h
    | ok => exact h.drainProject hd
  | setOrganizationPolicy =>
    exact h.of_eq (h.toSound.of_eq rfl rfl rfl rfl rfl rfl) rfl (fun _ _ ht => ht) rfl
  | setProjectOverride =>
    refine h.of_eq (h.toSound.of_eq rfl rfl rfl rfl rfl rfl) rfl ?_ rfl
    exact closedBefore_updateWhere rfl (fun _ => rfl) fun p t hp => hp

/-- Over every run of batches, passes and policy changes, no event is counted twice in a group,
and every group counts its memberships and what its snapshots count. -/
theorem occurrences_counted_once (stamp : Stamp) (organizations : List Organization) (projects : List Project)
    (applications : List ApplicationScope) (steps : List Step) (h : ∀ s ∈ steps, Stamped stamp s) :
    let db := (Run.trace step (Db.start organizations projects applications) steps).2
    (db.ledger.map contribution).Nodup ∧ ∀ g ∈ db.groups, (∀ o ∈ db.ledger, o.groupId = g.id → o.key = g.key) ∧
        g.occurrenceCount = db.ledger.countP (countsFor g.id) ∧
        g.occurrenceCount = db.memberships.countP (fun m => m.groupId = g.id) +
          total HistorySnapshot.occurrenceCount (fun s => s.key.groupId = g.id) db.snapshots := by
  intro db
  have haccounted : Accounted stamp db :=
    Run.trace_invariant_along (fun _ => Accounted stamp) (fun _ _ s hdb => hdb.step)
      accounted_start (Run.along_of_forall h _)
  refine ⟨haccounted.once.nodup, fun g hg => ⟨fun o ho => haccounted.keys o ho g hg, haccounted.counts g hg, ?_⟩⟩
  rw [haccounted.counts g hg]
  exact haccounted.countP_countsFor g.id

/-- Events for a day, and a week of history. -/
def weekOfHistory : RetentionPolicy where
  enabled := true
  rawDays := 1
  historyDays := some 7
  raw_bounded := by decide
  history_bounded := by decide

def replayedEvent : RuntimeEvent where
  id := Bytes.ByteVec.fill 16 3
  observedAt := 1700000000000000000
  schemaVersion := eventSchemaVersion
  attribution := paymentApi
  process := ⟨1, 1, 1, "payment-api"⟩
  payload := .processExec ⟨"/app/payment-api", none, none⟩

def replayedBatch : Step :=
  .persistApplicationBatch ⟨Uuid.nil, Uuid.nil⟩ ⟨Uuid.nil, paymentApi.projectId, paymentApi.applicationId⟩ true Uuid.nil
    [⟨replayedEvent, .ok none, .ok false, .ok ()⟩]

/-- An event that is sent again at once, and again after its row was compacted and its project
keeps events for longer. -/
def replayedRun : List Step :=
  [replayedBatch, replayedBatch] ++ processProject Uuid.nil paymentApi.projectId 1700200000000000000 500 [] ++
    [.setProjectOverride Uuid.nil paymentApi.projectId
      (some { weekOfHistory with rawDays := 7, raw_bounded := by decide, history_bounded := by decide }), replayedBatch]

/-- The database that knows the project and the application of the events. -/
def paymentDb : Db :=
  Db.start [⟨Uuid.nil, weekOfHistory⟩] [⟨paymentApi.projectId, Uuid.nil, none, none, none⟩]
    [⟨Uuid.nil, paymentApi.projectId, paymentApi.applicationId⟩]

/-- The event is counted at the first of three times, in a snapshot in the end. -/
theorem occurrences_counted_once_replayed : (Run.trace step paymentDb replayedRun).1.map Prod.snd =
        [.stored 1 0, .stored 0 0, .done, .drained 1, .done, .stored 0 1] ∧
      (Run.trace step paymentDb replayedRun).2.groups.map EventGroup.occurrenceCount = [1] ∧
      ((Run.trace step paymentDb replayedRun).2.ledger.map contribution).Nodup := by
  refine ⟨by decide +kernel, by decide +kernel, ?_⟩
  refine (occurrences_counted_once (fun _ _ => replayedEvent.observedAt) _ _ _ replayedRun fun s hs => ?_).1
  simp only [replayedRun, processProject, cons_append, nil_append, mem_cons, not_mem_nil, or_false] at hs
  rcases hs with rfl | rfl | rfl | rfl | rfl | rfl <;> simp [Stamped, replayedBatch]

end Okoscope.Server.RuntimeEvents
