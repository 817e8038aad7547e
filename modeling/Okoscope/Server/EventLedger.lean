import Okoscope.Server.RuntimeRetention

/-!
# The ledger of occurrences

Every occurrence that was ever counted stands in the ledger, with the place its count
has gone to. The memberships are those of the occurrences whose event is still there,
the snapshots tally the occurrences that were compacted, and a group counts its
occurrences that are not gone. Every transaction keeps it so.
-/
namespace Okoscope.Server.RuntimeEvents

open Lib Lib.Table Lib.Tally Lib.Watermark
open HistorySnapshot
open Occurrence List

/-! ## What the tables have in common with the ledger -/

/-- The memberships and the snapshots are what the ledger says. -/
structure Linked (db : Db) : Prop where
  event_ids : (db.events.map Event.id).Nodup
  event_lt : ∀ e ∈ db.events, e.id < db.nextId
  occurrence_lt : ∀ o ∈ db.ledger, o.groupId < db.nextId
  members : db.ledger.filterMap membership? = db.memberships
  raw : ∀ o ∈ db.ledger, ∀ m t, o.place = .raw m t →
    m.groupId = o.groupId ∧ ∃ e ∈ db.events, e.id = m.eventId ∧ e.observedAt = t
  snapshot_indexes : (db.snapshots.map index).Nodup
  tallies : Tallies occurrenceCount index db.snapshots
    (db.ledger.filterMap index?)

/-- Every group counts its occurrences in the ledger. -/
structure Grouped (db : Db) : Prop where
  group_ids : (db.groups.map EventGroup.id).Nodup
  group_lt : ∀ g ∈ db.groups, g.id < db.nextId
  keys : ∀ o ∈ db.ledger, ∀ g ∈ db.groups, o.groupId = g.id → o.key = g.key
  counts : ∀ g ∈ db.groups, g.occurrenceCount = db.ledger.countP (countsFor g.id)

structure Sound (db : Db) : Prop extends Linked db, Grouped db

theorem Sound.of_eq {db db' : Db} (h : Sound db) (hnext : db'.nextId = db.nextId) (hevents : db'.events = db.events)
    (hgroups : db'.groups = db.groups) (hmembers : db'.memberships = db.memberships)
    (hsnapshots : db'.snapshots = db.snapshots) (hledger : db'.ledger = db.ledger) : Sound db' := by
  obtain ⟨_, _, _, _, _, _, _, _, _, _⟩ := db'
  subst hnext hevents hgroups hmembers hsnapshots hledger
  exact ⟨⟨h.event_ids, h.event_lt, h.occurrence_lt, h.members, h.raw, h.snapshot_indexes, h.tallies⟩,
    ⟨h.group_ids, h.group_lt, h.keys, h.counts⟩⟩

section
variable {db : Db}

variable {m : Membership}

theorem Linked.exists_raw (h : Linked db) (hm : m ∈ db.memberships) : ∃ o ∈ db.ledger, ∃ t, o.place = .raw m t := by
  rw [← h.members, mem_filterMap] at hm
  obtain ⟨o, ho, hmo⟩ := hm
  unfold membership? at hmo
  split at hmo
  · next t hp =>
    cases hmo
    exact ⟨o, ho, t, hp⟩
  · cases hmo

/-- A condition on the membership and the time of an occurrence whose event is there. -/
def Occurrence.rawWith (q : Membership → Int → Bool) (o : Occurrence) : Bool :=
  match o.place with
  | .raw m t => q m t
  | _ => false

/-- Counting memberships by what is in them and when their event was observed. -/
theorem Linked.countP_memberEvents (h : Linked db) (q : Membership → Int → Bool) :
    (memberEvents db).countP (fun p => q p.1 p.2.observedAt) = db.ledger.countP (rawWith q) := by
  rw [memberEvents, ← h.members, filterMap_filterMap, countP_filterMap]
  refine countP_congr fun o ho => ?_
  cases hp : o.place with
  | raw =>
    obtain ⟨-, e, he, hid, rfl⟩ := h.raw o ho _ _ hp
    have hfound := get?_of_mem h.event_ids he
    rw [hid] at hfound
    simp [membership?, rawWith, hp, hfound]
  | _ => simp [membership?, rawWith, hp]

theorem Linked.countP_countsFor (h : Linked db) (groupId : Nat) : db.ledger.countP (countsFor groupId) =
      db.memberships.countP (fun m => m.groupId = groupId) +
        total occurrenceCount (fun s => s.key.groupId = groupId) db.snapshots := by
  have htotal := h.tallies fun index => index.groupId = groupId
  rw [show total occurrenceCount (fun s => decide (s.key.groupId = groupId)) db.snapshots = _ from htotal,
    ← h.members, countP_filterMap, countP_filterMap]
  apply countP_eq_add
  · intro o ho
    cases hp : o.place with
    | raw m t =>
      obtain ⟨hm, -⟩ := h.raw o ho m t hp
      simp [countsFor, membership?, index?, hp, hm]
    | _ => simp [countsFor, membership?, index?, hp]
  · intro o _ hm
    cases hp : o.place with
    | compacted => simp [membership?, hp] at hm
    | _ => simp [index?, hp]

theorem Linked.sum_evidence (h : Linked db) {groupId : Nat} :
    ((evidence db groupId).map Evidence.n).sum = db.ledger.countP (countsFor groupId) := by
  have hraw : (((memberEvents db).filter fun p => p.1.groupId = groupId).map
      fun p => (⟨p.2.observedAt, p.2.observedAt, 1⟩ : Evidence).n).sum =
      db.memberships.countP fun m => m.groupId = groupId := by
    have hcount := h.countP_memberEvents fun m _ => m.groupId = groupId
    rw [map_const', sum_replicate_nat, Nat.mul_one, ← countP_eq_length_filter, hcount, ← h.members, countP_filterMap]
    refine countP_congr fun o _ => ?_
    cases hp : o.place <;> simp [membership?, rawWith, hp]
  rw [h.countP_countsFor groupId, evidence, map_append, sum_append, map_map, map_map]
  exact congrArg₂ (· + ·) hraw rfl

end

/-! ## Counting an event in -/

/-- The groups after an event was counted in one of them: a new group, or one of those there. -/
inductive CountedIn (db db' : Db) (key : GroupKey) (groupId : Nat) : Prop
  | created (g : EventGroup) (hgroups : db'.groups = db.groups ++ [g]) (hid : g.id = groupId) (hkey : g.key = key)
      (hcount : g.occurrenceCount = 1) (hnew : db.nextId ≤ groupId)
  | raised (f : EventGroup → EventGroup) (hgroups : db'.groups = db.groups.map f) (hid : ∀ g, (f g).id = g.id)
      (hkey : ∀ g, (f g).key = g.key)
      (hcount : ∀ g, (f g).occurrenceCount = g.occurrenceCount + if g.id = groupId then 1 else 0)
      (hgroup : ∃ g ∈ db.groups, g.id = groupId ∧ g.key = key)

/-- An event became a member of the group of the key and was counted there. -/
structure Joined (db db' : Db) (event : Event) (key : GroupKey) (m : Membership) : Prop where
  events : db'.events = db.events
  projects : db'.projects = db.projects
  snapshots : db'.snapshots = db.snapshots
  next : db.nextId ≤ db'.nextId
  event_id : m.eventId = event.id
  version : m.fingerprintVersion = key.fingerprintVersion
  group_lt : m.groupId < db'.nextId
  memberships : db'.memberships = db.memberships ++ [m]
  ledger : db'.ledger =
    db.ledger ++ [⟨event.agentId, event.eventId, key, m.groupId, .raw m event.observedAt⟩]
  groups : CountedIn db db' key m.groupId

section
variable {db db' : Db} {event : Event} {key : GroupKey} {m : Membership}

section
variable (hj : Joined db db' event key m)
include hj

theorem Joined.linked (h : Linked db) (he : event ∈ db.events) : Linked db' where
  event_ids := hj.events ▸ h.event_ids
  event_lt := by
    intro e he'
    rw [hj.events] at he'
    exact (h.event_lt e he').trans_le hj.next
  occurrence_lt := by
    intro o ho
    rw [hj.ledger] at ho
    obtain ho | rfl := mem_append_singleton.mp ho
    · exact (h.occurrence_lt o ho).trans_le hj.next
    · exact hj.group_lt
  members := by
    rw [hj.ledger, hj.memberships, filterMap_append, h.members]
    rfl
  raw := by
    intro o ho m' t hp
    rw [hj.ledger] at ho
    rw [hj.events]
    obtain ho | rfl := mem_append_singleton.mp ho
    · exact h.raw o ho m' t hp
    · cases hp
      exact ⟨rfl, event, he, hj.event_id.symm, rfl⟩
  snapshot_indexes := hj.snapshots ▸ h.snapshot_indexes
  tallies := by
    rw [hj.snapshots, hj.ledger, filterMap_append]
    exact h.tallies.congr fun p => by simp [index?]

theorem Joined.countP_countsFor (groupId : Nat) : db'.ledger.countP (countsFor groupId) =
      db.ledger.countP (countsFor groupId) + if groupId = m.groupId then 1 else 0 := by
  rw [hj.ledger, countP_append, countP_singleton]
  by_cases hid : groupId = m.groupId
  · simp [countsFor, hid]
  · simp [countsFor, hid, Ne.symm hid]

theorem Joined.keys {gs : List EventGroup} (hnew : ∀ g ∈ gs, m.groupId = g.id → key = g.key)
    (hold : ∀ o ∈ db.ledger, ∀ g ∈ gs, o.groupId = g.id → o.key = g.key) :
    ∀ o ∈ db'.ledger, ∀ g ∈ gs, o.groupId = g.id → o.key = g.key := by
  intro o ho g hg hid
  rw [hj.ledger] at ho
  obtain ho | rfl := mem_append_singleton.mp ho
  · exact hold o ho g hg hid
  · exact hnew g hg hid

theorem Joined.grouped_created (h : Sound db) {g : EventGroup} (hgroups : db'.groups = db.groups ++ [g])
    (hid : g.id = m.groupId) (hkey : g.key = key) (hcount : g.occurrenceCount = 1) (hnew : db.nextId ≤ m.groupId) :
    Grouped db' := by
  have hold : ∀ g' ∈ db.groups, g'.id ≠ m.groupId := by
    intro g' hg'
    have hlt := h.group_lt g' hg'
    omega
  have hcases : ∀ g' ∈ db'.groups, g' ∈ db.groups ∨ g' = g := by
    intro g' hg'
    rw [hgroups] at hg'
    exact (mem_append.mp hg').imp_right mem_singleton.mp
  constructor
  · rw [hgroups]
    exact nodup_map_append_singleton h.group_ids fun g' hg' => hid ▸ hold g' hg'
  · intro g' hg'
    rcases hcases g' hg' with hg' | rfl
    · exact (h.group_lt g' hg').trans_le hj.next
    · exact hid ▸ hj.group_lt
  · apply hj.keys
    · intro g' hg' hid'
      rcases hcases g' hg' with hg' | rfl
      · exact absurd hid'.symm (hold g' hg')
      · exact hkey.symm
    · intro o ho g' hg' hid'
      rcases hcases g' hg' with hg' | rfl
      · exact h.keys o ho g' hg' hid'
      · -- the id of the new group was not drawn when the occurrence was counted
        have hlt := h.occurrence_lt o ho
        omega
  · intro g' hg'
    rw [hj.countP_countsFor]
    rcases hcases g' hg' with hg' | rfl
    · rw [if_neg (hold g' hg')]
      exact h.counts g' hg'
    · have hnone : db.ledger.countP (countsFor g'.id) = 0 := by
        rw [countP_eq_zero]
        intro o ho hc
        have hlt := h.occurrence_lt o ho
        simp only [countsFor, Bool.and_eq_true, decide_eq_true_eq] at hc
        omega
      rw [if_pos hid, hnone, hcount]

end

/-- Rewriting the groups without touching their ids and keys. -/
theorem Grouped.map {f : EventGroup → EventGroup} (h : Grouped db) (hgroups : db'.groups = db.groups.map f)
    (hid : ∀ g, (f g).id = g.id) (hkey : ∀ g, (f g).key = g.key) (hnext : db.nextId ≤ db'.nextId)
    (hkeys : ∀ o ∈ db'.ledger, ∀ g ∈ db.groups, o.groupId = g.id → o.key = g.key)
    (hcount : ∀ g ∈ db.groups, (f g).occurrenceCount = db'.ledger.countP (countsFor g.id)) : Grouped db' := by
  have hids : (db.groups.map f).map EventGroup.id = db.groups.map EventGroup.id := by
    rw [map_map]
    exact map_congr_left fun g _ => hid g
  constructor
  · rw [hgroups, hids]
    exact h.group_ids
  · intro g' hg'
    rw [hgroups] at hg'
    obtain ⟨g, hg, rfl⟩ := mem_map.mp hg'
    rw [hid]
    exact (h.group_lt g hg).trans_le hnext
  · intro o ho g' hg' hid'
    rw [hgroups] at hg'
    obtain ⟨g, hg, rfl⟩ := mem_map.mp hg'
    rw [hid] at hid'
    rw [hkey]
    exact hkeys o ho g hg hid'
  · intro g' hg'
    rw [hgroups] at hg'
    obtain ⟨g, hg, rfl⟩ := mem_map.mp hg'
    rw [hid]
    exact hcount g hg

theorem Joined.sound (hj : Joined db db' event key m) (h : Sound db) (he : event ∈ db.events) : Sound db' := by
  refine ⟨hj.linked h.toLinked he, ?_⟩
  cases hj.groups with
  | created _ hgroups hid hkey hcount hnew => exact hj.grouped_created h hgroups hid hkey hcount hnew
  | raised _ hgroups hid hkey hcount hgroup =>
    apply h.toGrouped.map hgroups hid hkey hj.next
    · apply hj.keys
      · intro g hg hid'
        obtain ⟨_, hg₀, hid₀, hkey₀⟩ := hgroup
        rw [← hkey₀, eq_of_key_eq h.group_ids hg₀ hg (hid₀.trans hid')]
      · exact h.keys
    · intro g hg
      rw [hj.countP_countsFor, hcount, h.counts g hg]

theorem Sound.insert (h : Sound db) (hid : event.id = db.nextId) :
    Sound { db with nextId := db.nextId + 1, events := db.events ++ [event] } where
  event_ids := by
    refine nodup_map_append_singleton h.event_ids fun e he => ?_
    have hlt := h.event_lt e he
    omega
  event_lt := by
    intro e he
    show e.id < db.nextId + 1
    obtain he | rfl := mem_append_singleton.mp he
    · have hlt := h.event_lt e he
      omega
    · omega
  occurrence_lt := fun o ho => Nat.lt_succ_of_lt (h.occurrence_lt o ho)
  members := h.members
  raw := by
    intro o ho m t hp
    obtain ⟨hm, e, he, heq⟩ := h.raw o ho m t hp
    exact ⟨hm, e, mem_append_left _ he, heq⟩
  snapshot_indexes := h.snapshot_indexes
  tallies := h.tallies
  group_ids := h.group_ids
  group_lt := fun g hg => Nat.lt_succ_of_lt (h.group_lt g hg)
  keys := h.keys
  counts := h.counts

end

/-! ## Counting anew -/

section
variable {db : Db}

/-- Counting the groups anew sets the counts of these groups to what there is evidence of. -/
theorem recountGroups_eq (db : Db) {groupIds : List Nat} :
    ∃ f : EventGroup → EventGroup, recountGroups db groupIds = { db with groups := db.groups.map f } ∧
      (∀ g, (f g).id = g.id) ∧ (∀ g, (f g).key = g.key) ∧
      ∀ g, (f g).occurrenceCount =
        if g.id ∈ groupIds then ((evidence db g.id).map Evidence.n).sum else g.occurrenceCount := by
  induction groupIds generalizing db with
  | nil => exact ⟨id, by simp [recountGroups], fun _ => rfl, fun _ => rfl, fun g => by simp⟩
  | cons groupId rest ih =>
    obtain ⟨f, hf, hid, hkey, hcount⟩ := ih (recountGroup db groupId)
    let f₀ : EventGroup → EventGroup := fun g =>
      if decide (g.id = groupId) then EventGroup.recount (evidence db groupId) g else g
    have hid₀ : ∀ g, (f₀ g).id = g.id := by
      intro g
      show (if decide (g.id = groupId) then _ else g).id = g.id
      split <;> rfl
    have hkey₀ : ∀ g, (f₀ g).key = g.key := by
      intro g
      show (if decide (g.id = groupId) then _ else g).key = g.key
      split <;> rfl
    refine ⟨f ∘ f₀, ?_, fun g => (hid _).trans (hid₀ g), fun g => (hkey _).trans (hkey₀ g), fun g => ?_⟩
    · show recountGroups (recountGroup db groupId) rest = _
      rw [hf, ← map_map]
      rfl
    -- the evidence does not depend on the counts
    have hevidence : evidence (recountGroup db groupId) g.id = evidence db g.id := rfl
    show (f (f₀ g)).occurrenceCount = _
    rw [hcount, hid₀, hevidence]
    by_cases hrest : g.id ∈ rest
    · rw [if_pos hrest, if_pos (mem_cons_of_mem _ hrest)]
    rw [if_neg hrest]
    show (if decide (g.id = groupId) then EventGroup.recount (evidence db groupId) g else g).occurrenceCount = _
    by_cases heq : g.id = groupId
    · rw [if_pos (by simpa using heq), if_pos (by simp [heq]), heq]
      rfl
    · rw [if_neg (by simpa using heq), if_neg (by simp [heq, hrest])]

/-- The function changes only the places of occurrences. -/
def Moves (f : Occurrence → Occurrence) : Prop := ∀ o, ∃ place, f o = { o with place }

section
variable {f : Occurrence → Occurrence} (h : Moves f) (o : Occurrence)
include h

theorem Moves.groupId : (f o).groupId = o.groupId := by
  obtain ⟨_, h⟩ := h o
  rw [h]

theorem Moves.key : (f o).key = o.key := by
  obtain ⟨_, h⟩ := h o
  rw [h]

theorem Moves.contribution : (f o).contribution = o.contribution := by
  obtain ⟨_, h⟩ := h o
  rw [h]
  rfl

end

/-- When occurrences move and the groups they move in are counted anew, the tables stay sound. -/
theorem Sound.move {after : Db} {f : Occurrence → Occurrence} (h : Sound db) (hmoves : Moves f)
    (hlinked : Linked after) (hgroups : after.groups = db.groups) (hnext : after.nextId = db.nextId)
    (hledger : after.ledger = db.ledger.map f) {groupIds : List Nat}
    (hstays : ∀ o ∈ db.ledger, o.groupId ∉ groupIds → f o = o) : Sound (recountGroups after groupIds) := by
  obtain ⟨_, hf, hid, hkey, hcount⟩ := recountGroups_eq after
  rw [hf]
  refine ⟨{ hlinked with }, h.toGrouped.map (hgroups ▸ rfl) hid hkey hnext.ge (fun o' ho' g hg hid' => ?_) fun g hg => ?_⟩
  · obtain ⟨o, ho, rfl⟩ := mem_map.mp (hledger ▸ ho')
    rw [hmoves.groupId] at hid'
    rw [hmoves.key]
    exact h.keys o ho g hg hid'
  · rw [hcount]
    split
    · exact hlinked.sum_evidence
    next hnot =>
    rw [h.counts g hg, hledger, countP_map]
    refine countP_congr fun o ho => ?_
    by_cases hgroup : o.groupId = g.id
    · rw [Function.comp, hstays o ho (hgroup ▸ hnot)]
    · simp [countsFor, hmoves.groupId, hgroup]

end

/-! ## Compaction -/

variable {released : Bool}

section
variable {db : Db} {eventIds : List Nat} {expiredBefore : Option Int}

/-- The occurrence goes into a snapshot. -/
def folds (eventIds : List Nat) (expiredBefore : Option Int) (m : Membership) (t : Int) : Bool :=
  m.eventId ∈ eventIds && !past expiredBefore t

theorem moves_compact : Moves (Occurrence.compact eventIds expiredBefore) := by
  intro o
  unfold Occurrence.compact
  split
  · split
    · exact ⟨_, rfl⟩
    · exact ⟨o.place, rfl⟩
  · exact ⟨o.place, rfl⟩

theorem Occurrence.compact_membership? (o : Occurrence) :
    (o.compact eventIds expiredBefore).membership? = o.membership?.filter fun m => m.eventId ∉ eventIds := by
  cases hp : o.place with
  | raw m t =>
    by_cases hm : m.eventId ∈ eventIds
    · by_cases hpast : past expiredBefore t <;>
        simp [compact, membership?, Option.filter_some, hp, hm, hpast]
    · simp [compact, membership?, Option.filter_some, hp, hm]
  | _ => simp [compact, membership?, hp]

/-- What the snapshots of a set of places gain is what moves there. -/
theorem Linked.countP_compact (h : Linked db) (p : SnapshotIndex → Bool) :
    ((db.ledger.map (Occurrence.compact eventIds expiredBefore)).filterMap index?).countP p =
      (db.ledger.filterMap index?).countP p +
        db.ledger.countP (rawWith fun m t =>
          folds eventIds expiredBefore m t && p ⟨m.groupId, m.releaseId, dayOf t⟩) := by
  rw [filterMap_map, countP_filterMap, countP_filterMap]
  apply countP_eq_add
  · intro o ho
    cases hp : o.place with
    | raw m t =>
      obtain ⟨hm, -⟩ := h.raw o ho m t hp
      by_cases hin : m.eventId ∈ eventIds
      · by_cases hpast : past expiredBefore t
        · simp [Occurrence.compact, index?, Occurrence.rawWith, folds, hp, hin, hpast]
        · simp [Occurrence.compact, index?, Occurrence.rawWith, folds, hp, hin, hpast, hm]
      · simp [Occurrence.compact, index?, Occurrence.rawWith, folds, hp, hin]
    | _ => simp [Occurrence.compact, index?, Occurrence.rawWith, hp]
  · intro o _ hindex
    cases hp : o.place with
    | raw => simp [index?, hp] at hindex
    | _ => simp [rawWith, hp]

theorem nodup_foldIntoHistorySnapshots (hn : (db.snapshots.map index).Nodup) :
    ((foldIntoHistorySnapshots db eventIds expiredBefore released).snapshots.map index).Nodup := by
  apply nodup_groups hn
  intro _ _
  rfl

/-- Every member folded is counted in the snapshot of its group, release and day. -/
theorem tallies_foldIntoHistorySnapshots {places : List SnapshotIndex} (hn : (db.snapshots.map index).Nodup)
    (h : Tallies occurrenceCount index db.snapshots places) : Tallies occurrenceCount index
      (foldIntoHistorySnapshots db eventIds expiredBefore released).snapshots
      (places ++ (foldedMembers db eventIds expiredBefore released).map fun x => (snapshotKey x).index) := by
  apply h.count_in_groups hn
  all_goals
    intros
    rfl

/-- The members folded into snapshots are those of the occurrences that go there. -/
theorem Linked.countP_foldedMembers (h : Linked db) {p : SnapshotIndex → Bool} :
    ((foldedMembers db eventIds expiredBefore released).map fun x => (snapshotKey x).index).countP p =
      db.ledger.countP (rawWith fun m t =>
        folds eventIds expiredBefore m t && (m.releaseId.isSome = released) && p ⟨m.groupId, m.releaseId, dayOf t⟩) := by
  rw [countP_map, foldedMembers, countP_filter, ← h.countP_memberEvents]
  refine countP_congr fun x hx => ?_
  obtain ⟨m, -, hm⟩ := mem_filterMap.mp hx
  obtain ⟨e, he, rfl⟩ := Option.map_eq_some_iff.mp hm
  have hid : e.id = m.eventId := (get?_eq_some he).2
  simp only [Function.comp, folds, hid, Bool.and_eq_true]
  tauto

/-- Folding events into snapshots and deleting them keeps tables and ledger together. -/
theorem Linked.compact (h : Linked db) :
    Linked (deleteEvents (foldIntoHistorySnapshots (foldIntoHistorySnapshots db eventIds expiredBefore false) eventIds
      expiredBefore true) eventIds expiredBefore) where
  event_ids := h.event_ids.sublist (filter_sublist.map _)
  event_lt := fun e he => h.event_lt e (mem_filter.mp he).1
  occurrence_lt := by
    intro o' ho'
    obtain ⟨o, ho, rfl⟩ := mem_map.mp ho'
    rw [moves_compact.groupId]
    exact h.occurrence_lt o ho
  members := by
    show (db.ledger.map _).filterMap _ = db.memberships.filter _
    rw [filterMap_map, ← h.members, filter_filterMap]
    congr 1
    funext o
    exact o.compact_membership?
  raw := by
    intro o' ho' m t hp
    obtain ⟨o, ho, rfl⟩ := mem_map.mp ho'
    have hstays : o.place = .raw m t ∧ m.eventId ∉ eventIds := by
      unfold Occurrence.compact at hp
      split at hp
      · next hp' =>
        split at hp
        · split at hp <;> cases hp
        next hnot =>
        rw [hp'] at hp
        cases hp
        exact ⟨hp', hnot⟩
      · next hno => exact absurd hp (hno m t)
    obtain ⟨hm, e, he, hid, ht⟩ := h.raw o ho m t hstays.1
    rw [moves_compact.groupId]
    exact ⟨hm, e, mem_filter.mpr ⟨he, by simpa [hid] using hstays.2⟩, hid, ht⟩
  snapshot_indexes := nodup_foldIntoHistorySnapshots (nodup_foldIntoHistorySnapshots h.snapshot_indexes)
  tallies := by
    apply (tallies_foldIntoHistorySnapshots (nodup_foldIntoHistorySnapshots h.snapshot_indexes)
      (tallies_foldIntoHistorySnapshots h.snapshot_indexes h.tallies)).congr
    intro p
    show ((db.ledger.map _).filterMap _).countP p = _
    rw [h.countP_compact p, countP_append, countP_append, Nat.add_assoc]
    congr 1
    -- an occurrence that goes into a snapshot has a release or has none
    refine (countP_eq_add (fun o _ => ?_) fun o _ => ?_).trans (congrArg₂ (· + ·)
      h.countP_foldedMembers.symm h.countP_foldedMembers.symm)
    · cases hp : o.place with
      | raw m => cases hr : m.releaseId <;> simp [Occurrence.rawWith, hp, hr]
      | _ => simp [Occurrence.rawWith, hp]
    · cases hp : o.place with
      | raw m => cases hr : m.releaseId <;> simp [Occurrence.rawWith, hp, hr]
      | _ => simp [Occurrence.rawWith, hp]

theorem Sound.compact (h : Sound db) : Sound (compact db eventIds expiredBefore) := by
  refine h.move moves_compact h.toLinked.compact rfl rfl rfl fun o ho hgroup => ?_
  -- no event of this group is among those compacted
  unfold Occurrence.compact
  split
  next m t hp =>
    have hmember : m ∈ db.memberships := by
      rw [← h.members, mem_filterMap]
      exact ⟨o, ho, by rw [membership?, hp]⟩
    refine if_neg fun hm => hgroup ?_
    obtain ⟨hgid, -⟩ := h.raw o ho m t hp
    rw [groupsOfEvents, mem_dedup, mem_map]
    exact ⟨m, mem_filter.mpr ⟨hmember, by simpa using hm⟩, hgid⟩
  · rfl

end

/-! ## Expiry -/

section
variable {db : Db} {indexes : List SnapshotIndex}

theorem moves_expire : Moves (Occurrence.expire indexes) := by
  intro o
  unfold Occurrence.expire
  split
  · split
    · exact ⟨_, rfl⟩
    · exact ⟨o.place, rfl⟩
  · exact ⟨o.place, rfl⟩

theorem Occurrence.expire_membership? (o : Occurrence) : (o.expire indexes).membership? = o.membership? := by
  cases hp : o.place with
  | compacted =>
    simp only [expire, index?, hp]
    split <;> simp [membership?, hp]
  | _ => simp [expire, index?, hp]

theorem Occurrence.expire_index? (o : Occurrence) : (o.expire indexes).index? = o.index?.filter (· ∉ indexes) := by
  cases hp : o.place with
  | compacted r d =>
    by_cases hin : (⟨o.groupId, r, d⟩ : SnapshotIndex) ∈ indexes <;>
      simp [expire, index?, Option.filter_some, hp, hin]
  | _ => simp [expire, index?, hp]

theorem Linked.deleteSnapshots (h : Linked db) : Linked (deleteSnapshots db indexes) where
  event_ids := h.event_ids
  event_lt := h.event_lt
  occurrence_lt := by
    intro o' ho'
    obtain ⟨o, ho, rfl⟩ := mem_map.mp ho'
    rw [moves_expire.groupId]
    exact h.occurrence_lt o ho
  members := by
    show (db.ledger.map _).filterMap _ = db.memberships
    rw [filterMap_map, ← h.members]
    congr 1
    funext o
    exact o.expire_membership?
  raw := by
    intro o' ho' m t hp
    obtain ⟨o, ho, rfl⟩ := mem_map.mp ho'
    have hstays : o.place = .raw m t := by
      unfold Occurrence.expire at hp
      split at hp
      · split at hp
        · cases hp
        · exact hp
      · exact hp
    rw [moves_expire.groupId]
    exact h.raw o ho m t hstays
  snapshot_indexes := h.snapshot_indexes.sublist (filter_sublist.map _)
  tallies := by
    have hkept := h.tallies.filter fun index => decide (index ∉ indexes)
    rw [filter_filterMap] at hkept
    show Tallies _ _ _ ((db.ledger.map _).filterMap _)
    rw [filterMap_map, show index? ∘ Occurrence.expire indexes = _ from funext Occurrence.expire_index?]
    exact hkept

theorem Sound.expire (h : Sound db) {projectId : Uuid} {expiredBefore : Option Int} {limit : Nat} :
    Sound (expire db projectId expiredBefore limit) := by
  refine h.move moves_expire h.toLinked.deleteSnapshots rfl rfl rfl fun o _ hgroup => ?_
  unfold Occurrence.expire
  split
  · next index hindex =>
    -- no snapshot of this group is among those deleted
    refine if_neg fun hin => hgroup ?_
    have hgid : index.groupId = o.groupId := by
      unfold index? at hindex
      split at hindex <;> cases hindex
      rfl
    rw [← hgid]
    exact mem_map_of_mem hin
  · rfl

/-- Nothing refers to the groups that are deleted. -/
theorem Sound.deleteEmptyGroups (h : Sound db) (projectId : Uuid) (removable : List Nat) (limit : Nat) :
    Sound (deleteEmptyGroups db projectId removable limit) := by
  unfold RuntimeEvents.deleteEmptyGroups
  generalize hremoved : ((db.groups.filter fun g =>
    g.key.scope.projectId = projectId && g.occurrenceCount = 0 && g.id ∈ removable).take limit).map EventGroup.id =
      removed
  have hempty : ∀ o ∈ db.ledger, o.place ≠ .gone → o.groupId ∉ removed := by
    intro o ho hp hin
    rw [← hremoved] at hin
    obtain ⟨g, hg, hid⟩ := mem_map.mp hin
    obtain ⟨hg, hzero⟩ := mem_filter.mp (mem_of_mem_take hg)
    simp only [Bool.and_eq_true, decide_eq_true_eq] at hzero
    have hcount := h.counts g hg
    rw [hzero.1.2] at hcount
    exact countP_eq_zero.mp hcount.symm o ho (by simp [countsFor, hid, hp])
  have hmembers : db.memberships.filter (fun m => m.groupId ∉ removed) = db.memberships := by
    rw [filter_eq_self]
    intro m hm
    obtain ⟨o, ho, t, hp⟩ := h.exists_raw hm
    obtain ⟨hgid, -⟩ := h.raw o ho m t hp
    have hnot := hempty o ho (by rw [hp]; exact nofun)
    simpa [hgid] using hnot
  have hindexes : (db.ledger.filterMap index?).filter (fun index => index.groupId ∉ removed) =
      db.ledger.filterMap index? := by
    rw [filter_eq_self]
    intro index hindex
    obtain ⟨o, ho, hindex⟩ := mem_filterMap.mp hindex
    unfold index? at hindex
    split at hindex <;> cases hindex
    next hp =>
      have hnot := hempty o ho (by rw [hp]; exact nofun)
      simpa using hnot
  refine ⟨⟨h.event_ids, h.event_lt, h.occurrence_lt, ?_, h.raw, ?_, ?_⟩, ⟨?_, ?_, ?_, ?_⟩⟩
  · exact h.members.trans hmembers.symm
  · exact h.snapshot_indexes.sublist (filter_sublist.map _)
  · have hkept := h.tallies.filter fun index => decide (index.groupId ∉ removed)
    rw [hindexes] at hkept
    exact hkept
  · exact h.group_ids.sublist (filter_sublist.map _)
  · exact fun g hg => h.group_lt g (mem_filter.mp hg).1
  · exact fun o ho g hg => h.keys o ho g (mem_filter.mp hg).1
  · exact fun g hg => h.counts g (mem_filter.mp hg).1

end

end Okoscope.Server.RuntimeEvents
