import Okoscope.Server.PolicyConcurrency

/-!
# Evaluations become current

Requests are served one after another. A new revision makes every evaluation of
its application stale and requests the recomputation of one behaviour. Every
linked group is tracked, evaluated as of today or waiting for a recomputation, as
long as each new revision is for the behaviour of all linked groups that wait for
nothing else.
-/
namespace Okoscope.Server.PolicyConvergence

open Lib.Bytes Lib.Run Lib.Table Lib.ReadCommitted
open Policy PolicyTables PolicyProjection
open PolicyService PolicyInvariants PolicyDiscipline
open PolicyConcurrency
open Triple List

variable {δ α : Type}

/-! ## Notification eligibility -/

inductive EligibilityReason where
  | activeSuppression
  | evaluationPending
  | expected
  | eligible
  deriving DecidableEq

structure Eligibility where
  reason : EligibilityReason
  policyRevisionId : Option Nat
  policySuppressionId : Option Nat

/-- The suppression of the group that ends first. -/
def activeSuppression (db : Db δ) (now : Int) (g : Group) : Option Suppression :=
  ((db.suppressions.filter fun x => x.cancelledAt.isNone && now < x.expiresAt && x.placement.matches g.key.placement &&
      (linkedItems db g.id).any fun i => i.key.scope = x.scope && i.key.behavior = x.behavior).insertionSort
    fun a b => a.expiresAt < b.expiresAt ∨ (a.expiresAt = b.expiresAt ∧ a.id ≤ b.id)).head?

def currentEvaluation (db : Db δ) (g : Group) : Option GroupEvaluation :=
  (get? GroupEvaluation.groupId g.id db.groupEvaluations).filter fun e =>
    e.policyStateVersion = db.version g.key.scope && e.evaluatorVersion = policyEvaluatorVersion

/-- Whether the first sighting of a group is notified. -/
def notificationEligibility (db : Db δ) (now : Int) (g : Group) : Eligibility :=
  let suppression := activeSuppression db now g
  let current := currentEvaluation db g
  { reason :=
      if suppression.isSome then .activeSuppression
      else
        match current with
        | none => .evaluationPending
        | some e => if e.evaluation.verdict = .expected then .expected else .eligible
    policyRevisionId := current.bind fun e => e.evaluation.winningRevisionId
    policySuppressionId := suppression.map Suppression.id }

/-! ## Tracked groups -/

def isLinked (db : Db δ) (g : Group) : Bool := db.links.any fun l => l.groupId = g.id

/-- A recomputation that is not completed covers a behaviour of the group. -/
def Awaited (db : Db δ) (g : Group) : Prop :=
  ∃ r ∈ db.recomputations, r.state ≠ .completed ∧ r.scope = g.key.scope ∧
    ∃ i ∈ linkedItems db g.id, i.key.behavior = r.behavior

/-- Every linked group is evaluated as of today or awaits it, but perhaps for one. -/
structure Steady (except : Option Nat) (db : Db δ) : Prop where
  groupIds : (db.groups.map Group.id).Nodup
  links : ∀ l ∈ db.links, LinkSound db l
  recomputationIds : (db.recomputations.map Recomputation.id).Nodup
  tracked : ∀ g ∈ db.groups, some g.id ≠ except → isLinked db g → db.groupPending g = false ∨ Awaited db g

variable {db db' : Db δ} {g : Group} {w : Write δ} {P : Db δ → Prop} {taken : Db δ → Bool} {lock : Lock}
variable {index : String} {scope : PolicyScope}

variable {groupId : Nat}

theorem mem_linkedItems {i : Item} :
    i ∈ linkedItems db groupId ↔ i ∈ db.items ∧ ∃ l ∈ db.links, l.itemId = i.id ∧ l.groupId = groupId := by
  simp [linkedItems]

/-- Groups, links and recomputations are the same, and no evaluation has become stale. -/
structure Kept (db db' : Db δ) : Prop where
  groups : db'.groups = db.groups
  links : db'.links = db.links
  items : ∀ i ∈ db.items, i ∈ db'.items
  pending : ∀ g ∈ db.groups, db.groupPending g = false → db'.groupPending g = false
  recomputations : db'.recomputations = db.recomputations

theorem Kept.refl : Kept db db := ⟨rfl, rfl, fun _ h => h, fun _ _ h => h, rfl⟩

theorem Kept.trans {a b c : Db δ} (h : Kept a b) (h' : Kept b c) : Kept a c where
  groups := h'.groups.trans h.groups
  links := h'.links.trans h.links
  items i hi := h'.items i (h.items i hi)
  pending g hg hp := h'.pending g (h.groups ▸ hg) (h.pending g hg hp)
  recomputations := h'.recomputations.trans h.recomputations

theorem Awaited.mono (h : Awaited db g)
    (hr : ∀ r ∈ db.recomputations, r ∈ db'.recomputations) (hi : ∀ i ∈ db.items, i ∈ db'.items)
    (hl : ∀ l ∈ db.links, l ∈ db'.links) : Awaited db' g := by
  obtain ⟨r, hmem, hstate, hscope, i, hitem, hb⟩ := h
  obtain ⟨hmemi, l, hmeml, hlink⟩ := mem_linkedItems.mp hitem
  exact ⟨r, hr r hmem, hstate, hscope, i, mem_linkedItems.mpr ⟨hi i hmemi, l, hl l hmeml, hlink⟩, hb⟩

theorem Kept.steady (h : Kept db db') {except : Option Nat} (hs : Steady except db) : Steady except db' := by
  refine ⟨?_, fun l hl => ?_, ?_, fun g hg he hl => ?_⟩
  · rw [h.groups]
    exact hs.groupIds
  · rw [h.links] at hl
    rw [LinkSound, h.groups]
    exact hs.links l hl
  · rw [h.recomputations]
    exact hs.recomputationIds
  rw [h.groups] at hg
  rw [isLinked, h.links] at hl
  obtain hp | ha := hs.tracked g hg he hl
  · exact .inl (h.pending g hg hp)
  · exact .inr (ha.mono (fun r hr => h.recomputations ▸ hr) h.items fun l hl => h.links ▸ hl)

/-- Writes that concern neither groups nor their evaluations. -/
def idle : Write δ → Bool
  | .group _ | .link _ | .groupEvaluation _ | .stateVersion _ _ | .recomputation _ | .recomputationState _ _ _ => false
  | _ => true

theorem kept_apply (hw : idle w) : Kept db (apply db w) := by
  cases w
  case item i => exact ⟨rfl, rfl, fun j hj => mem_append_left _ hj, fun _ _ h => h, rfl⟩
  all_goals first | exact ⟨rfl, rfl, fun _ h => h, fun _ _ h => h, rfl⟩ | cases hw

/-- An evaluation as of today keeps what was current and makes its group current. -/
theorem groupPending_apply_groupEvaluation {e : GroupEvaluation} (hv : e.evaluatorVersion = policyEvaluatorVersion)
    (hg : e.groupId = g.id → db.version g.key.scope ≤ e.policyStateVersion)
    (h : e.groupId = g.id ∨ db.groupPending g = false) : (apply db (.groupEvaluation e)).groupPending g = false := by
  have hversion : (apply db (.groupEvaluation e)).version g.key.scope = db.version g.key.scope := rfl
  rw [Db.groupPending, hversion]
  simp only [apply, get?_put]
  by_cases hid : e.groupId = g.id
  · have hle := hg hid
    simp [hid, hv, hle]
  · rw [if_neg hid]
    exact h.resolve_left hid

/-! ## Ingestion -/

variable {present : Db δ → Bool}

theorem triple_insertUnless {Q : Bool → Db δ → Prop} (hpresent : ∀ db, P db → present db → Q false db)
    (habsent : ∀ db, P db → present db = false → taken db = false → Q true (apply db w)) :
    Triple apply P (insertUnless present taken lock w index) Q := by
  refine bind (Q := fun r db => (r.1 → Q false db) ∧ (r.1 = false → r.2 = false → Q true db))
    (triple_exec ?_) fun r => ?_
  · intro db hp
    constructor
    · intro h
      dsimp only at h
      rw [h]
      exact hpresent db hp h
    · intro h h'
      dsimp only at h h'
      rw [h, h']
      exact habsent db hp h h'
  · obtain ⟨found, _⟩ := r
    cases found
    · refine bind (Q := fun _ => Q true) (triple_ensure fun db h hok => h.2 rfl ?_) fun _ => triple_pure fun _ h => h
      simpa using hok
    · exact triple_pure fun _ h => h.1 rfl

theorem triple_insertIdle (hP : ∀ db db', Kept db db' → P db → P db') (hw : idle w) :
    Triple apply P (insertUnless present taken lock w index) fun _ => P :=
  triple_insertUnless (fun _ hp _ => hp) fun db hp _ _ => hP db _ (kept_apply hw) hp

theorem triple_assignEvent {o : Observation} : Triple apply (Steady (δ := δ) none) (assignEvent scope o)
      fun groupId db => Steady none db ∧ ⟨groupId, o.groupKey scope⟩ ∈ db.groups := by
  have hinsert : Triple apply (Steady (δ := δ) none) (insertGroupIfAbsent ⟨o.groupId, o.groupKey scope⟩)
      fun created db => Steady none db ∧ (created → ⟨o.groupId, o.groupKey scope⟩ ∈ db.groups) := by
    refine triple_insertUnless (fun _ hp _ => ⟨hp, nofun⟩) fun db hp _ htaken => ⟨?_, fun _ => ?_⟩
    · have hfree : ∀ g ∈ db.groups, g.id ≠ o.groupId := by
        intro g hg
        have h := any_eq_false.mp htaken g hg
        simpa using h
      refine ⟨nodup_map_append_singleton hp.groupIds hfree, fun l hl => ?_, hp.recomputationIds, fun g hg he hl => ?_⟩
      · obtain ⟨g, hg, h⟩ := hp.links l hl
        exact ⟨g, mem_append_left _ hg, h⟩
      obtain hg | rfl := mem_append_singleton.mp hg
      · exact hp.tracked g hg he hl
      -- no link names a group that was not there
      obtain ⟨l, hl, hid⟩ := any_eq_true.mp hl
      obtain ⟨g', hg', hid', -⟩ := hp.links l hl
      exact absurd (hid'.trans (of_decide_eq_true hid)) (hfree g' hg')
    · exact mem_concat_self
  refine hinsert.bind fun created => ?_
  cases created
  · refine bind (Q := fun found db => Steady none db ∧ ∀ g, found = some g → g ∈ db.groups ∧ g.key = o.groupKey scope)
      (triple_exec fun db hp => ⟨hp.1, fun g hg => ⟨mem_of_find?_eq_some hg, ?_⟩⟩) fun found => ?_
    · have hkey := find?_some hg
      exact of_decide_eq_true hkey
    · cases found with
      | none => exact triple_fail
      | some g =>
        refine triple_pure fun db h => ?_
        obtain ⟨hg, hkey⟩ := h.2 g rfl
        rw [← hkey]
        exact ⟨h.1, hg⟩
  · exact triple_pure fun _ h => ⟨h.1, h.2 rfl⟩

theorem triple_ensureItem (hP : ∀ db db', Kept db db' → P db → P db') {o : Observation} :
    Triple apply P (ensureItem scope o) fun _ => P := by
  refine (triple_insertIdle hP rfl).bind fun created => ?_
  cases created
  · refine triple_read.seq fun found => ?_
    cases found with
    | none => exact triple_fail
    | some => exact triple_return
  · exact triple_return

variable {itemId : Nat}

theorem steady_link (hs : Steady none db) {key : GroupKey} (hg : ⟨groupId, key⟩ ∈ db.groups) :
    Steady (some groupId) (apply db (.link ⟨key.scope, itemId, groupId⟩)) := by
  refine ⟨hs.groupIds, fun l hl => ?_, hs.recomputationIds, fun g hg' he hl => ?_⟩
  · obtain hl | rfl := mem_append_singleton.mp hl
    · exact hs.links l hl
    · exact ⟨⟨groupId, key⟩, hg, rfl, rfl⟩
  have hne : groupId ≠ g.id := fun h => he (congrArg some h.symm)
  have hold : isLinked db g := by
    rw [isLinked, apply, any_append, Bool.or_eq_true] at hl
    refine hl.resolve_right ?_
    simpa using hne
  obtain hp | ha := hs.tracked g hg' (by simp) hold
  · exact .inl hp
  · exact .inr (ha.mono (fun _ h => h) (fun _ h => h) fun l hl => mem_append_left _ hl)

theorem triple_projectEvent {o : Observation} :
    Triple apply (fun db : Db δ => Steady none db ∧ ⟨groupId, o.groupKey scope⟩ ∈ db.groups)
      (projectEvent scope o groupId)
      fun _ db => Steady (some groupId) db ∧ ⟨groupId, o.groupKey scope⟩ ∈ db.groups := by
  refine (triple_ensureItem (fun db db' h hp => ⟨h.steady hp.1, h.groups ▸ hp.2⟩)).bind fun itemId => ?_
  refine bind (Q := fun _ db => Steady (some groupId) db ∧ ⟨groupId, o.groupKey scope⟩ ∈ db.groups)
    (triple_exec fun db hp => ?_) fun _ => ?_
  · by_cases hl : db.links.contains ⟨scope, itemId, groupId⟩
    · rw [if_pos hl]
      exact ⟨{ hp.1 with tracked := fun g hg _ hl => hp.1.tracked g hg (by simp) hl }, hp.2⟩
    · rw [if_neg hl]
      exact ⟨steady_link hp.1 hp.2, hp.2⟩
  · refine seq (triple_exec fun db hp => ?_) fun _ => triple_return
    exact ⟨(kept_apply (w := .sighting _) rfl).steady hp.1, hp.2⟩

variable {placement : Placement}

/-- An evaluation takes the version of the moment, and writes nothing. -/
theorem triple_evaluateItem :
    Triple apply P (evaluateItem scope itemId placement) fun value db => P db ∧ value.stateVersion = db.version scope := by
  refine triple_read.seq fun found => ?_
  cases found with
  | none => exact triple_fail
  | some =>
    refine bind (Q := fun (stateVersion : Option Nat) db => P db ∧ stateVersion.getD 0 = db.version scope)
      (triple_query fun db hp => ⟨hp, rfl⟩) fun stateVersion => ?_
    exact triple_read.seq fun rows => triple_pure fun _ hp => hp

theorem triple_storeSighting (hP : ∀ db db', Kept db db' → P db → P db') {key : SightingKey}
    {value : MaterializedEvaluation} : Triple apply P (storeSighting scope key value) fun _ => P := by
  rw [storeSighting, storeSightingEvaluation]
  exact triple_exec fun db hp => hP db _ (kept_apply (w := .sightingEvaluation _) rfl) hp

theorem triple_projectCurrentEvaluation {o : Observation} :
    Triple apply (fun db : Db δ => Steady (some groupId) db ∧ ⟨groupId, o.groupKey scope⟩ ∈ db.groups)
      (projectCurrentEvaluation scope o groupId itemId) fun _ => Steady none := by
  refine triple_evaluateItem.bind fun value => ?_
  refine bind (Q := fun _ => Steady none) ?_ fun _ => ?_
  · rw [storeGroup, storeGroupEvaluation]
    refine triple_exec fun db hp => ?_
    obtain ⟨⟨hs, hg⟩, hversion⟩ := hp
    refine ⟨hs.groupIds, hs.links, hs.recomputationIds, fun g hg' _ hl => ?_⟩
    have hscope : groupId = g.id → g.key.scope = scope := by
      intro hid
      obtain rfl := eq_of_key_eq hs.groupIds hg' hg hid.symm
      rfl
    have hle : groupId = g.id → db.version g.key.scope ≤ value.stateVersion := by
      intro hid
      rw [hscope hid, hversion]
    by_cases hid : groupId = g.id
    · exact .inl (groupPending_apply_groupEvaluation rfl hle (.inl hid))
    have hne : some g.id ≠ some groupId := fun h => hid (Option.some.inj h).symm
    obtain hp | ha := hs.tracked g hg' hne hl
    · exact .inl (groupPending_apply_groupEvaluation rfl hle (.inr hp))
    · exact .inr (ha.mono (fun _ h => h) (fun _ h => h) fun _ h => h)
  · exact triple_storeSighting (fun db db' h hp => h.steady hp)

theorem triple_persistEvent {o : Observation} (ho : o.restartLoop = none) :
    Triple apply (Steady (δ := δ) none) (persistEvent scope o) fun _ => Steady none := by
  refine triple_read.seq fun owned => ?_
  refine triple_test.seq fun _ => ?_
  refine (triple_insertIdle (fun db db' h hp => h.steady hp) rfl).bind fun fresh => ?_
  cases fresh
  · exact triple_return
  refine triple_assignEvent.bind fun groupId => ?_
  refine triple_projectEvent.bind fun itemId => ?_
  refine triple_projectCurrentEvaluation.bind fun _ => ?_
  rw [upsertRestartLoopGroup, ho]
  exact triple_return

variable {events : List Observation}

theorem triple_persistEvents {closed : Option Int} (h : ∀ o ∈ events, o.restartLoop = none) :
    Triple apply (Steady (δ := δ) none) (persistEvents scope closed events) fun _ => Steady none := by
  induction events with
  | nil => exact triple_return
  | cons o _ ih =>
    have hrest := ih fun o' ho' => h o' (mem_cons_of_mem _ ho')
    rw [persistEvents]
    split
    · exact hrest.map fun _ _ h => h
    · refine (triple_persistEvent (h o mem_cons_self)).bind fun one => ?_
      exact hrest.map fun _ _ h => h

/-! ## Recomputation -/

/-- A recomputation may be completed once the groups that await it are current. -/
theorem Steady.recomputationState (hs : Steady none db) {id attemptCount : Nat} {state : RecomputeState}
    (h : state = .completed → ∀ r ∈ db.recomputations, r.id = id → ∀ g ∈ db.groups, r.scope = g.key.scope →
      (∃ i ∈ linkedItems db g.id, i.key.behavior = r.behavior) → db.groupPending g = false) :
    Steady none (apply db (.recomputationState id state attemptCount)) := by
  refine ⟨hs.groupIds, hs.links, ?_, fun g hg he hl => ?_⟩
  · have hids : ((apply db (.recomputationState id state attemptCount)).recomputations.map Recomputation.id) =
        db.recomputations.map Recomputation.id := map_key_updateWhere fun _ => rfl
    rw [hids]
    exact hs.recomputationIds
  · obtain hp | ⟨r, hr, hstate, hscope, hitem⟩ := hs.tracked g hg he hl
    · exact .inl hp
    by_cases hid : r.id = id
    · by_cases hcompleted : state = .completed
      · exact .inl (h hcompleted r hr hid g hg hscope hitem)
      · refine .inr ⟨{ r with state, attemptCount }, mem_updateWhere.mpr ⟨r, hr, ?_⟩, hcompleted, hscope, hitem⟩
        rw [if_pos (decide_eq_true hid)]
    · refine .inr ⟨r, mem_updateWhere.mpr ⟨r, hr, ?_⟩, hstate, hscope, hitem⟩
      rw [if_neg (by simpa using hid)]

/-- What the batch of an operation starts from. -/
structure Claimed (operation : Recomputation) (db : Db δ) : Prop where
  steady : Steady none db
  itemIds : (db.items.map Item.id).Nodup
  operation : ∀ r ∈ db.recomputations, r.id = operation.id → r.scope = operation.scope ∧ r.behavior = operation.behavior

theorem triple_claimRecomputation {now : Int} {owner : Nat} :
    Triple apply (fun db : Db δ => Sound db ∧ Steady none db) (claimRecomputation now owner)
      fun claimed db => Steady none db ∧ ∀ operation, claimed = some operation → Claimed operation db := by
  refine triple_stmt fun db hp => ?_
  obtain ⟨hsound, hs⟩ := hp
  cases hnext : nextClaimable now (⟨db, []⟩ : View (Db δ) Lock) with
  | none => exact ⟨hs, nofun⟩
  | some r =>
    have hr : r ∈ db.recomputations := by
      have hmem := mem_of_mem_head? hnext
      rw [mem_insertionSort] at hmem
      exact (mem_filter.mp hmem).1
    have hrun : Steady none (apply db (.recomputationState r.id (.running owner (now + 30000000)) (r.attemptCount + 1))) :=
      hs.recomputationState nofun
    refine ⟨hrun, fun operation h => ?_⟩
    obtain rfl := Option.some.inj h
    refine ⟨hrun, hsound.itemIds, fun q hq hid => ?_⟩
    obtain ⟨q', hq', rfl⟩ := mem_updateWhere.mp hq
    have hid' : q'.id = r.id := by
      rw [← hid]
      split <;> rfl
    obtain rfl := eq_of_key_eq hs.recomputationIds hq' hr hid'
    split <;> exact ⟨rfl, rfl⟩

theorem triple_projectExistingGroup (hids : (db.groups.map Group.id).Nodup) (hg : g ∈ db.groups) :
    Triple apply (· = db) (projectExistingGroup g.key.scope itemId g.id placement)
      fun _ db' => (Kept db db' ∧ db'.items = db.items) ∧ db'.groupPending g = false := by
  refine triple_evaluateItem.bind fun value => ?_
  rw [storeGroup, storeGroupEvaluation]
  refine triple_exec fun v hv => ?_
  obtain ⟨rfl, hversion⟩ := hv
  have hle : ∀ g' ∈ v.groups, g.id = g'.id → v.version g'.key.scope ≤ value.stateVersion := by
    intro g' hg' hid
    obtain rfl := eq_of_key_eq hids hg hg' hid
    exact hversion.ge
  refine ⟨⟨⟨rfl, rfl, fun _ h => h, fun g' hg' hp => ?_, rfl⟩, rfl⟩, ?_⟩
  · exact groupPending_apply_groupEvaluation rfl (hle g' hg') (.inr hp)
  · exact groupPending_apply_groupEvaluation rfl (hle g hg) (.inl rfl)

variable {groups : List (Nat × Group)}

/-- The groups of a batch become current, and no other group becomes stale. -/
theorem triple_eachGroup (hids : (db.groups.map Group.id).Nodup)
    (hgroups : ∀ r ∈ groups, r.2 ∈ db.groups ∧ r.2.key.scope = scope) :
    Triple apply (fun v => Kept db v ∧ v.items = db.items)
      (.each (fun r => projectExistingGroup scope r.1 r.2.id r.2.key.placement) groups)
      fun _ v => (Kept db v ∧ v.items = db.items) ∧ ∀ r ∈ groups, v.groupPending r.2 = false := by
  have hround : ∀ r ∈ groups, ∀ v, Kept db v ∧ v.items = db.items → Triple apply (fun u => u = v)
      (projectExistingGroup scope r.1 r.2.id r.2.key.placement)
      fun _ u => (Kept v u ∧ u.items = v.items) ∧ u.groupPending r.2 = false := by
    intro r hr v hv
    obtain ⟨hmem, rfl⟩ := hgroups r hr
    exact triple_projectExistingGroup (hv.1.groups ▸ hids) (hv.1.groups ▸ hmem)
  apply triple_each
  · intro r hr
    refine ⟨fun v u hv hu => ?_⟩
    obtain ⟨⟨hkept, hitems⟩, hfresh⟩ := (hround r hr v hv).alone v u rfl hu
    exact ⟨⟨hv.1.trans hkept, hitems.trans hv.2⟩, hfresh⟩
  · intro r hr c hc
    refine ⟨fun v u hv hu => ?_⟩
    obtain ⟨⟨hkept, -⟩, -⟩ := (hround r hr v hv.1).alone v u rfl hu
    exact hkept.pending c.2 (hv.1.1.groups ▸ (hgroups c hc).1) hv.2

theorem triple_eachSighting (hP : ∀ v e, P v → P (apply v (.sightingEvaluation e))) {sightings : List Sighting} :
    Triple apply P (.each (fun s => projectExistingSighting scope s.key) sightings) fun _ => P := by
  have hround : ∀ s : Sighting, Triple apply P (projectExistingSighting scope s.key) fun _ => P := by
    intro s
    refine triple_evaluateItem.bind fun value => ?_
    rw [storeSighting, storeSightingEvaluation]
    exact triple_exec fun v hv => hP v _ hv.1
  refine (triple_each (R := fun _ _ => True) (fun s _ => ?_) fun _ _ _ _ => ⟨fun _ _ _ _ => trivial⟩).mono
    (fun _ h => h) fun _ _ h => h.1
  exact (hround s).mono (fun _ h => h) fun _ _ h => ⟨h, trivial⟩

variable {operation : Recomputation} {batchSize : Nat}

/-- A batch that was not full has all stale groups of the behaviour. -/
theorem mem_groupsToEvaluate (hc : Claimed operation db)
    (hlast : (db.groupsToEvaluate operation.scope operation.behavior batchSize).length < batchSize)
    (hg : g ∈ db.groups) (hscope : g.key.scope = operation.scope) {i : Item} (hi : i ∈ linkedItems db g.id)
    (hb : i.key.behavior = operation.behavior) (hp : db.groupPending g) :
    (i.id, g) ∈ db.groupsToEvaluate operation.scope operation.behavior batchSize := by
  obtain ⟨hitem, l, hl, hlitem, hlgroup⟩ := mem_linkedItems.mp hi
  obtain ⟨_, hg', hid', hscope'⟩ := hc.steady.links l hl
  obtain rfl := eq_of_key_eq hc.steady.groupIds hg' hg (hid'.trans hlgroup)
  have hall : db.groupsToEvaluate operation.scope operation.behavior batchSize =
      (db.pendingGroups operation.scope operation.behavior).insertionSort fun a b => a.2.id ≤ b.2.id := by
    rw [Db.groupsToEvaluate, length_take] at hlast
    exact take_of_length_le (by omega)
  rw [hall, mem_insertionSort, Db.pendingGroups, mem_filter, mem_filterMap]
  refine ⟨⟨l, mem_filter.mpr ⟨hl, decide_eq_true (hscope'.symm.trans hscope)⟩, ?_⟩, hp⟩
  rw [Db.linkedGroup, hlitem, hlgroup, get?_of_mem hc.itemIds hitem, get?_of_mem hc.steady.groupIds hg]
  exact if_pos hb

theorem triple_settleRecomputation (hc : Claimed operation db) {owner processed : Nat}
    (hgroups : groups = db.groupsToEvaluate operation.scope operation.behavior batchSize)
    (hprocessed : groups.length ≤ processed) :
    Triple apply (fun v => (Kept db v ∧ v.items = db.items) ∧ ∀ r ∈ groups, v.groupPending r.2 = false)
      (settleRecomputation operation.id owner batchSize processed) fun _ => Steady none := by
  have hset : ∀ state, (state = .completed → groups.length < batchSize) →
      Triple apply (fun v => (Kept db v ∧ v.items = db.items) ∧ ∀ r ∈ groups, v.groupPending r.2 = false)
        (setRecomputation operation.id owner state) fun _ => Steady none := by
    intro state hlast
    refine triple_exec fun v hv => ?_
    obtain ⟨⟨hkept, hitems⟩, hfresh⟩ := hv
    cases (get? Recomputation.id operation.id v.recomputations).filter (leasedTo owner) with
    | none => exact hkept.steady hc.steady
    | some =>
      refine (hkept.steady hc.steady).recomputationState fun hcompleted q hq hid g hg hscope hitem => ?_
      rw [hkept.recomputations] at hq
      rw [hkept.groups] at hg
      obtain ⟨_, hi, hb⟩ := hitem
      rw [linkedItems, hitems, hkept.links] at hi
      obtain ⟨hqscope, hqbehavior⟩ := hc.operation q hq hid
      cases hp : db.groupPending g with
      | false => exact hkept.pending g hg hp
      | true =>
        have hmem := mem_groupsToEvaluate hc (hgroups ▸ hlast hcompleted) hg (hscope.symm.trans hqscope) hi
          (hb.trans hqbehavior) hp
        rw [← hgroups] at hmem
        exact hfresh _ hmem
  rw [settleRecomputation]
  split
  next h => exact hset .completed fun _ => by omega
  next => exact hset .pending fun h => by cases h

theorem triple_recomputeBatch {owner : Nat} :
    Triple apply (Claimed (δ := δ) operation) (recomputeBatch operation owner batchSize) fun _ => Steady none := by
  -- the whole batch is about the database in which the operation was claimed
  refine triple_of_state fun db hc => ?_
  refine bind (Q := fun groups v => v = db ∧
    groups = db.groupsToEvaluate operation.scope operation.behavior batchSize) (triple_query ?_) fun groups => ?_
  · intro v hv
    rw [hv]
    exact ⟨rfl, rfl⟩
  refine triple_of_fact (fun _ h => h.2) fun hgroups => ?_
  have hmem : ∀ r ∈ groups, r.2 ∈ db.groups ∧ r.2.key.scope = operation.scope := by
    intro r hr
    rw [hgroups] at hr
    obtain ⟨hscope, hlinked⟩ := linked_of_mem_groupsToEvaluate hc.steady.groupIds hc.steady.links hr
    exact ⟨hlinked.1, hscope⟩
  refine bind ((triple_eachGroup hc.steady.groupIds hmem).pre ?_) fun _ => ?_
  · intro v hv
    rw [hv.1]
    exact ⟨.refl, rfl⟩
  refine seq ?_ fun sightings => ?_
  · rw [remainingSightings]
    split
    · exact triple_read
    · exact triple_return
  refine bind (triple_eachSighting ?_) fun _ => ?_
  · intro v e hv
    exact ⟨⟨hv.1.1.trans (kept_apply rfl), hv.1.2⟩, hv.2⟩
  exact triple_settleRecomputation hc hgroups (Nat.le_add_right _ _)

/-! ## Commands -/

/-- Groups, links, items, evaluations, versions, recomputations and commands are the same. -/
structure Same (db db' : Db δ) : Prop where
  groups : db'.groups = db.groups
  links : db'.links = db.links
  items : db'.items = db.items
  evaluations : db'.groupEvaluations = db.groupEvaluations
  states : db'.states = db.states
  recomputations : db'.recomputations = db.recomputations
  commands : db'.commands = db.commands

theorem Same.refl : Same db db := ⟨rfl, rfl, rfl, rfl, rfl, rfl, rfl⟩

/-- Writes to policies, revisions and suppressions. -/
def aside : Write δ → Bool
  | .policy _ | .rename _ _ | .revision _ | .currentRevision _ _ _ | .suppression _ | .cancelSuppression _ _ _ => true
  | _ => false

theorem Same.apply_aside (h : Same db db') (hw : aside w) : Same db (apply db' w) := by
  cases w <;> first
    | exact { h with }
    | cases hw

theorem groupPending_congr (he : db'.groupEvaluations = db.groupEvaluations)
    (hv : db'.version g.key.scope = db.version g.key.scope) : db'.groupPending g = db.groupPending g := by
  rw [Db.groupPending, Db.groupPending, he, hv]

theorem Same.version (h : Same db db') : db'.version scope = db.version scope := by
  rw [Db.version, Db.version, Db.stateVersion, Db.stateVersion, h.states]

theorem Same.kept (h : Same db db') : Kept db db' where
  groups := h.groups
  links := h.links
  items _ hi := h.items ▸ hi
  pending _ _ hp := (groupPending_congr h.evaluations h.version).trans hp
  recomputations := h.recomputations

theorem kept_stateVersion (db : Db δ) (scope : PolicyScope) :
    Kept db (apply db (.stateVersion scope (db.version scope))) := by
  refine ⟨rfl, rfl, fun _ h => h, fun g _ hp => ?_, rfl⟩
  have hversion : (apply db (.stateVersion scope (db.version scope))).version g.key.scope = db.version g.key.scope := by
    by_cases hscope : scope = g.key.scope
    · rw [hscope, version_apply_stateVersion]
    · refine version_apply_of_ne fun v h => hscope ?_
      cases h
      rfl
  rw [← hp]
  exact groupPending_congr rfl hversion

/-- A revision for a behaviour has been appended and its recomputation requested. -/
structure Appended (scope : PolicyScope) (behavior : BehaviorKey) (db db' : Db δ) : Prop where
  groups : db'.groups = db.groups
  links : db'.links = db.links
  items : db'.items = db.items
  evaluations : db'.groupEvaluations = db.groupEvaluations
  version : ∀ scope', scope' ≠ scope → db'.version scope' = db.version scope'
  recomputations : ∃ r : Recomputation, db'.recomputations = db.recomputations ++ [r] ∧
    (∀ q ∈ db.recomputations, q.id ≠ r.id) ∧ r.state = .pending ∧ r.scope = scope ∧ r.behavior = behavior

theorem triple_insertRow {Q : Db δ → Prop}
    (h : ∀ db, P db → taken db = false → Q (apply db w)) : Triple apply P (insertRow taken lock w index) fun _ => Q := by
  refine bind (Q := fun created db => created = true ∧ Q db)
    (triple_insertUnless nofun fun db hp _ htaken => ⟨rfl, h db hp htaken⟩) fun created => ?_
  exact triple_pure fun _ h => h.2

variable {input : RevisionInput}

theorem triple_appendRevision (db : Db δ) {now : Int} {ids : RevisionIds} {policyId : Nat} (revisionNumber : Nat)
    (priorRevisionId : Option Nat) (enabled : Bool) {identity : Item} : Triple apply (Same db)
      (appendRevision now scope ids policyId revisionNumber priorRevisionId enabled input identity)
      fun _ v => Appended scope identity.key.behavior db v ∧ v.commands = db.commands := by
  refine seq (triple_insertRow fun v h _ => h.apply_aside rfl) fun _ => ?_
  refine seq (triple_exec fun v h => h.apply_aside (w := .currentRevision _ _ _) rfl) fun _ => ?_
  -- the version moves for this application only, and the recomputation is for this behaviour
  refine bind (Q := fun _ v => ∃ u, Same db u ∧ v = apply u (.stateVersion scope (u.version scope + 1)))
    (triple_exec fun v h => ⟨v, h, rfl⟩) fun version => ?_
  refine bind (Q := fun _ v => Appended scope identity.key.behavior db v ∧ v.commands = db.commands)
    (triple_insertRow fun v h htaken => ?_) fun _ => ?_
  · obtain ⟨u, hu, rfl⟩ := h
    refine ⟨?_, hu.commands⟩
    refine ⟨hu.groups, hu.links, hu.items, hu.evaluations, fun scope' hne => ?_,
      ⟨ids.recomputationId, scope, identity.key.behavior, ids.revisionId, .pending, 0, now⟩, ?_, fun q hq => ?_,
      rfl, rfl, rfl⟩
    · have hother : (apply u (.stateVersion scope (u.version scope + 1))).version scope' = u.version scope' := by
        refine version_apply_of_ne fun v h => hne ?_
        cases h
        rfl
      exact hother.trans hu.version
    · show u.recomputations ++ [_] = _
      rw [hu.recomputations]
    · rw [← hu.recomputations] at hq
      have hfree := any_eq_false.mp htaken q hq
      simpa using hfree
  · exact triple_return

theorem triple_loadRevisionIdentity : Triple apply P (loadRevisionIdentity scope input)
      fun r db => P db ∧ db.identity scope input.sourceInventoryItemId = some r.2 := by
  refine bind (Q := fun normal db => P db ∧ normal.sourceInventoryItemId = input.sourceInventoryItemId)
    (triple_ofExcept fun db normal hp hn => ⟨hp, ?_⟩) fun normal => ?_
  · rw [normalizeRevision] at hn
    split at hn
    · cases hn
    split at hn
    · cases hn
    · cases hn
      rfl
  refine bind (Q := fun found db => P db ∧ ∀ item, found = some item →
    db.identity scope input.sourceInventoryItemId = some item) (triple_query fun db hp => ⟨hp.1, fun item h => ?_⟩)
    fun found => ?_
  · rw [← hp.2]
    exact h
  cases found with
  | none => exact triple_fail
  | some item =>
    refine pre (P := fun db => P db ∧ db.identity scope input.sourceInventoryItemId = some item)
      (seq ?_ fun _ => ?_) fun db hp => ⟨hp.1, hp.2 item rfl⟩
    · cases normal.sourceRuntimeGroupId with
      | none => exact triple_return
      | some =>
        exact triple_read.seq fun linked => triple_test
    · exact triple_test.seq fun _ => triple_pure fun _ h => h

theorem triple_currentRevisionForUpdate {policyId : Nat} :
    Triple apply (· = db) (currentRevisionForUpdate scope policyId)
      fun found v => v = db ∧ ∀ r, found = some r → db.currentRevision scope policyId = some r := by
  refine seq (triple_exec fun _ hv => hv) fun found => ?_
  cases found
  · exact triple_pure fun v hv => ⟨hv, nofun⟩
  show Triple apply _ (.query fun db : Db δ => db.currentRevision scope policyId) _
  refine triple_query fun v hv => ⟨hv, fun r h => ?_⟩
  rw [← hv]
  exact h

theorem triple_renameTo (db : Db δ) {policyId : Nat} {name : Option String} :
    Triple apply (Same db) (renameTo policyId name) fun _ => Same db := by
  cases name with
  | none => exact triple_return
  | some name =>
    show Triple apply (Same db) (rename policyId name) fun _ => Same db
    exact triple_exec fun v h => h.apply_aside (w := .rename _ _) rfl

/-- A loaded identity has the behaviour that the item had before the command. -/
theorem Same.identityKey (h : Same db db') {item : Item} (hi : db'.identity scope itemId = some item) :
    db.identityKey scope itemId = some item.key.behavior := by
  rw [Db.identity, h.items] at hi
  rw [Db.identityKey, Db.identity, hi]
  rfl

/-- What a command does to groups and recomputations: nothing, or what a new revision for a behaviour does. -/
def Changed (scope : PolicyScope) (behavior : Option BehaviorKey) (db db' : Db δ) : Prop :=
  Kept db db' ∨ ∃ b, behavior = some b ∧ Appended scope b db db'

/-- The same before the command itself is stored. -/
def Performed (scope : PolicyScope) (behavior : Option BehaviorKey) (db db' : Db δ) : Prop :=
  Changed scope behavior db db' ∧ db'.commands = db.commands

section
variable (db : Db δ) (now : Int) (scope : PolicyScope) (policyId : Nat) (ids : RevisionIds)

theorem triple_performCreate {name : String} : Triple apply (· = db) (performCreate now scope policyId ids name input)
      fun _ => Performed scope (db.identityKey scope input.sourceInventoryItemId) db := by
  refine triple_loadRevisionIdentity.bind fun loaded => ?_
  obtain ⟨_, _⟩ := loaded
  refine triple_of_fact (fun v hv => (hv.1 ▸ Same.refl : Same db v).identityKey hv.2) fun hb => ?_
  refine bind (Q := fun _ => Same db) (triple_insertRow fun v hv _ => ?_) fun _ => ?_
  · rw [hv.1]
    exact Same.refl.apply_aside rfl
  · exact (triple_appendRevision db _ _ _).mono (fun _ h => h)
      fun _ _ h => ⟨.inr ⟨_, hb, h.1⟩, h.2⟩

theorem triple_performReplace {name : Option String} :
    Triple apply (· = db) (performReplace now scope policyId ids name input)
      fun _ => Performed scope (db.identityKey scope input.sourceInventoryItemId) db := by
  refine triple_currentRevisionForUpdate.bind fun found => ?_
  cases found with
  | none => exact triple_fail
  | some =>
    refine bind ((triple_renameTo db).pre fun v hv => hv.1 ▸ Same.refl) fun _ => ?_
    refine triple_loadRevisionIdentity.bind fun loaded => ?_
    obtain ⟨_, _⟩ := loaded
    refine triple_of_fact (fun v hv => hv.1.identityKey hv.2) fun hb => ?_
    exact (triple_appendRevision db _ _ _).mono (fun _ h => h.1)
      fun _ _ h => ⟨.inr ⟨_, hb, h.1⟩, h.2⟩

theorem triple_performSetEnabled {enabled : Bool} :
    Triple apply (· = db) (performSetEnabled now scope policyId ids enabled)
      fun _ => Performed scope ((db.currentRevision scope policyId).bind fun r =>
        db.identityKey scope r.sourceInventoryItemId) db := by
  refine triple_currentRevisionForUpdate.bind fun found => ?_
  cases found with
  | none => exact triple_fail
  | some current =>
    refine triple_of_fact (fun v hv => hv.2 current rfl) fun hcurrent => ?_
    refine triple_loadRevisionIdentity.bind fun loaded => ?_
    obtain ⟨_, _⟩ := loaded
    refine triple_of_fact (fun v hv => (hv.1.1 ▸ Same.refl : Same db v).identityKey hv.2) fun hb => ?_
    refine (triple_appendRevision db _ _ _).mono (fun v hv => ?_) fun _ _ h => ?_
    · exact hv.1.1 ▸ Same.refl
    · refine ⟨.inr ⟨_, ?_, h.1⟩, h.2⟩
      rw [hcurrent]
      exact hb

end

/-- A suppression changes neither groups nor recomputations, and the version at most becomes explicit. -/
theorem triple_currentStateVersion :
    Triple apply (Same db) (currentStateVersion scope) fun _ => Performed scope none db := by
  refine triple_exec fun v hv => ?_
  split
  next hnone =>
    have hzero : v.version scope = 0 := by
      rw [Db.version, Option.isNone_iff_eq_none.mp hnone]
      rfl
    have hkept := kept_stateVersion v scope
    rw [hzero] at hkept
    exact ⟨.inl (hv.kept.trans hkept), hv.commands⟩
  next => exact ⟨.inl hv.kept, hv.commands⟩

theorem triple_performSuppress {now : Int} {id : Nat} {input : SuppressionInput} :
    Triple apply (· = db) (performSuppress now scope id input) fun _ => Performed scope none db := by
  refine triple_loadRevisionIdentity.bind fun loaded => ?_
  refine bind (Q := fun _ => Same db) (triple_insertRow fun v hv _ => ?_) fun _ => ?_
  · rw [hv.1]
    exact Same.refl.apply_aside rfl
  · exact triple_currentStateVersion.map fun _ _ h => h

theorem triple_performCancel {now : Int} {id : Nat} :
    Triple apply (· = db) (performCancel now scope id) fun _ => Performed scope none db := by
  refine bind (Q := fun _ => Same db) (triple_exec fun v hv => ?_) fun updated => ?_
  · rw [hv]
    exact Same.refl.apply_aside (w := .cancelSuppression _ _ _) rfl
  · refine triple_test.seq fun _ => ?_
    exact triple_currentStateVersion.map fun _ _ h => h

/-- The checks before the key is looked at read, if anything. -/
theorem triple_ensureApplication : Triple apply (· = db) (ensureApplication scope) fun _ v => v = db :=
  triple_read.seq fun _ => triple_test

theorem triple_check {x : Except Failure α} : Triple apply (· = db) (.ofExcept x : Program δ α) fun _ v => v = db :=
  triple_ofExcept fun _ _ hv _ => hv

variable {header : Option Nat} {behavior : Option BehaviorKey}

section
variable [DecidableEq δ]

theorem triple_beginCommand {organizationId key : Nat} {digest : δ} :
    Triple apply P (beginCommand organizationId key digest) fun _ => P := by
  refine seq ?_ fun found => ?_
  · exact seq (triple_exec fun _ hp => hp) fun _ => triple_read
  cases found with
  | none => exact triple_return
  | some =>
    dsimp only
    split
    · exact triple_return
    · exact triple_fail

theorem triple_underKey {key : Nat} {kind : CommandKind} {digest : δ} {perform : Program δ MutationResult}
    (hperform : Triple apply (· = db) perform fun _ => Performed scope behavior db) :
    Triple apply (· = db) (underKey scope key kind digest perform) fun _ => Changed scope behavior db := by
  refine triple_beginCommand.bind fun stored => ?_
  cases stored with
  | some =>
    refine triple_pure fun v hv => ?_
    rw [hv]
    exact .inl .refl
  | none =>
    refine hperform.bind fun result => ?_
    refine bind (Q := fun _ => Changed scope behavior db) (triple_insertRow fun v hv _ => ?_) fun _ => ?_
    · obtain hk | ⟨b, hb, ha⟩ := hv.1
      · exact .inl (hk.trans (kept_apply rfl))
      · exact .inr ⟨b, hb, { ha with }⟩
    · exact triple_return

end

/-! ## Runs -/

/-- The application and the behaviour of the revision that a command would append. -/
def revisionOf (db : Db δ) : Request → Option (PolicyScope × BehaviorKey)
  | .createPolicy _ scope _ _ _ input =>
    (db.identityKey scope input.revision.sourceInventoryItemId).map fun b => (scope, b)
  | .replacePolicy _ scope _ _ _ input =>
    (db.identityKey scope input.revision.sourceInventoryItemId).map fun b => (scope, b)
  | .setPolicyEnabled _ scope policyId _ _ _ =>
    ((db.currentRevision scope policyId).bind fun r => db.identityKey scope r.sourceInventoryItemId).map
      fun b => (scope, b)
  | _ => none

/-- Every linked group of the application has the behaviour, or awaits another recomputation. -/
def Covered (db : Db δ) (scope : PolicyScope) (behavior : BehaviorKey) : Prop :=
  ∀ g ∈ db.groups, g.key.scope = scope → isLinked db g →
    (∃ i ∈ linkedItems db g.id, i.key.behavior = behavior) ∨ Awaited db g

def eventsOf : Request → List Observation
  | .ingest _ events => events
  | _ => []

/-- A revision is for a behaviour of all linked groups of its application that await no other
recomputation, and no event makes a restart-loop group. -/
def Covering (db : Db δ) (request : Request) : Prop :=
  (∀ o ∈ eventsOf request, o.restartLoop = none) ∧ ∀ r ∈ revisionOf db request, Covered db r.1 r.2

theorem Appended.steady {behavior : BehaviorKey}
    (h : Appended scope behavior db db') (hs : Steady none db) (hc : Covered db scope behavior) : Steady none db' := by
  obtain ⟨r, hrows, hfree, hstate, hscope, hbehavior⟩ := h.recomputations
  have hawaited : ∀ g, Awaited db g → Awaited db' g := by
    intro g ha
    refine ha.mono (fun q hq => ?_) (fun i hi => h.items ▸ hi) fun l hl => h.links ▸ hl
    rw [hrows]
    exact mem_append_left _ hq
  refine ⟨?_, fun l hl => ?_, ?_, fun g hg he hl => ?_⟩
  · rw [h.groups]
    exact hs.groupIds
  · rw [h.links] at hl
    rw [LinkSound, h.groups]
    exact hs.links l hl
  · rw [hrows]
    exact nodup_map_append_singleton hs.recomputationIds hfree
  rw [h.groups] at hg
  rw [isLinked, h.links] at hl
  by_cases hsame : g.key.scope = scope
  · obtain ⟨i, hi, hb⟩ | ha := hc g hg hsame hl
    · refine .inr ⟨r, ?_, ?_, hscope.trans hsame.symm, i, ?_, hb.trans hbehavior.symm⟩
      · rw [hrows]
        exact mem_concat_self
      · rw [hstate]
        decide
      · rw [linkedItems, h.items, h.links]
        exact hi
    · exact .inr (hawaited g ha)
  · obtain hp | ha := hs.tracked g hg he hl
    · exact .inl ((groupPending_congr h.evaluations (h.version _ hsame)).trans hp)
    · exact .inr (hawaited g ha)

theorem Changed.steady (h : Changed scope behavior db db') (hs : Steady none db)
    (hc : ∀ r, behavior.map (fun b => (scope, b)) = some r → Covered db r.1 r.2) : Steady none db' := by
  obtain hk | ⟨b, rfl, ha⟩ := h
  · exact hk.steady hs
  · exact ha.steady hs (hc (scope, b) rfl)

section
variable [DecidableEq δ] (digest : RequestBody → δ)

theorem steady_transaction (hsound : Sound db) (hs : Steady none db) {request : Request} (hc : Covering db request) :
    Triple apply (· = db) (transaction digest request) fun _ => Steady none := by
  cases request with
  | createPolicy now scope _ policyId ids =>
    exact Triple.map (triple_ensureApplication.bind fun _ => triple_check.bind fun _ => triple_check.bind fun _ =>
      triple_underKey (triple_performCreate db now scope policyId ids)) fun _ _ h => h.steady hs hc.2
  | replacePolicy now scope policyId _ ids =>
    exact Triple.map (triple_check.bind fun _ => triple_check.bind fun _ =>
      triple_underKey (triple_performReplace db now scope policyId ids)) fun _ _ h => h.steady hs hc.2
  | setPolicyEnabled now scope policyId _ ids =>
    exact Triple.map (triple_check.bind fun _ =>
      triple_underKey (triple_performSetEnabled db now scope policyId ids)) fun _ _ h => h.steady hs hc.2
  | createSuppression =>
    exact Triple.map (triple_ensureApplication.bind fun _ => triple_check.bind fun _ => triple_check.bind fun _ =>
      triple_underKey triple_performSuppress) fun _ _ h => h.steady hs nofun
  | cancelSuppression =>
    exact Triple.map (triple_check.bind fun _ => triple_underKey triple_performCancel) fun _ _ h => h.steady hs nofun
  | ingest =>
    refine Triple.map (Triple.pre (P := Steady none) (seq ?_ fun closed => triple_persistEvents hc.1)
      fun _ h => h ▸ hs) fun _ _ h => h
    refine seq (triple_exec fun _ hp => hp) fun found => ?_
    cases found with
    | none => exact triple_fail
    | some => exact triple_return
  | recompute =>
    refine Triple.map (Triple.pre (P := fun db => Sound db ∧ Steady none db) (triple_test.seq fun _ =>
      triple_claimRecomputation.bind fun claimed => ?_) fun _ h => h ▸ ⟨hsound, hs⟩) fun _ _ h => h
    cases claimed with
    | none => exact triple_pure fun _ h => h.1
    | some operation => exact (triple_recomputeBatch.pre fun _ h => h.2 operation rfl).map fun _ _ h => h

theorem steady_serve (hs : Sound db ∧ Steady none db) {request : Request} (hc : Covering db request) :
    Sound (serve digest db request).2 ∧ Steady none (serve digest db request).2 := by
  rw [serve]
  split
  next db' h =>
    have hsound : Sound db' := (keeps_transaction digest request).alone hs.1 h
    exact ⟨hsound, (steady_transaction digest hs.1 hs.2 hc).alone db _ rfl h⟩
  next => exact hs

end

theorem steady_fresh {projects : List Project} {applications : List PolicyScope} :
    Steady none (Db.fresh projects applications : Db δ) where
  groupIds := nodup_nil
  links _ h := by cases h
  recomputationIds := nodup_nil
  tracked _ h := by cases h

theorem notificationEligibility_of_claimsCurrent {e : GroupEvaluation}
    (h : ClaimsCurrent db g e) (now : Int) : (notificationEligibility db now g).reason ≠ .evaluationPending := by
  have hcurrent : currentEvaluation db g = some e := by
    rw [currentEvaluation, h.stored]
    simp [h.stateVersion, h.evaluatorVersion]
  simp only [notificationEligibility, hcurrent]
  split
  · decide
  · split <;> decide

/-- In every run whose requests are covering: once every requested recomputation has completed, each
linked group has an evaluation as of today which is what the enabled current revisions say about a
behaviour of the group, and no group is held back as not evaluated. -/
theorem covering_runs_become_current [DecidableEq δ] (digest : RequestBody → δ) (projects : List Project)
    (applications : List PolicyScope) (requests : List Request)
    (h : Along (serve digest) Covering (Db.fresh projects applications) requests) :
    let db := (trace (serve digest) (Db.fresh projects applications) requests).2
    (∀ r ∈ db.recomputations, r.state = .completed) → ∀ g ∈ db.groups, isLinked db g →
      (∃ e, ClaimsCurrent db g e ∧ ∃ i ∈ linkedItems db g.id, e.evaluation.verdict =
        (evaluateScoped ⟨g.key.scope, i.key.behavior, g.key.placement⟩ (Db.candidates db g.key.scope)).verdict) ∧
      ∀ now, (notificationEligibility db now g).reason ≠ .evaluationPending := by
  intro db hdone g hg hl
  have hinv : Sound db ∧ Steady none db := trace_invariant_along
    (fun _ db => Sound db ∧ Steady none db) (fun _ _ _ hs hc => steady_serve digest hs hc)
    ⟨sound_fresh projects applications, steady_fresh⟩ h
  have hp : db.groupPending g = false := by
    obtain hp | ⟨r, hr, hstate, -⟩ := hinv.2.tracked g hg (by simp) hl
    · exact hp
    · exact absurd (hdone r hr) hstate
  rw [Db.groupPending] at hp
  split at hp
  · cases hp
  next e he =>
    -- an evaluation that is not stale claims to be current, and is sound
    obtain ⟨hmem, hid⟩ := get?_eq_some he
    obtain ⟨g', hg', i, hi, hid', -, hlink, hle, hright⟩ := hinv.1.evaluations e hmem
    obtain rfl := eq_of_key_eq hinv.1.groupIds hg' hg (hid'.trans hid)
    rw [Bool.or_eq_false_iff, decide_eq_false_iff_not, decide_eq_false_iff_not, not_not] at hp
    have hversion : e.policyStateVersion = db.version g'.key.scope := by omega
    have hcurrent : ClaimsCurrent db g' e := ⟨he, hversion, hp.2⟩
    refine ⟨⟨e, hcurrent, i, mem_linkedItems.mpr ⟨hi, _, hlink, rfl, rfl⟩, ?_⟩,
      notificationEligibility_of_claimsCurrent hcurrent⟩
    rw [hright hversion]

instance (db : Db δ) (g : Group) : Decidable (Awaited db g) :=
  inferInstanceAs (Decidable (∃ r ∈ db.recomputations, _))

instance (db : Db δ) (scope : PolicyScope) (behavior : BehaviorKey) : Decidable (Covered db scope behavior) :=
  inferInstanceAs (Decidable (∀ g ∈ db.groups, _ → _ → _ ∨ _))

instance (db : Db δ) (request : Request) : Decidable (Covering db request) :=
  inferInstanceAs (Decidable (_ ∧ ∀ r ∈ revisionOf db request, _))

def startUpPolicy (key policyId itemId : Nat) : Request :=
  .createPolicy 0 shop (some key) policyId ⟨policyId, policyId⟩
    ⟨"start-up", ⟨itemId, none, PlacementMatcher.unconstrained, .expected, none⟩⟩

/-- One process is observed and expected. -/
def startUpRun : List Request := [.ingest shop [startUp 1], startUpPolicy 7 30 20, .recompute 1 40 100]

theorem covering_runs_become_current_startUpRun :
    let db := (trace (serve id) (Db.fresh [⟨1, 1, none⟩] [shop]) startUpRun).2
    (∃ e, ClaimsCurrent db startUpGroup e ∧ ∃ i ∈ linkedItems db startUpGroup.id, e.evaluation.verdict =
      (evaluateScoped ⟨startUpGroup.key.scope, i.key.behavior, startUpGroup.key.placement⟩
        (Db.candidates db startUpGroup.key.scope)).verdict) ∧
      ∀ now, (notificationEligibility db now startUpGroup).reason ≠ .evaluationPending :=
  covering_runs_become_current id [⟨1, 1, none⟩] [shop] startUpRun (by decide +kernel) (by decide +kernel) startUpGroup
    (by decide +kernel) (by decide +kernel)

/-- An event of another process at the same place. -/
def sideCar : Observation :=
  { startUp 2 with
    fingerprintDigest := ByteVec.fill 32 3
    identityDigest := ByteVec.fill 32 4
    groupId := 12
    itemId := 22 }

def sideCarGroup : Group := ⟨12, sideCar.groupKey shop⟩

/-- Both processes are observed and expected, one after the other. -/
def twoProcessesRun : List Request :=
  [.ingest shop [startUp 1, sideCar], startUpPolicy 7 30 22, .recompute 1 40 100, startUpPolicy 8 31 20,
    .recompute 2 40 100, .recompute 3 40 100]

/-- The second policy makes the evaluation of the first process stale for good: no recomputation is
left, the process is expected, and its group is held back as not evaluated. -/
theorem second_policy_leaves_group_stale :
    let db : Db RequestBody := (trace (serve id) (Db.fresh [⟨1, 1, none⟩] [shop]) twoProcessesRun).2
    (∀ r ∈ db.recomputations, r.state = .completed) ∧ sideCarGroup ∈ db.groups ∧
      linkedItems db sideCarGroup.id = [⟨22, sideCar.itemKey shop, true⟩] ∧
      (get? GroupEvaluation.groupId sideCarGroup.id db.groupEvaluations).map GroupEvaluation.policyStateVersion = some 1 ∧
      db.version shop = 2 ∧
      (evaluateScoped ⟨shop, (sideCar.itemKey shop).behavior, sideCar.placement⟩ (Db.candidates db shop)).verdict =
        .expected ∧
      (notificationEligibility db 4 sideCarGroup).reason = .evaluationPending := by
  decide +kernel

end Okoscope.Server.PolicyConvergence
