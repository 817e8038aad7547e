import Okoscope.Lib.Paging
import Okoscope.Server.PolicyTables

/-!
# Listings of policies, revisions and suppressions

Each is read in pages by id: policies upwards, revisions and suppressions downwards.
A page fetches one row too many to see whether there are more, drops it and gives its
id as the cursor, and the next page starts after the cursor. The row that was dropped
is on neither page. The principal has passed the access check of the project.
-/
namespace Okoscope.Server.PolicyListings

open Lib.Paging Lib.Table
open Policy PolicyTables List

structure PageQuery where
  cursor : Option Nat
  limit : Option Int

structure SuppressionQuery where
  cursor : Option Nat
  limit : Option Int
  active : Option Bool

def pageLimit (value : Option Int) : Except Failure Nat :=
  let value := value.getD 50
  if 1 ≤ value ∧ value ≤ 200 then .ok value.toNat else .error (.invalid "limit must be between 1 and 200")

/-- Tables in which every id is of one row. -/
structure Tables (δ : Type) where
  db : Db δ
  policyIds : (db.policies.map Policy.id).Nodup
  revisionIds : (db.revisions.map Revision.id).Nodup
  suppressionIds : (db.suppressions.map Suppression.id).Nodup

/-- A policy with its current revision. -/
structure PolicySummary where
  policy : Policy
  revision : Option Revision
  deriving DecidableEq

def PolicySummary.id (s : PolicySummary) : Nat := s.policy.id

/-- Ids from the highest down. -/
def descending (id : Nat) : Natᵒᵈ := OrderDual.toDual id

section
variable {δ : Type}

/-! ## Queries -/

def summary (db : Db δ) (p : Policy) : PolicySummary where
  policy := p
  revision := p.currentRevisionId.bind fun id => get? Revision.id id db.revisions

def ofScope (scope : PolicyScope) (p : Policy) : Bool := p.scope = scope

def ofPolicy (scope : PolicyScope) (policyId : Nat) (r : Revision) : Bool := r.scope = scope && r.policyId = policyId

def ofActivity (scope : PolicyScope) (active : Option Bool) (now : Int) (s : Suppression) : Bool :=
  s.scope = scope && active.all fun active => active = (s.cancelledAt.isNone && now < s.expiresAt)

def page (db : Db δ) (scope : PolicyScope) (cursor : Option Nat) (fetchLimit : Nat) : List PolicySummary :=
  (rowsAfter Policy.id (ofScope scope) cursor fetchLimit db.policies).map (summary db)

def revisionPage (db : Db δ) (scope : PolicyScope) (policyId : Nat) (cursor : Option Nat) (fetchLimit : Nat) :
    List Revision :=
  rowsAfter (fun r => descending r.id) (ofPolicy scope policyId) (cursor.map descending) fetchLimit db.revisions

def suppressionPage (db : Db δ) (scope : PolicyScope) (cursor : Option Nat) (active : Option Bool) (now : Int)
    (fetchLimit : Nat) : List Suppression :=
  rowsAfter (fun s => descending s.id) (ofActivity scope active now) (cursor.map descending) fetchLimit db.suppressions

/-! ## Listings -/

def ensureApplication (db : Db δ) (scope : PolicyScope) : Except Failure Unit :=
  if db.applications.contains scope then .ok () else .error .notFound

def getPolicy (db : Db δ) (scope : PolicyScope) (policyId : Nat) : Except Failure PolicySummary :=
  match db.policies.find? fun p => p.scope = scope && p.id = policyId with
  | some p => .ok (summary db p)
  | none => .error .notFound

def listPolicies (db : Db δ) (scope : PolicyScope) (query : PageQuery) :
    Except Failure (List PolicySummary × Option Nat) := do
  ensureApplication db scope
  let limit ← pageLimit query.limit
  pure (cutPopped limit PolicySummary.id (page db scope query.cursor (limit + 1)))

/-- A policy without revisions must still exist. -/
def existing (db : Db δ) (scope : PolicyScope) (policyId : Nat) (items : List Revision) : Except Failure Unit :=
  if items.isEmpty then (getPolicy db scope policyId).map fun _ => () else .ok ()

def listRevisions (db : Db δ) (scope : PolicyScope) (policyId : Nat) (query : PageQuery) :
    Except Failure (List Revision × Option Nat) := do
  let limit ← pageLimit query.limit
  let items := revisionPage db scope policyId query.cursor (limit + 1)
  existing db scope policyId items
  pure (cutPopped limit Revision.id items)

def listSuppressions (db : Db δ) (scope : PolicyScope) (now : Int) (query : SuppressionQuery) :
    Except Failure (List Suppression × Option Nat) := do
  ensureApplication db scope
  let limit ← pageLimit query.limit
  pure (cutPopped limit Suppression.id (suppressionPage db scope query.cursor query.active now (limit + 1)))

/-! ## Following the cursors -/

/-- The policies of an application by id. -/
def policiesOf (db : Db δ) (scope : PolicyScope) : List Policy :=
  inOrder Policy.id (db.policies.filter (ofScope scope))

/-- The revisions of a policy by id, from the highest down. -/
def revisionsOf (db : Db δ) (scope : PolicyScope) (policyId : Nat) : List Revision :=
  inOrder (fun r => descending r.id) (db.revisions.filter (ofPolicy scope policyId))

/-- The suppressions of an application by id, from the highest down, all or those that are or are not
active. -/
def suppressionsOf (db : Db δ) (scope : PolicyScope) (active : Option Bool) (now : Int) : List Suppression :=
  inOrder (fun s => descending s.id) (db.suppressions.filter (ofActivity scope active now))

theorem nodup_descending {ρ : Type} {rows : List ρ} {idOf : ρ → Nat} (h : (rows.map idOf).Nodup) :
    (rows.map fun r => descending (idOf r)).Nodup := by
  have hdual := h.map OrderDual.toDual.injective
  rw [map_map] at hdual
  exact hdual

section
variable (t : Tables δ) {scope : PolicyScope} {limit : Option Int} {n : Nat}

theorem existing_of_policy {db : Db δ} {policyId : Nat}
    (h : (db.policies.any fun p => p.scope = scope && p.id = policyId)) (items : List Revision) :
    existing db scope policyId items = .ok () := by
  rw [existing, getPolicy]
  split
  · obtain ⟨_, hp⟩ := Option.isSome_iff_exists.mp (find?_isSome.trans any_eq_true.symm |>.mpr h)
    rw [hp]
    rfl
  · rfl

/-- For all tables and every accepted limit: following the cursors gives every policy of an
application, every revision of a policy and every suppression of an application, each once and in the
order of the listing, exactly if there are no more than the limit. -/
theorem policy_listings_complete_iff (policyId : Nat) (active : Option Bool) (now : Int)
    (happlication : t.db.applications.contains scope) (hn : pageLimit limit = .ok n) :
    (Pages (fun cursor => listPolicies t.db scope ⟨cursor, limit⟩) none ((policiesOf t.db scope).map (summary t.db)) ↔
        (policiesOf t.db scope).length ≤ n) ∧
      ((t.db.policies.any fun p => p.scope = scope && p.id = policyId) →
        (Pages (fun cursor => listRevisions t.db scope policyId ⟨cursor, limit⟩) none (revisionsOf t.db scope policyId) ↔
          (revisionsOf t.db scope policyId).length ≤ n)) ∧
      (Pages (fun cursor => listSuppressions t.db scope now ⟨cursor, limit, active⟩) none
          (suppressionsOf t.db scope active now) ↔ (suppressionsOf t.db scope active now).length ≤ n) := by
  refine ⟨?_, ?_, ?_⟩
  · refine pages_popped_iff PolicySummary.id (fun _ => rfl) ?_
    refine walks_rowsAfter id (fun l => cutPopped n PolicySummary.id (l.map (summary t.db))) t.policyIds
      (fun _ => rfl) fun cursor => ?_
    rw [listPolicies, ensureApplication, if_pos happlication, hn, Option.map_id]
    rfl
  · intro hpolicy
    rw [← map_id (revisionsOf t.db scope policyId)]
    refine (pages_popped_iff Revision.id (fun _ => rfl) ?_).trans (by rw [map_id])
    refine walks_rowsAfter descending (fun l => cutPopped n Revision.id (l.map id)) (nodup_descending t.revisionIds)
      (fun _ => rfl) fun cursor => ?_
    rw [listRevisions, hn]
    show (existing t.db scope policyId _ >>= fun _ => _) = _
    rw [existing_of_policy hpolicy, map_id]
    rfl
  · rw [← map_id (suppressionsOf t.db scope active now)]
    refine (pages_popped_iff Suppression.id (fun _ => rfl) ?_).trans (by rw [map_id])
    refine walks_rowsAfter descending (fun l => cutPopped n Suppression.id (l.map id))
      (nodup_descending t.suppressionIds) (fun _ => rfl) fun cursor => ?_
    rw [listSuppressions, ensureApplication, if_pos happlication, hn, map_id]
    rfl

end

end

/-! ### Three rows of each -/

def application : PolicyScope := ⟨1, 1, 1⟩

def revisionOf (id number : Nat) : Revision where
  id
  policyId := 1
  scope := application
  revisionNumber := number
  priorRevisionId := none
  enabled := true
  kind := .process
  behavior := ⟨1, Okoscope.Lib.Bytes.ByteVec.fill 32 0⟩
  placement := ⟨∅, ∅, ∅, ∅⟩
  insideEffect := .expected
  outsideEffect := none
  sourceInventoryItemId := 1
  sourceRuntimeGroupId := none

def suppressionOf (id : Nat) : Suppression where
  id
  scope := application
  kind := .process
  behavior := ⟨1, Okoscope.Lib.Bytes.ByteVec.fill 32 0⟩
  placement := ⟨∅, ∅, ∅, ∅⟩
  reason := "maintenance"
  expiresAt := 100
  cancelledAt := none
  sourceInventoryItemId := 1
  sourceRuntimeGroupId := none
  createdAt := 0

def threeOfEach : Tables Unit where
  db := { Db.fresh [⟨1, 1, none⟩] [application] with
    policies := [⟨1, application, "a", some 13⟩, ⟨2, application, "b", none⟩, ⟨3, application, "c", none⟩]
    revisions := [revisionOf 11 1, revisionOf 12 2, revisionOf 13 3]
    suppressions := [suppressionOf 21, suppressionOf 22, suppressionOf 23] }
  policyIds := by decide
  revisionIds := by decide
  suppressionIds := by decide

theorem policy_listings_complete_iff_threeOfEach :
    Pages (fun cursor => listRevisions threeOfEach.db application 1 ⟨cursor, some 3⟩) none
        (revisionsOf threeOfEach.db application 1) ∧
      Pages (fun cursor => listSuppressions threeOfEach.db application 0 ⟨cursor, some 3, some true⟩) none
        (suppressionsOf threeOfEach.db application (some true) 0) := by
  have hn : pageLimit (some 3) = .ok 3 := rfl
  obtain ⟨-, hrevisions, hsuppressions⟩ :=
    policy_listings_complete_iff threeOfEach 1 (some true) 0
      (show threeOfEach.db.applications.contains application from by decide +kernel) hn
  exact ⟨(hrevisions (by decide +kernel)).mpr (by decide +kernel), hsuppressions.mpr (by decide +kernel)⟩

/-- One at a time, the second row of each listing is on no page. -/
theorem second_rows_lost : ¬ Pages (fun cursor => listPolicies threeOfEach.db application ⟨cursor, some 1⟩) none
        ((policiesOf threeOfEach.db application).map (summary threeOfEach.db)) ∧
      ¬ Pages (fun cursor => listRevisions threeOfEach.db application 1 ⟨cursor, some 1⟩) none
        (revisionsOf threeOfEach.db application 1) ∧
      ¬ Pages (fun cursor => listSuppressions threeOfEach.db application 0 ⟨cursor, some 1, none⟩) none
        (suppressionsOf threeOfEach.db application none 0) := by
  have hpolicies : Pages (fun cursor => listPolicies threeOfEach.db application ⟨cursor, some 1⟩) none
      ([⟨⟨1, application, "a", some 13⟩, some (revisionOf 13 3)⟩] ++ [⟨⟨3, application, "c", none⟩, none⟩]) :=
    .more (k := 2) (by decide +kernel) (.last (by decide +kernel))
  have hrevisions : Pages (fun cursor => listRevisions threeOfEach.db application 1 ⟨cursor, some 1⟩) none
      ([revisionOf 13 3] ++ [revisionOf 11 1]) :=
    .more (k := 12) (by decide +kernel) (.last (by decide +kernel))
  have hsuppressions : Pages (fun cursor => listSuppressions threeOfEach.db application 0 ⟨cursor, some 1, none⟩) none
      ([suppressionOf 23] ++ [suppressionOf 21]) :=
    .more (k := 22) (by decide +kernel) (.last (by decide +kernel))
  refine ⟨fun h => ?_, fun h => ?_, fun h => ?_⟩
  · have hall := h.unique hpolicies
    revert hall
    decide +kernel
  · have hall := h.unique hrevisions
    revert hall
    decide +kernel
  · have hall := h.unique hsuppressions
    revert hall
    decide +kernel

end Okoscope.Server.PolicyListings
