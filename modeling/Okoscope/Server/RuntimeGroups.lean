import Okoscope.Lib.Paging
import Okoscope.Server.PolicyConvergence
import Okoscope.Server.ProjectAccess

/-!
# Runtime groups of an application

The groups of an application are listed in pages, most recently seen first. The
filters on columns are part of the query; those on the policy state of a group are
applied to the page that was fetched, and whether there is a next page is decided
after that. Groups after one that was left out may therefore never be listed.
-/
namespace Okoscope.Server.RuntimeGroups

open Lib.Paging Lib.Table
open Policy PolicyConcurrency PolicyConvergence
open PolicyTables (Group GroupEvaluation Suppression)
open ProjectAccess List

inductive RuntimeGroupFailure where
  | invalid (message : String)
  | notFound
  deriving DecidableEq

structure ListQuery where
  projectId : Nat
  applicationId : Nat
  eventKind : Option String
  status : Option String
  «namespace» : Option String
  workloadKind : Option String
  workloadName : Option String
  since : Option Int
  firstSeenFrom : Option Int
  firstSeenTo : Option Int
  lastSeenTo : Option Int
  releaseId : Option Nat
  verdict : Option String
  suppressed : Option Bool
  evaluationPending : Option Bool
  cursor : Option Nat
  limit : Option Int

/-! ## Tables -/

structure GroupRow where
  group : Group
  eventKind : String
  status : String
  firstSeenAt : Int
  firstSeenEventId : Option Nat
  lastSeenAt : Int
  occurrenceCount : Nat
  representativeEventId : Option Nat
  statusChangedAt : Option Int
  statusChangedBy : Option Nat
  deriving DecidableEq

def GroupRow.id (r : GroupRow) : Nat := r.group.id

/-- What the listing reads: the groups with their releases, and the policies, suppressions and
evaluations of the applications. -/
structure Db (δ : Type) where
  /-- The organization and the id of each project. -/
  projects : List (Nat × Nat)
  memberships : List ProjectMembership
  policy : PolicyTables.Db δ
  groups : List GroupRow
  /-- A group and a release it was seen in. -/
  groupReleases : List (Nat × Nat)
  groupIds : (groups.map GroupRow.id).Nodup

/-- What groups are listed by; the later ones come first. -/
def GroupRow.position (r : GroupRow) : (Int ×ₗ Nat)ᵒᵈ := OrderDual.toDual (toLex (r.lastSeenAt, r.id))

structure SuppressionSummary where
  id : Nat
  reason : String
  expiresAt : Int
  createdAt : Int
  deriving DecidableEq

/-- A group with its policy state; there is no evaluation while one is pending. -/
structure GroupSummary where
  row : GroupRow
  policyEvaluation : Option Evaluation
  activeSuppression : Option SuppressionSummary
  actionable : Bool
  deriving DecidableEq

def GroupSummary.id (s : GroupSummary) : Nat := s.row.id

def verdictText : PolicyVerdict → String
  | .unclassified => "unclassified"
  | .expected => "expected"
  | .requiresReview => "requires_review"
  | .policyConflict => "policy_conflict"

def GroupSummary.verdict (s : GroupSummary) : Option String := s.policyEvaluation.map fun e => verdictText e.verdict

def GroupSummary.state (s : GroupSummary) : String :=
  if s.policyEvaluation.isSome then "current" else "evaluation_pending"

section
variable {δ : Type}

/-- The suppression of a group that constrains most, and of those the one that ends first. -/
def Db.suppressionOf (db : Db δ) (now : Int) (g : Group) : Option Suppression :=
  ((db.policy.suppressions.filter fun x => x.cancelledAt.isNone && now < x.expiresAt &&
      x.placement.matches g.key.placement && (linkedItems db.policy g.id).any fun i =>
        i.key.scope = x.scope && i.key.behavior = x.behavior).insertionSort fun a b =>
    b.placement.specificity.constrainedDimensions < a.placement.specificity.constrainedDimensions ∨
      (b.placement.specificity.constrainedDimensions = a.placement.specificity.constrainedDimensions ∧
        (a.expiresAt < b.expiresAt ∨ (a.expiresAt = b.expiresAt ∧ a.id ≤ b.id)))).head?

def Db.attachGroupPolicy (db : Db δ) (now : Int) (row : GroupRow) : GroupSummary :=
  let suppression := db.suppressionOf now row.group
  let evaluation := (currentEvaluation db.policy row.group).map (·.evaluation)
  { row
    policyEvaluation := evaluation
    activeSuppression := suppression.map fun x => ⟨x.id, x.reason, x.expiresAt, x.createdAt⟩
    actionable := suppression.isNone && evaluation.all fun e => e.verdict ≠ .expected }

/-- The conditions of the query on the columns of a group. -/
def Db.columnsMatch (db : Db δ) (organizationId : Nat) (query : ListQuery) (r : GroupRow) : Bool :=
  r.group.key.scope = ⟨organizationId, query.projectId, query.applicationId⟩ &&
    query.eventKind.all (fun x => r.eventKind = x) && query.status.all (fun x => r.status = x) &&
    query.namespace.all (fun x => r.group.key.placement.namespace = x) &&
    query.workloadKind.all (fun x => r.group.key.placement.workloadKind = x) &&
    query.workloadName.all (fun x => r.group.key.placement.workloadName = x) &&
    query.since.all (fun x => x ≤ r.lastSeenAt) && query.firstSeenFrom.all (fun x => x ≤ r.firstSeenAt) &&
    query.firstSeenTo.all (fun x => r.firstSeenAt ≤ x) && query.lastSeenTo.all (fun x => r.lastSeenAt ≤ x) &&
    query.releaseId.all (fun x => db.groupReleases.contains (r.id, x))

def Db.summaryPage (db : Db δ) (organizationId : Nat) (query : ListQuery) (cursor : Option (Int ×ₗ Nat)ᵒᵈ)
    (fetchLimit : Nat) : List GroupRow :=
  rowsAfter GroupRow.position (db.columnsMatch organizationId query) cursor fetchLimit db.groups

def Db.listCursor (db : Db δ) (organizationId : Nat) (query : ListQuery) (groupId : Nat) : Option (Int ×ₗ Nat)ᵒᵈ :=
  (db.groups.find? fun r => r.id = groupId &&
    r.group.key.scope = ⟨organizationId, query.projectId, query.applicationId⟩).map GroupRow.position

/-! ## The listing -/

def validateListFilters (query : ListQuery) : Except RuntimeGroupFailure Nat :=
  let limit := query.limit.getD 50
  if ¬ (1 ≤ limit ∧ limit ≤ 200) then .error (.invalid "limit must be between 1 and 200")
  else if query.status.any fun s => ¬ ["open", "acknowledged", "resolved"].contains s then
    .error (.invalid "unsupported status")
  else if query.verdict.any fun v =>
      ¬ ["unclassified", "expected", "requires_review", "policy_conflict"].contains v then
    .error (.invalid "unsupported policy verdict")
  else .ok limit.toNat

/-- The conditions of the query on the policy state of a group. -/
def policyMatches (query : ListQuery) (s : GroupSummary) : Bool :=
  query.verdict.all (fun verdict => s.verdict = some verdict) &&
    query.suppressed.all (fun suppressed => s.activeSuppression.isSome = suppressed) &&
    query.evaluationPending.all fun pending => (s.state == "evaluation_pending") = pending

def Db.ensureApplication (db : Db δ) (organizationId : Nat) (query : ListQuery) : Except RuntimeGroupFailure Unit :=
  if db.policy.applications.contains ⟨organizationId, query.projectId, query.applicationId⟩ then .ok ()
  else .error .notFound

/-- The organization of a project that the principal may see. -/
def Db.projectOrganization (db : Db δ) (principal : IdentityPrincipal) (projectId : Nat) :
    Except RuntimeGroupFailure Nat :=
  match projectScope db.projects db.memberships principal projectId with
  | some scope => .ok scope.organizationId
  | none => .error .notFound

def listGroups (db : Db δ) (principal : IdentityPrincipal) (now : Int) (query : ListQuery) :
    Except RuntimeGroupFailure (List GroupSummary × Option Nat) := do
  let organizationId ← db.projectOrganization principal query.projectId
  db.ensureApplication organizationId query
  let limit ← validateListFilters query
  let cursor := query.cursor.bind (db.listCursor organizationId query)
  if query.cursor.isSome && cursor.isNone then .error (.invalid "cursor does not exist in this scope")
  else
    let items := (db.summaryPage organizationId query cursor (limit + 1)).map (db.attachGroupPolicy now)
    pure (cut limit GroupSummary.id (items.filter (policyMatches query)))

/-! ## Following the cursors -/

/-- The groups that meet the conditions on columns, most recently seen first. -/
def Db.columnMatches (db : Db δ) (organizationId : Nat) (query : ListQuery) : List GroupRow :=
  inOrder GroupRow.position (db.groups.filter (db.columnsMatch organizationId query))

/-- A group with its policy state, if that meets the conditions on it. -/
def Db.listed (db : Db δ) (now : Int) (query : ListQuery) (r : GroupRow) : Option GroupSummary :=
  if policyMatches query (db.attachGroupPolicy now r) then some (db.attachGroupPolicy now r) else none

/-- The groups that meet all conditions, each once and most recently seen first. -/
def Db.matchingGroups (db : Db δ) (organizationId : Nat) (now : Int) (query : ListQuery) : List GroupSummary :=
  ((db.columnMatches organizationId query).map (db.attachGroupPolicy now)).filter (policyMatches query)

theorem Db.positions {db : Db δ} : (db.groups.map GroupRow.position).Nodup :=
  List.Nodup.of_map (fun k => (ofLex (OrderDual.ofDual k)).2) (by rw [map_map]; exact db.groupIds)

theorem Db.filter_map_attachGroupPolicy {db : Db δ} {now : Int} {query : ListQuery} {rows : List GroupRow} :
    (rows.map (db.attachGroupPolicy now)).filter (policyMatches query) = rows.filterMap (db.listed now query) := by
  induction rows with
  | nil => rfl
  | cons _ _ ih =>
    rw [map_cons, filter_cons, filterMap_cons, ih, Db.listed]
    split <;> rfl

theorem validateListFilters_pos {query : ListQuery} {n : Nat} (h : validateListFilters query = .ok n) : 0 < n := by
  rw [validateListFilters] at h
  split_ifs at h with hrange
  cases h
  omega

theorem Db.listCursor_of_mem {db : Db δ} {organizationId : Nat} {query : ListQuery} {r : GroupRow}
    (h : r ∈ db.columnMatches organizationId query) : db.listCursor organizationId query r.id = some r.position := by
  rw [Db.columnMatches, inOrder, mem_insertionSort, mem_filter] at h
  obtain ⟨hr, hcolumns⟩ := h
  have hscope : r.group.key.scope = ⟨organizationId, query.projectId, query.applicationId⟩ := by
    simp only [Db.columnsMatch, Bool.and_eq_true, decide_eq_true_eq] at hcolumns
    tauto
  have hfind : db.groups.find? (fun q => q.id = r.id &&
      q.group.key.scope = ⟨organizationId, query.projectId, query.applicationId⟩) = some r :=
    find?_of_mem db.groupIds hr (by simpa using hscope) fun q hq => by simp at hq; exact hq.1
  rw [Db.listCursor, hfind]
  rfl

section
variable {db : Db δ} {principal : IdentityPrincipal} {query : ListQuery} {organizationId n : Nat}

section
variable (hproject : db.projectOrganization principal query.projectId = .ok organizationId)
  (happlication : db.ensureApplication organizationId query = .ok ()) (hn : validateListFilters query = .ok n)
  (now : Int)
include hproject happlication hn

theorem walks_listGroups :
    Walks (fun cursor => listGroups db principal now { query with cursor }) (db.columnMatches organizationId query)
      GroupRow.id fun l => cut n GroupSummary.id ((l.take (n + 1)).filterMap (db.listed now query)) := by
  refine walks_lookup (db.listCursor organizationId query)
    (fun l => cut n GroupSummary.id (l.filterMap (db.listed now query))) db.positions (fun r => db.listCursor_of_mem)
    fun cursor hfound => ?_
  have hproject' : db.projectOrganization principal { query with cursor }.projectId = .ok organizationId := hproject
  have happlication' : db.ensureApplication organizationId { query with cursor } = .ok () := happlication
  have hn' : validateListFilters { query with cursor } = .ok n := hn
  have hfound' : ({ query with cursor }.cursor.isSome &&
      ({ query with cursor }.cursor.bind (db.listCursor organizationId { query with cursor })).isNone) = false := hfound
  rw [listGroups, hproject']
  show (do db.ensureApplication organizationId { query with cursor }; _) = _
  rw [happlication']
  rw [hn']
  show (if _ then _ else _) = _
  rw [hfound', Db.summaryPage, ← Db.filter_map_attachGroupPolicy]
  rfl

end

end

/-- For every set of groups and every accepted query: following the cursors gives the groups that meet
all conditions, each once and most recently seen first, exactly if among the groups that meet those on
columns none that meets those on the policy state comes after the page on which the first is fetched
that does not. -/
theorem listGroups_complete_iff (db : Db δ) (principal : IdentityPrincipal) (now : Int) (query : ListQuery)
    {organizationId n : Nat} (hproject : db.projectOrganization principal query.projectId = .ok organizationId)
    (happlication : db.ensureApplication organizationId query = .ok ()) (hn : validateListFilters query = .ok n) :
    let candidates := db.columnMatches organizationId query
    Pages (fun cursor => listGroups db principal now { query with cursor }) none
        (db.matchingGroups organizationId now query) ↔
      ∀ r ∈ candidates.drop (reach n (leading (db.listed now query) candidates)),
        policyMatches query (db.attachGroupPolicy now r) = false := by
  rw [Db.matchingGroups, Db.filter_map_attachGroupPolicy]
  refine (pages_filtered_iff (validateListFilters_pos hn) (fun r s h => ?_)
    (walks_listGroups hproject happlication hn now)).trans ?_
  · rw [Db.listed] at h
    split_ifs at h
    cases h
    rfl
  · refine forall₂_congr fun r _ => ?_
    rw [Db.listed]
    split_ifs with hmatch <;> simp [hmatch]

end

/-! ### Three groups, of which the one seen first is evaluated -/

def groupSeenAt (id : Nat) (lastSeenAt : Int) : GroupRow where
  group := ⟨id, ⟨shop, ⟨1, "default", "Deployment", "shop"⟩, 1, Okoscope.Lib.Bytes.ByteVec.fill 32 (UInt8.ofNat id)⟩⟩
  eventKind := "process.exec"
  status := "open"
  firstSeenAt := 0
  firstSeenEventId := none
  lastSeenAt
  occurrenceCount := 1
  representativeEventId := none
  statusChangedAt := none
  statusChangedBy := none

def threeGroups : Db Unit where
  projects := [(1, 1)]
  memberships := []
  policy := { PolicyTables.Db.fresh [⟨1, 1, none⟩] [shop] with
    groupEvaluations := [⟨shop, 3, 0, 1, ⟨.unclassified, .noMatchingPolicy, none, none, []⟩⟩] }
  groups := [groupSeenAt 1 30, groupSeenAt 2 20, groupSeenAt 3 10]
  groupReleases := []
  groupIds := by decide

def owner : IdentityPrincipal := ⟨7, some 1, some .owner, false⟩

/-- The groups that are evaluated, so many at a time. -/
def evaluatedQuery (limit : Int) : ListQuery where
  projectId := 1
  applicationId := 1
  eventKind := none
  status := none
  «namespace» := none
  workloadKind := none
  workloadName := none
  since := none
  firstSeenFrom := none
  firstSeenTo := none
  lastSeenTo := none
  releaseId := none
  verdict := none
  suppressed := none
  evaluationPending := some false
  cursor := none
  limit := some limit

/-- Two at a time, the third group is fetched with the first page already. -/
theorem listGroups_complete_iff_threeGroups :
    Pages (fun cursor => listGroups threeGroups owner 0 { evaluatedQuery 2 with cursor }) none
      (threeGroups.matchingGroups 1 0 (evaluatedQuery 2)) :=
  have hn : validateListFilters (evaluatedQuery 2) = .ok 2 := by decide +kernel
  (listGroups_complete_iff threeGroups owner 0 (evaluatedQuery 2) (by decide +kernel) (by decide +kernel) hn).mpr
    (by decide +kernel)

/-- One at a time, the first page shows nothing and has no cursor. -/
theorem evaluated_group_never_listed :
    ¬ Pages (fun cursor => listGroups threeGroups owner 0 { evaluatedQuery 1 with cursor }) none
      (threeGroups.matchingGroups 1 0 (evaluatedQuery 1)) := by
  have hfirst : listGroups threeGroups owner 0 { evaluatedQuery 1 with cursor := none } = .ok ([], none) := by
    decide +kernel
  intro h
  have hall := h.unique (.last hfirst)
  revert hall
  decide +kernel

end Okoscope.Server.RuntimeGroups
