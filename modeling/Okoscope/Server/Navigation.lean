import Okoscope.Lib.Paging
import Okoscope.Lib.Table
import Okoscope.Server.Policy
import Okoscope.Server.ProjectAccess

/-!
# Projects of an organization

A member reads the projects they can see in pages, oldest first. A page is fetched
before it is known which of its projects the member can see, and whether there is a
next page is decided after the others were left out. Projects after a hidden one may
therefore never be shown.
-/
namespace Okoscope.Server.Navigation

open Lib.Paging Lib.Table
open Policy (PolicyScope)
open ProjectAccess

inductive NavigationFailure where
  | invalid (message : String)
  | notFound
  deriving DecidableEq

structure PageQuery where
  cursor : Option Nat
  limit : Option Int

def pageLimit (limit : Option Int) : Except NavigationFailure Nat :=
  let limit := limit.getD 50
  if 1 ≤ limit ∧ limit ≤ 200 then .ok limit.toNat else .error (.invalid "limit must be between 1 and 200")

/-! ## Tables -/

structure Project where
  id : Nat
  organizationId : Nat
  slug : String
  name : String
  createdAt : Int
  archivedAt : Option Int

/-- What the listing reads. -/
structure Db where
  projects : List Project
  memberships : List ProjectMembership
  applications : List PolicyScope
  /-- The application of each runtime group. -/
  groups : List PolicyScope
  projectIds : (projects.map Project.id).Nodup

structure Capabilities where
  managePlatform : Bool
  manageOrganization : Bool
  createProject : Bool
  manageProjectMembers : Bool
  createApplication : Bool
  manageCredentials : Bool
  organizationRolesGrantable : List String
  projectRolesGrantable : List String
  deriving DecidableEq

structure ProjectSummary where
  id : Nat
  slug : String
  name : String
  createdAt : Int
  archivedAt : Option Int
  applicationCount : Nat
  runtimeGroupCount : Nat
  effectiveProjectRole : Option ProjectRole
  effectiveAccessSource : Option String
  capabilities : Option Capabilities
  deriving DecidableEq

/-- What projects are listed by. -/
def Project.position (p : Project) : Int ×ₗ Nat := toLex (p.createdAt, p.id)

def Db.summary (db : Db) (p : Project) : ProjectSummary where
  id := p.id
  slug := p.slug
  name := p.name
  createdAt := p.createdAt
  archivedAt := p.archivedAt
  applicationCount := db.applications.countP fun a => a.organizationId = p.organizationId && a.projectId = p.id
  runtimeGroupCount := db.groups.countP fun g => g.organizationId = p.organizationId && g.projectId = p.id
  effectiveProjectRole := none
  effectiveAccessSource := none
  capabilities := none

def Db.projectPage (db : Db) (organizationId : Nat) (cursor : Option (Int ×ₗ Nat)) (fetchLimit : Nat) :
    List ProjectSummary :=
  (rowsAfter Project.position (fun p => p.organizationId = organizationId) cursor fetchLimit db.projects).map db.summary

def Db.projectCursor (db : Db) (organizationId projectId : Nat) : Option (Int ×ₗ Nat) :=
  (db.projects.find? fun p => p.organizationId = organizationId && p.id = projectId).map Project.position

/-! ## The listing -/

def scopedCapabilities (role : ProjectRole) (organizationAdmin : Bool) : Capabilities :=
  let projectAdmin := role = .admin
  { managePlatform := false
    manageOrganization := organizationAdmin
    createProject := organizationAdmin
    manageProjectMembers := projectAdmin
    createApplication := projectAdmin
    manageCredentials := projectAdmin
    organizationRolesGrantable := if organizationAdmin then ["owner", "admin", "member"] else []
    projectRolesGrantable :=
      if organizationAdmin then ["admin", "member"] else if projectAdmin then ["member"] else [] }

def applyProjectAccess (item : ProjectSummary) (role : ProjectRole) (source : String) (organizationAdmin : Bool) :
    ProjectSummary :=
  { item with
    effectiveProjectRole := some role
    effectiveAccessSource := some source
    capabilities := some (scopedCapabilities role organizationAdmin) }

/-- A project with the principal's role in it, if there is one. -/
def Db.visible (db : Db) (principal : UserPrincipal) (item : ProjectSummary) : Option ProjectSummary :=
  (memberProjectRole db.memberships principal item.id).map fun access =>
    applyProjectAccess item access.1 access.2 principal.role.inheritsProjectAccess

def projects (db : Db) (principal : UserPrincipal) (query : PageQuery) :
    Except NavigationFailure (List ProjectSummary × Option Nat) := do
  let limit ← pageLimit query.limit
  let cursor := query.cursor.bind (db.projectCursor principal.organizationId)
  if query.cursor.isSome && cursor.isNone then .error (.invalid "cursor is outside this scope")
  else
    let items := db.projectPage principal.organizationId cursor (limit + 1)
    pure (cut limit ProjectSummary.id (items.filterMap (db.visible principal)))

/-! ## Following the cursors -/

/-- The projects of the organization, oldest first. -/
def Db.organizationProjects (db : Db) (organizationId : Nat) : List Project :=
  inOrder Project.position (db.projects.filter fun p => p.organizationId = organizationId)

/-- The projects that the principal has a role in, each once and oldest first. -/
def Db.visibleProjects (db : Db) (principal : UserPrincipal) : List ProjectSummary :=
  (db.organizationProjects principal.organizationId).filterMap fun p => db.visible principal (db.summary p)

variable {limit : Option Int}

theorem pageLimit_pos {n : Nat} (h : pageLimit limit = .ok n) : 0 < n := by
  rw [pageLimit] at h
  split at h
  next =>
    cases h
    omega
  · cases h

variable {db : Db}

theorem Db.positions : (db.projects.map Project.position).Nodup :=
  List.Nodup.of_map (fun k => (ofLex k).2) (by rw [List.map_map]; exact db.projectIds)

theorem Db.projectCursor_of_mem {organizationId : Nat} {p : Project} (h : p ∈ db.organizationProjects organizationId) :
    db.projectCursor organizationId p.id = some p.position := by
  rw [Db.organizationProjects, inOrder, List.mem_insertionSort, List.mem_filter] at h
  obtain ⟨hp, horganization⟩ := h
  have hfind : db.projects.find? (fun q => q.organizationId = organizationId && q.id = p.id) = some p :=
    find?_of_mem db.projectIds hp (by simpa using horganization) fun q hq => by simp at hq; exact hq.2
  rw [Db.projectCursor, hfind]
  rfl

variable {principal : UserPrincipal}

theorem walks_projects {n : Nat} (hn : pageLimit limit = .ok n) :
    Walks (fun cursor => projects db principal ⟨cursor, limit⟩) (db.organizationProjects principal.organizationId)
      Project.id fun l => cut n ProjectSummary.id
        ((l.take (n + 1)).filterMap fun p => db.visible principal (db.summary p)) := by
  refine walks_lookup (db.projectCursor principal.organizationId)
    (fun l => cut n ProjectSummary.id (l.filterMap fun p => db.visible principal (db.summary p))) db.positions
    (fun p => db.projectCursor_of_mem) fun cursor hfound => ?_
  rw [projects, hn]
  show (if _ then _ else _) = _
  rw [hfound, Db.projectPage, List.filterMap_map]
  rfl

/-- For every organization, member and accepted limit: following the cursors gives the projects that
the member has a role in, each once and oldest first, exactly if no such project comes after the page
on which the first project without a role is fetched. -/
theorem projects_complete_iff (db : Db) (principal : UserPrincipal) (limit : Option Int) {n : Nat}
    (hn : pageLimit limit = .ok n) :
    let all := db.organizationProjects principal.organizationId
    let role := fun p : Project => memberProjectRole db.memberships principal p.id
    Pages (fun cursor => projects db principal ⟨cursor, limit⟩) none (db.visibleProjects principal) ↔
      ∀ p ∈ all.drop (reach n (leading role all)), role p = none := by
  intro all role
  have hvisible : ∀ p, (db.visible principal (db.summary p)).isSome = (role p).isSome := fun p => Option.isSome_map
  have hleading : leading (fun p => db.visible principal (db.summary p)) all = leading role all := by
    simp [leading, hvisible]
  refine (pages_filtered_iff (pageLimit_pos hn) (fun p item h => ?_) (walks_projects hn)).trans ?_
  · obtain ⟨_, -, rfl⟩ := Option.map_eq_some_iff.mp h
    rfl
  · rw [hleading]
    exact forall₂_congr fun p _ => Option.map_eq_none_iff

/-- Three projects of an organization and a member of the last. -/
def threeProjects : Db where
  projects := [⟨1, 1, "a", "A", 10, none⟩, ⟨2, 1, "b", "B", 20, none⟩, ⟨3, 1, "c", "C", 30, none⟩]
  memberships := [⟨1, 3, 7, "member"⟩]
  applications := []
  groups := []
  projectIds := by decide

/-- Two at a time, the third project is on the first page already. -/
theorem projects_complete_iff_threeProjects :
    Pages (fun cursor => projects threeProjects ⟨7, 1, .member⟩ ⟨cursor, some 2⟩) none
      (threeProjects.visibleProjects ⟨7, 1, .member⟩) :=
  (projects_complete_iff threeProjects ⟨7, 1, .member⟩ (some 2) rfl).mpr (by decide +kernel)

/-- One at a time, the first page shows nothing and has no cursor. -/
theorem third_project_never_shown : ¬ Pages (fun cursor => projects threeProjects ⟨7, 1, .member⟩ ⟨cursor, some 1⟩) none
      (threeProjects.visibleProjects ⟨7, 1, .member⟩) := by
  have hfirst : projects threeProjects ⟨7, 1, .member⟩ ⟨none, some 1⟩ = .ok ([], none) := by decide +kernel
  intro h
  have hall := h.unique (.last hfirst)
  revert hall
  decide +kernel

end Okoscope.Server.Navigation
