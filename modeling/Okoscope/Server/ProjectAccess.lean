import Mathlib.Data.List.Basic

/-!
# Access to projects

Which role a signed-in member holds in a project of their active organization, and
where it comes from. Owners and administrators of the organization are
administrators of all its projects; everyone else needs a membership of the project.
-/
namespace Okoscope.Server.ProjectAccess

inductive OrganizationRole where
  | owner
  | admin
  | member
  deriving DecidableEq

def OrganizationRole.isOwner (role : OrganizationRole) : Bool := role = .owner

def OrganizationRole.inheritsProjectAccess : OrganizationRole → Bool
  | .owner | .admin => true
  | .member => false

inductive ProjectRole where
  | admin
  | member
  deriving DecidableEq

def ProjectRole.fromStr : String → Option ProjectRole
  | "admin" => some .admin
  | "member" => some .member
  | _ => none

structure UserPrincipal where
  userId : Nat
  organizationId : Nat
  role : OrganizationRole

/-- A direct grant; a project and a user have one at most. -/
structure ProjectMembership where
  organizationId : Nat
  projectId : Nat
  userId : Nat
  role : String

def projectRole (memberships : List ProjectMembership) (organizationId projectId userId : Nat) : Option String :=
  (memberships.find? fun m =>
    m.organizationId = organizationId && m.projectId = projectId && m.userId = userId).map (·.role)

def memberProjectRole (memberships : List ProjectMembership) (principal : UserPrincipal) (projectId : Nat) :
    Option (ProjectRole × String) :=
  if principal.role.inheritsProjectAccess then some (.admin, "organization")
  else (projectRole memberships principal.organizationId projectId principal.userId).bind fun value =>
    (ProjectRole.fromStr value).map fun role => (role, "project")

/-! ## Principals of any organization -/

structure IdentityPrincipal where
  userId : Nat
  activeOrganizationId : Option Nat
  organizationRole : Option OrganizationRole
  isSuperAdmin : Bool

inductive EffectiveAccessSource where
  | platform
  | organization
  | project
  deriving DecidableEq

structure EffectiveProjectAccess where
  role : ProjectRole
  source : EffectiveAccessSource

/-- What the principal may do in a project of the organization; projects are given with theirs. -/
def resolveProjectAccess (projects : List (Nat × Nat)) (memberships : List ProjectMembership)
    (principal : IdentityPrincipal) (organizationId projectId : Nat) : Option EffectiveProjectAccess :=
  if ¬ projects.contains (organizationId, projectId) then none
  else if principal.isSuperAdmin then some ⟨.admin, .platform⟩
  else if principal.activeOrganizationId ≠ some organizationId then none
  else if principal.organizationRole.any OrganizationRole.inheritsProjectAccess then some ⟨.admin, .organization⟩
  else (projectRole memberships organizationId projectId principal.userId).bind fun value =>
    (ProjectRole.fromStr value).map fun role => ⟨role, .project⟩

structure ProjectScope where
  organizationId : Nat
  access : EffectiveProjectAccess

def projectScope (projects : List (Nat × Nat)) (memberships : List ProjectMembership) (principal : IdentityPrincipal)
    (projectId : Nat) : Option ProjectScope :=
  (projects.find? fun p => p.2 = projectId).bind fun p =>
    (resolveProjectAccess projects memberships principal p.1 projectId).map fun access => ⟨p.1, access⟩

end Okoscope.Server.ProjectAccess
