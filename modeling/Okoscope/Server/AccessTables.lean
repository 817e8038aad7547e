import Okoscope.Lib.ReadCommitted
import Okoscope.Lib.Table
import Okoscope.Lib.Text
import Okoscope.Lib.Time

/-!
# Users, organizations and their roles in the database

The tables that decide who may act, and the statements of their repositories. Triggers
refuse a statement that would take the last active super administrator from the platform
or the last active owner from an active organization; they see what the statement sees.
A statement is one step of a transaction: it reads what is committed at that moment and
what its own transaction wrote, and it waits for rows that other transactions hold.
Row ids are drawn at random and handed to the statement that uses them.
-/
namespace Okoscope.Server.AccessTables

open Lib Lib.Table Lib.ReadCommitted List

/-! ## Roles -/

inductive OrganizationRole where
  | owner
  | admin
  | member
  deriving DecidableEq

def OrganizationRole.inheritsProjectAccess : OrganizationRole → Bool
  | .owner | .admin => true
  | .member => false

def roleName : OrganizationRole → String
  | .owner => "owner"
  | .admin => "admin"
  | .member => "member"

inductive ProjectRole where
  | admin
  | member
  deriving DecidableEq

def projectRoleName : ProjectRole → String
  | .admin => "admin"
  | .member => "member"

/-- Whether a member in the first role may move a member out of the second, into another or out of
the organization. -/
def canManageOrganizationRole (actor current : OrganizationRole) (next : Option OrganizationRole) : Bool :=
  match actor with
  | .owner => true
  | .admin => current ≠ .owner && next ≠ some .owner
  | .member => false

def rolePromotes : OrganizationRole → OrganizationRole → Bool
  | .member, .admin | .member, .owner | .admin, .owner => true
  | _, _ => false

/-! ## Rows -/

structure User where
  id : Nat
  email : String
  disabledAt : Option DateTime
  emailVerifiedAt : Option DateTime
  deriving DecidableEq

/-- Enabled and verified. -/
def User.isActive (u : User) : Bool := u.disabledAt.isNone && u.emailVerifiedAt.isSome

/-- The time of disabling is kept if there is one. -/
def User.setDisabled (u : User) (disabled : Bool) (now : DateTime) : User :=
  { u with disabledAt := if disabled then u.disabledAt.or (some now) else none }

inductive OrganizationStatus where
  | pendingOwner
  | active
  deriving DecidableEq

structure Organization where
  id : Nat
  slug : String
  name : String
  status : OrganizationStatus
  deriving DecidableEq

structure Membership where
  organizationId : Nat
  userId : Nat
  role : OrganizationRole
  deriving DecidableEq

structure ProjectMembership where
  organizationId : Nat
  projectId : Nat
  userId : Nat
  role : ProjectRole
  deriving DecidableEq

structure PlatformRoleAssignment where
  userId : Nat
  grantedByUserId : Option Nat
  grantedAt : DateTime
  revokedAt : Option DateTime

structure UserSession where
  id : Nat
  userId : Nat
  organizationId : Option Nat
  expiresAt : DateTime
  revokedAt : Option DateTime
  privilegedUntil : Option DateTime
  deriving DecidableEq

/-- What an invitation is to: a role of the organization, or a project of it and a role there. -/
inductive InvitedTo where
  | organization (role : OrganizationRole)
  | project (projectId : Nat) (role : ProjectRole)
  deriving DecidableEq

def InvitedTo.projectId : InvitedTo → Option Nat
  | .organization _ => none
  | .project projectId _ => some projectId

def InvitedTo.roleName : InvitedTo → String
  | .organization role => AccessTables.roleName role
  | .project _ role => projectRoleName role

structure Invitation where
  id : Nat
  organizationId : Nat
  invitedTo : InvitedTo
  recipientEmail : String
  inviterUserId : Nat
  tokenDigest : Nat
  expiresAt : DateTime
  acceptedAt : Option DateTime
  acceptedByUserId : Option Nat
  revokedAt : Option DateTime
  replacedAt : Option DateTime
  deriving DecidableEq

def Invitation.isLive (i : Invitation) (now : DateTime) : Bool :=
  i.acceptedAt.isNone && i.revokedAt.isNone && i.replacedAt.isNone && now < i.expiresAt

/-- An audit record. Recovery of the platform has no user as its actor. -/
structure AuditRecord where
  actorUserId : Option Nat
  action : String
  organizationId : Option Nat := none
  projectId : Option Nat := none
  targetUserId : Option Nat := none
  invitationId : Option Nat := none
  previousRole : Option String := none
  newRole : Option String := none
  deriving DecidableEq

/-- The tables that authority is read from. -/
structure Directory where
  users : List User
  organizations : List Organization
  memberships : List Membership
  assignments : List PlatformRoleAssignment

structure Db where
  directory : Directory
  projectMemberships : List ProjectMembership
  sessions : List UserSession
  invitations : List Invitation
  auditRecords : List AuditRecord

namespace Directory
variable (d : Directory)

def isUser (userId : Nat) : Bool := d.users.any fun u => u.id = userId

def isActiveUser (userId : Nat) : Bool := d.users.any fun u => u.id = userId && u.isActive

def enabledUser? (userId : Nat) : Option User := d.users.find? fun u => u.id = userId && u.disabledAt.isNone

def activeUserByEmail? (email : String) : Option User := d.users.find? fun u => u.email = email && u.isActive

def isSuperAdmin (userId : Nat) : Bool := d.assignments.any fun a => a.userId = userId && a.revokedAt.isNone

def isActiveOrganization (organizationId : Nat) : Bool :=
  d.organizations.any fun o => o.id = organizationId && o.status = .active

def isOwner (organizationId userId : Nat) : Bool :=
  d.memberships.any fun m => m.organizationId = organizationId && m.userId = userId && m.role = .owner

def membership? (organizationId userId : Nat) : Option Membership :=
  d.memberships.find? fun m => m.organizationId = organizationId && m.userId = userId

def isMember (organizationId userId : Nat) : Bool := (d.membership? organizationId userId).isSome

def role? (organizationId userId : Nat) : Option OrganizationRole :=
  (d.membership? organizationId userId).map Membership.role

/-- A pending organization with an active owner. -/
def activates (organizationId : Nat) : Bool :=
  (d.organizations.any fun o => o.id = organizationId && o.status = .pendingOwner) &&
    d.memberships.any fun m => m.organizationId = organizationId && m.role = .owner && d.isActiveUser m.userId

/-! ## Triggers -/

def hasOtherSuperAdmin (userId : Nat) : Bool :=
  d.assignments.any fun a => a.revokedAt.isNone && d.isActiveUser a.userId && a.userId ≠ userId

def hasOtherOwner (organizationId userId : Nat) : Bool :=
  d.memberships.any fun m =>
    m.organizationId = organizationId && m.role = .owner && d.isActiveUser m.userId && m.userId ≠ userId

/-- Before the revocation of an assignment. -/
def protectLastSuperAdmin (old new : PlatformRoleAssignment) : Bool :=
  old.revokedAt.isNone && new.revokedAt.isSome && !d.hasOtherSuperAdmin old.userId

/-- Before an update of a user. -/
def protectUserAuthority (old new : User) : Bool :=
  old.isActive && !new.isActive &&
    (d.isSuperAdmin old.id && !d.hasOtherSuperAdmin old.id ||
      d.memberships.any fun m => m.userId = old.id && m.role = .owner && d.isActiveOrganization m.organizationId &&
        !d.hasOtherOwner m.organizationId old.id)

/-- Before an update or a deletion of a membership. -/
def protectLastOrganizationOwner (old : Membership) (next : Option OrganizationRole) : Bool :=
  old.role = .owner && next ≠ some .owner && d.isActiveOrganization old.organizationId &&
    !d.hasOtherOwner old.organizationId old.userId

end Directory

def Db.isProjectMember (db : Db) (projectId userId : Nat) : Bool :=
  db.projectMemberships.any fun m => m.projectId = projectId && m.userId = userId

def Db.isLiveInvitation (db : Db) (invitationId : Nat) (now : DateTime) : Bool :=
  db.invitations.any fun i => i.id = invitationId && i.isLive now

/-! ## Writes -/

inductive Write where
  | insertUser (user : User)
  | setDisabled (userId : Nat) (disabled : Bool) (now : DateTime)
  | insertOrganization (organization : Organization)
  | activate (organizationId : Nat)
  | insertMembership (membership : Membership)
  | setRole (organizationId userId : Nat) (role : OrganizationRole)
  | removeMembership (organizationId userId : Nat)
  | insertProjectMembership (membership : ProjectMembership)
  | assign (userId : Nat) (grantedByUserId : Option Nat) (grantedAt : DateTime)
  | revokeAssignment (userId : Nat) (revokedAt : DateTime)
  | insertSession (session : UserSession)
  | revokeSessions (userId : Nat) (organizationId : Option Nat) (revokedAt : DateTime)
  | insertInvitation (invitation : Invitation)
  | consume (invitationId userId : Nat) (acceptedAt : DateTime)
  | audit (record : AuditRecord)
  deriving DecidableEq

/-- Inserts an assignment, or reinstates the one there is. -/
def assign (userId : Nat) (grantedByUserId : Option Nat) (grantedAt : DateTime)
    (assignments : List PlatformRoleAssignment) : List PlatformRoleAssignment :=
  upsert PlatformRoleAssignment.userId (fun new a => { a with
      grantedByUserId := new.grantedByUserId, grantedAt := new.grantedAt, revokedAt := none })
    ⟨userId, grantedByUserId, grantedAt, none⟩ assignments

def Directory.apply (d : Directory) : Write → Directory
  | .insertUser user => { d with users := d.users ++ [user] }
  | .setDisabled userId disabled now =>
    { d with users := updateWhere (fun u => u.id = userId) (fun u => u.setDisabled disabled now) d.users }
  | .insertOrganization organization => { d with organizations := d.organizations ++ [organization] }
  | .activate organizationId =>
    { d with
      organizations := updateWhere (fun o => o.id = organizationId) (fun o => { o with status := .active })
        d.organizations }
  | .insertMembership membership => { d with memberships := d.memberships ++ [membership] }
  | .setRole organizationId userId role =>
    { d with
      memberships := updateWhere (fun m => m.organizationId = organizationId && m.userId = userId)
        (fun m => { m with role }) d.memberships }
  | .removeMembership organizationId userId =>
    { d with
      memberships := d.memberships.filter fun m => !(m.organizationId = organizationId && m.userId = userId) }
  | .assign userId grantedByUserId grantedAt =>
    { d with assignments := assign userId grantedByUserId grantedAt d.assignments }
  | .revokeAssignment userId revokedAt =>
    { d with
      assignments := updateWhere (fun a => a.userId = userId && a.revokedAt.isNone)
        (fun a => { a with revokedAt := some revokedAt }) d.assignments }
  | _ => d

/-- The memberships of projects go with the membership of the organization. -/
def projectMembershipsAfter (rows : List ProjectMembership) : Write → List ProjectMembership
  | .insertProjectMembership membership => rows ++ [membership]
  | .removeMembership organizationId userId =>
    rows.filter fun m => !(m.organizationId = organizationId && m.userId = userId)
  | _ => rows

def sessionsAfter (rows : List UserSession) : Write → List UserSession
  | .insertSession session => rows ++ [session]
  | .revokeSessions userId organizationId revokedAt =>
    updateWhere (fun s => s.userId = userId && organizationId.all fun id => s.organizationId = some id)
      (fun s => { s with revokedAt := s.revokedAt.or (some revokedAt) }) rows
  | _ => rows

def invitationsAfter (rows : List Invitation) : Write → List Invitation
  | .insertInvitation invitation => rows ++ [invitation]
  | .consume invitationId userId acceptedAt =>
    updateWhere (fun i => i.id = invitationId)
      (fun i => { i with acceptedAt := some acceptedAt, acceptedByUserId := some userId }) rows
  | _ => rows

def auditAfter (rows : List AuditRecord) : Write → List AuditRecord
  | .audit record => rows ++ [record]
  | _ => rows

def Db.apply (db : Db) (w : Write) : Db where
  directory := db.directory.apply w
  projectMemberships := projectMembershipsAfter db.projectMemberships w
  sessions := sessionsAfter db.sessions w
  invitations := invitationsAfter db.invitations w
  auditRecords := auditAfter db.auditRecords w

/-! ### What the writes change -/

/-- The parts of the directory. -/
inductive Area where
  | users
  | organizations
  | memberships
  | assignments
  deriving DecidableEq

/-- The part of the directory that a write changes, if it changes one. -/
def Write.area : Write → Option Area
  | .insertUser _ | .setDisabled _ _ _ => some .users
  | .insertOrganization _ | .activate _ => some .organizations
  | .insertMembership _ | .setRole _ _ _ | .removeMembership _ _ => some .memberships
  | .assign _ _ _ | .revokeAssignment _ _ => some .assignments
  | .insertProjectMembership _ | .insertSession _ | .revokeSessions _ _ _ | .insertInvitation _ | .consume _ _ _
  | .audit _ => none

variable {userId x organizationId o : Nat}

namespace Directory
variable {d : Directory}

theorem isActiveUser_iff : d.isActiveUser userId ↔ ∃ u ∈ d.users, u.id = userId ∧ u.isActive := by
  simp [isActiveUser, any_eq_true]

theorem isSuperAdmin_iff : d.isSuperAdmin userId ↔ ∃ a ∈ d.assignments, a.userId = userId ∧ a.revokedAt = none := by
  simp [isSuperAdmin, any_eq_true]

theorem isActiveUser_insertUser {user : User} :
    (d.apply (.insertUser user)).isActiveUser userId = (d.isActiveUser userId || (user.id = userId && user.isActive)) := by
  simp [isActiveUser, apply, any_append]

theorem isActive_setDisabled {u : User} {now : DateTime} : (u.setDisabled true now).isActive = false := by
  cases hd : u.disabledAt <;> simp [User.isActive, User.setDisabled, hd]

theorem isActiveUser_setDisabled_ne {disabled : Bool} {now : DateTime} (h : x ≠ userId) :
    (d.apply (.setDisabled userId disabled now)).isActiveUser x = d.isActiveUser x := by
  rw [Bool.eq_iff_iff, isActiveUser_iff, isActiveUser_iff]
  simp only [apply, mem_updateWhere, decide_eq_true_eq]
  constructor
  · intro hx
    obtain ⟨_, ⟨v, hv, rfl⟩, hid, hact⟩ := hx
    split at hid
    · next hv' => exact absurd (hid.symm.trans hv') h
    · next hv' => exact ⟨v, hv, hid, by simpa only [hv', if_false] using hact⟩
  · intro hx
    obtain ⟨u, hu, rfl, hact⟩ := hx
    refine ⟨u, ⟨u, hu, ?_⟩, rfl, hact⟩
    simp [h]

theorem isActiveUser_enabled {now : DateTime} (h : d.isActiveUser x) :
    (d.apply (.setDisabled userId false now)).isActiveUser x := by
  obtain ⟨u, hu, rfl, hact⟩ := isActiveUser_iff.mp h
  refine isActiveUser_iff.mpr ⟨_, mem_updateWhere.mpr ⟨u, hu, rfl⟩, ?_⟩
  split
  · simp only [User.isActive, Bool.and_eq_true] at hact
    simp [User.isActive, User.setDisabled, hact.2]
  · exact ⟨rfl, hact⟩

theorem isOwner_iff : d.isOwner organizationId userId ↔
      ∃ m ∈ d.memberships, m.organizationId = organizationId ∧ m.userId = userId ∧ m.role = .owner := by
  simp [isOwner, any_eq_true, and_assoc]

theorem isOwner_insertMembership {membership : Membership} :
    (d.apply (.insertMembership membership)).isOwner organizationId userId = (d.isOwner organizationId userId ||
        (membership.organizationId = organizationId && membership.userId = userId && membership.role = .owner)) := by
  simp [isOwner, apply, any_append]

theorem isActiveOrganization_insertOrganization {organization : Organization} :
    (d.apply (.insertOrganization organization)).isActiveOrganization organizationId =
      (d.isActiveOrganization organizationId || (organization.id = organizationId && organization.status = .active)) := by
  simp [isActiveOrganization, apply, any_append]

theorem isActiveOrganization_activate : ((d.apply (.activate organizationId)).isActiveOrganization o →
      d.isActiveOrganization o ∨ o = organizationId) ∧
    (d.isActiveOrganization o → (d.apply (.activate organizationId)).isActiveOrganization o) := by
  simp only [isActiveOrganization, any_eq_true, Bool.and_eq_true, apply, mem_updateWhere, decide_eq_true_eq]
  constructor
  · intro h
    obtain ⟨_, ⟨old, hold, rfl⟩, hid, hact⟩ := h
    by_cases ho : old.id = organizationId
    · rw [if_pos ho] at hid
      exact .inr (hid.symm.trans ho)
    · rw [if_neg ho] at hid hact
      exact .inl ⟨old, hold, hid, hact⟩
  · intro h
    obtain ⟨row, hrow, hid, hact⟩ := h
    refine ⟨_, ⟨row, hrow, rfl⟩, ?_⟩
    split
    · exact ⟨hid, rfl⟩
    · exact ⟨hid, hact⟩

theorem role?_setRole {role : OrganizationRole} : (d.apply (.setRole organizationId userId role)).role? o x =
      if o = organizationId ∧ x = userId then (d.role? o x).map fun _ => role else d.role? o x := by
  have hkey : (fun m : Membership => decide (m.organizationId = o) && decide (m.userId = x)) ∘
      (fun m => if m.organizationId = organizationId && m.userId = userId then { m with role } else m) =
      fun m => decide (m.organizationId = o) && decide (m.userId = x) := by
    funext m
    dsimp only [Function.comp]
    split <;> rfl
  simp only [role?, membership?, apply, updateWhere, find?_map, hkey, Option.map_map]
  cases hf : d.memberships.find? fun m => decide (m.organizationId = o) && decide (m.userId = x) with
  | none => simp
  | some m =>
    have hm := find?_some hf
    simp only [Bool.and_eq_true, decide_eq_true_eq] at hm
    obtain ⟨rfl, rfl⟩ := hm
    by_cases h : m.organizationId = organizationId ∧ m.userId = userId <;> simp [h]

theorem role?_removeMembership : (d.apply (.removeMembership organizationId userId)).role? o x =
      if o = organizationId ∧ x = userId then none else d.role? o x := by
  simp only [role?, membership?, apply, find?_filter]
  by_cases h : o = organizationId ∧ x = userId
  · obtain ⟨rfl, rfl⟩ := h
    rw [if_pos ⟨rfl, rfl⟩, Option.map_eq_none_iff, find?_eq_none]
    intro m _
    by_cases ho : m.organizationId = o <;> simp [ho]
  · rw [if_neg h]
    congr 2
    funext m
    by_cases ho : m.organizationId = o <;> by_cases hx : m.userId = x <;> simp [ho, hx]
    simpa using not_and_or.mp h

end Directory

/-! ## Statements -/

inductive Lock where
  | authority
  | user (userId : Nat)
  | email (email : String)
  | organization (organizationId : Nat)
  | slug (slug : String)
  | membership (organizationId userId : Nat)
  | projectMembership (projectId userId : Nat)
  | assignment (userId : Nat)
  | session (sessionId : Nat)
  | invitation (invitationId : Nat)
  deriving DecidableEq

inductive AccessTarget where
  | organization
  | user
  deriving DecidableEq

inductive Denial where
  | organizationAdministration
  | roleTransition
  | membershipRemoval
  deriving DecidableEq

inductive AccessConflict where
  | organizationLimitReached
  | lastSuperAdminRequired
  | lastOrganizationOwnerRequired
  deriving DecidableEq

inductive InvitationConflict where
  | requiresSignIn
  | identityConflict
  | accountMismatch
  deriving DecidableEq

inductive SqlError where
  | check
  | unique
  deriving DecidableEq

inductive AccessError where
  | unauthenticated
  | superAdminRequired
  | privilegeConfirmationRequired
  | notFound (target : AccessTarget)
  | denied (denial : Denial)
  | selfPromotion
  | invalid (message : String)
  | userNotEligible
  | conflict (conflict : AccessConflict)
  | invitationConflict (conflict : InvitationConflict)
  | unusable
  | recoveryRefused (message : String)
  | issue (message : String)
  | database (error : SqlError)
  deriving DecidableEq

abbrev Statement := Tx Db Write Lock AccessError

/-- Serialises changes to organization roles and platform roles. -/
def lockAuthority : Statement Unit := .exec (fun _ => [.authority]) (fun _ => []) fun _ => ()

def writeAudit (record : AuditRecord) : Statement Unit := .exec (fun _ => []) (fun _ => [.audit record]) fun _ => ()

def Directory.refusesDisabling (d : Directory) (userId : Nat) (disabled : Bool) (now : DateTime) : Bool :=
  d.users.any fun u => u.id = userId && d.protectUserAuthority u (u.setDisabled disabled now)

/-- Enables or disables a user. -/
def setDisabled (userId : Nat) (disabled : Bool) (now : DateTime) : Statement Unit :=
  .guarded (fun db => if db.directory.isUser userId then [.user userId] else [])
    (fun db =>
      if db.directory.refusesDisabling userId disabled now then some (.database .check)
      else if db.directory.isUser userId then none
      else some (.notFound .user))
    fun db => if db.directory.isUser userId then [.setDisabled userId disabled now] else []

def insertVerified (userId : Nat) (email : String) (now : DateTime) : Statement Unit :=
  .guarded (fun _ => [.user userId, .email email])
    (fun db =>
      if db.directory.users.any fun u => u.id = userId || u.email = email then
        some (.invitationConflict .identityConflict)
      else none)
    fun _ => [.insertUser ⟨userId, email, none, some now⟩]

/-- Grants the role of a super administrator, or reinstates it. -/
def grantAssignment (userId : Nat) (grantedByUserId : Option Nat) (now : DateTime) : Statement Unit :=
  .exec (fun _ => [.assignment userId]) (fun _ => [.assign userId grantedByUserId now]) fun _ => ()

/-- Revokes the assignment of a user. A revocation is not earlier than the grant. -/
def revokeAssignment (userId : Nat) (now : DateTime) : Statement Unit :=
  .guarded (fun db => if db.directory.isSuperAdmin userId then [.assignment userId] else [])
    (fun db =>
      if db.directory.assignments.any fun a => a.userId = userId && a.revokedAt.isNone &&
          (db.directory.protectLastSuperAdmin a { a with revokedAt := some now } || now < a.grantedAt) then
        some (.conflict .lastSuperAdminRequired)
      else none)
    fun db => if db.directory.isSuperAdmin userId then [.revokeAssignment userId now] else []

def revokeSessions (userId : Nat) (organizationId : Option Nat) (now : DateTime) : Statement Unit :=
  .exec
    (fun db => (db.sessions.filter fun s =>
      s.userId = userId && organizationId.all fun id => s.organizationId = some id).map (.session ·.id))
    (fun _ => [.revokeSessions userId organizationId now]) fun _ => ()

def insertOrganization (organization : Organization) : Statement Unit :=
  .guarded (fun _ => [.organization organization.id, .slug organization.slug])
    (fun db =>
      if db.directory.organizations.any fun o => o.id = organization.id || o.slug = organization.slug then
        some (.database .unique)
      else none)
    fun _ => [.insertOrganization organization]

/-- A pending organization becomes active if it has an active owner. -/
def activateWhenOwned (organizationId : Nat) : Statement Unit :=
  .exec (fun db => if db.directory.activates organizationId then [.organization organizationId] else [])
    (fun db => if db.directory.activates organizationId then [.activate organizationId] else []) fun _ => ()

def insertOrganizationRole (membership : Membership) : Statement Unit :=
  .guarded (fun _ => [.membership membership.organizationId membership.userId])
    (fun db =>
      if db.directory.isMember membership.organizationId membership.userId then some (.database .unique) else none)
    fun _ => [.insertMembership membership]

def grantOrganizationRoleIfAbsent (membership : Membership) : Statement Unit :=
  .exec
    (fun db =>
      if db.directory.isMember membership.organizationId membership.userId then []
      else [.membership membership.organizationId membership.userId])
    (fun db =>
      if db.directory.isMember membership.organizationId membership.userId then [] else [.insertMembership membership])
    fun _ => ()

def grantProjectRoleIfAbsent (membership : ProjectMembership) : Statement Unit :=
  .exec
    (fun db =>
      if db.isProjectMember membership.projectId membership.userId then []
      else [.projectMembership membership.projectId membership.userId])
    (fun db =>
      if db.isProjectMember membership.projectId membership.userId then [] else [.insertProjectMembership membership])
    fun _ => ()

/-- Whether the trigger refuses to take a member out of their role. -/
def Directory.refusesRoleChange (d : Directory) (organizationId userId : Nat) (next : Option OrganizationRole) : Bool :=
  d.memberships.any fun m =>
    m.organizationId = organizationId && m.userId = userId && d.protectLastOrganizationOwner m next

/-- What is written to change a role, or to delete the membership. -/
def roleWrite (organizationId userId : Nat) : Option OrganizationRole → Write
  | some role => .setRole organizationId userId role
  | none => .removeMembership organizationId userId

/-- Changes or deletes the membership of a user, if there is one. -/
def changeOrganizationRole (organizationId userId : Nat) (next : Option OrganizationRole) : Statement Unit :=
  .guarded (fun db => if db.directory.isMember organizationId userId then [.membership organizationId userId] else [])
    (fun db =>
      if db.directory.refusesRoleChange organizationId userId next then
        some (.conflict .lastOrganizationOwnerRequired)
      else none)
    fun db => if db.directory.isMember organizationId userId then [roleWrite organizationId userId next] else []

def setOrganizationRole (organizationId userId : Nat) (role : OrganizationRole) : Statement Unit :=
  changeOrganizationRole organizationId userId (some role)

def removeOrganizationRole (organizationId userId : Nat) : Statement Unit :=
  changeOrganizationRole organizationId userId none

/-- Accepts a live invitation; tells whether a row was affected. -/
def consumeInvitation (invitationId userId : Nat) (now : DateTime) : Statement Bool :=
  .exec (fun db => if db.isLiveInvitation invitationId now then [.invitation invitationId] else [])
    (fun db => if db.isLiveInvitation invitationId now then [.consume invitationId userId now] else [])
    fun db => db.isLiveInvitation invitationId now

/-- The invitation with a token, locked. -/
def invitationForUpdate (tokenDigest : Nat) : Statement (Option Invitation) :=
  .exec (fun db => ((get? Invitation.tokenDigest tokenDigest db.invitations).map (.invitation ·.id)).toList)
    (fun _ => []) fun db => get? Invitation.tokenDigest tokenDigest db.invitations

/-- The user, locked, if they are enabled. -/
def activeUserForUpdate (userId : Nat) : Statement (Option User) :=
  .exec (fun db => if (db.directory.enabledUser? userId).isSome then [.user userId] else []) (fun _ => [])
    fun db => db.directory.enabledUser? userId

/-- The active user with an address, locked. -/
def activeUserByEmailForUpdate (email : String) : Statement (Option User) :=
  .exec (fun db => ((db.directory.activeUserByEmail? email).map (.user ·.id)).toList) (fun _ => [])
    fun db => db.directory.activeUserByEmail? email

namespace Directory
variable {d : Directory}

theorem isOwner_roleWrite_ne {next : Option OrganizationRole} (h : ¬(o = organizationId ∧ x = userId)) :
    (d.apply (roleWrite organizationId userId next)).isOwner o x = d.isOwner o x := by
  rw [Bool.eq_iff_iff, isOwner_iff, isOwner_iff]
  cases next with
  | none =>
    simp only [roleWrite, apply, mem_filter]
    constructor
    · intro hm
      obtain ⟨m, ⟨hmem, -⟩, hm⟩ := hm
      exact ⟨m, hmem, hm⟩
    · intro hm
      obtain ⟨m, hmem, rfl, rfl, hrole⟩ := hm
      exact ⟨m, ⟨hmem, by simpa using not_and_or.mp h⟩, rfl, rfl, hrole⟩
  | some =>
    simp only [roleWrite, apply, mem_updateWhere, Bool.and_eq_true, decide_eq_true_eq]
    constructor
    · intro hm
      obtain ⟨_, ⟨old, hmem, rfl⟩, ho, hx, hrole⟩ := hm
      split at ho
      next hold => exact absurd ⟨ho.symm.trans hold.1, by rw [if_pos hold] at hx; exact hx.symm.trans hold.2⟩ h
      next hold =>
        rw [if_neg hold] at hx hrole
        exact ⟨old, hmem, ho, hx, hrole⟩
    · intro hm
      obtain ⟨m, hmem, rfl, rfl, hrole⟩ := hm
      exact ⟨m, ⟨m, hmem, if_neg h⟩, rfl, rfl, hrole⟩

theorem isOwner_setRole_owner (h : d.isOwner o x) :
    (d.apply (roleWrite organizationId userId (some .owner))).isOwner o x := by
  obtain ⟨m, hmem, rfl, rfl, hrole⟩ := isOwner_iff.mp h
  refine isOwner_iff.mpr ⟨_, mem_updateWhere.mpr ⟨m, hmem, rfl⟩, ?_⟩
  split
  · exact ⟨rfl, rfl, rfl⟩
  · exact ⟨rfl, rfl, hrole⟩

end Directory

end Okoscope.Server.AccessTables
