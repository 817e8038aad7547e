import Okoscope.Server.AccessTables

/-!
# Requests that change who may act

Each request first finds out who asks, then checks what they may do, and then runs its
transaction. The reads before the transaction are statements of their own, so that other
transactions may commit between them. Two clocks are read: one while the request is
checked, one when its transaction begins.
-/
namespace Okoscope.Server.AccessService

open Lib Lib.ReadCommitted
open AccessTables

/-! ## Principals -/

/-- A request comes with the token of a session. -/
structure Caller where
  sessionId : Nat
  now : DateTime

structure IdentityPrincipal where
  userId : Nat
  sessionId : Nat
  activeOrganizationId : Option Nat
  organizationRole : Option OrganizationRole
  isSuperAdmin : Bool
  privilegedUntil : Option DateTime
  deriving DecidableEq

def IdentityPrincipal.hasRecentPrivilege (p : IdentityPrincipal) (now : DateTime) : Bool :=
  p.privilegedUntil.any fun «until» => now < «until»

/-- The principal of a live session of an enabled user. A session in an organization lasts while
the user is a member of it and it is active. -/
def authenticate (caller : Caller) (db : Db) : Option IdentityPrincipal :=
  (db.sessions.find? fun s => s.id = caller.sessionId && s.revokedAt.isNone && caller.now < s.expiresAt &&
    (db.directory.users.any fun u => u.id = s.userId && u.disabledAt.isNone) &&
    s.organizationId.all fun o =>
      db.directory.isMember o s.userId && db.directory.isActiveOrganization o).map fun s =>
    { userId := s.userId
      sessionId := s.id
      activeOrganizationId := s.organizationId
      organizationRole := s.organizationId.bind fun o => db.directory.role? o s.userId
      isSuperAdmin := db.directory.isSuperAdmin s.userId
      privilegedUntil := s.privilegedUntil }

def identity (caller : Caller) : Statement IdentityPrincipal := do
  let principal ← .query (authenticate caller)
  .ofOption .unauthenticated principal

/-- Admits super administrators only; with a recent confirmation of their password, if asked for. -/
def requirePlatform (principal : IdentityPrincipal) (privileged : Bool) (now : DateTime) :
    Except AccessError IdentityPrincipal :=
  if !principal.isSuperAdmin then .error .superAdminRequired
  else if privileged && !principal.hasRecentPrivilege now then .error .privilegeConfirmationRequired
  else .ok principal

/-- Admits super administrators, and owners and admins of the organization of their session. -/
def organizationAdmin (principal : IdentityPrincipal) (organizationId : Nat) : Except AccessError IdentityPrincipal :=
  if principal.isSuperAdmin then .ok principal
  else if principal.activeOrganizationId ≠ some organizationId then .error (.notFound .organization)
  else if !principal.organizationRole.any OrganizationRole.inheritsProjectAccess then
    .error (.denied .organizationAdministration)
  else .ok principal

/-! ## What a transaction reports -/

/-- A change of a member's role, or the end of their membership: who asked for it, and the role that
was read before. -/
structure RoleChange where
  actor : IdentityPrincipal
  organizationId : Nat
  userId : Nat
  current : OrganizationRole
  next : Option OrganizationRole
  deriving DecidableEq

inductive Outcome where
  | done
  | roleChanged (change : RoleChange)
  | organizationCreated (organizationId ownerId : Nat)
  | accepted (organizationId userId : Nat)
  deriving DecidableEq

/-! ## Platform roles -/

/-- Enables or disables a user. Every session of the user ends either way. -/
def setUserStatus (caller : Caller) (userId : Nat) (disabled : Bool) (now : DateTime) : Statement Outcome := do
  let principal ← identity caller
  let actor ← .ofExcept (requirePlatform principal true caller.now)
  lockAuthority
  setDisabled userId disabled now
  revokeSessions userId none now
  writeAudit { actorUserId := some actor.userId, action := if disabled then "user.disabled" else "user.enabled",
               targetUserId := some userId }
  return .done

def grantSuperAdmin (caller : Caller) (userId : Nat) (now : DateTime) : Statement Outcome := do
  let principal ← identity caller
  let actor ← .ofExcept (requirePlatform principal true caller.now)
  .ensure (actor.userId ≠ userId) .selfPromotion
  lockAuthority
  let eligible ← .query fun db => db.directory.isActiveUser userId
  .ensure eligible .userNotEligible
  grantAssignment userId (some actor.userId) now
  writeAudit { actorUserId := some actor.userId, action := "platform_role.granted", targetUserId := some userId,
               newRole := some "super_admin" }
  return .done

/-- Takes the role of a super administrator away and ends the user's sessions. -/
def revokeSuperAdmin (caller : Caller) (userId : Nat) (now : DateTime) : Statement Outcome := do
  let principal ← identity caller
  let actor ← .ofExcept (requirePlatform principal true caller.now)
  lockAuthority
  let known ← .query fun db => db.directory.isUser userId
  .ensure known (.notFound .user)
  revokeAssignment userId now
  revokeSessions userId none now
  writeAudit { actorUserId := some actor.userId, action := "platform_role.revoked", targetUserId := some userId,
               previousRole := some "super_admin" }
  return .done

/-- The operator, who has the configured credential, makes an active user a super administrator. -/
def recoverSuperAdmin (authorized : Bool) (email : String) (now : DateTime) : Statement Outcome := do
  .ensure authorized (.recoveryRefused "OKOSCOPE_ADMIN_CREDENTIAL is required for platform recovery")
  lockAuthority
  let found ← activeUserByEmailForUpdate email
  let user ← .ofOption (.recoveryRefused "eligible verified user does not exist") found
  grantAssignment user.id none now
  writeAudit { actorUserId := none, action := "platform_recovery.completed", targetUserId := some user.id,
               newRole := some "super_admin" }
  return .done

/-! ## Members of organizations -/

/-- The member, who is a user. -/
def organizationMember (organizationId userId : Nat) : Statement OrganizationRole := do
  let role ← .query fun db =>
    if db.directory.isUser userId then db.directory.role? organizationId userId else none
  .ofOption (.notFound .user) role

/-- The actor has the authority for the change, as far as the roles that were read show. -/
def RoleChange.isPermitted (change : RoleChange) : Bool :=
  change.actor.isSuperAdmin ||
    canManageOrganizationRole (change.actor.organizationRole.getD .member) change.current change.next

/-- Moves an organization member to another role. -/
def updateOrganizationMember (caller : Caller) (organizationId userId : Nat) (role : OrganizationRole) :
    Statement Outcome := do
  let principal ← identity caller
  let actor ← .ofExcept (organizationAdmin principal organizationId)
  let current ← organizationMember organizationId userId
  let change : RoleChange := ⟨actor, organizationId, userId, current, some role⟩
  .ensure change.isPermitted (.denied .roleTransition)
  .ensure (!(actor.userId = userId && rolePromotes current role)) .selfPromotion
  lockAuthority
  setOrganizationRole organizationId userId role
  writeAudit { actorUserId := some actor.userId, action := "organization_member.role_changed",
               organizationId := some organizationId, targetUserId := some userId,
               previousRole := some (roleName current), newRole := some (roleName role) }
  return .roleChanged change

/-- Removes a member from an organization and ends their sessions in it. -/
def removeOrganizationMember (caller : Caller) (organizationId userId : Nat) (now : DateTime) : Statement Outcome := do
  let principal ← identity caller
  let actor ← .ofExcept (organizationAdmin principal organizationId)
  let current ← organizationMember organizationId userId
  let change : RoleChange := ⟨actor, organizationId, userId, current, none⟩
  .ensure change.isPermitted (.denied .membershipRemoval)
  lockAuthority
  removeOrganizationRole organizationId userId
  revokeSessions userId (some organizationId) now
  writeAudit { actorUserId := some actor.userId, action := "organization_member.removed",
               organizationId := some organizationId, targetUserId := some userId,
               previousRole := some (roleName current) }
  return .roleChanged change

/-! ## New organizations -/

inductive OrganizationMode where
  | single
  | multiple
  deriving DecidableEq

/-- The creator owns the organization, or it waits for an invited owner. Whether the invitation can
be issued is not up to these tables. -/
inductive Ownership where
  | selfOwner
  | invitedOwner (issued : Except AccessError Invitation)

def Ownership.status : Ownership → OrganizationStatus
  | .selfOwner => .active
  | .invitedOwner _ => .pendingOwner

structure NewPlatformOrganization where
  slug : String
  name : String
  ownership : Ownership

def validSlug (value : String) : Bool :=
  1 ≤ Text.len value && Text.len value ≤ 63 &&
    (value.toList.all fun c => Text.isAsciiLowercase c || Text.isAsciiDigit c || c = '-') &&
    value.toList.head? ≠ some '-' && value.toList.getLast? ≠ some '-' &&
    !(value.toList.zip value.toList.tail).contains ('-', '-')

def validName (value : String) : Bool := Text.trim value = value && 1 ≤ value.length && value.length ≤ 120

/-- Refuses a second organization in the mode that allows one only. -/
def ensureOrganizationCapacity : OrganizationMode → Statement Unit
  | .multiple => pure ()
  | .single => do
    lockAuthority
    let taken ← .query fun db => !db.directory.organizations.isEmpty
    .ensure (!taken) (.conflict .organizationLimitReached)

def provideOwner (actor : IdentityPrincipal) (organizationId : Nat) : Ownership → Statement Outcome
  | .selfOwner => do
    insertOrganizationRole ⟨organizationId, actor.userId, .owner⟩
    return .organizationCreated organizationId actor.userId
  | .invitedOwner issued => do
    let invitation ← .ofExcept issued
    .exec (fun _ => [.invitation invitation.id]) (fun _ => [.insertInvitation invitation]) fun _ => .done

/-- Creates an organization owned by the super administrator, or waiting for an invited owner. -/
def createPlatformOrganization (caller : Caller) (mode : OrganizationMode) (input : NewPlatformOrganization)
    (organizationId : Nat) : Statement Outcome := do
  let principal ← identity caller
  let actor ← .ofExcept (requirePlatform principal true caller.now)
  .ensure (validSlug input.slug && validName input.name) (.invalid "organization is invalid")
  ensureOrganizationCapacity mode
  insertOrganization ⟨organizationId, input.slug, input.name, input.ownership.status⟩
  let outcome ← provideOwner actor organizationId input.ownership
  writeAudit { actorUserId := some actor.userId, action := "organization.created",
               organizationId := some organizationId }
  return outcome

/-! ## Invitations -/

/-- Grants what the invitation is to. A role the user has already is left alone. -/
def grantInvited (invitation : Invitation) (userId : Nat) : Statement Unit :=
  match invitation.invitedTo with
  | .project projectId role => do
    grantOrganizationRoleIfAbsent ⟨invitation.organizationId, userId, .member⟩
    grantProjectRoleIfAbsent ⟨invitation.organizationId, projectId, userId, role⟩
  | .organization role => do
    grantOrganizationRoleIfAbsent ⟨invitation.organizationId, userId, role⟩
    if role = .owner then activateWhenOwned invitation.organizationId else pure ()

def grantAndConsume (invitation : Invitation) (userId : Nat) (now : DateTime) : Statement Unit := do
  let consumed ← consumeInvitation invitation.id userId now
  .ensure consumed .unusable
  grantInvited invitation userId
  writeAudit { actorUserId := some userId, action := "invitation.accepted",
               organizationId := some invitation.organizationId, projectId := invitation.invitedTo.projectId,
               invitationId := some invitation.id, newRole := some invitation.invitedTo.roleName }

/-- Someone without an account accepts an invitation. The ids of the user and of the session are
drawn; a malformed token has no digest. -/
structure NewUserAcceptance where
  tokenDigest : Option Nat
  passwordValid : Bool
  displayName : String
  userId : Nat
  sessionId : Nat
  sessionExpiresAt : DateTime
  now : DateTime

def acceptNewUser (input : NewUserAcceptance) (now : DateTime) : Statement Outcome := do
  .ensure input.passwordValid (.invalid "password is invalid")
  .ensure (validName input.displayName) (.invalid "display name is invalid")
  let digest ← .ofOption .unusable input.tokenDigest
  let found ← invitationForUpdate digest
  let row ← .ofOption .unusable (found.filter fun i => i.isLive input.now)
  let taken ← .query fun db => db.directory.users.any fun u => u.email = row.recipientEmail
  .ensure (!taken) (.invitationConflict .requiresSignIn)
  insertVerified input.userId row.recipientEmail now
  grantAndConsume row input.userId now
  .exec (fun _ => [.session input.sessionId])
    (fun _ => [.insertSession ⟨input.sessionId, input.userId, some row.organizationId, input.sessionExpiresAt, none, none⟩])
    fun _ => .accepted row.organizationId input.userId

/-- The locked account is the verified recipient of the invitation. -/
def isRecipient (invitation : Invitation) (user : Option User) : Bool :=
  user.any fun u => u.emailVerifiedAt.isSome && u.email = invitation.recipientEmail

def acceptAsRecipient (principal : IdentityPrincipal) (row : Invitation) (now : DateTime) : Statement Outcome := do
  let account ← activeUserForUpdate principal.userId
  .ensure (isRecipient row account) (.invitationConflict .accountMismatch)
  grantAndConsume row principal.userId now
  return .accepted row.organizationId principal.userId

/-- Accepts an invitation for the signed-in user. Accepting one again changes nothing. -/
def acceptExistingUser (caller : Caller) (tokenDigest : Option Nat) (now : DateTime) : Statement Outcome := do
  let principal ← identity caller
  let digest ← .ofOption .unusable tokenDigest
  let found ← invitationForUpdate digest
  let row ← .ofOption .unusable found
  if row.acceptedByUserId = some principal.userId then return .done
  else if !row.isLive caller.now then .fail .unusable
  else acceptAsRecipient principal row now

/-! ## Requests -/

inductive Request where
  | setUserStatus (caller : Caller) (userId : Nat) (disabled : Bool) (now : DateTime)
  | grantSuperAdmin (caller : Caller) (userId : Nat) (now : DateTime)
  | revokeSuperAdmin (caller : Caller) (userId : Nat) (now : DateTime)
  | recoverSuperAdmin (authorized : Bool) (email : String) (now : DateTime)
  | updateOrganizationMember (caller : Caller) (organizationId userId : Nat) (role : OrganizationRole)
  | removeOrganizationMember (caller : Caller) (organizationId userId : Nat) (now : DateTime)
  | createPlatformOrganization (caller : Caller) (mode : OrganizationMode) (input : NewPlatformOrganization)
      (organizationId : Nat)
  | acceptNewUser (input : NewUserAcceptance) (now : DateTime)
  | acceptExistingUser (caller : Caller) (tokenDigest : Option Nat) (now : DateTime)

def serve : Request → Statement Outcome
  | .setUserStatus caller userId disabled now => setUserStatus caller userId disabled now
  | .grantSuperAdmin caller userId now => grantSuperAdmin caller userId now
  | .revokeSuperAdmin caller userId now => revokeSuperAdmin caller userId now
  | .recoverSuperAdmin authorized email now => recoverSuperAdmin authorized email now
  | .updateOrganizationMember caller organizationId userId role =>
    updateOrganizationMember caller organizationId userId role
  | .removeOrganizationMember caller organizationId userId now =>
    removeOrganizationMember caller organizationId userId now
  | .createPlatformOrganization caller mode input organizationId =>
    createPlatformOrganization caller mode input organizationId
  | .acceptNewUser input now => acceptNewUser input now
  | .acceptExistingUser caller tokenDigest now => acceptExistingUser caller tokenDigest now

abbrev World := ReadCommitted.World Db Write Lock AccessError Outcome

/-- Requests are started, run statement by statement in any order, and abandoned. -/
def step (w : World) (s : ReadCommitted.Step Request) : Answer AccessError Outcome × World :=
  ReadCommitted.step Db.apply serve w s

end Okoscope.Server.AccessService
