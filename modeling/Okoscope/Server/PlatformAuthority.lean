import Okoscope.Server.AccessRules

/-!
# The platform keeps a super administrator

Triggers protect the last active super administrator, but a trigger sees only what is
committed when its statement runs. All transactions that revoke the role or change users
take the authority lock first, so what a trigger saw still stands when they commit. The
commits that are made without the lock take nobody's authority away.
-/
namespace Okoscope.Server.PlatformAuthority

open Lib Lib.Table Lib.Run Lib.ReadCommitted
open Lib.ReadCommitted.Discipline
open AccessTables AccessService AccessRules
open Directory List

/-- There is an enabled and verified super administrator. -/
def hasActiveSuperAdmin (d : Directory) : Bool :=
  d.assignments.any fun a => a.revokedAt.isNone && d.isActiveUser a.userId

variable {d : Directory} {userId : Nat} {now : DateTime} {held : List Lock} {s : Db}

theorem hasActiveSuperAdmin_iff : hasActiveSuperAdmin d ↔ ∃ x, d.isSuperAdmin x ∧ d.isActiveUser x := by
  simp only [hasActiveSuperAdmin, isSuperAdmin_iff, any_eq_true, Bool.and_eq_true, Option.isNone_iff_eq_none]
  constructor
  · intro h
    obtain ⟨a, ha, hr, hact⟩ := h
    exact ⟨a.userId, ⟨a, ha, rfl, hr⟩, hact⟩
  · intro h
    obtain ⟨_, ⟨a, ha, rfl, hr⟩, hact⟩ := h
    exact ⟨a, ha, hr, hact⟩

theorem exists_of_hasOtherSuperAdmin (h : d.hasOtherSuperAdmin userId) :
    ∃ y, y ≠ userId ∧ d.isSuperAdmin y ∧ d.isActiveUser y := by
  simp only [hasOtherSuperAdmin, any_eq_true, Bool.and_eq_true, decide_eq_true_eq, Option.isNone_iff_eq_none] at h
  obtain ⟨a, ha, ⟨hr, hact⟩, hne⟩ := h
  exact ⟨a.userId, hne, isSuperAdmin_iff.mpr ⟨a, ha, rfl, hr⟩, hact⟩

/-! ## What the writes do to assignments -/

theorem isSuperAdmin_assign {x : Nat} {by' : Option Nat}
    (h : d.isSuperAdmin x) : (d.apply (.assign userId by' now)).isSuperAdmin x := by
  obtain ⟨a, ha, rfl, hr⟩ := isSuperAdmin_iff.mp h
  refine isSuperAdmin_iff.mpr ?_
  simp only [apply, assign, upsert]
  split
  · refine ⟨_, mem_updateWhere.mpr ⟨a, ha, rfl⟩, ?_⟩
    split
    · exact ⟨rfl, rfl⟩
    · exact ⟨rfl, hr⟩
  · exact ⟨a, mem_append_left _ ha, rfl, hr⟩

/-! ## The discipline -/

/-- What a commit may change. Without the authority lock assignments stay as they are and nobody
becomes inactive; somebody becomes active only with that lock or the lock of their row; and the
platform keeps a super administrator. -/
structure Fits (locks : List Lock) (s t : Directory) : Prop where
  assignments : .authority ∉ locks → t.assignments = s.assignments
  active : .authority ∉ locks → ∀ x, s.isActiveUser x → t.isActiveUser x
  newlyActive : ∀ x, t.isActiveUser x → s.isActiveUser x ∨ .authority ∈ locks ∨ .user x ∈ locks
  keeps : hasActiveSuperAdmin s → hasActiveSuperAdmin t

def authority : Discipline Db Lock where
  inv _ := True
  guarantee locks s t := Fits locks s.directory t.directory

theorem Fits.mono {locks locks' : List Lock} {s t : Directory} (h : Fits locks s t) (hsub : locks ⊆ locks') :
    Fits locks' s t where
  assignments hn := h.assignments fun ha => hn (hsub ha)
  active hn := h.active fun ha => hn (hsub ha)
  newlyActive x hx := (h.newlyActive x hx).imp_right fun hl => hl.imp (fun ha => hsub ha) fun hu => hsub hu
  keeps := h.keeps

theorem Fits.refl {locks : List Lock} {s : Directory} : Fits locks s s :=
  ⟨fun _ => rfl, fun _ _ hx => hx, fun _ hx => .inl hx, fun hs => hs⟩

/-- The holder of the authority lock sees no assignment change and no one become inactive; whom it
holds locked does not become active either. -/
theorem stable_of_rely {t : Db} (ha : .authority ∈ held) (h : authority.Rely held s t) :
    t.directory.assignments = s.directory.assignments ∧ (∀ x, s.directory.isActiveUser x → t.directory.isActiveUser x) ∧
      ∀ x, .user x ∈ held → t.directory.isActiveUser x → s.directory.isActiveUser x := by
  refine Rely.le (r := fun s t : Db => t.directory.assignments = s.directory.assignments ∧
      (∀ x, s.directory.isActiveUser x → t.directory.isActiveUser x) ∧
      ∀ x, .user x ∈ held → t.directory.isActiveUser x → s.directory.isActiveUser x)
    (fun s => ⟨rfl, fun _ hx => hx, fun _ _ hx => hx⟩) ?_ ?_ h
  · intro s t u hst htu
    exact ⟨htu.1.trans hst.1, fun x hx => htu.2.1 x (hst.2.1 x hx),
      fun x hheld hx => hst.2.2 x hheld (htu.2.2 x hheld hx)⟩
  intro locks s t hd hfits
  have hn : .authority ∉ locks := fun hl => hd hl ha
  refine ⟨hfits.assignments hn, hfits.active hn, fun x hheld hx => ?_⟩
  obtain hs | hl | hl := hfits.newlyActive x hx
  · exact hs
  · exact absurd hl hn
  · exact absurd hheld (hd hl)

/-! ## Harmless writes -/

/-- A write to neither users nor assignments. -/
def Harmless (w : Write) : Prop :=
  match w.area with
  | some .users | some .assignments => False
  | _ => True

theorem commits_nil {held : List Lock} {s : Db} : authority.Commits Db.apply held [] s :=
  fun _ _ _ => ⟨trivial, Fits.refl⟩

/-- The rest of a transaction that only makes harmless writes. -/
theorem wp_harmless {α : Type} {t : Statement α} (ht : t.WritesOnly Harmless) {ws : List Write}
    (h : authority.Commits Db.apply held ws s) :
    authority.wp Db.apply (fun _ => authority.Commits Db.apply) t held ws s := by
  refine wp_commits (fun _ _ _ _ => Fits.mono) (fun _ _ _ w hw h => ⟨trivial, ?_⟩) ht h
  obtain ⟨-, h⟩ := h
  cases w <;> first
    | exact hw.elim
    | exact ⟨h.assignments, h.active, h.newlyActive, h.keeps⟩

/-! ## Writes that matter -/

section
variable (ha : .authority ∈ held)
include ha

/-- Disabling a user whom the trigger let pass, under the authority lock. -/
theorem commits_setDisabled {disabled : Bool} (hu : .user userId ∈ held)
    (hpass : s.directory.refusesDisabling userId disabled now = false) :
    authority.Commits Db.apply held [.setDisabled userId disabled now] s := by
  intro s' hr _
  obtain ⟨hassign, hactive, hnot⟩ := stable_of_rely ha hr
  refine ⟨trivial, fun hn => absurd ha hn, fun hn => absurd ha hn, fun _ _ => .inr (.inl ha), ?_⟩
  intro hs
  obtain ⟨x, hsuper, hact⟩ := hasActiveSuperAdmin_iff.mp hs
  refine hasActiveSuperAdmin_iff.mpr ?_
  by_cases hx : x = userId
  · subst hx
    cases disabled with
    | false => exact ⟨x, hsuper, isActiveUser_enabled hact⟩
    | true =>
      -- what the trigger saw then holds now
      have hsuper' : s.directory.isSuperAdmin x := by
        rw [isSuperAdmin, ← hassign]
        exact hsuper
      have hother : s.directory.hasOtherSuperAdmin x := by
        obtain ⟨u, hmem, rfl, hactive⟩ := isActiveUser_iff.mp (hnot x hu hact)
        have hrow := any_eq_false.mp hpass u hmem
        simp only [protectUserAuthority, hactive, isActive_setDisabled, hsuper'] at hrow
        by_contra hother
        simp [hother] at hrow
      obtain ⟨y, hyx, hys, hya⟩ := exists_of_hasOtherSuperAdmin hother
      rw [isSuperAdmin, ← hassign] at hys
      exact ⟨y, hys, (isActiveUser_setDisabled_ne hyx).trans (hactive y hya)⟩
  · exact ⟨x, hsuper, (isActiveUser_setDisabled_ne hx).trans hact⟩

/-- Revoking an assignment that the trigger let pass, under the authority lock. -/
theorem commits_revokeAssignment (hother : s.directory.hasOtherSuperAdmin userId) :
    authority.Commits Db.apply held [.revokeAssignment userId now] s := by
  intro s' hr _
  obtain ⟨hassign, hactive, -⟩ := stable_of_rely ha hr
  refine ⟨trivial, fun hn => absurd ha hn, fun hn => absurd ha hn, fun _ _ => .inr (.inl ha), ?_⟩
  intro _
  obtain ⟨y, hyx, hys, hya⟩ := exists_of_hasOtherSuperAdmin hother
  rw [isSuperAdmin, ← hassign] at hys
  obtain ⟨a, hmem, rfl, hr⟩ := isSuperAdmin_iff.mp hys
  refine hasActiveSuperAdmin_iff.mpr ⟨a.userId, isSuperAdmin_iff.mpr ⟨_, mem_updateWhere.mpr ⟨a, hmem, rfl⟩, ?_⟩, hactive _ hya⟩
  simp [hyx, hr]

theorem commits_assign {grantedByUserId : Option Nat}
    : authority.Commits Db.apply held [.assign userId grantedByUserId now] s := by
  intro s' _ _
  refine ⟨trivial, fun hn => absurd ha hn, fun hn => absurd ha hn, fun _ _ => .inr (.inl ha), ?_⟩
  intro hs
  obtain ⟨x, hsuper, hact⟩ := hasActiveSuperAdmin_iff.mp hs
  exact hasActiveSuperAdmin_iff.mpr ⟨x, isSuperAdmin_assign hsuper, hact⟩

end

theorem commits_insertUser {user : User} (hu : .user user.id ∈ held) :
    authority.Commits Db.apply held [.insertUser user] s := by
  intro s' _ _
  have hold : ∀ x, s'.directory.isActiveUser x → (s'.directory.apply (.insertUser user)).isActiveUser x := by
    intro x hx
    rw [isActiveUser_insertUser, hx]
    rfl
  refine ⟨trivial, fun _ => rfl, fun _ => hold, ?_, ?_⟩
  · intro x hx
    have hx' : (s'.directory.apply (.insertUser user)).isActiveUser x := hx
    rw [isActiveUser_insertUser, Bool.or_eq_true, Bool.and_eq_true, decide_eq_true_eq] at hx'
    obtain hx' | ⟨rfl, -⟩ := hx'
    · exact .inl hx'
    · exact .inr (.inr hu)
  · intro hs
    obtain ⟨x, hsuper, hact⟩ := hasActiveSuperAdmin_iff.mp hs
    exact hasActiveSuperAdmin_iff.mpr ⟨x, hsuper, hold x hact⟩

/-! ## The requests -/

variable {caller : Caller} {organizationId : Nat}

theorem keeps_setUserStatus {disabled : Bool} :
    authority.Keeps Db.apply (setUserStatus caller userId disabled now) := by
  intro s _
  refine wp_actor fun actor held s => ?_
  refine (wp_bind ..).mpr (wp_lockAuthority fun s _ _ => ?_)
  refine (wp_bind ..).mpr (wp_setDisabled fun s _ _ hpass => ?_)
  refine wp_harmless ?_ (commits_setDisabled (by simp) (by simp) hpass)
  exact writesOnly_bind (writesOnly_revokeSessions trivial) fun _ =>
    writesOnly_audited trivial

theorem keeps_grantSuperAdmin : authority.Keeps Db.apply (grantSuperAdmin caller userId now) := by
  intro s _
  refine wp_actor fun actor held s => ?_
  refine wp_bind_reads writesOnly_ensure fun _ held s _ => ?_
  refine (wp_bind ..).mpr (wp_lockAuthority fun s _ _ => ?_)
  refine wp_bind_reads writesOnly_query fun eligible held' s hsub => ?_
  refine wp_bind_reads writesOnly_ensure fun _ held'' s hsub' => ?_
  have ha : Lock.authority ∈ held'' := hsub' (hsub (by simp))
  refine (wp_bind ..).mpr (wp_exec fun s _ _ => ?_)
  refine wp_harmless ?_ (commits_assign (mem_append_left _ ha))
  exact writesOnly_audited trivial

theorem keeps_revokeSuperAdmin : authority.Keeps Db.apply (revokeSuperAdmin caller userId now) := by
  intro s _
  refine wp_actor fun actor held s => ?_
  refine (wp_bind ..).mpr (wp_lockAuthority fun s _ _ => ?_)
  refine wp_bind_reads writesOnly_query fun known held' s hsub => ?_
  refine wp_bind_reads writesOnly_ensure fun _ held'' s hsub' => ?_
  have ha : Lock.authority ∈ held'' := hsub' (hsub (by simp))
  have htail : ∀ actor : IdentityPrincipal, Tx.WritesOnly Harmless (do
      revokeSessions userId none now
      writeAudit { actorUserId := some actor.userId, action := "platform_role.revoked", targetUserId := some userId,
                   previousRole := some "super_admin" }
      return Outcome.done : Statement Outcome) := fun actor =>
    writesOnly_bind (writesOnly_revokeSessions trivial) fun _ =>
      writesOnly_audited trivial
  refine (wp_bind ..).mpr (wp_guarded fun s _ _ hnone => ?_)
  split at hnone
  · cases hnone
  next hpass =>
  split
  next hsuper =>
    -- the trigger on assignments lets one be revoked only beside another one
    have hother : (applyAll Db.apply s []).directory.hasOtherSuperAdmin userId := by
      obtain ⟨a, ha, rfl, hr⟩ := isSuperAdmin_iff.mp hsuper
      have hrow := any_eq_false.mp (Bool.eq_false_iff.mpr hpass) a ha
      simp [protectLastSuperAdmin, hr] at hrow
      exact hrow.1
    exact wp_harmless (htail actor) (commits_revokeAssignment (mem_append_left _ ha) hother)
  · -- an assignment that is not there, or revoked before, needs no write
    rw [append_nil, append_nil]
    exact wp_harmless (htail actor) commits_nil

theorem keeps_recoverSuperAdmin {authorized : Bool} {email : String} :
    authority.Keeps Db.apply (recoverSuperAdmin authorized email now) := by
  intro s _
  refine wp_bind_reads writesOnly_ensure fun _ held s _ => ?_
  refine (wp_bind ..).mpr (wp_lockAuthority fun s _ _ => ?_)
  refine wp_bind_reads writesOnly_activeUserByEmailForUpdate fun found held' s hsub => ?_
  refine wp_bind_reads writesOnly_ofOption fun user held'' s hsub' => ?_
  have ha : Lock.authority ∈ held'' := hsub' (hsub (by simp))
  refine (wp_bind ..).mpr (wp_exec fun s _ _ => ?_)
  refine wp_harmless ?_ (commits_assign (mem_append_left _ ha))
  exact writesOnly_audited trivial

theorem harmless_roleWrite {organizationId userId : Nat} {next : Option OrganizationRole} :
    Harmless (roleWrite organizationId userId next) := by
  cases next <;> trivial

theorem keeps_updateOrganizationMember {role : OrganizationRole} :
    authority.Keeps Db.apply (updateOrganizationMember caller organizationId userId role) := by
  intro s _
  refine wp_harmless ?_ commits_nil
  exact writesOnly_bind writesOnly_identity fun _ =>
    writesOnly_bind writesOnly_ofExcept fun _ =>
    writesOnly_bind writesOnly_organizationMember fun _ =>
    writesOnly_bind writesOnly_ensure fun _ =>
    writesOnly_bind writesOnly_ensure fun _ =>
    writesOnly_bind writesOnly_lockAuthority fun _ =>
    writesOnly_bind (writesOnly_changeOrganizationRole harmless_roleWrite) fun _ =>
    writesOnly_audited trivial

theorem keeps_removeOrganizationMember :
    authority.Keeps Db.apply (removeOrganizationMember caller organizationId userId now) := by
  intro s _
  refine wp_harmless ?_ commits_nil
  exact writesOnly_bind writesOnly_identity fun _ =>
    writesOnly_bind writesOnly_ofExcept fun _ =>
    writesOnly_bind writesOnly_organizationMember fun _ =>
    writesOnly_bind writesOnly_ensure fun _ =>
    writesOnly_bind writesOnly_lockAuthority fun _ =>
    writesOnly_bind (writesOnly_changeOrganizationRole harmless_roleWrite) fun _ =>
    writesOnly_bind (writesOnly_revokeSessions trivial) fun _ =>
    writesOnly_audited trivial

theorem keeps_createPlatformOrganization {mode : OrganizationMode} {input : NewPlatformOrganization} :
    authority.Keeps Db.apply (createPlatformOrganization caller mode input organizationId) := by
  intro s _
  refine wp_harmless ?_ commits_nil
  exact writesOnly_bind writesOnly_identity fun _ =>
    writesOnly_bind writesOnly_ofExcept fun _ =>
    writesOnly_bind writesOnly_ensure fun _ =>
    writesOnly_bind writesOnly_ensureOrganizationCapacity fun _ =>
    writesOnly_bind (writesOnly_guarded fun _ => forall_mem_singleton.mpr trivial) fun _ =>
    writesOnly_bind (writesOnly_provideOwner trivial fun _ => trivial) fun _ =>
    writesOnly_audited trivial

theorem harmless_grantAndConsume {invitation : Invitation} {userId : Nat} {now : DateTime} :
    (grantAndConsume invitation userId now).WritesOnly Harmless :=
  writesOnly_bind (writesOnly_consumeInvitation trivial) fun _ =>
    writesOnly_bind writesOnly_ensure fun _ =>
    writesOnly_bind (writesOnly_grantInvited (fun _ => trivial) (fun _ => trivial) trivial) fun _ =>
    writesOnly_writeAudit trivial

theorem keeps_acceptNewUser {input : NewUserAcceptance} : authority.Keeps Db.apply (acceptNewUser input now) := by
  intro s _
  refine wp_bind_reads writesOnly_ensure fun _ held s _ => ?_
  refine wp_bind_reads writesOnly_ensure fun _ held s _ => ?_
  refine wp_bind_reads writesOnly_ofOption fun digest held s _ => ?_
  refine wp_bind_reads writesOnly_invitationForUpdate fun found held s _ => ?_
  refine wp_bind_reads writesOnly_ofOption fun row held s _ => ?_
  refine wp_bind_reads writesOnly_query fun taken held s _ => ?_
  refine wp_bind_reads writesOnly_ensure fun _ held s _ => ?_
  refine (wp_bind ..).mpr (wp_insertVerified fun s _ _ => ?_)
  refine wp_harmless ?_ (commits_insertUser (by simp))
  refine writesOnly_bind harmless_grantAndConsume fun _ => writesOnly_exec ?_
  intro db w hw
  rw [mem_singleton.mp hw]
  trivial

theorem keeps_acceptExistingUser {tokenDigest : Option Nat} :
    authority.Keeps Db.apply (acceptExistingUser caller tokenDigest now) := by
  intro s _
  refine wp_harmless ?_ commits_nil
  refine writesOnly_bind writesOnly_identity fun principal =>
    writesOnly_bind writesOnly_ofOption fun digest =>
    writesOnly_bind writesOnly_invitationForUpdate fun found =>
    writesOnly_bind writesOnly_ofOption fun row => ?_
  split
  · exact writesOnly_pure
  split
  · trivial
  exact writesOnly_bind (writesOnly_exec (by simp)) fun _ =>
    writesOnly_bind writesOnly_ensure fun _ =>
    writesOnly_bind harmless_grantAndConsume fun _ => writesOnly_pure

theorem keeps_serve {request : Request} : authority.Keeps Db.apply (serve request) := by
  cases request with
  | setUserStatus => exact keeps_setUserStatus
  | grantSuperAdmin => exact keeps_grantSuperAdmin
  | revokeSuperAdmin => exact keeps_revokeSuperAdmin
  | recoverSuperAdmin => exact keeps_recoverSuperAdmin
  | updateOrganizationMember => exact keeps_updateOrganizationMember
  | removeOrganizationMember => exact keeps_removeOrganizationMember
  | createPlatformOrganization => exact keeps_createPlatformOrganization
  | acceptNewUser => exact keeps_acceptNewUser
  | acceptExistingUser => exact keeps_acceptExistingUser

/-- Once the platform has an active super administrator, it has one at every later moment of
every run. -/
theorem super_admin_kept (db : Db) (steps more : List (ReadCommitted.Step Request))
    (h : hasActiveSuperAdmin (trace AccessService.step (World.init db) steps).2.committed.directory) :
    hasActiveSuperAdmin (trace AccessService.step (World.init db) (steps ++ more)).2.committed.directory := by
  have hfree : ∀ (w : AccessService.World) (as : List (ReadCommitted.Step Request)),
      Along AccessService.step (fun w a => w.meets Terms.free a) w as :=
    fun w _ => along_of_always (fun w a => meets_free w a) w
  have hd := disciplined_trace contract_commits (s := db) (D := authority) trivial
    (fun t s hs => keeps_serve s hs) (hfree (World.init db) steps)
  rw [trace_append]
  refine trace_guarantee contract_commits (D := authority) (r := fun s t : Db =>
      hasActiveSuperAdmin s.directory → hasActiveSuperAdmin t.directory)
    (fun _ hs => hs) (fun _ _ _ hst htu hs => htu (hst hs)) ?_ (fun t s hs => keeps_serve s hs) hd (hfree _ more) h
  intro locks s t hfits
  exact hfits.keeps

/-- Two super administrators, each in a session with a confirmed password. -/
def twoAdmins : Db where
  directory :=
    { users := [⟨1, "a@x", none, some 0⟩, ⟨2, "b@x", none, some 0⟩]
      organizations := []
      memberships := []
      assignments := [⟨1, none, 0, none⟩, ⟨2, some 1, 0, none⟩] }
  projectMemberships := []
  sessions := [⟨11, 1, none, 100, none, some 100⟩, ⟨12, 2, none, 100, none, some 100⟩]
  invitations := []
  auditRecords := []

/-- Each revokes the role of the other; the second one is refused. -/
def mutualRevocation : List (ReadCommitted.Step Request) :=
  [.start (.revokeSuperAdmin ⟨11, 5⟩ 2 5), .start (.revokeSuperAdmin ⟨12, 5⟩ 1 5)] ++
    ([.advance 1] ++ replicate 7 (.advance 0) ++ replicate 4 (.advance 1))

theorem super_admin_kept_mutualRevocation :
    hasActiveSuperAdmin (trace AccessService.step (World.init twoAdmins) ([] ++ mutualRevocation)).2.committed.directory =
      true :=
  super_admin_kept twoAdmins [] mutualRevocation (by decide +kernel)

end Okoscope.Server.PlatformAuthority
