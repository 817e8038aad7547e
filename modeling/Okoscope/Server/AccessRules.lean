import Okoscope.Server.AccessService

/-!
# Rules for the statements of the access tables

For each statement, what it writes, and what a transaction has to meet before it under
any discipline.
-/
namespace Okoscope.Server.AccessRules

open Lib Lib.ReadCommitted Lib.ReadCommitted.Discipline
open AccessTables AccessService List

/-! ## Kinds of writes -/

variable {userId organizationId : Nat} {now : DateTime} {membership : Membership}

variable {next : Option OrganizationRole} {organization : Organization} {α : Type}

section
variable {p : Write → Prop}

theorem writesOnly_identity {caller : Caller} : (identity caller).WritesOnly p :=
  writesOnly_bind writesOnly_query fun _ => writesOnly_ofOption

theorem writesOnly_lockAuthority : lockAuthority.WritesOnly p := writesOnly_exec (by simp)

theorem writesOnly_organizationMember : (organizationMember organizationId userId).WritesOnly p :=
  writesOnly_bind writesOnly_query fun _ => writesOnly_ofOption

theorem writesOnly_invitationForUpdate {tokenDigest : Nat} : (invitationForUpdate tokenDigest).WritesOnly p :=
  writesOnly_exec (by simp)

theorem writesOnly_activeUserByEmailForUpdate {email : String} : (activeUserByEmailForUpdate email).WritesOnly p :=
  writesOnly_exec (by simp)

theorem writesOnly_writeAudit {record : AuditRecord} (h : p (.audit record)) : (writeAudit record).WritesOnly p :=
  writesOnly_exec fun _ => forall_mem_singleton.mpr h

/-- The end of a request: its record, and the outcome. -/
theorem writesOnly_audited {record : AuditRecord} (h : p (.audit record)) {outcome : α} :
    (writeAudit record >>= fun _ => pure outcome : Statement α).WritesOnly p :=
  writesOnly_bind (writesOnly_writeAudit h) fun _ => writesOnly_pure

theorem writesOnly_revokeSessions {organizationId : Option Nat}
    (h : p (.revokeSessions userId organizationId now)) : (revokeSessions userId organizationId now).WritesOnly p :=
  writesOnly_exec fun _ => forall_mem_singleton.mpr h

theorem writesOnly_grantAssignment {grantedByUserId : Option Nat}
    (h : p (.assign userId grantedByUserId now)) : (grantAssignment userId grantedByUserId now).WritesOnly p :=
  writesOnly_exec fun _ => forall_mem_singleton.mpr h

theorem forall_mem_ite {q : α → Prop} {c : Bool} {a : α} (h : q a) : ∀ b ∈ if c then [a] else [], q b := by
  cases c
  · exact forall_mem_nil _
  · exact forall_mem_singleton.mpr h

theorem forall_mem_ite_nil {q : α → Prop} {c : Bool} {a : α} (h : q a) : ∀ b ∈ if c then [] else [a], q b := by
  cases c
  · exact forall_mem_singleton.mpr h
  · exact forall_mem_nil _

theorem writesOnly_grantOrganizationRoleIfAbsent (h : p (.insertMembership membership)) :
    (grantOrganizationRoleIfAbsent membership).WritesOnly p :=
  writesOnly_exec fun _ => forall_mem_ite_nil h

theorem writesOnly_grantProjectRoleIfAbsent {membership : ProjectMembership}
    (h : p (.insertProjectMembership membership)) : (grantProjectRoleIfAbsent membership).WritesOnly p :=
  writesOnly_exec fun _ => forall_mem_ite_nil h

theorem writesOnly_activateWhenOwned (h : p (.activate organizationId)) :
    (activateWhenOwned organizationId).WritesOnly p :=
  writesOnly_exec fun _ => forall_mem_ite h

theorem writesOnly_consumeInvitation {invitationId : Nat}
    (h : p (.consume invitationId userId now)) : (consumeInvitation invitationId userId now).WritesOnly p :=
  writesOnly_exec fun _ => forall_mem_ite h

theorem writesOnly_changeOrganizationRole (h : p (roleWrite organizationId userId next)) :
    (changeOrganizationRole organizationId userId next).WritesOnly p :=
  writesOnly_guarded fun _ => forall_mem_ite h

theorem writesOnly_ensureOrganizationCapacity {mode : OrganizationMode} :
    (ensureOrganizationCapacity mode).WritesOnly p := by
  cases mode with
  | multiple => trivial
  | single =>
    exact writesOnly_bind writesOnly_lockAuthority fun _ =>
      writesOnly_bind writesOnly_query fun _ => writesOnly_ensure

theorem writesOnly_provideOwner {actor : IdentityPrincipal} {ownership : Ownership}
    (hm : p (.insertMembership ⟨organizationId, actor.userId, .owner⟩)) (hi : ∀ i, p (.insertInvitation i)) :
    (provideOwner actor organizationId ownership).WritesOnly p := by
  cases ownership with
  | selfOwner => exact writesOnly_bind (writesOnly_guarded fun _ => forall_mem_singleton.mpr hm) fun _ => writesOnly_pure
  | invitedOwner =>
    exact writesOnly_bind writesOnly_ofExcept fun invitation =>
      writesOnly_exec fun _ => forall_mem_singleton.mpr (hi invitation)

theorem writesOnly_grantInvited {invitation : Invitation} (hm : ∀ m, p (.insertMembership m))
    (hp : ∀ m, p (.insertProjectMembership m)) (ha : p (.activate invitation.organizationId)) :
    (grantInvited invitation userId).WritesOnly p := by
  rw [grantInvited]
  split
  · exact writesOnly_bind (writesOnly_grantOrganizationRoleIfAbsent (hm _)) fun _ =>
      writesOnly_grantProjectRoleIfAbsent (hp _)
  refine writesOnly_bind (writesOnly_grantOrganizationRoleIfAbsent (hm _)) fun _ => ?_
  split
  · exact writesOnly_activateWhenOwned ha
  · exact writesOnly_pure

end

/-! ## Rules -/

section
variable {D : Discipline Db Lock} {post : Unit → List Lock → List Write → Db → Prop} {held : List Lock} {ws : List Write}
  {s : Db}

/-- A request begins with its caller and what the caller may do. -/
theorem wp_actor {β : Type} {caller : Caller} {check : IdentityPrincipal → Except AccessError α} {rest : α → Statement β}
    {post : β → List Lock → List Write → Db → Prop} (h : ∀ actor held s, D.wp Db.apply post (rest actor) held ws s) :
    D.wp Db.apply post (identity caller >>= fun principal => .ofExcept (check principal) >>= rest) held ws s :=
  wp_bind_reads writesOnly_identity fun _ _ _ _ =>
    wp_bind_reads writesOnly_ofExcept fun actor held s _ => h actor held s

theorem wp_lockAuthority (h : ∀ s', D.Rely held s s' → D.inv s' → post () (held ++ [.authority]) ws s') :
    D.wp Db.apply post lockAuthority held ws s := by
  refine wp_exec fun s' hr hi => ?_
  rw [append_nil]
  exact h s' hr hi

theorem wp_setDisabled {disabled : Bool} (h : ∀ s', D.Rely held s s' → D.inv s' →
      (applyAll Db.apply s' ws).directory.refusesDisabling userId disabled now = false →
      post () (held ++ [.user userId]) (ws ++ [.setDisabled userId disabled now]) s') :
    D.wp Db.apply post (setDisabled userId disabled now) held ws s := by
  refine wp_guarded fun s' hr hi hnone => ?_
  split at hnone
  · cases hnone
  next hpass =>
  split at hnone
  next hfound =>
    rw [if_pos hfound, if_pos hfound]
    exact h s' hr hi (Bool.eq_false_iff.mpr hpass)
  · cases hnone

/-- A membership that is not there needs no write. -/
theorem wp_changeOrganizationRole
    (h : ∀ s', D.Rely held s s' → D.inv s' →
      (applyAll Db.apply s' ws).directory.refusesRoleChange organizationId userId next = false →
      post () (held ++ [.membership organizationId userId]) (ws ++ [roleWrite organizationId userId next]) s')
    (hnot : ∀ s', D.Rely held s s' → D.inv s' → post () held ws s') :
    D.wp Db.apply post (changeOrganizationRole organizationId userId next) held ws s := by
  refine wp_guarded fun s' hr hi hnone => ?_
  split at hnone
  · cases hnone
  next hpass =>
  split
  · exact h s' hr hi (Bool.eq_false_iff.mpr hpass)
  · rw [append_nil, append_nil]
    exact hnot s' hr hi

theorem wp_insertVerified {email : String} (h : ∀ s', D.Rely held s s' → D.inv s' →
      post () (held ++ [.user userId, .email email]) (ws ++ [.insertUser ⟨userId, email, none, some now⟩]) s') :
    D.wp Db.apply post (insertVerified userId email now) held ws s :=
  wp_guarded fun s' hr hi _ => h s' hr hi

end

end Okoscope.Server.AccessRules
