import Okoscope.Server.AccessRules

/-!
# Authority over role changes

A request to change a member's role reads the actor's role and the member's before its
transaction takes the authority lock, and does not read them again. What it checks is
what it read. If nobody else changes one of the two roles from the start of the request to
its commit, the change is authorized by them, and its audit record names the role it ended.
-/
namespace Okoscope.Server.RoleChanges

open Lib Lib.Run Lib.ReadCommitted Lib.ReadCommitted.Discipline
open AccessTables AccessRules
open AccessService List

/-! ## What a change writes -/

/-- The audit record of a change. -/
def auditRecord (change : RoleChange) : AuditRecord where
  actorUserId := some change.actor.userId
  action := if change.next.isSome then "organization_member.role_changed" else "organization_member.removed"
  organizationId := some change.organizationId
  targetUserId := some change.userId
  previousRole := some (roleName change.current)
  newRole := change.next.map roleName

/-- The roles were read in good states, and permit the change. It writes the new role, if the member is
still one, ends sessions if the membership ends, and is recorded. -/
structure Made (good : Db → Prop) (change : RoleChange) (ws : List Write) : Prop where
  permitted : change.isPermitted
  current : ∃ db, good db ∧ db.directory.role? change.organizationId change.userId = some change.current
  role : change.actor.isSuperAdmin = false → change.actor.organizationRole.isSome ∧
    ∃ db, good db ∧ db.directory.role? change.organizationId change.actor.userId = change.actor.organizationRole
  writes : ∃ effect ended, ws = effect ++ ended ++ [.audit (auditRecord change)] ∧
    (effect = [] ∨ effect = [roleWrite change.organizationId change.userId change.next]) ∧
    (ended = [] ∨ ∃ now, ended = [.revokeSessions change.userId (some change.organizationId) now])

/-- What a transaction that ends with an outcome has written. -/
def Ends (good : Db → Prop) (outcome : Outcome) (ws : List Write) : Prop :=
  ∀ change, outcome = .roleChanged change → Made good change ws

abbrev Serves (good : Db → Prop) (t : Statement Outcome) : List Lock → List Write → Db → Prop :=
  (within good).wp Db.apply (fun outcome _ ws _ => Ends good outcome ws) t

variable {organizationId : Nat} {caller : Caller} {s : Db} {good : Db → Prop}

/-- Whoever is admitted to the administration of an organization, other than super administrators, has a role in
it, the one they were authenticated with. -/
theorem organizationAdmin_role {principal actor : IdentityPrincipal} {db : Db}
    (hidentity : authenticate caller db = some principal)
    (hadmin : organizationAdmin principal organizationId = .ok actor) (hs : actor.isSuperAdmin = false) :
    actor.organizationRole.isSome ∧ db.directory.role? organizationId actor.userId = actor.organizationRole := by
  obtain ⟨session, -, rfl⟩ := Option.map_eq_some_iff.mp hidentity
  unfold organizationAdmin at hadmin
  split at hadmin
  next hsuper =>
    cases hadmin
    exact absurd (hs.symm.trans hsuper) Bool.false_ne_true
  split at hadmin
  · cases hadmin
  next hactive =>
  split at hadmin
  · cases hadmin
  next hrole =>
    cases hadmin
    have hactive : session.organizationId = some organizationId := not_not.mp hactive
    simp only [hactive, Option.bind_some] at hrole ⊢
    refine ⟨?_, trivial⟩
    cases hr : db.directory.role? organizationId session.userId with
    | none => simp [hr] at hrole
    | some => rfl

/-- What is common to both requests: the checks come before the lock, the effect after it. -/
theorem wp_change {userId : Nat} {rest : IdentityPrincipal → OrganizationRole → Statement Outcome}
    (h : ∀ actor current s, (∃ db, good db ∧ db.directory.role? organizationId userId = some current) →
      (actor.isSuperAdmin = false → actor.organizationRole.isSome ∧
        ∃ db, good db ∧ db.directory.role? organizationId actor.userId = actor.organizationRole) →
      Serves good (rest actor current) [] [] s) :
    Serves good (do
      let principal ← identity caller
      let actor ← .ofExcept (organizationAdmin principal organizationId)
      let current ← organizationMember organizationId userId
      rest actor current) [] [] s := by
  refine (wp_bind ..).mpr ((wp_bind ..).mpr (wp_query fun db _ hdb => wp_ofOption fun principal hprincipal => ?_))
  refine (wp_bind ..).mpr (wp_ofExcept fun actor hactor => ?_)
  refine (wp_bind ..).mpr ((wp_bind ..).mpr (wp_query fun db' _ hdb' => wp_ofOption fun current hcurrent => ?_))
  refine h actor current _ ⟨db', hdb', ?_⟩ fun hs => ?_
  · split at hcurrent
    · exact hcurrent
    · cases hcurrent
  · obtain ⟨hsome, hrole⟩ := organizationAdmin_role hprincipal hactor hs
    exact ⟨hsome, db, hdb, hrole⟩

/-- With or without a write to the member's row, the rest follows. -/
theorem wp_effect {userId : Nat} {next : Option OrganizationRole} {rest : Statement Outcome} {held : List Lock}
    (h : ∀ effect held s, (effect = [] ∨ effect = [roleWrite organizationId userId next]) → Serves good rest held effect s) :
    Serves good (do
      lockAuthority
      changeOrganizationRole organizationId userId next
      rest) held [] s := by
  refine wp_bind_reads writesOnly_lockAuthority fun _ held s _ => ?_
  exact (wp_bind ..).mpr
    (wp_changeOrganizationRole (fun s _ _ _ => h _ _ s (.inr rfl)) fun s _ _ => h _ _ s (.inl rfl))

theorem wp_updateOrganizationMember {userId : Nat} {role : OrganizationRole} :
    Serves good (updateOrganizationMember caller organizationId userId role) [] [] s := by
  refine wp_change fun actor current s hcurrent hrole => ?_
  refine (wp_bind ..).mpr (wp_ensure fun hpermitted => ?_)
  refine wp_bind_reads writesOnly_ensure fun _ held s _ => ?_
  refine wp_effect fun effect held s heffect => ?_
  refine (wp_bind ..).mpr (wp_exec fun s _ _ => ?_)
  intro change hc
  cases hc
  exact ⟨hpermitted, hcurrent, hrole, effect, [], by rw [append_nil]; rfl, heffect, .inl rfl⟩

theorem wp_removeOrganizationMember {userId : Nat} {now : DateTime} :
    Serves good (removeOrganizationMember caller organizationId userId now) [] [] s := by
  refine wp_change fun actor current s hcurrent hrole => ?_
  refine (wp_bind ..).mpr (wp_ensure fun hpermitted => ?_)
  refine wp_effect fun effect held s heffect => ?_
  refine (wp_bind ..).mpr (wp_exec fun s _ _ => ?_)
  refine (wp_bind ..).mpr (wp_exec fun s _ _ => ?_)
  intro change hc
  cases hc
  exact ⟨hpermitted, hcurrent, hrole, effect, _, rfl, heffect, .inr ⟨now, rfl⟩⟩

/-! ### Other requests change no role of a member -/

/-- Not a change of a member's role. -/
def IsOther : Outcome → Prop
  | .roleChanged _ => False
  | _ => True

theorem wp_other {t : Statement Outcome} (h : t.Returns IsOther) : Serves good t [] [] s := by
  refine wp_mono ?_ (wp_of_returns h [] [] s)
  intro outcome held ws s ho change hc
  rw [hc] at ho
  exact ho.elim

theorem returns_provideOwner {actor : IdentityPrincipal} {ownership : Ownership} :
    (provideOwner actor organizationId ownership).Returns IsOther := by
  cases ownership with
  | selfOwner => exact returns_then fun _ => trivial
  | invitedOwner => exact returns_then fun _ _ => trivial

theorem wp_serve {request : Request} : Serves good (serve request) [] [] s := by
  cases request with
  | updateOrganizationMember =>
    exact wp_updateOrganizationMember
  | removeOrganizationMember =>
    exact wp_removeOrganizationMember
  | createPlatformOrganization =>
    refine wp_other ?_
    refine returns_then fun _ => returns_then fun actor => returns_then fun _ => returns_then fun _ => returns_then fun _ => ?_
    refine returns_bind returns_provideOwner fun outcome ho => ?_
    exact returns_then fun _ => ho
  | acceptNewUser =>
    refine wp_other ?_
    repeat refine returns_then fun _ => ?_
    exact fun _ => trivial
  | acceptExistingUser =>
    refine wp_other ?_
    refine returns_then fun principal => returns_then fun _ => returns_then fun _ => returns_then fun row => ?_
    split
    · exact True.intro
    split
    · trivial
    repeat refine returns_then fun _ => ?_
    exact True.intro
  | _ =>
    refine wp_other ?_
    repeat refine returns_then fun _ => ?_
    exact True.intro

/-! ## The effect of a change -/

variable {change : RoleChange} {ws : List Write}

theorem auditRecords_made (h : Made good change ws) {db : Db} :
    (applyAll Db.apply db ws).auditRecords = db.auditRecords ++ [auditRecord change] := by
  obtain ⟨_, _, rfl, heffect, hended⟩ := h.writes
  cases hn : change.next <;> obtain rfl | ⟨now, rfl⟩ := hended <;> obtain rfl | rfl := heffect <;>
    simp [roleWrite, hn, Db.apply, auditAfter]

/-- A change leaves every role as it is but that of its target, which it leaves or makes the new one. -/
theorem role?_made (h : Made good change ws) {db : Db} {o x : Nat}
    {r : OrganizationRole} (hr : db.directory.role? o x = some r) :
    (applyAll Db.apply db ws).directory.role? o x = some r ∨ (o = change.organizationId ∧ x = change.userId ∧
        (applyAll Db.apply db ws).directory.role? o x = change.next) := by
  obtain ⟨effect, ended, rfl, heffect, hended⟩ := h.writes
  have hdir : (applyAll Db.apply db (effect ++ ended ++ [.audit (auditRecord change)])).directory =
      (applyAll Db.apply db effect).directory := by
    rw [append_assoc, applyAll_append]
    obtain rfl | ⟨_, rfl⟩ := hended <;> rfl
  rw [hdir]
  obtain rfl | rfl := heffect
  · exact .inl hr
  by_cases ht : o = change.organizationId ∧ x = change.userId
  · refine .inr ⟨ht.1, ht.2, ?_⟩
    cases hn : change.next with
    | none => exact Directory.role?_removeMembership.trans (if_pos ht)
    | some role =>
      refine Directory.role?_setRole.trans ?_
      rw [if_pos ht, hr, Option.map_some]
  · refine .inl ?_
    cases hn : change.next with
    | none => exact (Directory.role?_removeMembership.trans (if_neg ht)).trans hr
    | some role => exact (Directory.role?_setRole.trans (if_neg ht)).trans hr

/-! ## Changes while roles stand -/

/-- The step leaves the roles of the users in the organization as they are. -/
def KeepsRoles (organizationId : Nat) (users : List Nat) (w : World)
    (a : ReadCommitted.Step Request) : Prop :=
  ∀ user ∈ users,
    (step w a).2.committed.directory.role? organizationId user = w.committed.directory.role? organizationId user

instance (organizationId : Nat) (users : List Nat) (w : World)
    (a : ReadCommitted.Step Request) : Decidable (KeepsRoles organizationId users w a) :=
  inferInstanceAs (Decidable (∀ user ∈ users, _))

/-- The change of a role that a commit makes is one the actor may make in the role they have, and is
recorded as what it is. -/
structure Authorized (change : RoleChange) (before after : Db) : Prop where
  manages : ∀ o x r, before.directory.role? o x = some r → after.directory.role? o x ≠ some r →
    o = change.organizationId ∧ x = change.userId ∧ ∃ role, before.directory.role? o change.actor.userId = some role ∧
      canManageOrganizationRole role r (after.directory.role? o x) ∧ (role = .admin → r ≠ .owner)
  recorded : ∃ record, after.auditRecords = before.auditRecords ++ [record] ∧
    record.targetUserId = some change.userId ∧
    record.previousRole = (before.directory.role? change.organizationId change.userId).map roleName

theorem authorized_of_made (h : Made good change ws) {db : Db} (hs : change.actor.isSuperAdmin = false)
    (hgood : ∀ db', good db' → ∀ user ∈ [change.userId, change.actor.userId],
      db'.directory.role? change.organizationId user = db.directory.role? change.organizationId user) :
    Authorized change db (applyAll Db.apply db ws) := by
  obtain ⟨db₁, hdb₁, hread⟩ := h.current
  obtain ⟨hsome, db₂, hdb₂, hactor⟩ := h.role hs
  have htarget : db.directory.role? change.organizationId change.userId = some change.current :=
    (hgood db₁ hdb₁ _ mem_cons_self).symm.trans hread
  have hactor : db.directory.role? change.organizationId change.actor.userId = change.actor.organizationRole :=
    (hgood db₂ hdb₂ _ (mem_cons_of_mem _ mem_cons_self)).symm.trans hactor
  refine ⟨?_, auditRecord change, auditRecords_made h, rfl, ?_⟩
  · intro o x r hr hchanged
    obtain hsame | ⟨rfl, rfl, hnext⟩ := role?_made h hr
    · exact absurd hsame hchanged
    obtain ⟨role, hrole⟩ := Option.isSome_iff_exists.mp hsome
    have hpermitted := h.permitted
    simp only [RoleChange.isPermitted, hs, hrole, Bool.false_or, Option.getD_some] at hpermitted
    rw [htarget] at hr
    cases hr
    refine ⟨rfl, rfl, role, hactor.trans hrole, hnext ▸ hpermitted, ?_⟩
    intro hadmin howner
    rw [hadmin, howner] at hpermitted
    exact absurd hpermitted (by simp [canManageOrganizationRole])
  · rw [htarget]
    rfl

/-- A change of a role is authorized when it takes effect, if from the start of the request on nobody else
changed the role of the actor or of the target. -/
theorem role_change_authorized (db : Db) (before during : List (ReadCommitted.Step Request)) (request : Request)
    (change : RoleChange) :
    let started := (trace step (World.init db) before).2
    let w := (trace step started (.start request :: during)).2
    let answer := step w (.advance started.sessions.length)
    Along step (KeepsRoles change.organizationId [change.userId, change.actor.userId]) started
        (.start request :: during) →
      answer.1 = .committed (.roleChanged change) → change.actor.isSuperAdmin = false →
      Authorized change w.committed answer.2.committed := by
  intro started w answer hkeeps hcommit hsuper
  let good (db : Db) : Prop := ∀ user ∈ [change.userId, change.actor.userId],
    db.directory.role? change.organizationId user = started.committed.directory.role? change.organizationId user
  have hgood : Along step (fun w a => good w.committed → good (step w a).2.committed) started (.start request :: during) :=
    hkeeps.mono fun w a hkeep hw user huser => (hkeep user huser).trans (hw user huser)
  obtain ⟨ws, hends, hw, hafter⟩ := committed_within (fun s _ => wp_serve) (fun _ _ => rfl) hgood hcommit
  have hafter : answer.2.committed = applyAll Db.apply w.committed ws := hafter
  rw [hafter]
  exact authorized_of_made (hends change rfl) hsuper fun db' hdb' user huser =>
    (hdb' user huser).trans (hw user huser).symm

/-! ## Changes on roles read before -/

/-- An organization with an owner, an admin and two members; the first two are signed in. -/
def staffed : Db where
  directory :=
    { users := [⟨1, "a@x", none, some 0⟩, ⟨2, "b@x", none, some 0⟩, ⟨3, "c@x", none, some 0⟩,
        ⟨4, "d@x", none, some 0⟩]
      organizations := [⟨10, "o", "O", .active⟩]
      memberships := [⟨10, 1, .owner⟩, ⟨10, 2, .admin⟩, ⟨10, 3, .member⟩, ⟨10, 4, .member⟩]
      assignments := [] }
  projectMemberships := []
  sessions := [⟨11, 1, some 10, 100, none, none⟩, ⟨12, 2, some 10, 100, none, none⟩]
  invitations := []
  auditRecords := []

/-- The admin asks for the removal of the member. -/
def removal : Request := .removeOrganizationMember ⟨12, 5⟩ 10 3 5

def removalChange : RoleChange := ⟨⟨2, 12, some 10, some .admin, false, none⟩, 10, 3, .member, none⟩

/-- The admin's request has read the roles when the owner makes a user an owner; then the removal runs. -/
def promotionBetween (userId : Nat) : List (ReadCommitted.Step Request) :=
  .start removal :: ([.advance 0, .advance 0, .start (.updateOrganizationMember ⟨11, 5⟩ 10 userId .owner)] ++
    replicate 6 (.advance 1) ++ replicate 4 (.advance 0))

/-- The other member becomes an owner, and the roles that were read stand. -/
theorem role_change_authorized_otherPromoted :
    let w := (trace step (World.init staffed) (promotionBetween 4)).2
    w.committed.directory.role? 10 4 = some .owner ∧
      Authorized removalChange w.committed (step w (.advance 0)).2.committed :=
  ⟨by decide +kernel,
    role_change_authorized staffed [] _ removal removalChange (by decide +kernel) (by decide +kernel) rfl⟩

/-- An admin removes an owner, who is recorded as a member. -/
theorem admin_removes_owner :
    let w := (trace step (World.init staffed) (promotionBetween 3)).2
    let committed := step w (.advance 0)
    committed.1 = .committed (.roleChanged removalChange) ∧
      w.committed.directory.role? 10 3 = some .owner ∧ committed.2.committed.directory.role? 10 3 = none ∧
      w.committed.directory.role? 10 2 = some .admin ∧ canManageOrganizationRole .admin .owner none = false ∧
      committed.2.committed.auditRecords.getLast?.map AuditRecord.previousRole = some (some "member") := by
  decide +kernel

end Okoscope.Server.RoleChanges
