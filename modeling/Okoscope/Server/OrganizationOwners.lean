import Okoscope.Server.AccessRules

/-!
# Active organizations keep an owner

A trigger refuses to take the last active owner from an active organization: to disable
them, to move them to another role or to remove them. It sees the memberships that are
committed. An organization that another transaction is about to make active, through an
owner whom it does not hold locked, is not among what it sees.

Two transactions make organizations active: the creation of an organization with its
creator as the owner, and the acceptance of an owner's invitation. On terms under which
each of them counts as holding the rows that make somebody its active owner, no
interleaving leaves an active organization without one.
-/
namespace Okoscope.Server.OrganizationOwners

open Lib Lib.Table Lib.Run Lib.ReadCommitted
open Lib.ReadCommitted.Discipline
open AccessTables AccessRules
open Directory
open AccessService List

/-- The organization has an enabled and verified owner. -/
def hasActiveOwner (d : Directory) (organizationId : Nat) : Bool :=
  d.memberships.any fun m => m.organizationId = organizationId && m.role = .owner && d.isActiveUser m.userId

variable {d t u : Directory} {o userId : Nat} {now : DateTime} {next : Option OrganizationRole} {w : Write}

theorem hasActiveOwner_iff : hasActiveOwner d o ↔ ∃ x, d.isOwner o x ∧ d.isActiveUser x := by
  simp only [hasActiveOwner, isOwner_iff, any_eq_true, Bool.and_eq_true, decide_eq_true_eq]
  constructor
  · intro h
    obtain ⟨m, hmem, ⟨rfl, hrole⟩, hact⟩ := h
    exact ⟨m.userId, ⟨m, hmem, rfl, rfl, hrole⟩, hact⟩
  · intro h
    obtain ⟨_, ⟨m, hmem, rfl, rfl, hrole⟩, hact⟩ := h
    exact ⟨m, hmem, ⟨rfl, hrole⟩, hact⟩

theorem exists_of_hasOtherOwner (h : d.hasOtherOwner o userId) :
    ∃ y, y ≠ userId ∧ d.isOwner o y ∧ d.isActiveUser y := by
  simp only [hasOtherOwner, any_eq_true, Bool.and_eq_true, decide_eq_true_eq] at h
  obtain ⟨m, hmem, ⟨⟨rfl, hrole⟩, hact⟩, hne⟩ := h
  exact ⟨m.userId, hne, isOwner_iff.mpr ⟨m, hmem, rfl, rfl, hrole⟩, hact⟩

/-! ## What the triggers let through -/

/-- The trigger on users lets an owner of an active organization be disabled only beside another. -/
theorem hasOtherOwner_of_disabled (h : d.refusesDisabling userId true now = false)
    (hactive : d.isActiveUser userId) (howner : d.isOwner o userId)
    (horg : d.isActiveOrganization o) : d.hasOtherOwner o userId := by
  obtain ⟨u, hu, rfl, hact⟩ := isActiveUser_iff.mp hactive
  obtain ⟨m, hmem, rfl, hmu, hrole⟩ := isOwner_iff.mp howner
  have hrow := any_eq_false.mp h u hu
  simp only [protectUserAuthority, hact, isActive_setDisabled] at hrow
  by_contra hother
  refine hrow ?_
  simp only [Bool.not_false, Bool.and_self, Bool.true_and, Bool.and_eq_true, decide_eq_true_eq, Bool.or_eq_true,
    any_eq_true]
  refine ⟨trivial, .inr ⟨m, hmem, ⟨⟨hmu, hrole⟩, horg⟩, ?_⟩⟩
  simpa using hother

/-! ## The discipline -/

/-- What a commit may change. Active organizations keep an active owner, and new ones have one. Users
are disabled and owners removed under the authority lock and that of the row; somebody becomes
an owner under the authority lock, or under the locks of their row and of the membership; and
an organization becomes active through an owner held in both ways. -/
structure Fits (locks : List Lock) (s t : Directory) : Prop where
  owned : ∀ o, t.isActiveOrganization o → (hasActiveOwner s o ∨ s.isActiveOrganization o = false) →
    hasActiveOwner t o
  active : ∀ x, s.isActiveUser x → t.isActiveUser x ∨ (.authority ∈ locks ∧ .user x ∈ locks)
  newlyActive : ∀ x, t.isActiveUser x → s.isActiveUser x ∨ .user x ∈ locks
  owner : ∀ o x, s.isOwner o x → t.isOwner o x ∨ (.authority ∈ locks ∧ .membership o x ∈ locks)
  newOwner : ∀ o x, t.isOwner o x →
    s.isOwner o x ∨ .authority ∈ locks ∨ (.user x ∈ locks ∧ .membership o x ∈ locks)
  newOrganization : ∀ o, t.isActiveOrganization o → s.isActiveOrganization o ∨
    ∃ x, .user x ∈ locks ∧ .membership o x ∈ locks ∧ t.isOwner o x ∧ t.isActiveUser x

def owners : Discipline Db Lock where
  inv _ := True
  guarantee locks s t := Fits locks s.directory t.directory

variable {locks : List Lock}

theorem Fits.mono {locks' : List Lock} {s : Directory} (h : Fits locks s t) (hsub : locks ⊆ locks') :
    Fits locks' s t where
  owned := h.owned
  active x hx := (h.active x hx).imp_right fun hl => ⟨hsub hl.1, hsub hl.2⟩
  newlyActive x hx := (h.newlyActive x hx).imp_right fun hl => hsub hl
  owner o x hx := (h.owner o x hx).imp_right fun hl => ⟨hsub hl.1, hsub hl.2⟩
  newOwner o x hx := (h.newOwner o x hx).imp_right fun hl =>
    hl.imp (fun ha => hsub ha) fun hb => ⟨hsub hb.1, hsub hb.2⟩
  newOrganization o ho := by
    obtain hs | ⟨x, hu, hm, hx⟩ := h.newOrganization o ho
    · exact .inl hs
    · exact .inr ⟨x, hsub hu, hsub hm, hx⟩

theorem Fits.refl {s : Directory} : Fits locks s s where
  owned o ho hs := by
    obtain hs | hs := hs
    · exact hs
    · exact absurd ho (by simp [hs])
  active _ hx := .inl hx
  newlyActive _ hx := .inl hx
  owner _ _ hx := .inl hx
  newOwner _ _ hx := .inl hx
  newOrganization _ ho := .inl ho

/-- What the holder of the authority lock sees of the commits of others: nobody is disabled and no
owner removed; whom it holds locked does not become active or an owner; and an organization
becomes active through an owner whom it does not hold. -/
structure Steady (held : List Lock) (s t : Directory) : Prop where
  active : ∀ x, s.isActiveUser x → t.isActiveUser x
  newlyActive : ∀ x, .user x ∈ held → t.isActiveUser x → s.isActiveUser x
  owner : ∀ o x, s.isOwner o x → t.isOwner o x
  newOwner : ∀ o x, .user x ∈ held ∨ .membership o x ∈ held → t.isOwner o x → s.isOwner o x
  newOrganization : ∀ o, t.isActiveOrganization o → s.isActiveOrganization o ∨
    ∃ x, .user x ∉ held ∧ .membership o x ∉ held ∧ t.isOwner o x ∧ t.isActiveUser x

variable {held : List Lock}

theorem Steady.trans {s : Directory} (h : Steady held s t) (h' : Steady held t u) : Steady held s u where
  active x hx := h'.active x (h.active x hx)
  newlyActive x hheld hx := h.newlyActive x hheld (h'.newlyActive x hheld hx)
  owner o x hx := h'.owner o x (h.owner o x hx)
  newOwner o x hheld hx := h.newOwner o x hheld (h'.newOwner o x hheld hx)
  newOrganization o ho := by
    obtain ht | hnew := h'.newOrganization o ho
    · obtain hs | ⟨x, hu, hm, hown, hact⟩ := h.newOrganization o ht
      · exact .inl hs
      · exact .inr ⟨x, hu, hm, h'.owner o x hown, h'.active x hact⟩
    · exact .inr hnew

variable {s : Db}

theorem steady_of_rely (ha : .authority ∈ held) {t : Db} (h : owners.Rely held s t) :
    Steady held s.directory t.directory := by
  refine Rely.le (r := fun s t : Db => Steady held s.directory t.directory) ?_ (fun _ _ _ => Steady.trans) ?_ h
  · exact fun s => ⟨fun _ hx => hx, fun _ _ hx => hx, fun _ _ hx => hx, fun _ _ _ hx => hx, fun _ ho => .inl ho⟩
  intro locks s t hd hfits
  have hn : .authority ∉ locks := fun hl => hd hl ha
  refine ⟨fun x hx => ?_, fun x hheld hx => ?_, fun o x hx => ?_, fun o x hheld hx => ?_, fun o ho => ?_⟩
  · exact (hfits.active x hx).resolve_right fun hl => hn hl.1
  · exact (hfits.newlyActive x hx).resolve_right fun hl => hd hl hheld
  · exact (hfits.owner o x hx).resolve_right fun hl => hn hl.1
  · obtain hs | hl | ⟨hu, hm⟩ := hfits.newOwner o x hx
    · exact hs
    · exact absurd hl hn
    · exact hheld.elim (fun hk => absurd hk (hd hu)) fun hk => absurd hk (hd hm)
  · obtain hs | ⟨x, hu, hm, hown, hact⟩ := hfits.newOrganization o ho
    · exact .inl hs
    · exact .inr ⟨x, hd hu, hd hm, hown, hact⟩

variable {x : Nat}

theorem active_of_rely (hx : .user x ∈ held) {t : Db} (h : owners.Rely held s t)
    (hs : s.directory.isActiveUser x) : t.directory.isActiveUser x := by
  refine Rely.le (r := fun s t : Db => s.directory.isActiveUser x → t.directory.isActiveUser x)
    (fun _ hs => hs) (fun _ _ _ hst htu hs => htu (hst hs)) ?_ h hs
  intro locks s t hd hfits hs
  exact (hfits.active x hs).resolve_right fun hl => hd hl.2 hx

/-! ## Neutral writes -/

/-- A write to none of users, organizations and memberships. -/
def Neutral (w : Write) : Prop :=
  match w.area with
  | none | some .assignments => True
  | _ => False

variable {ws : List Write}

/-- The transaction may be committed whenever it gets to its end. -/
abbrev Commit {α : Type} (t : Statement α) : List Lock → List Write → Db → Prop :=
  owners.wp Db.apply (fun _ => owners.Commits Db.apply) t

theorem commits_nil : owners.Commits Db.apply held [] s :=
  fun _ _ _ => ⟨trivial, Fits.refl⟩

theorem wp_neutral {α : Type} {t : Statement α} (ht : t.WritesOnly Neutral) (h : owners.Commits Db.apply held ws s) :
    Commit t held ws s := by
  refine wp_commits (fun _ _ _ _ => Fits.mono) (fun _ _ _ w hw h => ⟨trivial, ?_⟩) ht h
  obtain ⟨-, h⟩ := h
  cases w <;> first
    | exact hw.elim
    | exact ⟨h.owned, h.active, h.newlyActive, h.owner, h.newOwner, h.newOrganization⟩

/-! ## Changes under the authority lock -/

/-- Disabling a user whom the trigger let pass. -/
theorem commits_setDisabled {disabled : Bool} (ha : .authority ∈ held) (hu : .user userId ∈ held)
    (hpass : s.directory.refusesDisabling userId disabled now = false) :
    owners.Commits Db.apply held [.setDisabled userId disabled now] s := by
  intro s' hr _
  have hsteady := steady_of_rely ha hr
  have hne : ∀ x, x ≠ userId →
      (s'.directory.apply (.setDisabled userId disabled now)).isActiveUser x = s'.directory.isActiveUser x :=
    fun x hx => isActiveUser_setDisabled_ne hx
  refine ⟨trivial, ?_⟩
  refine ⟨?_, ?_, ?_, fun _ _ hx => .inl hx, fun _ _ hx => .inl hx, fun _ ho => .inl ho⟩
  · intro o ho hs
    have ho' : s'.directory.isActiveOrganization o := ho
    obtain ⟨x, hown, hact⟩ := hasActiveOwner_iff.mp (hs.resolve_right (by simp [ho']))
    refine hasActiveOwner_iff.mpr ?_
    by_cases hx : x = userId
    · subst hx
      cases disabled with
      | false => exact ⟨x, hown, isActiveUser_enabled hact⟩
      | true =>
        -- another owner was there when the trigger looked, or came with the organization's activation
        obtain horg | ⟨y, hy, -, hyo, hya⟩ := hsteady.newOrganization o ho'
        · have hother := hasOtherOwner_of_disabled hpass (hsteady.newlyActive x hu hact)
            (hsteady.newOwner o x (.inl hu) hown) horg
          obtain ⟨y, hy, hyo, hya⟩ := exists_of_hasOtherOwner hother
          exact ⟨y, hsteady.owner o y hyo, (hne y hy).trans (hsteady.active y hya)⟩
        · exact ⟨y, hyo, (hne y fun e => hy (e ▸ hu)).trans hya⟩
    · exact ⟨x, hown, (hne x hx).trans hact⟩
  · intro x hx
    by_cases he : x = userId
    · exact .inr ⟨ha, he ▸ hu⟩
    · exact .inl ((hne x he).trans hx)
  · intro x hx
    by_cases he : x = userId
    · exact .inr (he ▸ hu)
    · exact .inl ((hne x he).symm.trans hx)

/-- Changing a role that the trigger let pass. -/
theorem commits_roleWrite {organizationId : Nat}
    (ha : .authority ∈ held) (hm : .membership organizationId userId ∈ held)
    (hpass : s.directory.refusesRoleChange organizationId userId next = false) :
    owners.Commits Db.apply held [roleWrite organizationId userId next] s := by
  intro s' hr _
  have hsteady := steady_of_rely ha hr
  have hact : ∀ x, (s'.directory.apply (roleWrite organizationId userId next)).isActiveUser x =
      s'.directory.isActiveUser x := by
    cases next <;> exact fun _ => rfl
  have horg : ∀ o, (s'.directory.apply (roleWrite organizationId userId next)).isActiveOrganization o =
      s'.directory.isActiveOrganization o := by
    cases next <;> exact fun _ => rfl
  refine ⟨trivial, ?_⟩
  show Fits held s'.directory (s'.directory.apply (roleWrite organizationId userId next))
  refine ⟨?_, ?_, ?_, ?_, fun _ _ _ => .inr (.inl ha), ?_⟩
  · intro o ho hs
    rw [horg] at ho
    obtain ⟨x, hown, hxact⟩ := hasActiveOwner_iff.mp (hs.resolve_right (by simp [ho]))
    refine hasActiveOwner_iff.mpr ?_
    by_cases hx : o = organizationId ∧ x = userId
    · obtain ⟨rfl, rfl⟩ := hx
      by_cases hnext : next = some .owner
      · subst hnext
        exact ⟨x, isOwner_setRole_owner hown, (hact x).trans hxact⟩
      -- another owner was there when the trigger looked, or came with the organization's activation
      obtain horg' | ⟨y, -, hy, hyo, hya⟩ := hsteady.newOrganization o ho
      · have hother : s.directory.hasOtherOwner o x := by
          obtain ⟨m, hmem, rfl, rfl, hrole⟩ := isOwner_iff.mp (hsteady.newOwner o x (.inr hm) hown)
          have hrow := any_eq_false.mp hpass m hmem
          simp only [protectLastOrganizationOwner, hrole, horg'] at hrow
          by_contra hother
          simp [hother] at hrow
          exact hnext hrow
        obtain ⟨y, hy, hyo, hya⟩ := exists_of_hasOtherOwner hother
        refine ⟨y, (isOwner_roleWrite_ne fun e => hy e.2).trans (hsteady.owner o y hyo), ?_⟩
        exact (hact y).trans (hsteady.active y hya)
      · have hyx : y ≠ x := fun e => hy (e ▸ hm)
        exact ⟨y, (isOwner_roleWrite_ne fun e => hyx e.2).trans hyo, (hact y).trans hya⟩
    · exact ⟨x, (isOwner_roleWrite_ne hx).trans hown, (hact x).trans hxact⟩
  · exact fun x hx => .inl ((hact x).trans hx)
  · exact fun x hx => .inl ((hact x).symm.trans hx)
  · intro o x hx
    by_cases he : o = organizationId ∧ x = userId
    · obtain ⟨rfl, rfl⟩ := he
      exact .inr ⟨ha, hm⟩
    · exact .inl ((isOwner_roleWrite_ne he).trans hx)
  · exact fun o ho => .inl ((horg o).symm.trans ho)

/-- A new organization that waits for its owner. -/
theorem commits_pending {slug name : String} :
    owners.Commits Db.apply held [.insertOrganization ⟨o, slug, name, .pendingOwner⟩] s := by
  intro s' _ _
  have horg : ∀ p, (s'.directory.apply (.insertOrganization ⟨o, slug, name, .pendingOwner⟩)).isActiveOrganization p =
      s'.directory.isActiveOrganization p := by
    intro p
    rw [isActiveOrganization_insertOrganization]
    simp
  refine ⟨trivial, ?_, fun _ hy => .inl hy, fun _ hy => .inl hy, fun _ _ hy => .inl hy, fun _ _ hy => .inl hy, ?_⟩
  · intro p hp hs
    have hp' := (horg p).symm.trans hp
    exact hs.resolve_right (by simp [hp'])
  · exact fun p hp => .inl ((horg p).symm.trans hp)

/-! ## Grants -/

/-- A write of an acceptance by a user in an organization. -/
def Grants (o x : Nat) : Write → Prop
  | .insertUser user => user.id = x ∧ user.isActive
  | .insertMembership membership => membership.organizationId = o ∧ membership.userId = x
  | .activate organizationId => organizationId = o
  | w => Neutral w

/-- What writes of an acceptance do: nothing is taken away; nobody but the user becomes active or an
owner, and no organization but this one active. -/
structure Granted (o x : Nat) (ws : List Write) (s t : Directory) : Prop where
  active : ∀ y, s.isActiveUser y → t.isActiveUser y
  newlyActive : ∀ y, t.isActiveUser y → s.isActiveUser y ∨ y = x
  owner : ∀ p y, s.isOwner p y → t.isOwner p y
  newOwner : ∀ p y, t.isOwner p y →
    s.isOwner p y ∨ (p = o ∧ y = x ∧ ∃ membership, .insertMembership membership ∈ ws)
  organization : ∀ p, t.isActiveOrganization p → s.isActiveOrganization p ∨ (p = o ∧ .activate o ∈ ws)

theorem Granted.trans {ws' : List Write} {s : Directory} (h : Granted o x ws s t)
    (h' : Granted o x ws' t u) : Granted o x (ws ++ ws') s u where
  active y hy := h'.active y (h.active y hy)
  newlyActive y hy := by
    obtain ht | rfl := h'.newlyActive y hy
    · exact h.newlyActive y ht
    · exact .inr rfl
  owner p y hy := h'.owner p y (h.owner p y hy)
  newOwner p y hy := by
    obtain ht | ⟨hp, hyx, m, hm⟩ := h'.newOwner p y hy
    · obtain hs | ⟨hp, hyx, m, hm⟩ := h.newOwner p y ht
      · exact .inl hs
      · exact .inr ⟨hp, hyx, m, mem_append_left _ hm⟩
    · exact .inr ⟨hp, hyx, m, mem_append_right _ hm⟩
  organization p hp := by
    obtain ht | ⟨he, ha⟩ := h'.organization p hp
    · obtain hs | ⟨he, ha⟩ := h.organization p ht
      · exact .inl hs
      · exact .inr ⟨he, mem_append_left _ ha⟩
    · exact .inr ⟨he, mem_append_right _ ha⟩

theorem granted_apply (h : Grants o x w) (d : Directory) : Granted o x [w] d (d.apply w) := by
  cases w with
  | insertUser =>
    obtain ⟨rfl, hact⟩ := h
    refine ⟨fun y hy => ?_, fun y hy => ?_, fun _ _ hy => hy, fun _ _ hy => .inl hy, fun _ hp => .inl hp⟩
    · rw [isActiveUser_insertUser, hy, Bool.true_or]
    · rw [isActiveUser_insertUser, Bool.or_eq_true, Bool.and_eq_true, decide_eq_true_eq] at hy
      exact hy.imp_right fun he => he.1.symm
  | insertMembership membership =>
    obtain ⟨rfl, rfl⟩ := h
    refine ⟨fun _ hy => hy, fun _ hy => .inl hy, fun p y hy => ?_, fun p y hy => ?_, fun _ hp => .inl hp⟩
    · rw [isOwner_insertMembership, hy, Bool.true_or]
    rw [isOwner_insertMembership] at hy
    simp only [Bool.or_eq_true, Bool.and_eq_true, decide_eq_true_eq] at hy
    obtain hs | ⟨⟨ho, hx⟩, -⟩ := hy
    · exact .inl hs
    · exact .inr ⟨ho.symm, hx.symm, membership, mem_singleton_self _⟩
  | activate organizationId =>
    obtain rfl : organizationId = o := h
    refine ⟨fun _ hy => hy, fun _ hy => .inl hy, fun _ _ hy => hy, fun _ _ hy => .inl hy, fun p hp => ?_⟩
    obtain hs | rfl := isActiveOrganization_activate.1 hp
    · exact .inl hs
    · exact .inr ⟨rfl, mem_singleton_self _⟩
  | insertOrganization | setDisabled | setRole | removeMembership => exact h.elim
  | _ => exact ⟨fun _ hy => hy, fun _ hy => .inl hy, fun _ _ hy => hy, fun _ _ hy => .inl hy, fun _ hp => .inl hp⟩

theorem granted_applyAll (h : ∀ w ∈ ws, Grants o x w) (db : Db) :
    Granted o x ws db.directory (applyAll Db.apply db ws).directory := by
  induction ws generalizing db with
  | nil => exact ⟨fun _ hy => hy, fun _ hy => .inl hy, fun _ _ hy => hy, fun _ _ hy => .inl hy, fun _ hp => .inl hp⟩
  | cons w _ ih =>
    have hw := granted_apply (h w mem_cons_self) db.directory
    exact hw.trans (ih (fun w' hw' => h w' (mem_cons_of_mem _ hw')) (db.apply w))

/-- What a write of the list establishes and the others keep holds in the end. -/
theorem applyAll_of_mem {p : Db → Prop} (hw : w ∈ ws) (hnow : ∀ db : Db, p (db.apply w))
    (hkeep : ∀ w ∈ ws, ∀ db : Db, p db → p (db.apply w)) {db : Db} : p (applyAll Db.apply db ws) := by
  obtain ⟨_, _, rfl⟩ := append_of_mem hw
  rw [applyAll_append, applyAll_cons]
  refine applyAll_induction Db.apply (fun w' hw' => hkeep w' ?_) (hnow _)
  exact mem_append_right _ (mem_cons_of_mem _ hw')

/-! ## The terms -/

/-- A creation counts as holding its creator's row and commits while the creator is active. An
acceptance that activates the organization counts as holding the user's membership and commits
if the user is an owner or becomes one by it. -/
def ownedTerms : Terms Db Write Lock Outcome where
  claims outcome ws :=
    match outcome with
    | .organizationCreated _ ownerId => [.user ownerId]
    | .accepted organizationId userId =>
      if .activate organizationId ∈ ws then [.membership organizationId userId] else []
    | _ => []
  allowed outcome ws db :=
    match outcome with
    | .organizationCreated _ ownerId => db.directory.isActiveUser ownerId
    | .accepted organizationId userId =>
      .activate organizationId ∉ ws || db.directory.isOwner organizationId userId ||
        .insertMembership ⟨organizationId, userId, .owner⟩ ∈ ws
    | _ => true

abbrev Serves (t : Statement Outcome) : List Lock → List Write → Db → Prop :=
  owners.wp Db.apply (owners.CommitsOn Db.apply ownedTerms) t

theorem commitsOn_of_commits {outcome : Outcome}
    (h : owners.Commits Db.apply held ws s) : owners.CommitsOn Db.apply ownedTerms outcome held ws s := by
  intro s' hr hi _
  obtain ⟨-, hfits⟩ := h s' hr hi
  exact ⟨trivial, Fits.mono hfits (subset_append_left _ _)⟩

/-- The creation of an organization with its creator as the owner. -/
theorem commitsOn_created {slug name : String} {record : AuditRecord} (hm : .membership o x ∈ held) :
    owners.CommitsOn Db.apply ownedTerms (.organizationCreated o x) held
      [.insertOrganization ⟨o, slug, name, .active⟩, .insertMembership ⟨o, x, .owner⟩, .audit record] s := by
  intro s' _ _ hallowed
  have hact : s'.directory.isActiveUser x := hallowed
  refine ⟨trivial, ?_⟩
  show Fits (held ++ [.user x]) s'.directory
    ((s'.directory.apply (.insertOrganization ⟨o, slug, name, .active⟩)).apply (.insertMembership ⟨o, x, .owner⟩))
  have hu : Lock.user x ∈ held ++ [.user x] := mem_concat_self
  have hm' : Lock.membership o x ∈ held ++ [.user x] := mem_append_left _ hm
  have hown : ∀ p y, ((s'.directory.apply (.insertOrganization ⟨o, slug, name, .active⟩)).apply
      (.insertMembership ⟨o, x, .owner⟩)).isOwner p y = (s'.directory.isOwner p y || (o = p && x = y)) := by
    intro p y
    rw [isOwner_insertMembership]
    simp
    rfl
  have horg : ∀ p, ((s'.directory.apply (.insertOrganization ⟨o, slug, name, .active⟩)).apply
      (.insertMembership ⟨o, x, .owner⟩)).isActiveOrganization p = (s'.directory.isActiveOrganization p || o = p) := by
    intro p
    refine (isActiveOrganization_insertOrganization (d := s'.directory)).trans ?_
    simp
  refine ⟨?_, fun _ hy => .inl hy, fun _ hy => .inl hy, ?_, ?_, ?_⟩
  · intro p hp hs
    rw [horg, Bool.or_eq_true, decide_eq_true_eq] at hp
    refine hasActiveOwner_iff.mpr ?_
    by_cases hop : o = p
    · exact ⟨x, by rw [hown, hop]; simp, hact⟩
    · obtain ⟨y, hyo, hya⟩ := hasActiveOwner_iff.mp (hs.resolve_right (by simp [hp.resolve_right hop]))
      exact ⟨y, by rw [hown, hyo, Bool.true_or], hya⟩
  · intro p y hy
    exact .inl (by rw [hown, hy, Bool.true_or])
  · intro p y hy
    rw [hown, Bool.or_eq_true, Bool.and_eq_true, decide_eq_true_eq, decide_eq_true_eq] at hy
    obtain hy | ⟨rfl, rfl⟩ := hy
    · exact .inl hy
    · exact .inr (.inr ⟨hu, hm'⟩)
  · intro p hp
    rw [horg, Bool.or_eq_true, decide_eq_true_eq] at hp
    obtain hp | rfl := hp
    · exact .inl hp
    · exact .inr ⟨x, hu, hm', by rw [hown]; simp, hact⟩

/-- What an acceptance has done so far: it holds the user's row and that of a membership it inserts,
and the user is active or about to be inserted so. -/
structure Accepting (o x : Nat) (held : List Lock) (ws : List Write) (s : Db) : Prop where
  grants : ∀ w ∈ ws, Grants o x w
  membership : ∀ m, .insertMembership m ∈ ws → .membership o x ∈ held
  user : .user x ∈ held
  active : s.directory.isActiveUser x ∨ ∃ user, .insertUser user ∈ ws

theorem commitsOn_accepted (h : Accepting o x held ws s) :
    owners.CommitsOn Db.apply ownedTerms (.accepted o x) held ws s := by
  intro s' hr _ hallowed
  have hg := granted_applyAll h.grants s'
  have hact : (applyAll Db.apply s' ws).directory.isActiveUser x := by
    obtain hs | ⟨user, hu⟩ := h.active
    · exact hg.active x (active_of_rely h.user hr hs)
    · obtain ⟨rfl, hactive⟩ := h.grants _ hu
      refine applyAll_of_mem (p := fun db => db.directory.isActiveUser user.id) hu (fun db => ?_) ?_
      · exact isActiveUser_insertUser.trans (by simp [hactive])
      · exact fun w hw db hdb => (granted_apply (h.grants w hw) db.directory).active _ hdb
  -- an organization becomes active through the accepting user
  have hnew : .activate o ∈ ws → (applyAll Db.apply s' ws).directory.isOwner o x ∧
      .membership o x ∈ held ++ ownedTerms.claims (.accepted o x) ws := by
    intro ha
    have hclaim : ownedTerms.claims (.accepted o x) ws = [.membership o x] := if_pos ha
    refine ⟨?_, by rw [hclaim]; simp⟩
    simp only [ownedTerms, ha, not_true, decide_false, Bool.false_or, Bool.or_eq_true, decide_eq_true_eq] at hallowed
    obtain hs | hm := hallowed
    · exact hg.owner o x hs
    · refine applyAll_of_mem (p := fun db => db.directory.isOwner o x) hm (fun db => ?_) ?_
      · exact isOwner_insertMembership.trans (by simp)
      · exact fun w hw db hdb => (granted_apply (h.grants w hw) db.directory).owner _ _ hdb
  refine ⟨trivial, ?_⟩
  have hu : Lock.user x ∈ held ++ ownedTerms.claims (.accepted o x) ws := mem_append_left _ h.user
  refine ⟨?_, fun y hy => .inl (hg.active y hy), ?_, fun p y hy => .inl (hg.owner p y hy), ?_, ?_⟩
  · intro p hp hs
    refine hasActiveOwner_iff.mpr ?_
    obtain hold | ⟨rfl, ha⟩ := hg.organization p hp
    · obtain ⟨y, hyo, hya⟩ := hasActiveOwner_iff.mp (hs.resolve_right (by simp [hold]))
      exact ⟨y, hg.owner p y hyo, hg.active y hya⟩
    · exact ⟨x, (hnew ha).1, hact⟩
  · intro y hy
    obtain hs | rfl := hg.newlyActive y hy
    · exact .inl hs
    · exact .inr hu
  · intro p y hy
    obtain hs | ⟨rfl, rfl, m, hm⟩ := hg.newOwner p y hy
    · exact .inl hs
    · exact .inr (.inr ⟨hu, mem_append_left _ (h.membership m hm)⟩)
  · intro p hp
    obtain hs | ⟨rfl, ha⟩ := hg.organization p hp
    · exact .inl hs
    · exact .inr ⟨x, hu, (hnew ha).2, (hnew ha).1, hact⟩

/-! ## The requests -/

/-- A further write of an acceptance, which inserts no membership. -/
def Further (o x : Nat) : Write → Prop
  | .insertMembership _ => False
  | w => Grants o x w

theorem Further.grants (h : Further o x w) : Grants o x w := by
  cases w with
  | insertMembership => exact h.elim
  | _ => exact h

theorem accepting_append {ks : List Lock} {new : List Write} {s' : Db} (hr : owners.Rely held s s')
    (hnew : ∀ w ∈ new, Further o x w) (h : Accepting o x held ws s) : Accepting o x (held ++ ks) (ws ++ new) s' where
  grants w hw := (mem_append.mp hw).elim (fun hw => h.grants w hw) fun hw => (hnew w hw).grants
  membership m hm := by
    obtain hm | hm := mem_append.mp hm
    · exact mem_append_left _ (h.membership m hm)
    · exact (hnew _ hm).elim
  user := mem_append_left _ h.user
  active := by
    obtain hs | ⟨user, hu⟩ := h.active
    · exact .inl (active_of_rely h.user hr hs)
    · exact .inr ⟨user, mem_append_left _ hu⟩

theorem wp_further {α : Type} {t : Statement α} (ht : t.WritesOnly (Further o x)) (h : Accepting o x held ws s) :
    owners.wp Db.apply (fun _ => Accepting o x) t held ws s :=
  wp_of_writesOnly (fun _ _ _ _ _ _ hr hnew ha => accepting_append hr hnew ha) ht h

variable {role : OrganizationRole}

section
variable {invitation : Invitation} {x : Nat} {held : List Lock} {ws : List Write} {s : Db}

section
variable (h : Accepting invitation.organizationId x held ws s)
include h

theorem wp_grantRole : owners.wp Db.apply (fun _ => Accepting invitation.organizationId x)
      (grantOrganizationRoleIfAbsent ⟨invitation.organizationId, x, role⟩) held ws s := by
  have hstill : ∀ s', owners.Rely held s s' → Accepting invitation.organizationId x held ws s' := by
    intro s' hr
    have h' : Accepting invitation.organizationId x (held ++ []) (ws ++ []) s' := accepting_append hr (by simp) h
    rwa [append_nil, append_nil] at h'
  refine wp_exec fun s' hr _ => ?_
  split
  · rw [append_nil, append_nil]
    exact hstill s' hr
  refine ⟨fun w hw => ?_, fun _ _ => mem_concat_self, mem_append_left _ h.user, ?_⟩
  · obtain hw | rfl := mem_append_singleton.mp hw
    · exact h.grants w hw
    · exact ⟨rfl, rfl⟩
  · refine (hstill s' hr).active.imp_right fun hu => ?_
    obtain ⟨user, hu⟩ := hu
    exact ⟨user, mem_append_left _ hu⟩

theorem wp_grantInvited :
    owners.wp Db.apply (fun _ => Accepting invitation.organizationId x) (grantInvited invitation x) held ws s := by
  rw [grantInvited]
  split
  · refine (wp_bind ..).mpr (wp_mono (fun _ held ws s h => ?_) (wp_grantRole h))
    exact wp_further (writesOnly_grantProjectRoleIfAbsent trivial) h
  refine (wp_bind ..).mpr (wp_mono (fun _ held ws s h => ?_) (wp_grantRole h))
  split
  · exact wp_further (writesOnly_activateWhenOwned rfl) h
  · exact h

theorem wp_grantAndConsume :
    owners.wp Db.apply (fun _ => Accepting invitation.organizationId x) (grantAndConsume invitation x now) held ws s := by
  refine (wp_bind ..).mpr (wp_mono (fun _ held ws s h => ?_)
    (wp_further (writesOnly_consumeInvitation trivial) h))
  refine (wp_bind ..).mpr (wp_ensure fun _ => ?_)
  refine (wp_bind ..).mpr (wp_mono (fun _ held ws s h => ?_) (wp_grantInvited h))
  exact wp_further (writesOnly_writeAudit trivial) h

end

end

theorem wp_acceptNewUser {input : NewUserAcceptance} : Serves (acceptNewUser input now) [] [] s := by
  refine wp_bind_reads writesOnly_ensure fun _ held s _ => ?_
  refine wp_bind_reads writesOnly_ensure fun _ held s _ => ?_
  refine wp_bind_reads writesOnly_ofOption fun digest held s _ => ?_
  refine wp_bind_reads writesOnly_invitationForUpdate fun found held s _ => ?_
  refine wp_bind_reads writesOnly_ofOption fun row held s _ => ?_
  refine wp_bind_reads writesOnly_query fun taken held s _ => ?_
  refine wp_bind_reads writesOnly_ensure fun _ held s _ => ?_
  refine (wp_bind ..).mpr (wp_insertVerified fun s _ _ => ?_)
  have hinserted : Accepting row.organizationId input.userId
      (held ++ [.user input.userId, .email row.recipientEmail])
      [.insertUser ⟨input.userId, row.recipientEmail, none, some now⟩] s := by
    refine ⟨?_, ?_, by simp, .inr ⟨_, mem_singleton_self _⟩⟩
    · intro w hw
      rw [mem_singleton.mp hw]
      exact ⟨rfl, rfl⟩
    · intro m hm
      cases mem_singleton.mp hm
  refine (wp_bind ..).mpr (wp_mono (fun _ held ws s h => ?_) (wp_grantAndConsume hinserted))
  refine wp_exec fun s' hr _ => commitsOn_accepted (accepting_append hr ?_ h)
  intro w hw
  rw [mem_singleton.mp hw]
  exact trivial

theorem isActiveUser_of_isRecipient {row : Invitation} (h : isRecipient row (d.enabledUser? userId)) :
    d.isActiveUser userId ∧ (d.enabledUser? userId).isSome := by
  cases hf : d.enabledUser? userId with
  | none => simp [isRecipient, hf] at h
  | some u =>
    rw [hf] at h
    simp only [isRecipient, Option.any_some, Bool.and_eq_true] at h
    have hu := find?_some hf
    simp only [Bool.and_eq_true, decide_eq_true_eq] at hu
    refine ⟨isActiveUser_iff.mpr ⟨u, mem_of_find?_eq_some hf, hu.1, ?_⟩, rfl⟩
    rw [User.isActive, hu.2, h.1]
    rfl

theorem wp_acceptAsRecipient {principal : IdentityPrincipal} {row : Invitation} :
    Serves (acceptAsRecipient principal row now) held [] s := by
  refine (wp_bind ..).mpr (wp_exec fun s' _ _ => ?_)
  refine (wp_bind ..).mpr (wp_ensure fun hrecipient => ?_)
  obtain ⟨hact, hsome⟩ := isActiveUser_of_isRecipient hrecipient
  have hlocked : Accepting row.organizationId principal.userId
      (held ++ if (s'.directory.enabledUser? principal.userId).isSome then [.user principal.userId] else []) [] s' := by
    refine ⟨by simp, by simp, ?_, .inl hact⟩
    have hsome' : (s'.directory.enabledUser? principal.userId).isSome := hsome
    rw [hsome']
    simp
  exact (wp_bind ..).mpr (wp_mono (fun _ held ws s h => commitsOn_accepted h) (wp_grantAndConsume hlocked))

theorem wp_acceptExistingUser {caller : Caller} {tokenDigest : Option Nat} :
    Serves (acceptExistingUser caller tokenDigest now) [] [] s := by
  refine wp_bind_reads writesOnly_identity fun principal held s _ => ?_
  refine wp_bind_reads writesOnly_ofOption fun digest held s _ => ?_
  refine wp_bind_reads writesOnly_invitationForUpdate fun found held s _ => ?_
  refine wp_bind_reads writesOnly_ofOption fun row held s _ => ?_
  split
  · exact commitsOn_of_commits commits_nil
  split
  · trivial
  exact wp_acceptAsRecipient

theorem wp_commitsOn {t : Statement Outcome} (h : Commit t held ws s) : Serves t held ws s :=
  wp_mono (fun _ _ _ _ hc => commitsOn_of_commits hc) h

variable {caller : Caller} {organizationId : Nat} {s : Db}

theorem wp_createPlatformOrganization {mode : OrganizationMode} {input : NewPlatformOrganization} :
    Serves (createPlatformOrganization caller mode input organizationId) [] [] s := by
  refine wp_actor fun actor held s => ?_
  refine wp_bind_reads writesOnly_ensure fun _ held s _ => ?_
  refine wp_bind_reads writesOnly_ensureOrganizationCapacity fun _ held s _ => ?_
  refine (wp_bind ..).mpr (wp_guarded fun s _ _ _ => ?_)
  obtain ⟨_, _, ownership⟩ := input
  cases ownership with
  | selfOwner =>
    refine (wp_bind ..).mpr ((wp_bind ..).mpr (wp_guarded fun s _ _ _ => ?_))
    refine (wp_bind ..).mpr (wp_exec fun s _ _ => commitsOn_created ?_)
    simp
  | invitedOwner =>
    refine wp_commitsOn (wp_neutral ?_ commits_pending)
    refine writesOnly_bind (writesOnly_bind writesOnly_ofExcept fun invitation => writesOnly_exec ?_) fun _ =>
      writesOnly_audited trivial
    intro db w hw
    rw [mem_singleton.mp hw]
    trivial

theorem wp_setUserStatus {disabled : Bool} : Commit (setUserStatus caller userId disabled now) [] [] s := by
  refine wp_actor fun actor held s => ?_
  refine (wp_bind ..).mpr (wp_lockAuthority fun s _ _ => ?_)
  refine (wp_bind ..).mpr (wp_setDisabled fun s _ _ hpass => ?_)
  refine wp_neutral ?_ (commits_setDisabled (by simp) (by simp) hpass)
  exact writesOnly_bind (writesOnly_revokeSessions trivial) fun _ =>
    writesOnly_audited trivial

/-- The transaction of a role change, up to a neutral rest. -/
theorem wp_changeRole {rest : Statement Outcome} (hrest : rest.WritesOnly Neutral) :
    Commit (do
      lockAuthority
      changeOrganizationRole organizationId userId next
      rest) held [] s := by
  refine (wp_bind ..).mpr (wp_lockAuthority fun s _ _ => ?_)
  refine (wp_bind ..).mpr (wp_changeOrganizationRole (fun s _ _ hpass => ?_) fun s _ _ => ?_)
  · exact wp_neutral hrest (commits_roleWrite (by simp) (by simp) hpass)
  · exact wp_neutral hrest commits_nil

theorem wp_updateOrganizationMember : Commit (updateOrganizationMember caller organizationId userId role) [] [] s := by
  refine wp_actor fun actor held s => ?_
  refine wp_bind_reads writesOnly_organizationMember fun current held s _ => ?_
  refine wp_bind_reads writesOnly_ensure fun _ held s _ => ?_
  refine wp_bind_reads writesOnly_ensure fun _ held s _ => ?_
  refine wp_changeRole ?_
  exact writesOnly_audited trivial

theorem wp_removeOrganizationMember : Commit (removeOrganizationMember caller organizationId userId now) [] [] s := by
  refine wp_actor fun actor held s => ?_
  refine wp_bind_reads writesOnly_organizationMember fun current held s _ => ?_
  refine wp_bind_reads writesOnly_ensure fun _ held s _ => ?_
  refine wp_changeRole ?_
  exact writesOnly_bind (writesOnly_revokeSessions trivial) fun _ =>
    writesOnly_audited trivial

theorem wp_serve {request : Request} : Serves (serve request) [] [] s := by
  cases request with
  | setUserStatus => exact wp_commitsOn wp_setUserStatus
  | updateOrganizationMember => exact wp_commitsOn wp_updateOrganizationMember
  | removeOrganizationMember => exact wp_commitsOn wp_removeOrganizationMember
  | createPlatformOrganization => exact wp_createPlatformOrganization
  | acceptNewUser => exact wp_acceptNewUser
  | acceptExistingUser => exact wp_acceptExistingUser
  | grantSuperAdmin =>
    refine wp_commitsOn (wp_neutral ?_ commits_nil)
    exact writesOnly_bind writesOnly_identity fun _ =>
      writesOnly_bind writesOnly_ofExcept fun _ =>
      writesOnly_bind writesOnly_ensure fun _ =>
      writesOnly_bind writesOnly_lockAuthority fun _ =>
      writesOnly_bind writesOnly_query fun _ =>
      writesOnly_bind writesOnly_ensure fun _ =>
      writesOnly_bind (writesOnly_grantAssignment trivial) fun _ =>
      writesOnly_audited trivial
  | revokeSuperAdmin =>
    refine wp_commitsOn (wp_neutral ?_ commits_nil)
    exact writesOnly_bind writesOnly_identity fun _ =>
      writesOnly_bind writesOnly_ofExcept fun _ =>
      writesOnly_bind writesOnly_lockAuthority fun _ =>
      writesOnly_bind writesOnly_query fun _ =>
      writesOnly_bind writesOnly_ensure fun _ =>
      writesOnly_bind (writesOnly_guarded fun _ => forall_mem_ite trivial) fun _ =>
      writesOnly_bind (writesOnly_revokeSessions trivial) fun _ =>
      writesOnly_audited trivial
  | recoverSuperAdmin =>
    refine wp_commitsOn (wp_neutral ?_ commits_nil)
    exact writesOnly_bind writesOnly_ensure fun _ =>
      writesOnly_bind writesOnly_lockAuthority fun _ =>
      writesOnly_bind writesOnly_activeUserByEmailForUpdate fun _ =>
      writesOnly_bind writesOnly_ofOption fun _ =>
      writesOnly_bind (writesOnly_grantAssignment trivial) fun _ =>
      writesOnly_audited trivial

/-- In a run on the terms no step takes the last active owner from an active organization, and none
makes an organization active without one. -/
theorem active_organization_owned (db : Db) (steps : List (ReadCommitted.Step Request))
    (last : ReadCommitted.Step Request)
    (hterms : Along step (fun w a => w.meets ownedTerms a) (World.init db) (steps ++ [last]))
    (organizationId : Nat) : let before := (trace step (World.init db) steps).2
    let after := (step before last).2
    after.committed.directory.isActiveOrganization organizationId →
    (hasActiveOwner before.committed.directory organizationId ∨
      before.committed.directory.isActiveOrganization organizationId = false) →
    hasActiveOwner after.committed.directory organizationId := by
  intro before after hactive hbefore
  obtain ⟨halong, hlast, -⟩ := along_append.mp hterms
  have hd := disciplined_trace (T := ownedTerms) contract_commitsOn trivial (fun t s _ => wp_serve) halong
  have hstep : after.committed = before.committed ∨
      ∃ locks, Fits locks before.committed.directory after.committed.directory :=
    step_guarantee contract_commitsOn hd hlast
  obtain hsame | ⟨_, hfits⟩ := hstep
  · rw [hsame] at hactive ⊢
    exact hbefore.resolve_right (by simp [hactive])
  · exact hfits.owned organizationId hactive hbefore

/-! ## A creator who is disabled meanwhile -/

/-- Two super administrators, each in a session with a confirmed password. -/
def platform : Db where
  directory :=
    { users := [⟨1, "a@x", none, some 0⟩, ⟨2, "b@x", none, some 0⟩]
      organizations := []
      memberships := []
      assignments := [⟨1, none, 0, none⟩, ⟨2, some 1, 0, none⟩] }
  projectMemberships := []
  sessions := [⟨11, 1, none, 100, none, some 100⟩, ⟨12, 2, none, 100, none, some 100⟩]
  invitations := []
  auditRecords := []

/-- The first creates an organization of their own. -/
def creation : Request := .createPlatformOrganization ⟨11, 5⟩ .multiple ⟨"o", "O", .selfOwner⟩ 10

/-- The second disables the first. -/
def disabling : Request := .setUserStatus ⟨12, 5⟩ 1 true 5

/-- The creation commits while the disabling waits for its turn. -/
theorem active_organization_owned_meanwhile : hasActiveOwner (step (trace step (World.init platform)
      ([.start creation, .start disabling, .advance 1, .advance 1] ++ replicate 4 (.advance 0))).2
      (.advance 0)).2.committed.directory 10 :=
  active_organization_owned platform _ (.advance 0) (by decide +kernel) 10 (by decide +kernel) (by decide +kernel)

/-- The creation has only its commit left when the disabling runs and commits. -/
def disabledBeforeCommit : List (ReadCommitted.Step Request) :=
  [.start creation, .start disabling] ++ replicate 4 (.advance 0) ++ replicate 6 (.advance 1)

/-- The disabling has only its commit left when the creation runs and commits. -/
def createdBeforeCommit : List (ReadCommitted.Step Request) :=
  [.start creation, .start disabling] ++ replicate 5 (.advance 1) ++ replicate 5 (.advance 0)

/-- In one order a new active organization is committed without an active owner; in the other an
active organization loses its only one. -/
theorem active_organization_orphaned :
    let created := (trace step (World.init platform) disabledBeforeCommit).2
    let disabled := (trace step (World.init platform) createdBeforeCommit).2
    (created.committed.directory.isActiveOrganization 10 = false ∧
      (step created (.advance 0)).2.committed.directory.isActiveOrganization 10 ∧
      hasActiveOwner (step created (.advance 0)).2.committed.directory 10 = false) ∧
    (hasActiveOwner disabled.committed.directory 10 ∧
      (step disabled (.advance 1)).2.committed.directory.isActiveOrganization 10 ∧
      hasActiveOwner (step disabled (.advance 1)).2.committed.directory 10 = false) := by
  decide +kernel

end Okoscope.Server.OrganizationOwners
