import Okoscope.Lib.Idempotency
import Okoscope.Server.Installations
import Okoscope.Server.PolicyConvergence

/-!
# Keys of policy commands and of installations

Both store the result of a command under a key of the organization, each in a table
of its own, and both recognise a repeated command by its key and the digest of its
body. The digest says neither what kind of command it was nor which application,
policy or suppression it was for. A key therefore stands for its command only as
long as no other command of the same body comes with it.
-/
namespace Okoscope.Server.Idempotency

open Lib Lib.Idempotency Lib.ReadCommitted
open Policy PolicyTables
open PolicyService PolicyDiscipline PolicyConcurrency
open PolicyConvergence
open Installations hiding Db
open ProjectAccess (ProjectMembership)

/-! ## Policy commands -/

/-- A policy command: its kind, the path it is sent to and its body. -/
structure PolicyCommand where
  kind : CommandKind
  scope : PolicyScope
  /-- The policy or the suppression of the path. -/
  target : Option Nat
  body : RequestBody
  deriving DecidableEq

def known (applications : List PolicyScope) (scope : PolicyScope) : Except Failure Unit :=
  if applications.contains scope then .ok () else .error .notFound

/-- What a request comes to before its key is looked at: it is refused, or it is a command under a
key. -/
def asked (applications : List PolicyScope) : Request → Option (Except Failure (Nat × PolicyCommand))
  | .createPolicy _ scope header _ _ input => some do
    known applications scope
    let name ← normalizedName input.name
    let key ← parseIdempotencyKey header
    pure (key, ⟨.create, scope, none, .policy (some name) input.revision⟩)
  | .replacePolicy _ scope policyId header _ input => some do
    let key ← parseIdempotencyKey header
    let name ← Outcome.transpose normalizedName input.name
    pure (key, ⟨.replace, scope, some policyId, .policy name input.revision⟩)
  | .setPolicyEnabled _ scope policyId header _ enabled => some do
    let key ← parseIdempotencyKey header
    pure (key, ⟨if enabled then .enable else .disable, scope, some policyId, .enabled policyId enabled⟩)
  | .createSuppression now scope header _ input => some do
    known applications scope
    let input ← normalizeSuppression now input
    let key ← parseIdempotencyKey header
    pure (key, ⟨.suppress, scope, none, .suppression input⟩)
  | .cancelSuppression _ scope id header => some do
    let key ← parseIdempotencyKey header
    pure (key, ⟨.cancelSuppression, scope, some id, .suppressionId id⟩)
  | .ingest _ _ | .recompute _ _ _ => none

/-- The key of a request, with its organization, and the command it asks for. -/
def keyedRequest (applications : List PolicyScope) (request : Request) : Option ((Nat × Nat) × PolicyCommand) :=
  match asked applications request with
  | some (.ok (key, command)) => some ((command.scope.organizationId, key), command)
  | _ => none

def keyReused : Failure := .conflict "idempotency key was already used for another request"

theorem commands_applyAll_quiet {δ : Type} {ws : List (Write δ)} (hq : ∀ w ∈ ws, quiet w) {s : Db δ} :
    (applyAll apply s ws).commands = s.commands := by
  refine applyAll_induction apply (p := fun db : Db δ => db.commands = s.commands) (fun w hw db ih => ?_) rfl
  rw [← ih]
  have hw' := hq w hw
  cases w <;> first | rfl | cases hw'

theorem commands_of_projects {δ α : Type} {db : Db δ} {t : Program δ α}
    (h : Projects (fun _ => True) t fun _ _ => True) (hs : Sound db) {r : α × Db δ} (hr : t.alone apply db = .ok r) :
    r.2.commands = db.commands := by
  obtain ⟨held, _, hstate, hpost⟩ := Discipline.wp_alone hs (h.wp [] [] db hs (projecting_nil hs) trivial) hr
  rw [hstate]
  exact commands_applyAll_quiet hpost.2.1.quiet

def storedCommand {δ : Type} (db : Db δ) (k : Nat × Nat) : Option (Command δ) :=
  db.commands.find? fun c => c.scope.organizationId = k.1 && c.idempotencyKey = k.2

theorem storedCommand_append {δ : Type} {db db' : Db δ} {c : Command δ} (h : db'.commands = db.commands ++ [c])
    {k : Nat × Nat} : storedCommand db' k =
      (storedCommand db k).or (if c.scope.organizationId = k.1 ∧ c.idempotencyKey = k.2 then some c else none) := by
  rw [storedCommand, h, List.find?_append, storedCommand, List.find?_singleton]
  simp

variable {request : Request} {k : Nat × Nat} {command : PolicyCommand} {metadata : AgentInstallationMetadata}

section
variable {δ : Type} [DecidableEq δ] (digest : RequestBody → δ)

/-- Policy commands, with what they store under their keys. -/
def policies (applications : List PolicyScope) : Keyed (Db δ) Request Reply Failure (Nat × Nat) PolicyCommand δ where
  step := serve digest
  keyed := keyedRequest applications
  digest command := digest command.body
  row db k := (storedCommand db k).map fun c => (c.requestDigest, .changed c.result)
  again := id
  conflict e := e = keyReused

variable {digest} {db : Db δ} {applications : List PolicyScope}

theorem alone_beginCommand {organizationId key : Nat} {d : δ} : (beginCommand organizationId key d).alone apply db =
      match storedCommand db (organizationId, key) with
      | none => .ok (none, db)
      | some c => if c.requestDigest = d then .ok (some c.result, db) else .error keyReused := by
  rw [beginCommand, alone_bind]
  have hfind : (lockedCommand organizationId key : Program δ _).alone apply db =
      .ok (storedCommand db (organizationId, key), db) := rfl
  rw [hfind]
  cases storedCommand db (organizationId, key) with
  | none => rfl
  | some c =>
    show Tx.alone apply (if c.requestDigest = d then _ else _) db = _
    dsimp only
    split <;> rfl

section
variable {scope : PolicyScope} {key : Nat} {kind : CommandKind} {d : δ}
  {perform : Program δ MutationResult}

/-- A command under a new key stores its result. -/
theorem triple_underKey_new (h : storedCommand db (scope.organizationId, key) = none)
    (hperform : Triple apply (· = db) perform fun _ v => v.commands = db.commands) :
    Triple apply (· = db) (underKey scope key kind d perform)
      fun result v => v.commands = db.commands ++ [⟨scope, key, kind, d, result.resourceId, result⟩] := by
  refine Triple.bind (Q := fun stored v => stored = none ∧ v = db) ⟨fun v r hv hr => ?_⟩ fun stored => ?_
  · subst hv
    rw [alone_beginCommand, h] at hr
    cases hr
    exact ⟨rfl, rfl⟩
  · refine triple_of_fact (fun v hv => hv.1) fun hnone => ?_
    subst hnone
    refine Triple.bind (hperform.mono (fun v hv => hv.2) fun _ _ hv => hv) fun result => ?_
    refine Triple.bind (Q := fun _ (v : Db δ) => v.commands =
      db.commands ++ [⟨scope, key, kind, d, result.resourceId, result⟩]) (triple_insertRow fun v hv _ => ?_) fun _ => ?_
    · rw [← hv]
      rfl
    · exact triple_pure fun _ h => h

end

/-- A transaction that is refused as asked or, if it is not, runs a command under its key. What it does
for the command leaves the stored commands alone. -/
def Follows (digest : RequestBody → δ) (db : Db δ) (t : Except Failure (MutationResult × Db δ)) :
    Except Failure (Nat × PolicyCommand) → Prop
  | .error e => t = .error e
  | .ok (key, command) =>
    ∃ perform : Tx (Db δ) (Write δ) Lock Failure MutationResult,
      (Triple apply (· = db) perform fun _ v => v.commands = db.commands) ∧
        t = (underKey command.scope key command.kind (digest command.body) perform).alone apply db

theorem follows_ofExcept {α : Type} {f : α → Program δ MutationResult} {g : α → Except Failure (Nat × PolicyCommand)}
    (h : ∀ a, Follows digest db ((f a).alone apply db) (g a)) {x : Except Failure α} :
    Follows digest db ((.ofExcept x >>= f).alone apply db) (x >>= g) := by
  cases x with
  | error => exact rfl
  | ok a => exact h a

theorem follows_ensureApplication {scope : PolicyScope} {f : Unit → Program δ MutationResult}
    {g : Unit → Except Failure (Nat × PolicyCommand)} (h : ∀ a, Follows digest db ((f a).alone apply db) (g a)) :
    Follows digest db ((ensureApplication scope >>= f).alone apply db) (known db.applications scope >>= g) := by
  rw [alone_bind]
  show Follows digest db (Tx.alone apply (Tx.ensure (db.applications.contains scope) _) db >>= _) _
  rw [Tx.ensure, known]
  split
  · exact h ()
  · exact rfl

theorem follows_underKey {scope : PolicyScope} {key : Nat} {kind : CommandKind} {target : Option Nat}
    {body : RequestBody} {perform : Program δ MutationResult} {behavior : Option BehaviorKey}
    (h : Triple apply (· = db) perform fun _ => Performed scope behavior db) :
    Follows digest db ((underKey scope key kind (digest body) perform).alone apply db)
      (pure (key, ⟨kind, scope, target, body⟩)) :=
  ⟨perform, h.mono (fun _ hv => hv) fun _ _ hv => hv.2, rfl⟩

/-- Up to the key a request is what it asks for; after that it is a command under the key. -/
theorem transaction_asked {x : Except Failure (Nat × PolicyCommand)} (h : asked db.applications request = some x) :
    ∃ t, transaction digest request = (t >>= fun r => pure (.changed r)) ∧ Follows digest db (t.alone apply db) x := by
  cases request with
  | createPolicy now scope _ policyId ids =>
    cases h
    refine ⟨_, rfl, ?_⟩
    refine follows_ensureApplication fun _ => ?_
    refine follows_ofExcept fun name => ?_
    exact follows_ofExcept fun key => follows_underKey (triple_performCreate db now scope policyId ids)
  | replacePolicy now scope policyId _ ids =>
    cases h
    refine ⟨_, rfl, ?_⟩
    refine follows_ofExcept fun key => ?_
    exact follows_ofExcept fun name => follows_underKey (triple_performReplace db now scope policyId ids)
  | setPolicyEnabled now scope policyId _ ids =>
    cases h
    refine ⟨_, rfl, ?_⟩
    exact follows_ofExcept fun key => follows_underKey (triple_performSetEnabled db now scope policyId ids)
  | createSuppression _ _ _ _ input =>
    cases h
    refine ⟨_, rfl, ?_⟩
    refine follows_ensureApplication fun _ => ?_
    refine follows_ofExcept fun input => ?_
    exact follows_ofExcept fun key => follows_underKey triple_performSuppress
  | cancelSuppression =>
    cases h
    refine ⟨_, rfl, ?_⟩
    exact follows_ofExcept fun key => follows_underKey triple_performCancel
  | _ => cases h

theorem serve_ok {reply : Reply} {db' : Db δ}
    (h : (transaction digest request).alone apply db = .ok (reply, db')) : serve digest db request = (.ok reply, db') := by
  rw [serve, h]

theorem serve_error {e : Failure} (h : (transaction digest request).alone apply db = .error e) :
    serve digest db request = (.error e, db) := by
  rw [serve, h]

/-- A request that succeeds leaves what every write and the transaction itself preserve. -/
theorem serve_preserves {p : Db δ → Prop} (hdb : p db)
    (h : ∀ r, (transaction digest request).alone apply db = .ok r → p r.2) : p (serve digest db request).2 := by
  rw [serve]
  split
  next reply db' hok => exact h (reply, db') hok
  · exact hdb

theorem keyedRequest_eq_some (h : keyedRequest applications request = some (k, command)) :
    k.1 = command.scope.organizationId ∧ asked applications request = some (.ok (k.2, command)) := by
  rw [keyedRequest] at h
  split at h
  next hasked =>
    cases h
    exact ⟨rfl, hasked⟩
  · cases h

theorem serve_keyed (happ : db.applications = applications)
    (h : keyedRequest applications request = some (k, command)) :
    ∃ perform : Program δ MutationResult, (Triple apply (· = db) perform fun _ v => v.commands = db.commands) ∧
        (transaction digest request).alone apply db =
          (underKey command.scope k.2 command.kind (digest command.body) perform).alone apply db >>= fun r =>
            .ok (.changed r.1, r.2) := by
  obtain ⟨-, hasked⟩ := keyedRequest_eq_some h
  rw [← happ] at hasked
  obtain ⟨_, ht, perform, hperform, hrun⟩ := transaction_asked hasked
  refine ⟨perform, hperform, ?_⟩
  rw [ht, alone_bind, hrun]
  rfl

/-- Ingestion, recomputation and refused commands store nothing under a key. -/
theorem commands_unkeyed (hs : Sound db) (h : keyedRequest db.applications request = none) :
    (serve digest db request).2.commands = db.commands := by
  cases hasked : asked db.applications request with
  | some x =>
    cases x with
    | ok => simp [keyedRequest, hasked] at h
    | error e =>
      obtain ⟨t, ht, hrun⟩ := transaction_asked hasked
      rw [serve_error (e := e)]
      rw [ht, alone_bind, show t.alone apply db = .error e from hrun]
      rfl
  | none =>
    refine serve_preserves (p := fun v => v.commands = db.commands) rfl fun r hr => ?_
    cases request with
    | ingest scope events =>
      have hproject : Projects (fun _ => True) (transaction digest (.ingest scope events)) fun _ _ => True :=
        projects_persistApplicationBatchOutcome.bind fun p =>
          projects_pure fun _ h => h
      exact commands_of_projects hproject hs hr
    | recompute now owner batchSize =>
      have hproject : Projects (fun _ => True) (transaction digest (.recompute now owner batchSize)) fun _ _ => True :=
        projects_runOneBatch.bind fun found =>
          projects_pure fun _ h => h
      exact commands_of_projects hproject hs hr
    | _ => cases hasked

theorem serve_stored {d : δ} {reply : Reply} (happ : db.applications = applications)
    (hk : keyedRequest applications request = some (k, command))
    (hrow : (policies digest applications).row db k = some (d, reply)) :
    serve digest db request = if d = digest command.body then (.ok reply, db) else (.error keyReused, db) := by
  obtain ⟨c, hc, he⟩ := Option.map_eq_some_iff.mp hrow
  cases he
  obtain ⟨_, -, hrun⟩ := serve_keyed happ hk
  obtain ⟨hk, -⟩ := keyedRequest_eq_some hk
  rw [← Prod.mk.eta (p := k), hk] at hc
  rw [underKey, alone_bind, alone_beginCommand, hc] at hrun
  dsimp only at hrun
  by_cases hd : c.requestDigest = digest command.body
  · rw [if_pos hd] at hrun ⊢
    exact serve_ok hrun
  · rw [if_neg hd] at hrun ⊢
    exact serve_error hrun

theorem serve_new (happ : db.applications = applications)
    (hk : keyedRequest applications request = some (k, command)) (hc : storedCommand db k = none) :
    (∃ e, serve digest db request = (.error e, db)) ∨
      ∃ result db', serve digest db request = (.ok (.changed result), db') ∧ db'.commands =
        db.commands ++ [⟨command.scope, k.2, command.kind, digest command.body, result.resourceId, result⟩] := by
  obtain ⟨perform, hperform, hrun⟩ := serve_keyed happ hk
  obtain ⟨hk, -⟩ := keyedRequest_eq_some hk
  rw [← Prod.mk.eta (p := k), hk] at hc
  cases halone : (underKey command.scope k.2 command.kind (digest command.body) perform).alone apply db with
  | error e =>
    rw [halone] at hrun
    exact .inl ⟨e, serve_error hrun⟩
  | ok r =>
    rw [halone] at hrun
    exact .inr ⟨r.1, r.2, serve_ok hrun, (triple_underKey_new hc hperform).alone db r rfl halone⟩

theorem lawful_policies (digest : RequestBody → δ) (applications : List PolicyScope) :
    Lawful (policies digest applications) fun db => Sound db ∧ db.applications = applications where
  keeps db request hdb := by
    refine serve_preserves (p := fun v => Sound v ∧ v.applications = applications) hdb fun r hr => ⟨?_, ?_⟩
    · exact (keeps_transaction digest request).alone hdb.1 hr
    · exact alone_induction (p := fun v => v.applications = applications)
        (fun w v hv => by cases w <;> exact hv) hdb.2 hr
  replayed db request k command b hdb hk hrow := (serve_stored hdb.2 hk hrow).trans (if_pos rfl)
  refused db request k command d b hdb hk hrow hd := ⟨keyReused, rfl, (serve_stored hdb.2 hk hrow).trans (if_neg hd)⟩
  performed db request k command hdb hk hrow := by
    have hc := Option.map_eq_none_iff.mp hrow
    obtain herror | ⟨_, db', hok, hcommands⟩ := serve_new hdb.2 hk hc
    · exact .inl herror
    obtain ⟨horganization, -⟩ := keyedRequest_eq_some hk
    refine .inr ⟨_, db', hok, ?_, fun k' hne => ?_⟩
    · show (storedCommand db' k).map _ = _
      rw [storedCommand_append hcommands, hc, if_pos ⟨horganization.symm, rfl⟩]
      rfl
    have hother : ¬ (command.scope.organizationId = k'.1 ∧ k.2 = k'.2) := fun h =>
      hne (Prod.ext (h.1.symm.trans horganization.symm) h.2.symm)
    show (storedCommand db' k').map _ = (storedCommand db k').map _
    rw [storedCommand_append hcommands, if_neg hother, Option.or_none]
  unkeyed db request hdb hk k := by
    show (storedCommand (serve digest db request).2 k).map _ = (storedCommand db k).map _
    rw [← hdb.2] at hk
    rw [storedCommand, commands_unkeyed hdb.1 hk, storedCommand]

end

/-! ## Installations -/

/-- A creation of an installation: the path it is sent to and its body. -/
structure InstallationCommand where
  projectId : Nat
  applicationId : Nat
  request : InstallationRequest
  deriving DecidableEq

/-- The key of a creation, with its organization, and the command it asks for. -/
def keyedCreation (applications : List PolicyScope) (memberships : List ProjectMembership) (c : Creation) :
    Option ((Nat × String) × InstallationCommand) :=
  match admitted applications memberships c with
  | .ok (key, _) => some ((c.principal.organizationId, key), ⟨c.projectId, c.applicationId, c.input⟩)
  | .error _ => none

/-- An installation that is given again comes without its credential. -/
def withoutCredential : InstallationIssue → InstallationIssue
  | .issued installation _ | .replayed installation => .replayed installation

variable {key : String}

theorem byIdempotencyKey_append {δ : Type} {db db' : Installations.Db δ} {r : InstallationRow δ}
    (h : db'.installations = db.installations ++ [r]) {organizationId : Nat} :
    db'.byIdempotencyKey organizationId key = (db.byIdempotencyKey organizationId key).or
      (if r.organizationId = organizationId ∧ r.idempotencyKey = key then some r else none) := by
  rw [Installations.Db.byIdempotencyKey, h, List.find?_append, Installations.Db.byIdempotencyKey, List.find?_singleton]
  simp

/-- What an installation that is issued adds to the database. -/
theorem issueInstallation_eq_ok {δ : Type} {digest : InstallationRequest → δ} {db db' : Installations.Db δ}
    {c : Creation} {issue : InstallationIssue} (h : issueInstallation digest db c key metadata = .ok (issue, db')) :
    withoutCredential issue = .replayed (c.row digest key metadata).installation ∧
      db'.installations = db.installations ++ [c.row digest key metadata] ∧
        db'.applications = db.applications ∧ db'.memberships = db.memberships := by
  obtain ⟨db₁, hcredential, h⟩ := Outcome.bind_eq_ok.mp h
  obtain ⟨_, hinstallation, h⟩ := Outcome.bind_eq_ok.mp h
  cases h
  have hafter : db₁.installations = db.installations ∧ db₁.applications = db.applications ∧
      db₁.memberships = db.memberships := by
    rw [insertCredential] at hcredential
    split_ifs at hcredential
    cases hcredential
    exact ⟨rfl, rfl, rfl⟩
  rw [insertInstallation] at hinstallation
  split_ifs at hinstallation
  cases hinstallation
  refine ⟨rfl, ?_, hafter.2⟩
  rw [← hafter.1]

section
variable {δ : Type} [DecidableEq δ] (digest : InstallationRequest → δ)

/-- Creations of installations, with what they store under their keys. -/
def installations (applications : List PolicyScope) (memberships : List ProjectMembership) :
    Keyed (Installations.Db δ) Creation InstallationIssue OnboardingFailure (Nat × String) InstallationCommand δ where
  step := install digest
  keyed := keyedCreation applications memberships
  digest command := digest command.request
  row db k := (db.byIdempotencyKey k.1 k.2).map fun r => (r.requestHash, .replayed r.installation)
  again := withoutCredential
  conflict e := e = .idempotencyKeyReused

variable {digest} {db : Installations.Db δ} {applications : List PolicyScope} {memberships : List ProjectMembership}
  {c : Creation}

theorem keyedCreation_eq_some {k : Nat × String} {command : InstallationCommand}
    (h : keyedCreation applications memberships c = some (k, command)) :
    ∃ metadata, admitted applications memberships c = .ok (k.2, metadata) ∧ k.1 = c.principal.organizationId ∧
      command = ⟨c.projectId, c.applicationId, c.input⟩ := by
  rw [keyedCreation] at h
  split at h
  next metadata hadmitted =>
    cases h
    exact ⟨metadata, hadmitted, rfl, rfl⟩
  · cases h

section
variable (h : admitted db.applications db.memberships c = .ok (key, metadata))
include h

theorem createInstallation_admitted : createInstallation digest db c =
      match db.byIdempotencyKey c.principal.organizationId key with
      | some existing =>
        if existing.requestHash = digest c.input then .ok (.replayed existing.installation, db)
        else .error .idempotencyKeyReused
      | none => (issueInstallation digest db c key metadata).mapError .database := by
  rw [createInstallation, h]
  rfl

theorem install_stored
    {existing : InstallationRow δ} (he : db.byIdempotencyKey c.principal.organizationId key = some existing) :
    install digest db c =
      if existing.requestHash = digest c.input then (.ok (.replayed existing.installation), db)
      else (.error .idempotencyKeyReused, db) := by
  rw [install, createInstallation_admitted h, he]
  by_cases hd : existing.requestHash = digest c.input
  · simp [if_pos hd]
  · simp [if_neg hd]

theorem install_new (he : db.byIdempotencyKey c.principal.organizationId key = none) :
    (∃ e, install digest db c = (.error e, db)) ∨ ∃ issue db', install digest db c = (.ok issue, db') ∧
      issueInstallation digest db c key metadata = .ok (issue, db') := by
  rw [install, createInstallation_admitted h, he]
  cases issueInstallation digest db c key metadata with
  | error e => exact .inl ⟨.database e, rfl⟩
  | ok r => exact .inr ⟨r.1, r.2, rfl, rfl⟩

end

theorem install_refused {e : OnboardingFailure} (h : admitted db.applications db.memberships c = .error e) :
    install digest db c = (.error e, db) := by
  rw [install, createInstallation, h]
  rfl

theorem install_keeps (db : Installations.Db δ) (c : Creation) :
    (install digest db c).2.applications = db.applications ∧ (install digest db c).2.memberships = db.memberships := by
  cases hadmitted : admitted db.applications db.memberships c with
  | error =>
    rw [install_refused hadmitted]
    exact ⟨rfl, rfl⟩
  | ok p =>
    obtain ⟨key, _⟩ := p
    cases he : db.byIdempotencyKey c.principal.organizationId key with
    | some =>
      rw [install_stored hadmitted he]
      split <;> exact ⟨rfl, rfl⟩
    | none =>
      obtain ⟨_, herror⟩ | ⟨_, _, hok, hissue⟩ := install_new hadmitted he
      · rw [herror]
        exact ⟨rfl, rfl⟩
      · rw [hok]
        exact (issueInstallation_eq_ok hissue).2.2

theorem install_found {k : Nat × String} {command : InstallationCommand} {d : δ}
    {issue : InstallationIssue} (hk : keyedCreation db.applications db.memberships c = some (k, command))
    (hrow : (installations digest applications memberships).row db k = some (d, issue)) : install digest db c =
      if d = digest command.request then (.ok issue, db) else (.error .idempotencyKeyReused, db) := by
  obtain ⟨_, hadmitted, horganization, rfl⟩ := keyedCreation_eq_some hk
  obtain ⟨_, hr, he⟩ := Option.map_eq_some_iff.mp hrow
  cases he
  exact install_stored hadmitted (horganization ▸ hr)

theorem lawful_installations (digest : InstallationRequest → δ) (applications : List PolicyScope)
    (memberships : List ProjectMembership) :
    Lawful (installations digest applications memberships) fun db =>
      db.applications = applications ∧ db.memberships = memberships where
  keeps db c hdb := by
    obtain ⟨ha, hm⟩ := install_keeps db c
    exact ⟨ha.trans hdb.1, hm.trans hdb.2⟩
  replayed db c k command b hdb hk hrow := by
    obtain ⟨rfl, rfl⟩ := hdb
    exact (install_found hk hrow).trans (if_pos rfl)
  refused db c k command d b hdb hk hrow hd := by
    obtain ⟨rfl, rfl⟩ := hdb
    exact ⟨.idempotencyKeyReused, rfl, (install_found hk hrow).trans (if_neg hd)⟩
  performed db c k command hdb hk hrow := by
    obtain ⟨metadata, hadmitted, horganization, rfl⟩ := keyedCreation_eq_some hk
    have hr := Option.map_eq_none_iff.mp hrow
    rw [← hdb.1, ← hdb.2] at hadmitted
    obtain herror | ⟨issue, db', hok, hissue⟩ := install_new hadmitted (horganization ▸ hr)
    · exact .inl herror
    obtain ⟨hagain, hinstallations, -⟩ := issueInstallation_eq_ok hissue
    refine .inr ⟨issue, db', hok, ?_, fun k' hne => ?_⟩
    · show (db'.byIdempotencyKey k.1 k.2).map _ = some (_, withoutCredential issue)
      rw [byIdempotencyKey_append hinstallations, hr, if_pos ⟨horganization.symm, rfl⟩, hagain]
      rfl
    have hother : ¬ ((c.row digest k.2 metadata).organizationId = k'.1 ∧
        (c.row digest k.2 metadata).idempotencyKey = k'.2) := fun h =>
      hne (Prod.ext (h.1.symm.trans horganization.symm) h.2.symm)
    show (db'.byIdempotencyKey k'.1 k'.2).map _ = (db.byIdempotencyKey k'.1 k'.2).map _
    rw [byIdempotencyKey_append hinstallations, if_neg hother, Option.or_none]
  unkeyed db c hdb hk k := by
    cases hadmitted : admitted applications memberships c with
    | ok =>
      have hkey : keyedCreation applications memberships c = none := hk
      rw [keyedCreation, hadmitted] at hkey
      cases hkey
    | error =>
      rw [← hdb.1, ← hdb.2] at hadmitted
      show ((install digest db c).2.byIdempotencyKey k.1 k.2).map _ = _
      rw [install_refused hadmitted]
      rfl

end

/-! ## Both together -/

section
variable {δ δ' : Type} [DecidableEq δ] [DecidableEq δ'] (digest : RequestBody → δ) (digest' : InstallationRequest → δ')

/-- Policy commands and installations of the same applications. -/
def keyedCommands (applications : List PolicyScope) (memberships : List ProjectMembership) :
    Keyed (Db δ × Installations.Db δ') (Request ⊕ Creation) (Reply ⊕ InstallationIssue) (Failure ⊕ OnboardingFailure)
      (Nat × Nat ⊕ Nat × String) (PolicyCommand ⊕ InstallationCommand) (δ ⊕ δ') :=
  (policies digest applications).beside (installations digest' applications memberships)

end

/-- The body of a command. -/
def bodyOf : PolicyCommand ⊕ InstallationCommand → RequestBody ⊕ InstallationRequest :=
  Sum.map PolicyCommand.body InstallationCommand.request

/-- The kind of a command and the path it is sent to. -/
def pathOf : PolicyCommand ⊕ InstallationCommand → (CommandKind × PolicyScope × Option Nat) ⊕ (Nat × Nat) :=
  Sum.map (fun c => (c.kind, c.scope, c.target)) fun c => (c.projectId, c.applicationId)

theorem eq_of_body_of_path {c c' : PolicyCommand ⊕ InstallationCommand} (hb : bodyOf c = bodyOf c')
    (hp : pathOf c = pathOf c') : c = c' := by
  obtain ⟨_, _, _, _⟩ | ⟨_, _, _⟩ := c <;>
    obtain ⟨_, _, _, _⟩ | ⟨_, _, _⟩ := c' <;>
    cases hb <;> cases hp <;> rfl

section
variable {δ δ' : Type} [DecidableEq δ] [DecidableEq δ'] {digest : RequestBody → δ} {digest' : InstallationRequest → δ'}

/-- What stands before a call: the history and the databases after the given calls, the first of which
finds no key taken. -/
def after (digest : RequestBody → δ) (digest' : InstallationRequest → δ') (projects : List Project)
    (applications : List PolicyScope) (memberships : List ProjectMembership) (credentials : List Credential)
    (calls : List (Request ⊕ Creation)) :
    List ((Request ⊕ Creation) × Except (Failure ⊕ OnboardingFailure) (Reply ⊕ InstallationIssue)) ×
      Db δ × Installations.Db δ' :=
  Run.trace (keyedCommands digest digest' applications memberships).step
    (Db.fresh projects applications, ⟨applications, memberships, credentials, []⟩) calls

/-- For every sequence of policy commands and creations of installations, with events and
recomputations between them, and every command after it, unless its body is another one than that of
the command that its key stands for and has the same digest: the command is answered as its key
deserves exactly if the command that the key stands for does not have the same body and another kind
or path. -/
theorem answered_iff_same_path (projects : List Project) (applications : List PolicyScope)
    (memberships : List ProjectMembership) (credentials : List Credential) (calls : List (Request ⊕ Creation))
    {call : Request ⊕ Creation} {k : Nat × Nat ⊕ Nat × String} {command : PolicyCommand ⊕ InstallationCommand}
    (hk : (keyedCommands digest digest' applications memberships).keyed call = some (k, command)) :
    let before := after digest digest' projects applications memberships credentials calls
    let standsFor first := ∃ result, stored (keyedCommands digest digest' applications memberships).keyed before.1 k =
      some (first, result)
    (∀ first, standsFor first → Sum.map digest digest' (bodyOf first) = Sum.map digest digest' (bodyOf command) →
      bodyOf first = bodyOf command) →
    (Answered (keyedCommands digest digest' applications memberships) before.1 before.2 call k command ↔
      ∀ first, standsFor first → bodyOf first = bodyOf command → pathOf first = pathOf command) := by
  intro before standsFor hdigest
  have hlaw := (lawful_policies digest applications).beside (lawful_installations digest' applications memberships)
  have hfresh : ∀ k, (keyedCommands digest digest' applications memberships).row
      (Db.fresh projects applications, ⟨applications, memberships, credentials, []⟩) k = none := by
    rintro (k | k) <;> rfl
  have hiff := answered_iff hlaw ⟨⟨sound_fresh projects applications, rfl⟩, rfl, rfl⟩ hfresh calls hk
  have hmap : ∀ c, (keyedCommands digest digest' applications memberships).digest c =
      Sum.map digest digest' (bodyOf c) := by
    rintro (c | c) <;> rfl
  refine hiff.trans ⟨fun h first hfirst hbody => ?_, fun h first result hstored hd => ?_⟩
  · obtain ⟨result, hstored⟩ := hfirst
    have hsame := (hmap first).trans ((congrArg _ hbody).trans (hmap command).symm)
    exact congrArg pathOf (h first result hstored hsame)
  · have hbody := hdigest first ⟨result, hstored⟩ ((hmap first).symm.trans (hd.trans (hmap command)))
    exact eq_of_body_of_path hbody (h first ⟨result, hstored⟩ hbody)

end

/-! ### Two applications of a project -/

def stall : PolicyScope := ⟨1, 1, 2⟩

def startUpRevision : RevisionInput := ⟨20, none, ⟨∅, {"default"}, ∅, ∅⟩, .expected, none⟩

def createStartUp : Request := .createPolicy 0 shop (some 7) 30 ⟨31, 32⟩ ⟨"start-up", startUpRevision⟩

/-- The policy is replaced by what it is already, under the key it was created with. -/
def replaceStartUp : Request := .replacePolicy 1 shop 30 (some 7) ⟨33, 34⟩ ⟨some "start-up", startUpRevision⟩

def startUpCommand : PolicyCommand := ⟨.create, shop, none, .policy (some "start-up") startUpRevision⟩

def startUpResult : MutationResult := ⟨30, some 31, some 32, 1⟩

def agentMetadata : AgentInstallationMetadata :=
  ⟨"oci://charts/agent", "1.0.0", 1, "https://agents", "system", none, none, ["Deployment"]⟩

def installIn (applicationId : Nat) : Creation where
  principal := ⟨1, 1, .owner⟩
  projectId := 1
  applicationId
  header := some "first"
  input := ⟨"cluster", ⟨"default", "Deployment", some "api", none⟩⟩
  metadata := some agentMetadata
  drawn := ⟨Bytes.ByteVec.fill 16 1, 50, 51, "abcdefgh"⟩
  now := 0

def firstCalls : List (Request ⊕ Creation) := [.inl (.ingest shop [startUp 1]), .inl createStartUp, .inr (installIn 1)]

/-- Digests of 32 bytes, which tell the kinds of bodies apart. -/
def bodyDigest : RequestBody → Bytes.ByteVec 32
  | .policy _ _ => .fill 32 0
  | _ => .fill 32 1

def requestDigest (_ : InstallationRequest) : Bytes.ByteVec 32 := .fill 32 2

theorem answered_iff_same_path_repeated :
    let before := after bodyDigest requestDigest [⟨1, 1, none⟩] [shop, stall] [] [] firstCalls
    Answered (keyedCommands bodyDigest requestDigest [shop, stall] []) before.1 before.2 (.inl createStartUp)
      (.inl (1, 7)) (.inl startUpCommand) := by
  have hk : (keyedCommands bodyDigest requestDigest [shop, stall] []).keyed (.inl createStartUp) =
      some (.inl (1, 7), .inl startUpCommand) := by
    decide +kernel
  refine (answered_iff_same_path [⟨1, 1, none⟩] [shop, stall] [] [] firstCalls hk ?_).mpr ?_
  · rintro first ⟨result, h⟩ -
    cases h
    rfl
  · rintro first ⟨result, h⟩ -
    cases h
    rfl

/-- The replacement gets the result of the creation, and the installation in the one application that
in the other, where both should be refused. -/
theorem other_commands_replayed :
    let before := after id id [⟨1, 1, none⟩] [shop, stall] [] [] firstCalls
    ¬ Answered (keyedCommands id id [shop, stall] []) before.1 before.2 (.inl replaceStartUp) (.inl (1, 7))
        (.inl ⟨.replace, shop, some 30, .policy (some "start-up") startUpRevision⟩) ∧
      ¬ Answered (keyedCommands id id [shop, stall] []) before.1 before.2 (.inr (installIn 2)) (.inr (1, "first"))
        (.inr ⟨1, 2, (installIn 2).input⟩) := by
  intro before
  have hreplace : ((keyedCommands id id [shop, stall] []).step before.2 (.inl replaceStartUp)).1 =
      .ok (.inl (.changed startUpResult)) := by
    decide +kernel
  have hinstall : ((keyedCommands id id [shop, stall] []).step before.2 (.inr (installIn 2))).1 =
      .ok (.inr (.replayed ((installIn 1).row id "first" agentMetadata).installation)) := by
    decide +kernel
  constructor
  · intro h
    obtain ⟨_, -, he⟩ := h.2 (by decide +kernel)
    rw [he] at hreplace
    cases hreplace
  · intro h
    obtain ⟨_, -, he⟩ := h.2 (by decide +kernel)
    rw [he] at hinstall
    cases hinstall

end Okoscope.Server.Idempotency
