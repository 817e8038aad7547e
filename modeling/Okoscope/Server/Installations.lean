import Mathlib.Data.String.Basic
import Okoscope.Lib.OrderedMap
import Okoscope.Lib.Uuid
import Okoscope.Server.Deployments
import Okoscope.Server.Policy
import Okoscope.Server.ProjectAccess

/-!
# Agent installations

Owners create an installation of the agent for an application, with a fresh
ingestion credential. The creation carries an idempotency key of the organization.
The installation is stored with the key and a digest of the request, and a request
whose key and digest are found gets that installation, without the credential.
-/
namespace Okoscope.Server.Installations

open Lib
open Deployments (SqlError hasNul)
open Policy (PolicyScope)
open ProjectAccess

/-! ## Requests -/

/-- The workload an installation watches: a Deployment by name or by labels. -/
structure WorkloadIntent where
  workloadNamespace : String
  kind : String
  name : Option String
  labels : Option (OrderedMap String String)
  deriving DecidableEq

structure InstallationRequest where
  clusterName : String
  workload : WorkloadIntent
  deriving DecidableEq

structure AgentInstallationMetadata where
  chartReference : String
  chartVersion : String
  configurationSchemaVersion : Int
  grpcEndpoint : String
  tlsMode : String
  caSecretName : Option String
  caSecretKey : Option String
  supportedWorkloadKinds : List String

inductive OnboardingFailure where
  | invalid (message : String)
  | metadataUnavailable (message : String)
  | notFound
  | idempotencyKeyReused
  | database (error : SqlError)
  deriving DecidableEq

def AgentInstallationMetadata.validTlsMetadata (m : AgentInstallationMetadata) : Bool :=
  match m.tlsMode with
  | "system" => m.caSecretName.isNone && m.caSecretKey.isNone
  | "custom_ca" => m.caSecretName.any (fun value => value ≠ "") && m.caSecretKey.any (fun value => value ≠ "")
  | _ => false

def AgentInstallationMetadata.validate (m : AgentInstallationMetadata) : Except String Unit :=
  if "oci://".toList.isPrefixOf m.chartReference.toList && m.chartVersion ≠ "" && m.grpcEndpoint ≠ "" &&
      m.validTlsMetadata && 0 < m.configurationSchemaVersion && m.supportedWorkloadKinds = ["Deployment"] then
    .ok ()
  else
    .error "agent installation metadata is incomplete"

def installationMetadata (metadata : Option AgentInstallationMetadata) :
    Except OnboardingFailure AgentInstallationMetadata :=
  match metadata with
  | none => .error (.metadataUnavailable "agent installation metadata is unavailable")
  | some m =>
    match m.validate with
    | .ok () => .ok m
    | .error message => .error (.metadataUnavailable message)

def validName (value : String) : Bool :=
  Text.trim value = value && 1 ≤ value.length && value.length ≤ 120

def dns (value : String) (max : Nat) : Bool :=
  value ≠ "" && Text.len value ≤ max &&
    value.toList.all fun c => Text.isAsciiLowercase c || Text.isAsciiDigit c || c = '-' || c = '.'

def validLabels (labels : OrderedMap String String) : Bool :=
  labels.entries ≠ [] && labels.entries.length ≤ 16 &&
    labels.entries.all fun e => dns e.1 63 && e.2 ≠ "" && Text.len e.2 ≤ 63

def validateInstallation (input : InstallationRequest) : Except OnboardingFailure Unit :=
  if ¬ validName input.clusterName ∨ ¬ dns input.workload.workloadNamespace 63 ∨ input.workload.kind ≠ "Deployment" then
    .error (.invalid "cluster or workload identity is invalid")
  else
    let valid :=
      match input.workload.name, input.workload.labels with
      | some name, none => dns name 253
      | none, some labels => validLabels labels
      | _, _ => false
    if valid then .ok () else .error (.invalid "provide exactly one valid Deployment name or label map")

def idempotencyKeyOf (header : Option String) : Except OnboardingFailure String :=
  match header.filter fun v => v ≠ "" && Text.len v ≤ 128 with
  | some key => .ok key
  | none => .error (.invalid "a bounded Idempotency-Key header is required")

/-! ## Tables -/

structure Credential where
  id : Nat
  scope : PolicyScope
  name : String
  credentialHash : Nat
  tokenHint : String

/-- An installation as the endpoints read it. -/
structure Installation where
  id : Uuid
  applicationId : Nat
  credentialId : Nat
  clusterName : String
  workloadNamespace : String
  workloadKind : String
  workloadName : Option String
  workloadLabels : Option (OrderedMap String String)
  chartVersion : String
  configurationSchemaVersion : Int
  createdAt : Int
  updatedAt : Int
  deriving DecidableEq

structure InstallationRow (δ : Type) where
  organizationId : Nat
  projectId : Nat
  idempotencyKey : String
  requestHash : δ
  installation : Installation

structure Db (δ : Type) where
  applications : List PolicyScope
  memberships : List ProjectMembership
  credentials : List Credential
  installations : List (InstallationRow δ)

/-! ## Creating an installation -/

/-- What is drawn for a new installation: its id, the id of its credential, and the digest and the
last characters of the credential's token. -/
structure Drawn where
  installationId : Uuid
  credentialId : Nat
  credentialHash : Nat
  tokenHint : String

/-- A creation as it reaches the service. -/
structure Creation where
  principal : UserPrincipal
  projectId : Nat
  applicationId : Nat
  header : Option String
  input : InstallationRequest
  metadata : Option AgentInstallationMetadata
  drawn : Drawn
  now : Int

structure IssuedCredential where
  id : Nat
  tokenHint : String
  deriving DecidableEq

inductive InstallationIssue where
  | issued (installation : Installation) (credential : IssuedCredential)
  | replayed (installation : Installation)
  deriving DecidableEq

def Creation.scope (c : Creation) : PolicyScope := ⟨c.principal.organizationId, c.projectId, c.applicationId⟩

def credentialName (id : Uuid) : String := "installation-" ++ String.ofList (id.toText.toList.take 8)

/-- The application of a project that the principal may enter. -/
def ownedApplication (applications : List PolicyScope) (memberships : List ProjectMembership) (c : Creation) :
    Except OnboardingFailure Unit :=
  if (memberProjectRole memberships c.principal c.projectId).isNone then .error .notFound
  else if applications.contains c.scope then .ok ()
  else .error .notFound

/-- What is looked at before the key: who asks, the application, the request, the header and the
metadata of the deployment. -/
def admitted (applications : List PolicyScope) (memberships : List ProjectMembership) (c : Creation) :
    Except OnboardingFailure (String × AgentInstallationMetadata) :=
  if ¬ c.principal.role.isOwner then .error .notFound
  else do
    ownedApplication applications memberships c
    validateInstallation c.input
    let key ← idempotencyKeyOf c.header
    let metadata ← installationMetadata c.metadata
    pure (key, metadata)

section
variable {δ : Type} [DecidableEq δ] (digest : InstallationRequest → δ)

def Db.byIdempotencyKey (db : Db δ) (organizationId : Nat) (key : String) : Option (InstallationRow δ) :=
  db.installations.find? fun r => r.organizationId = organizationId && r.idempotencyKey = key

def Creation.credential (c : Creation) : Credential where
  id := c.drawn.credentialId
  scope := c.scope
  name := credentialName c.drawn.installationId
  credentialHash := c.drawn.credentialHash
  tokenHint := c.drawn.tokenHint

def insertCredential (db : Db δ) (row : Credential) : Except SqlError (Db δ) :=
  if db.credentials.any fun d => d.id = row.id then .error (.unique "application_ingestion_credentials_pkey")
  else if db.credentials.any fun d => d.credentialHash = row.credentialHash then
    .error (.unique "application_ingestion_credentials_credential_hash_key")
  else if db.credentials.any fun d => d.scope.applicationId = row.scope.applicationId && d.name = row.name then
    .error (.unique "application_ingestion_credentials_application_id_name_key")
  else if ¬ (4 ≤ row.tokenHint.length ∧ row.tokenHint.length ≤ 12) then
    .error (.check "application_ingestion_credentials_token_hint_check")
  else .ok { db with credentials := db.credentials ++ [row] }

def Creation.row (c : Creation) (key : String) (metadata : AgentInstallationMetadata) : InstallationRow δ where
  organizationId := c.principal.organizationId
  projectId := c.projectId
  idempotencyKey := key
  requestHash := digest c.input
  installation := {
    id := c.drawn.installationId
    applicationId := c.applicationId
    credentialId := c.drawn.credentialId
    clusterName := c.input.clusterName
    workloadNamespace := c.input.workload.workloadNamespace
    workloadKind := c.input.workload.kind
    workloadName := c.input.workload.name
    workloadLabels := c.input.workload.labels
    chartVersion := metadata.chartVersion
    configurationSchemaVersion := metadata.configurationSchemaVersion
    createdAt := c.now
    updatedAt := c.now }

/-- The texts of a row that may hold any character; the others were checked before. -/
def InstallationRow.texts (r : InstallationRow δ) : List String :=
  [r.idempotencyKey, r.installation.clusterName, r.installation.chartVersion] ++
    ((r.installation.workloadLabels.map OrderedMap.values).getD [])

def insertInstallation (db : Db δ) (row : InstallationRow δ) : Except SqlError (Db δ) :=
  if row.texts.any hasNul then .error .invalidText
  else if ¬ row.installation.clusterName.length ≤ 64 then
    .error (.check "application_installations_cluster_name_check")
  else if db.installations.any fun r => r.installation.id = row.installation.id then
    .error (.unique "application_installations_pkey")
  else if db.installations.any fun r =>
      r.organizationId = row.organizationId && r.idempotencyKey = row.idempotencyKey then
    .error (.unique "application_installations_organization_id_idempotency_key_key")
  else .ok { db with installations := db.installations ++ [row] }

/-- The credential and the installation, in one transaction. -/
def issueInstallation (db : Db δ) (c : Creation) (key : String) (metadata : AgentInstallationMetadata) :
    Except SqlError (InstallationIssue × Db δ) := do
  let db ← insertCredential db c.credential
  let row : InstallationRow δ := c.row digest key metadata
  let db ← insertInstallation db row
  pure (.issued row.installation ⟨c.credential.id, c.credential.tokenHint⟩, db)

def createInstallation (db : Db δ) (c : Creation) : Except OnboardingFailure (InstallationIssue × Db δ) := do
  let (key, metadata) ← admitted db.applications db.memberships c
  match db.byIdempotencyKey c.principal.organizationId key with
  | some existing =>
    if existing.requestHash = digest c.input then .ok (.replayed existing.installation, db)
    else .error .idempotencyKeyReused
  | none => (issueInstallation digest db c key metadata).mapError .database

/-- Serves a creation; one that fails leaves the database as it was. -/
def install (db : Db δ) (c : Creation) : Except OnboardingFailure InstallationIssue × Db δ :=
  match createInstallation digest db c with
  | .ok (issue, db') => (.ok issue, db')
  | .error e => (.error e, db)

end

end Okoscope.Server.Installations
