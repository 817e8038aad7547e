import Okoscope.EventModel.Release

/-!
# Releases, revisions and deployment episodes in the database

The tables that deployment evidence writes, for one application in one cluster, and the
statements of their repositories with the constraints that can refuse a row. Row ids are
random; here they are drawn in turn, so that no two rows share one. Instants are stored
as whole microseconds since the start of the year 2000.
-/
namespace Okoscope.Server.Deployments

open Lib Lib.Bytes EventModel

def postgresEpoch : DateTime := 946684800 * DateTime.nanosPerSecond

/-- The driver cuts an instant to whole microseconds, towards the database's epoch. -/
def storedAt (t : DateTime) : Int := (t - postgresEpoch).tdiv 1000

inductive SqlError where
  /-- A text or JSON value with a NUL character, which the database cannot hold. -/
  | invalidText
  | check (constraint : String)
  | unique (index : String)
  | rowNotFound
  | protocol (message : String)
  deriving DecidableEq

def hasNul (text : String) : Bool := Text.contains text '\x00'

/-- Drops spaces, and no other whitespace, from both ends. -/
def btrim (text : String) : String := Text.trimMatches (· = ' ') text

/-- The check on a text column: no spaces around it, and so many characters at most. -/
def boundedText (max : Nat) (text : String) : Bool :=
  text = btrim text && 1 ≤ text.length && text.length ≤ max

/-! ## Rows -/

/-- A release is recorded by hand or observed; only an observed one has an identity. -/
inductive ReleaseSource where
  | manual
  | observed (identityVersion : Nat) (identityDigest : ByteVec 32)
      (identityComponents : List ContainerImageIdentity)
  deriving DecidableEq

structure Release where
  id : Nat
  version : String
  deployedAt : Int
  source : ReleaseSource
  deriving DecidableEq

structure Revision where
  id : Nat
  releaseId : Nat
  identityVersion : Nat
  identityDigest : ByteVec 32
  «namespace» : String
  workloadUid : String
  workloadKind : String
  workloadName : String
  replicaSetUid : String
  replicaSetName : String
  podTemplateHash : Option String
  firstObservedAt : Int
  lastObservedAt : Int
  deriving DecidableEq

/-- Pod counts that pass the checks of their columns. -/
structure PodCounts where
  pods : Nat
  ready : Nat
  workloadReady : Nat
  ready_le_pods : ready ≤ pods
  ready_le_workloadReady : ready ≤ workloadReady
  deriving DecidableEq

/-- Exactly an inactive episode has an end. -/
inductive EpisodeState where
  | detected
  | active
  | inactive (endedAt : Int)
  deriving DecidableEq

def EpisodeState.isOpen : EpisodeState → Bool
  | .inactive _ => false
  | _ => true

/-- Whether the episode ended at that time or later. -/
def EpisodeState.endedSince (t : Int) : EpisodeState → Bool
  | .inactive endedAt => t ≤ endedAt
  | _ => false

inductive TransitionKind where
  | rollout
  | rollbackCandidate
  | concurrent
  | unknown
  deriving DecidableEq

/-- Every insert sets the first ready time, so later writes keep it. -/
structure Episode where
  id : Nat
  releaseId : Nat
  revisionId : Nat
  occurrenceNumber : Nat
  state : EpisodeState
  transitionKind : TransitionKind
  firstObservedAt : Int
  firstReadyAt : Int
  lastObservedAt : Int
  counts : PodCounts
  snapshotObservedAt : Option Int
  first_le_last : firstObservedAt ≤ lastObservedAt
  first_le_ended : ∀ t, state = .inactive t → firstObservedAt ≤ t
  deriving DecidableEq

structure Predecessor where
  episodeId : Nat
  predecessorEpisodeId : Nat
  observedAt : Int
  deriving DecidableEq

structure Snapshot where
  revisionId : Nat
  snapshotId : String
  observedAt : Int
  initialized : Bool
  continuous : Bool
  counts : PodCounts
  deriving DecidableEq

/-- The tables of one application in one cluster. -/
structure Db where
  nextId : Nat
  releases : List Release
  revisions : List Revision
  episodes : List Episode
  predecessors : List Predecessor
  snapshots : List Snapshot
  deriving DecidableEq

def Db.empty : Db := ⟨0, [], [], [], [], []⟩

/-! ## Releases -/

structure ObservedRelease where
  version : String
  deployedAt : Int
  identityVersion : Nat
  identityDigest : ByteVec 32
  identityComponents : List ContainerImageIdentity

def hasNulComponent (component : ContainerImageIdentity) : Bool :=
  hasNul component.name || component.image.any hasNul

/-- Records an observed release, or resolves the one with the same version when it is
observed and has the same identity. -/
def insertObserved (db : Db) (input : ObservedRelease) : Except SqlError (Nat × Db) :=
  if input.identityComponents.any hasNulComponent then .error .invalidText
  else if ¬ (0 < input.identityVersion ∧ 1 ≤ input.identityComponents.length ∧
      input.identityComponents.length ≤ 64) then
    .error (.check "releases_observed_identity_shape")
  else
    match db.releases.find? fun r => r.version = input.version with
    | some r =>
      match r.source with
      | .manual => .error .rowNotFound
      | .observed identityVersion identityDigest _ =>
        if identityVersion = input.identityVersion ∧ identityDigest = input.identityDigest then
          let source := .observed identityVersion identityDigest input.identityComponents
          .ok (r.id, { db with
            releases := db.releases.map fun r' =>
              if r'.version = input.version then { r' with source } else r' })
        else
          .error .rowNotFound
    | none =>
      let clashes : Release → Bool := fun r =>
        match r.source with
        | .manual => false
        | .observed identityVersion identityDigest _ =>
          identityVersion = input.identityVersion && identityDigest = input.identityDigest
      if db.releases.any clashes then .error (.unique "releases_observed_identity_uidx")
      else
        .ok (db.nextId, { db with
          nextId := db.nextId + 1
          releases := db.releases ++ [{
            id := db.nextId
            version := input.version
            deployedAt := input.deployedAt
            source := .observed input.identityVersion input.identityDigest input.identityComponents }] })

/-! ## Revisions -/

structure NewDeploymentRevision where
  releaseId : Nat
  identityVersion : Nat
  identityDigest : ByteVec 32
  «namespace» : String
  workloadUid : String
  workloadKind : String
  workloadName : String
  replicaSetUid : String
  replicaSetName : String
  podTemplateHash : Option String
  observedAt : Int

namespace NewDeploymentRevision

def texts (input : NewDeploymentRevision) : List String :=
  [input.namespace, input.workloadUid, input.workloadKind, input.workloadName, input.replicaSetUid,
    input.replicaSetName] ++ input.podTemplateHash.toList

/-- The checks of the table, column by column. -/
def passesChecks (input : NewDeploymentRevision) : Bool :=
  0 < input.identityVersion && boundedText 253 input.namespace && boundedText 253 input.workloadUid &&
    input.workloadKind = "Deployment" && boundedText 253 input.workloadName &&
    boundedText 253 input.replicaSetUid && boundedText 253 input.replicaSetName &&
    input.podTemplateHash.all (boundedText 253)

end NewDeploymentRevision

namespace Revision

def hasKey (workloadUid replicaSetUid : String) (v : Revision) : Bool :=
  v.workloadUid = workloadUid && v.replicaSetUid = replicaSetUid

def hasIdentity (identityVersion : Nat) (identityDigest : ByteVec 32) (v : Revision) : Bool :=
  v.identityVersion = identityVersion && v.identityDigest = identityDigest

def observe (observedAt : Int) (v : Revision) : Revision :=
  { v with lastObservedAt := max v.lastObservedAt observedAt }

end Revision

/-- Records a revision, or refreshes the one of the same workload and replica set when its
release and digest agree; answers nothing when they do not. -/
def insertRevision (db : Db) (input : NewDeploymentRevision) : Except SqlError (Option Nat × Db) :=
  if input.texts.any hasNul then .error .invalidText
  else if ¬ input.passesChecks then .error (.check "kubernetes_workload_revisions")
  else
    let sameKey := Revision.hasKey input.workloadUid input.replicaSetUid
    match db.revisions.find? sameKey with
    | some v =>
      if v.releaseId = input.releaseId ∧ v.identityDigest = input.identityDigest then
        .ok (some v.id, { db with
          revisions := db.revisions.map fun v' => if sameKey v' then v'.observe input.observedAt else v' })
      else
        .ok (none, db)
    | none =>
      if db.revisions.any (Revision.hasIdentity input.identityVersion input.identityDigest) then
        .error (.unique "application_id,cluster_id,identity_version,identity_digest")
      else
        .ok (some db.nextId, { db with
          nextId := db.nextId + 1
          revisions := db.revisions ++ [{
            id := db.nextId
            releaseId := input.releaseId
            identityVersion := input.identityVersion
            identityDigest := input.identityDigest
            «namespace» := input.namespace
            workloadUid := input.workloadUid
            workloadKind := input.workloadKind
            workloadName := input.workloadName
            replicaSetUid := input.replicaSetUid
            replicaSetName := input.replicaSetName
            podTemplateHash := input.podTemplateHash
            firstObservedAt := input.observedAt
            lastObservedAt := input.observedAt }] })

/-- The advisory lock takes the two uids as one text. -/
def lockRevision (workloadUid replicaSetUid : String) : Except SqlError Unit :=
  if hasNul workloadUid || hasNul replicaSetUid then .error .invalidText else .ok ()

def revisionByDigest (db : Db) (digest : ByteVec 32) : Option Nat :=
  (db.revisions.find? fun v => v.identityDigest = digest).map Revision.id

/-! ## Episodes -/

/-- The episodes a revision has had, in the order they were opened. -/
def episodesOf (db : Db) (revisionId : Nat) : List Episode :=
  db.episodes.filter fun ep => ep.revisionId = revisionId

def episodeCount (db : Db) (revisionId : Nat) : Nat := (episodesOf db revisionId).length

/-- The revision's episode that has not ended, if any. -/
def openEpisode (db : Db) (revisionId : Nat) : Option Episode :=
  db.episodes.find? fun ep => ep.revisionId = revisionId && ep.state.isOpen

/-- A write to some of the episodes. -/
def updateEpisodes (db : Db) (f : Episode → Episode) : Db := { db with episodes := db.episodes.map f }

namespace Episode

def touch (observedAt : Int) (ep : Episode) : Episode :=
  { ep with
    state := .active
    lastObservedAt := max ep.lastObservedAt observedAt
    first_le_last := le_trans ep.first_le_last (le_max_left _ _)
    first_le_ended := fun _ h => by cases h }

/-- The end of an episode that has been quiet for the stabilization period. -/
def finish (workloadReady : Nat) (observedAt : Int) (stabilizationSeconds : Nat) (ep : Episode) : Episode :=
  if h : ep.state.isOpen ∧ observedAt ≥ ep.lastObservedAt + stabilizationSeconds * 1000000 then
    { ep with
      state := .inactive observedAt
      counts := ⟨0, 0, workloadReady, le_rfl, Nat.zero_le _⟩
      snapshotObservedAt := some observedAt
      first_le_ended := fun t ht => by
        cases ht
        have hfirst := ep.first_le_last
        have hquiet := h.2
        omega }
  else
    ep

def recordPods (counts : PodCounts) (observedAt : Int) (ep : Episode) : Episode :=
  if h : ep.state.isOpen then
    { ep with
      counts
      snapshotObservedAt := some observedAt
      lastObservedAt := max ep.lastObservedAt observedAt
      first_le_last := le_trans ep.first_le_last (le_max_left _ _)
      first_le_ended := fun t ht => by
        rw [ht] at h
        cases h }
  else
    ep

section
variable (workloadReady : Nat) (observedAt : Int) (stabilizationSeconds : Nat) (ep : Episode)

@[simp] theorem finish_revisionId
    : (ep.finish workloadReady observedAt stabilizationSeconds).revisionId = ep.revisionId := by
  unfold finish
  split <;> rfl

@[simp] theorem finish_occurrenceNumber :
    (ep.finish workloadReady observedAt stabilizationSeconds).occurrenceNumber = ep.occurrenceNumber := by
  unfold finish
  split <;> rfl

end

section
variable (counts : PodCounts) (observedAt : Int) (ep : Episode)

@[simp] theorem recordPods_revisionId : (ep.recordPods counts observedAt).revisionId = ep.revisionId := by
  unfold recordPods
  split <;> rfl

@[simp] theorem recordPods_occurrenceNumber :
    (ep.recordPods counts observedAt).occurrenceNumber = ep.occurrenceNumber := by
  unfold recordPods
  split <;> rfl

end

/-- Most recently observed first. -/
def laterFirst (a b : Episode) : Prop :=
  b.lastObservedAt < a.lastObservedAt ∨ (b.lastObservedAt = a.lastObservedAt ∧ b.id ≤ a.id)

instance : DecidableRel laterFirst := fun a b =>
  inferInstanceAs (Decidable (b.lastObservedAt < a.lastObservedAt ∨ _))

end Episode

def touchEpisode (db : Db) (episodeId : Nat) (observedAt : Int) : Db :=
  updateEpisodes db fun ep => if ep.id = episodeId then ep.touch observedAt else ep

/-- The active episodes with their releases. -/
def activeEpisodes (db : Db) : List (Nat × Nat) :=
  ((db.episodes.filter fun ep => ep.state = .active).insertionSort Episode.laterFirst).map fun ep =>
    (ep.id, ep.releaseId)

structure NewDeploymentEpisode where
  releaseId : Nat
  revisionId : Nat
  occurrenceNumber : Nat
  transitionKind : TransitionKind
  observedAt : Int

/-- Opens an active, ready episode; a revision has one open episode at most. -/
def insertEpisode (db : Db) (input : NewDeploymentEpisode) : Except SqlError (Nat × Db) :=
  if db.episodes.any fun ep =>
      ep.revisionId = input.revisionId && ep.occurrenceNumber = input.occurrenceNumber then
    .error (.unique "revision_id,occurrence_number")
  else if db.episodes.any fun ep => ep.revisionId = input.revisionId && ep.state.isOpen then
    .error (.unique "deployment_episodes_one_open_uidx")
  else
    .ok (db.nextId, { db with
      nextId := db.nextId + 1
      episodes := db.episodes ++ [{
        id := db.nextId
        releaseId := input.releaseId
        revisionId := input.revisionId
        occurrenceNumber := input.occurrenceNumber
        state := .active
        transitionKind := input.transitionKind
        firstObservedAt := input.observedAt
        firstReadyAt := input.observedAt
        lastObservedAt := input.observedAt
        counts := ⟨0, 0, 0, le_rfl, le_rfl⟩
        snapshotObservedAt := none
        first_le_last := le_rfl
        first_le_ended := fun _ h => by cases h }] })

def linkPredecessor (episodeId : Nat) (observedAt : Int) (db : Db) (predecessorEpisodeId : Nat) : Db :=
  if db.predecessors.any fun p =>
      p.episodeId = episodeId && p.predecessorEpisodeId = predecessorEpisodeId then
    db
  else
    { db with predecessors := db.predecessors ++ [⟨episodeId, predecessorEpisodeId, observedAt⟩] }

/-! ## Readiness snapshots -/

/-- Records a snapshot once; reporting it again is not an error. -/
def insertSnapshot (db : Db) (row : Snapshot) : Except SqlError Db :=
  if hasNul row.snapshotId then .error .invalidText
  else if ¬ boundedText 200 row.snapshotId then .error (.check "kubernetes_revision_snapshots")
  else if db.snapshots.any fun s => s.snapshotId = row.snapshotId && s.revisionId = row.revisionId then .ok db
  else .ok { db with snapshots := db.snapshots ++ [row] }

def endEpisode (db : Db) (revisionId : Nat) (workloadReady : Nat) (observedAt : Int)
    (stabilizationSeconds : Nat) : Db :=
  updateEpisodes db fun ep =>
    if ep.revisionId = revisionId then ep.finish workloadReady observedAt stabilizationSeconds else ep

def recordEpisodePods (db : Db) (revisionId : Nat) (counts : PodCounts) (observedAt : Int) : Db :=
  updateEpisodes db fun ep => if ep.revisionId = revisionId then ep.recordPods counts observedAt else ep

end Okoscope.Server.Deployments
