import Okoscope.Server.Deployments

/-!
# Release discovery

What the server makes of deployment evidence. Evidence of a revision records its release
and the revision, and opens an episode when the revision is ready and has none open. A
readiness snapshot ends the open episode, or records its pods. Each message is one
transaction: it fails as a whole and then changes nothing.
-/
namespace Okoscope.Server.ReleaseDiscovery

open Lib Lib.Bytes EventModel
open Deployments (Db SqlError PodCounts TransitionKind storedAt)
open Deployments

def defaultEpisodeStabilizationSeconds : Int := 120
def minEpisodeStabilizationSeconds : Int := 30
def maxEpisodeStabilizationSeconds : Int := 3600

/-- The configured period, when it is a number in range. -/
def stabilizationSeconds (value : Option String) : Nat :=
  ((value.bind Text.parseI64).filter fun v =>
    minEpisodeStabilizationSeconds ≤ v && v ≤ maxEpisodeStabilizationSeconds).getD
      defaultEpisodeStabilizationSeconds |>.toNat

example : ["30", "+3600", "29", "3601", "no", ""].map (fun v => stabilizationSeconds (some v)) =
    [30, 3600, 120, 120, 120, 120] := by decide

/-- Recording the version of an identity as a 16-bit signed number. -/
def storedVersion (version : UInt16) : Nat := min version.toNat (2 ^ 15 - 1)

/-- A count as a 32-bit signed number. -/
def storedCount (count : UInt32) : Nat := min count.toNat (2 ^ 31 - 1)

/-- The version under which an observed release is recorded. -/
def releaseVersion (digest : ByteVec 32) : String := "sha256:" ++ String.ofList (hexText digest.toList)

def resolveObservedRelease (db : Db) (identity : ReleaseIdentity) (observedAt : DateTime) :
    Except SqlError (Nat × Db) :=
  insertObserved db {
    version := releaseVersion identity.digest
    deployedAt := storedAt observedAt
    identityVersion := storedVersion identity.version
    identityDigest := identity.digest
    identityComponents := identity.containers }

def transitionKind (priorCount : Nat) (releaseId : Nat) (predecessors : List Nat) : TransitionKind :=
  if priorCount > 0 ∧ predecessors.any (· ≠ releaseId) then .rollbackCandidate
  else
    match predecessors.length with
    | 0 => .unknown
    | 1 => .rollout
    | _ => .concurrent

/-- Keeps the revision's open episode observed, or opens the next one. -/
def openEpisode (db : Db) (releaseId revisionId : Nat) (observedAt : Int) : Except SqlError Db :=
  let priorCount := episodeCount db revisionId
  match Deployments.openEpisode db revisionId with
  | some ep => .ok (touchEpisode db ep.id observedAt)
  | none =>
    let predecessors := activeEpisodes db
    let inserted := insertEpisode db {
      releaseId
      revisionId
      occurrenceNumber := priorCount + 1
      transitionKind := transitionKind priorCount releaseId (predecessors.map Prod.snd)
      observedAt }
    match inserted with
    | .error e => .error e
    | .ok (episodeId, db) =>
      .ok ((predecessors.map Prod.fst).foldl (linkPredecessor episodeId observedAt) db)

def newRevision (evidence : WorkloadRevisionEvidence) (releaseId : Nat) : Deployments.NewDeploymentRevision where
  releaseId
  identityVersion := storedVersion evidence.releaseIdentity.version
  identityDigest := revisionDigest evidence
  «namespace» := evidence.namespace
  workloadUid := evidence.workloadUid
  workloadKind := evidence.workloadKind
  workloadName := evidence.workloadName
  replicaSetUid := evidence.replicaSetUid
  replicaSetName := evidence.replicaSetName
  podTemplateHash := evidence.podTemplateHash
  observedAt := storedAt evidence.observedAt

def persistRevisionEvidence (db : Db) (evidence : WorkloadRevisionEvidence) : Except SqlError Db := do
  lockRevision evidence.workloadUid evidence.replicaSetUid
  let (releaseId, db) ← resolveObservedRelease db evidence.releaseIdentity evidence.observedAt
  let (revisionId, db) ← insertRevision db (newRevision evidence releaseId)
  match revisionId with
  | none => .error (.protocol "conflicting immutable identity for Kubernetes ReplicaSet")
  | some revisionId =>
    if evidence.ready then openEpisode db releaseId revisionId (storedAt evidence.observedAt) else .ok db

/-- The counts of a snapshot as they are stored, when the checks of their columns hold. -/
def storedCounts (snapshot : RevisionReadinessSnapshot) : Except SqlError PodCounts :=
  if h : storedCount snapshot.readyPodCount ≤ storedCount snapshot.podCount ∧
      storedCount snapshot.readyPodCount ≤ storedCount snapshot.workloadReadyPodCount then
    .ok ⟨storedCount snapshot.podCount, storedCount snapshot.readyPodCount,
      storedCount snapshot.workloadReadyPodCount, h.1, h.2⟩
  else
    .error (.check "kubernetes_revision_snapshots")

/-- Whether the snapshot is a complete one and shows no pod left. -/
def isEmptied (snapshot : RevisionReadinessSnapshot) : Bool :=
  snapshot.initialized && snapshot.continuous && snapshot.podCount = 0

/-- A snapshot of a revision that is not known yet is dropped. -/
def persistReadinessSnapshot (stabilization : Option String) (db : Db) (snapshot : RevisionReadinessSnapshot) :
    Except SqlError Db :=
  match revisionByDigest db snapshot.revisionDigest with
  | none => .ok db
  | some revisionId => do
    let counts ← storedCounts snapshot
    let observedAt := storedAt snapshot.observedAt
    let db ← insertSnapshot db {
      revisionId
      snapshotId := snapshot.snapshotId
      observedAt
      initialized := snapshot.initialized
      continuous := snapshot.continuous
      counts }
    if isEmptied snapshot then
      return endEpisode db revisionId counts.workloadReady observedAt
        (stabilizationSeconds stabilization)
    else
      return recordEpisodePods db revisionId counts observedAt

end Okoscope.Server.ReleaseDiscovery
