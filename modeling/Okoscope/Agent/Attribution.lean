import Okoscope.Agent.Config
import Okoscope.EventModel.Release

/-!
# Attribution of containers

What the agent remembers of containers, replica sets and deployments, and the workload
it attributes a container to. Replica sets and deployments are found by namespace and
name.
-/
namespace Okoscope.Agent.Attribution

open Lib Lib.Bytes Lib.FiniteMap EventModel
open Config

abbrev Labels := Map String String

structure Owner where
  uid : String
  kind : String
  name : String

structure Controller where
  uid : String
  owner : Option Owner
  labels : Labels

structure ContainerRecord where
  podUid : String
  podName : String
  «namespace» : String
  containerName : String
  owner : Owner
  releaseIdentity : Option ReleaseIdentity

inductive AttributionError where
  | unknownContainer
  | incompleteOwnerChain
  | notSelected
  deriving DecidableEq, Repr

structure AttributionCache where
  containers : Map String ContainerRecord := ∅
  replicaSets : Map (String × String) Controller := ∅
  deployments : Map (String × String) Controller := ∅

/-- What follows the last `://`, or the whole text. -/
def normalizeContainerId (value : String) : String :=
  ((afterLast "://".toList value.toList).map String.ofList).getD value

/-- No part of a text without the pattern has it. -/
theorem afterLast_eq_none_of_suffix {pattern cs rest : List Char} (h : afterLast pattern cs = none)
    (hsuffix : rest <:+ cs) : afterLast pattern rest = none := by
  induction cs with
  | nil =>
    rw [List.suffix_nil.mp hsuffix]
    rfl
  | cons _ cs ih =>
    rcases List.suffix_cons_iff.mp hsuffix with rfl | hsuffix
    · exact h
    · cases hcs : afterLast pattern cs with
      | none => exact ih hcs hsuffix
      | some => simp [afterLast, hcs] at h

/-- The pattern does not occur after its last occurrence. -/
theorem afterLast_of_afterLast {pattern cs rest : List Char} (hpattern : pattern ≠ [])
    (h : afterLast pattern cs = some rest) : afterLast pattern rest = none := by
  induction cs with
  | nil => cases h
  | cons _ cs ih =>
    rw [afterLast] at h
    cases hcs : afterLast pattern cs with
    | some =>
      rw [hcs] at h
      exact ih (hcs.trans h)
    | none =>
      rw [hcs] at h
      obtain ⟨-, hrest⟩ := Option.ite_none_right_eq_some.mp h
      obtain ⟨n, hn⟩ := Nat.exists_eq_succ_of_ne_zero (List.length_eq_zero_iff.not.mpr hpattern)
      rw [hn, List.drop_succ_cons, Option.some.injEq] at hrest
      exact afterLast_eq_none_of_suffix hcs (hrest ▸ List.drop_suffix n cs)

theorem normalizeContainerId_normalizeContainerId {value : String} :
    normalizeContainerId (normalizeContainerId value) = normalizeContainerId value := by
  unfold normalizeContainerId
  cases h : afterLast "://".toList value.toList with
  | none => simp only [Option.map_none, Option.getD_none, h]
  | some rest =>
    have hrest : afterLast "://".toList rest = none := afterLast_of_afterLast (by decide) h
    simp only [Option.map_some, Option.getD_some, String.toList_ofList, hrest, Option.map_none, Option.getD_none]

variable {cache : AttributionCache} {selectors : List WorkloadSelector} {attribution : KubernetesAttribution}

namespace AttributionCache

/-! ## Owners -/

/-- The replica set that an owner names, the deployment that owns it, and what the cache knows of that. -/
structure OwnerChain where
  replicaSet : Controller
  deploymentOwner : Owner
  deployment : Controller

def ownerChain (cache : AttributionCache) («namespace» replicaSetName : String) : Option OwnerChain := do
  let replicaSet ← cache.replicaSets.lookup («namespace», replicaSetName)
  let deploymentOwner ← replicaSet.owner.filter fun owner => owner.kind = "Deployment"
  let deployment ← cache.deployments.lookup («namespace», deploymentOwner.name)
  return { replicaSet, deploymentOwner, deployment }

/-- The uid of the workload that a container belongs to, and what selectors are matched with. -/
def workloadOf (cache : AttributionCache) (container : ContainerRecord) :
    Except AttributionError (String × WorkloadMetadata) :=
  if container.owner.kind = "ReplicaSet" then
    match ownerChain cache container.namespace container.owner.name with
    | some chain =>
      .ok (chain.deployment.uid,
        { «namespace» := container.namespace, kind := "Deployment", name := chain.deploymentOwner.name,
          labels := chain.deployment.labels })
    | none => .error .incompleteOwnerChain
  else
    .ok (container.owner.uid,
      { «namespace» := container.namespace, kind := container.owner.kind, name := container.owner.name,
        labels := ∅ })

/-- What an attribution to a selected workload says of a container. -/
def attributionTo (container : ContainerRecord) (workloadUid : String) (workload : WorkloadMetadata)
    (selector : WorkloadSelector) (containerId nodeName : String) : KubernetesAttribution where
  projectId := Uuid.nil
  applicationId := selector.routeId
  nodeName := nodeName
  «namespace» := container.namespace
  podUid := container.podUid
  podName := container.podName
  containerId := normalizeContainerId containerId
  containerName := container.containerName
  workloadUid := workloadUid
  workloadKind := workload.kind
  workloadName := workload.name
  release := selector.release
  releaseIdentity := container.releaseIdentity

/-- The attribution of a container, after the containers that have expired are gone. -/
def attributionOf (cache : AttributionCache) (containerId nodeName : String) (selectors : List WorkloadSelector) :
    Except AttributionError KubernetesAttribution :=
  match cache.containers.lookup (normalizeContainerId containerId) with
  | none => .error .unknownContainer
  | some container =>
    match workloadOf cache container with
    | .error error => .error error
    | .ok (workloadUid, workload) =>
      match selectors.find? fun selector => selector.matchesWorkload workload with
      | none => .error .notSelected
      | some selector => .ok (attributionTo container workloadUid workload selector containerId nodeName)

end AttributionCache

end Okoscope.Agent.Attribution
