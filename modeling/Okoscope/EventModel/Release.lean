import Mathlib.Data.List.Sort
import Okoscope.Lib.Outcome
import Okoscope.Lib.Sha256
import Okoscope.Lib.Text
import Okoscope.Lib.Time

/-!
# Release identities and deployment evidence

A release is identified by the image digests of the containers of a pod
template. Components are kept sorted and unique, and the identity carries the
digest of its components, which `validate` recomputes; the order in which the
containers are reported does not matter.
-/
namespace Okoscope.EventModel

open Lib Lib.Bytes Lib.Outcome

def releaseIdentityVersion : UInt16 := 1
def maxReleaseContainers : Nat := 64
def maxContainerNameBytes : Nat := 253
def maxImageReferenceBytes : Nat := 512

inductive ContainerCategory where
  | init
  | application
  deriving DecidableEq, Repr

/-- Declaration order, which the derived comparison of the source follows. -/
def ContainerCategory.rank : ContainerCategory → Nat
  | .init => 0
  | .application => 1

structure ContainerImageIdentity where
  category : ContainerCategory
  name : String
  image : Option String
  digest : ByteVec 32
  deriving DecidableEq

structure ReleaseIdentity where
  version : UInt16
  digest : ByteVec 32
  containers : List ContainerImageIdentity
  deriving DecidableEq

inductive ReleaseIdentityError where
  | invalidContainerCount
  | invalidContainerName
  | invalidImageReference
  | duplicateContainer
  | invalidImageId
  | unsupportedVersion
  | digestMismatch
  deriving DecidableEq, Repr

namespace ContainerImageIdentity

/-- Field by field, in declaration order. -/
def cmp : ContainerImageIdentity → ContainerImageIdentity → Ordering :=
  compareLex (compareOn (·.category.rank)) (compareLex (compareOn (·.name))
    (compareLex (compareOn (·.image)) (compareOn (·.digest.toList))))

def le (a b : ContainerImageIdentity) : Prop := (cmp a b).isLE

instance : DecidableRel le := fun a b => inferInstanceAs (Decidable ((cmp a b).isLE))

instance : Std.TransCmp cmp := by unfold cmp; infer_instance

instance : IsTrans ContainerImageIdentity le := ⟨fun _ _ _ => Std.TransCmp.isLE_trans⟩

instance : Std.Total le := ⟨fun a b => by
  unfold le
  have hswap : cmp b a = (cmp a b).swap := Std.OrientedCmp.eq_swap
  rw [hswap]
  cases cmp a b <;> simp⟩

/-- The category byte, the length-prefixed name and the image digest. -/
def bytes (v : ContainerImageIdentity) : List UInt8 :=
  UInt8.ofNat v.category.rank :: (beBytes 8 (Text.len v.name) ++ utf8Bytes v.name ++ v.digest.toList)

/-- Two components of the same category and name. -/
def clashes (a b : ContainerImageIdentity) : Bool := a.category = b.category && a.name = b.name

def invalidName (v : ContainerImageIdentity) : Bool := v.name = "" || maxContainerNameBytes < Text.len v.name

def invalidImage (v : ContainerImageIdentity) : Bool :=
  v.image.any fun image => image = "" || maxImageReferenceBytes < Text.len image || Text.trim image ≠ image

end ContainerImageIdentity

/-- Some neighbours clash. -/
def duplicateNeighbours : List ContainerImageIdentity → Bool
  | a :: b :: rest => a.clashes b || duplicateNeighbours (b :: rest)
  | _ => false

/-- Checks the components and leaves them sorted. -/
def validateComponents (values : List ContainerImageIdentity) :
    Except ReleaseIdentityError (List ContainerImageIdentity) :=
  if values.isEmpty ∨ maxReleaseContainers < values.length then .error .invalidContainerCount
  else if values.any (·.invalidName) then .error .invalidContainerName
  else if values.any (·.invalidImage) then .error .invalidImageReference
  else
    let sorted := values.insertionSort ContainerImageIdentity.le
    if duplicateNeighbours sorted then .error .duplicateContainer else .ok sorted

def digestComponents (values : List ContainerImageIdentity) : ByteVec 32 :=
  Sha256.digest (beBytes 2 releaseIdentityVersion.toNat ++ values.flatMap (·.bytes))

/-- What follows the last occurrence of a pattern. -/
def afterLast (pattern : List Char) : List Char → Option (List Char)
  | [] => none
  | c :: cs =>
    match afterLast pattern cs with
    | some rest => some rest
    | none => if pattern.isPrefixOf (c :: cs) then some ((c :: cs).drop pattern.length) else none

/-- The digest at the end of an image ID. -/
def parseImageId (value : String) : Except ReleaseIdentityError (ByteVec 32) :=
  okOr (((afterLast "sha256:".toList value.toList).bind parseHex).bind (ByteVec.ofList? 32)) .invalidImageId

/-- A container as it is reported, with its image and the ID of the image that was pulled. -/
def ContainerImageIdentity.ofReported :
    ContainerCategory × String × String × String → Except ReleaseIdentityError ContainerImageIdentity
  | (category, name, image, imageId) => (parseImageId imageId).map fun digest => ⟨category, name, some image, digest⟩

namespace ReleaseIdentity

def fromImages (components : List (ContainerCategory × String × String × String)) :
    Except ReleaseIdentityError ReleaseIdentity := do
  let containers ← components.mapM ContainerImageIdentity.ofReported
  let sorted ← validateComponents containers
  return ⟨releaseIdentityVersion, digestComponents sorted, sorted⟩

def validate (r : ReleaseIdentity) : Except ReleaseIdentityError Unit :=
  if r.version ≠ releaseIdentityVersion then .error .unsupportedVersion
  else do
    let components ← validateComponents r.containers
    if components ≠ r.containers ∨ digestComponents components ≠ r.digest then .error .digestMismatch
    else .ok ()

end ReleaseIdentity

/-- The components pass every check of their own. -/
structure ComponentsValid (values : List ContainerImageIdentity) : Prop where
  nonempty : values ≠ []
  bounded : values.length ≤ maxReleaseContainers
  names : ∀ v ∈ values, v.invalidName = false
  images : ∀ v ∈ values, v.invalidImage = false

/-- Valid components are sorted, and refused if two are alike. -/
theorem validateComponents_eq_ok {values sorted : List ContainerImageIdentity} :
    validateComponents values = .ok sorted ↔
      ComponentsValid values ∧ sorted = values.insertionSort ContainerImageIdentity.le ∧
        duplicateNeighbours sorted = false := by
  unfold validateComponents
  simp only [ite_error_eq_ok, List.isEmpty_iff, not_or, not_lt, List.any_eq_true, not_exists, not_and,
    Bool.not_eq_true, ok_eq_ok]
  constructor
  · rintro ⟨⟨hne, hlen⟩, hnames, himages, hdup, rfl⟩
    exact ⟨⟨hne, hlen, hnames, himages⟩, rfl, hdup⟩
  · rintro ⟨⟨hne, hlen, hnames, himages⟩, rfl, hdup⟩
    exact ⟨⟨hne, hlen⟩, hnames, himages, hdup, rfl⟩

theorem ReleaseIdentity.validate_eq_ok {r : ReleaseIdentity} :
    r.validate = .ok () ↔ r.version = releaseIdentityVersion ∧
      validateComponents r.containers = .ok r.containers ∧ digestComponents r.containers = r.digest := by
  unfold ReleaseIdentity.validate
  simp only [ite_error_eq_ok, not_not, bind_eq_ok, not_or, and_true]
  constructor
  · rintro ⟨hv, _, hc, rfl, hd⟩
    exact ⟨hv, hc, hd⟩
  · rintro ⟨hv, hc, hd⟩
    exact ⟨hv, _, hc, rfl, hd⟩

/-- One observation of a workload revision. -/
structure WorkloadRevisionEvidence where
  evidenceId : String
  observedAt : DateTime
  «namespace» : String
  workloadUid : String
  workloadKind : String
  workloadName : String
  replicaSetUid : String
  replicaSetName : String
  podUid : String
  podTemplateHash : Option String
  releaseIdentity : ReleaseIdentity
  ready : Bool
  deriving DecidableEq

/-- Digest over the workload, its revision and the release. -/
def revisionDigest (evidence : WorkloadRevisionEvidence) : ByteVec 32 :=
  Sha256.digest (beBytes 2 releaseIdentityVersion.toNat ++
    [evidence.workloadUid, evidence.replicaSetUid].flatMap
      (fun value => beBytes 8 (Text.len value) ++ utf8Bytes value) ++
    evidence.releaseIdentity.digest.toList)

/-- Pod counts of a revision as one agent saw them. -/
structure RevisionReadinessSnapshot where
  snapshotId : String
  observedAt : DateTime
  initialized : Bool
  continuous : Bool
  revisionDigest : ByteVec 32
  podCount : UInt32
  readyPodCount : UInt32
  workloadReadyPodCount : UInt32
  deriving DecidableEq

/-! ## The order of a report -/

namespace ContainerImageIdentity

variable {a b : ContainerImageIdentity}

theorem le_antisymm (h : le a b) (h' : le b a) : a = b := by
  have hswap : cmp b a = (cmp a b).swap := Std.OrientedCmp.eq_swap
  have heq : cmp a b = .eq := by
    unfold le at h h'
    rw [hswap] at h'
    cases hc : cmp a b <;> simp_all
  simp only [cmp, compareLex, compareOn, Ordering.then_eq_eq, Std.LawfulEqOrd.compare_eq_iff_eq] at heq
  obtain ⟨hrank, hname, himage, hdigest⟩ := heq
  have hcategory : a.category = b.category := by
    cases ha : a.category <;> cases hb : b.category <;> simp_all [ContainerCategory.rank]
  have hbytes : a.digest = b.digest := Subtype.ext hdigest
  cases a
  cases b
  simp_all

end ContainerImageIdentity

open ContainerImageIdentity List

/-- The order of the components does not matter. -/
theorem validateComponents_perm {values values' : List ContainerImageIdentity} (h : values.Perm values') :
    validateComponents values = validateComponents values' := by
  have hsorted : values.insertionSort le = values'.insertionSort le :=
    (((perm_insertionSort _ _).trans h).trans (perm_insertionSort _ _).symm).eq_of_pairwise
      (fun _ _ _ _ => le_antisymm) (pairwise_insertionSort _ _) (pairwise_insertionSort _ _)
  unfold validateComponents
  rw [hsorted, h.length_eq, h.isEmpty_eq, h.any_eq, h.any_eq]

/-- An identity does not depend on the order of the report, and it is accepted by its own check. -/
theorem ReleaseIdentity.fromImages_canonical {components : List (ContainerCategory × String × String × String)}
    {identity : ReleaseIdentity} (h : fromImages components = .ok identity) : identity.validate = .ok () ∧
      ∀ components', components.Perm components' → fromImages components' = .ok identity := by
  obtain ⟨values, hvalues, h⟩ := bind_eq_ok.mp h
  obtain ⟨sorted, hvalid, h⟩ := bind_eq_ok.mp h
  cases h
  constructor
  · have hperm : sorted.Perm values := (validateComponents_eq_ok.mp hvalid).2.1 ▸ perm_insertionSort _ _
    exact validate_eq_ok.mpr ⟨rfl, (validateComponents_perm hperm).trans hvalid, rfl⟩
  · intro components' hperm
    obtain ⟨values', hvalues', hperm'⟩ := perm_comp_forall₂ hperm.symm (mapM_eq_ok.mp hvalues)
    exact bind_eq_ok.mpr ⟨values', mapM_eq_ok.mpr hvalues',
      bind_eq_ok.mpr ⟨sorted, (validateComponents_perm hperm').trans hvalid, rfl⟩⟩

def jobImages : List (ContainerCategory × String × String × String) :=
  [.application, .init].map fun category => (category, "job", "job:1", "sha256:" ++ String.ofList (replicate 64 'a'))

theorem jobImages_canonical : ∃ identity, ReleaseIdentity.fromImages jobImages = .ok identity ∧
    ReleaseIdentity.fromImages jobImages.reverse = .ok identity := by
  have hsome : (ReleaseIdentity.fromImages jobImages).toOption.isSome := by decide +kernel
  obtain ⟨identity, h⟩ := Option.isSome_iff_exists.mp hsome
  rw [toOption_eq_some] at h
  exact ⟨identity, h, (ReleaseIdentity.fromImages_canonical h).2 _ (reverse_perm _).symm⟩

end Okoscope.EventModel
