import Okoscope.Lib.Table
import Okoscope.Server.ReleaseDiscovery

/-!
# Invariants of the deployment tables

What the server's own writes keep true of the tables. On such tables a release is known by
its digest and a revision by its workload and replica set, so that the rows come down to a
relation between the three.
-/
namespace Okoscope.Server.DeploymentInvariants

open Lib Lib.Bytes Lib.Table EventModel
open Deployments (Db SqlError Release Revision Episode ObservedRelease NewDeploymentRevision hasNul)
open ReleaseDiscovery (releaseVersion)
open Deployments
open ReleaseDiscovery List

/-- The digest of a revision, from the parts of its evidence that go into it. -/
def revisionDigestOf (workloadUid replicaSetUid : String) (digest : ByteVec 32) : ByteVec 32 :=
  Sha256.digest (beBytes 2 releaseIdentityVersion.toNat ++
    [workloadUid, replicaSetUid].flatMap (fun value => beBytes 8 (Text.len value) ++ utf8Bytes value) ++
    digest.toList)

theorem revisionDigest_eq {e : WorkloadRevisionEvidence} :
    revisionDigest e = revisionDigestOf e.workloadUid e.replicaSetUid e.releaseIdentity.digest := rfl

theorem releaseVersion_injective : Function.Injective releaseVersion := by
  intro a b h
  have hchars := congrArg String.toList h
  simp only [releaseVersion, String.toList_append, String.toList_ofList] at hchars
  exact List.Vector.toList_injective (hexText_injective (append_cancel_left hchars))

/-! ## Columns without duplicates -/

variable {α : Type}

theorem nodup_map_map {κ : Type} {key : α → κ} {f : α → α} {rows : List α} (h : (rows.map key).Nodup)
    (hf : ∀ r ∈ rows, key (f r) = key r) : ((rows.map f).map key).Nodup := by
  rw [map_map]
  exact (map_congr_left hf) ▸ h

theorem forall_mem_concat {p : α → Prop} {rows : List α} {row : α} (h : ∀ r ∈ rows, p r) (hrow : p row) :
    ∀ r ∈ rows ++ [row], p r :=
  forall_mem_append.mpr ⟨h, forall_mem_singleton.mpr hrow⟩

/-! ## What the rows say -/

/-- The release of this id is an observed one with this digest. -/
def ObservedAs (db : Db) (releaseId : Nat) (digest : ByteVec 32) : Prop :=
  ∃ r ∈ db.releases, r.id = releaseId ∧ ∃ version components, r.source = .observed version digest components

/-- Some release was recorded by hand under this version. -/
def ManualVersion (db : Db) (version : String) : Prop := ∃ r ∈ db.releases, r.version = version ∧ r.source = .manual

/-- The revision of a workload is recorded with a release of this digest. -/
def Recorded (db : Db) (workloadUid replicaSetUid : String) (digest : ByteVec 32) : Prop :=
  ∃ v ∈ db.revisions, v.workloadUid = workloadUid ∧ v.replicaSetUid = replicaSetUid ∧
    ObservedAs db v.releaseId digest

def revisionKey (v : Revision) : String × String := (v.workloadUid, v.replicaSetUid)

/-- What the server's writes keep true. -/
structure Sound (db : Db) : Prop where
  release_fresh : ∀ r ∈ db.releases, r.id < db.nextId
  release_ids : (db.releases.map Release.id).Nodup
  release_versions : (db.releases.map Release.version).Nodup
  observed : ∀ r ∈ db.releases, ∀ version digest components, r.source = .observed version digest components →
    version = 1 ∧ r.version = releaseVersion digest
  revision_fresh : ∀ v ∈ db.revisions, v.id < db.nextId
  revision_keys : (db.revisions.map revisionKey).Nodup
  revision_identities : (db.revisions.map Revision.identityDigest).Nodup
  revision_versions : ∀ v ∈ db.revisions, v.identityVersion = 1
  revision_digests : ∀ v ∈ db.revisions, ∃ digest, ObservedAs db v.releaseId digest ∧
    v.identityDigest = revisionDigestOf v.workloadUid v.replicaSetUid digest
  episode_revisions : ∀ ep ∈ db.episodes, ep.revisionId < db.nextId
  occurrences : ∀ ep ∈ db.episodes, ep.occurrenceNumber ≤ episodeCount db ep.revisionId

theorem sound_empty : Sound Db.empty where
  release_fresh := nofun
  release_ids := .nil
  release_versions := .nil
  observed := nofun
  revision_fresh := nofun
  revision_keys := .nil
  revision_identities := .nil
  revision_versions := nofun
  revision_digests := nofun
  episode_revisions := nofun
  occurrences := nofun

variable {digest : ByteVec 32}

section
variable {db : Db}

theorem Sound.digest_unique (h : Sound db) {id : Nat} {a b : ByteVec 32} (ha : ObservedAs db id a)
    (hb : ObservedAs db id b) : a = b := by
  obtain ⟨_, hr, rfl, _, _, hsource⟩ := ha
  obtain ⟨_, hr', hid, _, _, hsource'⟩ := hb
  cases eq_of_key_eq h.release_ids hr hr' hid.symm
  rw [hsource] at hsource'
  cases hsource'
  rfl

theorem Sound.releaseId_unique (h : Sound db) {a b : Nat} (ha : ObservedAs db a digest) (hb : ObservedAs db b digest) :
    a = b := by
  obtain ⟨r, hr, rfl, _, _, hsource⟩ := ha
  obtain ⟨r', hr', rfl, _, _, hsource'⟩ := hb
  have hversion := (h.observed r hr _ _ _ hsource).2.trans (h.observed r' hr' _ _ _ hsource').2.symm
  rw [eq_of_key_eq h.release_versions hr hr' hversion]

theorem Sound.succ (h : Sound db) : Sound { db with nextId := db.nextId + 1 } :=
  { h with
    release_fresh := fun r hr => Nat.lt_succ_of_lt (h.release_fresh r hr)
    revision_fresh := fun v hv => Nat.lt_succ_of_lt (h.revision_fresh v hv)
    episode_revisions := fun ep hep => Nat.lt_succ_of_lt (h.episode_revisions ep hep) }

end

/-! ## Resolving a release -/

/-- After a release was resolved: it is there under its digest, and nothing else is new. -/
structure Resolved (db db' : Db) (releaseId : Nat) (digest : ByteVec 32) : Prop where
  sound : Sound db'
  observedAs : ∀ i d, ObservedAs db' i d ↔ ObservedAs db i d ∨ (i = releaseId ∧ d = digest)
  manual : ∀ version, ManualVersion db' version ↔ ManualVersion db version
  revisions : db'.revisions = db.revisions
  episodes : db'.episodes = db.episodes

/-- Two rows that differ in the components of their identity at most. -/
structure SameIdentity (a b : Release) : Prop where
  id : a.id = b.id
  version : a.version = b.version
  manual : a.source = .manual ↔ b.source = .manual
  observed : ∀ version digest, (∃ components, a.source = .observed version digest components) ↔
    ∃ components, b.source = .observed version digest components

theorem SameIdentity.refl {r : Release} : SameIdentity r r := ⟨rfl, rfl, .rfl, fun _ _ => .rfl⟩

section
variable {db : Db} {f : Release → Release}

section
variable (hf : ∀ r ∈ db.releases, SameIdentity (f r) r)
include hf

theorem observedAs_map {i : Nat} {d : ByteVec 32} :
    ObservedAs { db with releases := db.releases.map f } i d ↔ ObservedAs db i d := by
  constructor
  · rintro ⟨_, hmem, hi, n, hsource⟩
    obtain ⟨r, hr, rfl⟩ := mem_map.mp hmem
    exact ⟨r, hr, (hf r hr).id.symm.trans hi, n, ((hf r hr).observed n d).mp hsource⟩
  · rintro ⟨r, hr, hi, n, hsource⟩
    exact ⟨f r, mem_map_of_mem hr, (hf r hr).id.trans hi, n, ((hf r hr).observed n d).mpr hsource⟩

theorem manualVersion_map (version : String) :
    ManualVersion { db with releases := db.releases.map f } version ↔ ManualVersion db version := by
  constructor
  · rintro ⟨_, hmem, hv, hmanual⟩
    obtain ⟨r, hr, rfl⟩ := mem_map.mp hmem
    exact ⟨r, hr, (hf r hr).version.symm.trans hv, (hf r hr).manual.mp hmanual⟩
  · rintro ⟨r, hr, hv, hmanual⟩
    exact ⟨f r, mem_map_of_mem hr, (hf r hr).version.trans hv, (hf r hr).manual.mpr hmanual⟩

end

theorem Sound.map_releases (h : Sound db) (hf : ∀ r ∈ db.releases, SameIdentity (f r) r) :
    Sound { db with releases := db.releases.map f } :=
  { h with
    release_fresh := by
      refine forall_mem_map.mpr fun r hr => ?_
      rw [(hf r hr).id]
      exact h.release_fresh r hr
    release_ids := nodup_map_map h.release_ids fun r hr => (hf r hr).id
    release_versions := nodup_map_map h.release_versions fun r hr => (hf r hr).version
    observed := by
      refine forall_mem_map.mpr fun r hr n d c hsource => ?_
      obtain ⟨c', hsource'⟩ := ((hf r hr).observed n d).mp ⟨c, hsource⟩
      rw [(hf r hr).version]
      exact h.observed r hr n d c' hsource'
    revision_digests := fun v hv => by
      obtain ⟨d, hd, hdigest⟩ := h.revision_digests v hv
      exact ⟨d, (observedAs_map hf).mpr hd, hdigest⟩ }

end

variable {components : List ContainerImageIdentity} {identity : ReleaseIdentity}

section
variable {db : Db}

variable {r : Release}

/-- The components of the observed release under a version are rewritten. -/
theorem Sound.refreshed (h : Sound db) (hr : r ∈ db.releases) {version : Nat}
    (hsource : r.source = .observed version digest components) {components' : List ContainerImageIdentity} :
    Resolved db { db with
      releases := db.releases.map fun r' =>
        if r'.version = r.version then { r' with source := .observed version digest components' } else r' }
      r.id digest := by
  have hsame : ∀ r' ∈ db.releases, SameIdentity
      (if r'.version = r.version then { r' with source := .observed version digest components' } else r') r' := by
    intro r' hr'
    split
    · next hv =>
      cases eq_of_key_eq h.release_versions hr' hr hv
      refine ⟨rfl, rfl, ?_, fun n d => ?_⟩
      · simp [hsource]
      · simp [hsource]
    · exact .refl
  exact {
    sound := h.map_releases hsame
    observedAs := fun i d => by
      rw [observedAs_map hsame]
      constructor
      · exact .inl
      · rintro (hi | ⟨rfl, rfl⟩)
        · exact hi
        · exact ⟨r, hr, rfl, version, components, hsource⟩
    manual := manualVersion_map hsame
    revisions := rfl
    episodes := rfl }

theorem observedAs_concat {nextId : Nat} {i : Nat} {d : ByteVec 32} :
    ObservedAs { db with nextId, releases := db.releases ++ [r] } i d ↔
      ObservedAs db i d ∨ (r.id = i ∧ ∃ version components, r.source = .observed version d components) := by
  simp [ObservedAs, or_and_right, exists_or]

/-- A release is appended under a version of its own. -/
theorem Sound.appended (h : Sound db) {deployedAt : Int} (hnew : ∀ r ∈ db.releases, r.version ≠ releaseVersion digest) :
    Resolved db { db with
      nextId := db.nextId + 1
      releases := db.releases ++ [⟨db.nextId, releaseVersion digest, deployedAt, .observed 1 digest components⟩] }
      db.nextId digest where
  sound := {
    h.succ with
    release_fresh := forall_mem_concat h.succ.release_fresh (Nat.lt_succ_self _)
    release_ids := nodup_map_append_singleton h.release_ids fun r hr => Nat.ne_of_lt (h.release_fresh r hr)
    release_versions := nodup_map_append_singleton h.release_versions hnew
    observed := by
      refine forall_mem_concat h.observed fun version d c hsource => ?_
      cases hsource
      exact ⟨rfl, rfl⟩
    revision_digests := fun v hv => by
      obtain ⟨d, hd, hdigest⟩ := h.revision_digests v hv
      exact ⟨d, observedAs_concat.mpr (.inl hd), hdigest⟩ }
  observedAs := fun i d => by
    rw [observedAs_concat]
    simp [eq_comm]
  manual := by simp [ManualVersion, or_and_right, exists_or]
  revisions := rfl
  episodes := rfl

theorem storedVersion_of_valid (h : identity.validate = .ok ()) : storedVersion identity.version = 1 := by
  rw [(ReleaseIdentity.validate_eq_ok.mp h).1]
  rfl

/-- The release of a valid identity is resolved, unless a component has a NUL or its
version was taken by hand. -/
theorem resolveObservedRelease_cases (h : Sound db) (hid : identity.validate = .ok ()) {observedAt : DateTime} :
    ((identity.containers.any hasNulComponent ∨ ManualVersion db (releaseVersion identity.digest)) ∧
      ∃ e, resolveObservedRelease db identity observedAt = .error e) ∨
    (identity.containers.any hasNulComponent = false ∧ ¬ ManualVersion db (releaseVersion identity.digest)) ∧
      ∃ releaseId db', resolveObservedRelease db identity observedAt = .ok (releaseId, db') ∧
        Resolved db db' releaseId identity.digest := by
  have hone := storedVersion_of_valid hid
  have hvalid := (validateComponents_eq_ok.mp (ReleaseIdentity.validate_eq_ok.mp hid).2.1).1
  have hshape : 0 < storedVersion identity.version ∧ 1 ≤ identity.containers.length ∧ identity.containers.length ≤ 64 :=
    ⟨by rw [hone]; exact Nat.one_pos, length_pos_iff.mpr hvalid.nonempty, hvalid.bounded⟩
  unfold resolveObservedRelease insertObserved
  by_cases hnul : identity.containers.any hasNulComponent
  · left
    rw [if_pos hnul]
    exact ⟨.inl hnul, _, rfl⟩
  rw [if_neg hnul, if_neg (not_not.mpr hshape)]
  rw [Bool.not_eq_true] at hnul
  cases hfind : db.releases.find? fun r => decide (r.version = releaseVersion identity.digest) with
  | some r =>
    have hr := mem_of_find?_eq_some hfind
    have hrversion : r.version = releaseVersion identity.digest := by simpa using find?_some hfind
    dsimp only
    cases hsource : r.source with
    | manual =>
      left
      exact ⟨.inr ⟨r, hr, hrversion, hsource⟩, _, rfl⟩
    | observed _ digest =>
      right
      obtain ⟨rfl, hdigest⟩ := h.observed r hr _ _ _ hsource
      have hsame : digest = identity.digest := releaseVersion_injective (hdigest.symm.trans hrversion)
      have hmanual : ¬ ManualVersion db (releaseVersion identity.digest) := by
        rintro ⟨r', hr', hv, hmanual⟩
        cases eq_of_key_eq h.release_versions hr' hr (hv.trans hrversion.symm)
        cases hsource.symm.trans hmanual
      dsimp only
      rw [if_pos ⟨hone.symm, hsame⟩]
      refine ⟨⟨hnul, hmanual⟩, _, _, rfl, ?_⟩
      rw [← hsame, ← hdigest]
      exact h.refreshed hr hsource
  | none =>
    right
    have hnew : ∀ r ∈ db.releases, r.version ≠ releaseVersion identity.digest := by
      intro r hr
      simpa using find?_eq_none.mp hfind r hr
    have hmanual : ¬ ManualVersion db (releaseVersion identity.digest) :=
      fun ⟨r, hr, hv, _⟩ => hnew r hr hv
    rw [if_neg, hone]
    · exact ⟨⟨hnul, hmanual⟩, _, _, rfl, h.appended hnew⟩
    intro hclash
    obtain ⟨r, hr, hclash⟩ := any_eq_true.mp hclash
    cases hsource : r.source with
    | manual => simp [hsource] at hclash
    | observed =>
      simp only [hsource, Bool.and_eq_true, decide_eq_true_eq] at hclash
      refine hnew r hr ?_
      rw [(h.observed r hr _ _ _ hsource).2, hclash.2]

end

/-! ## Recording a revision -/

/-- What the decoder guarantees about evidence. -/
structure WellFormed (e : WorkloadRevisionEvidence) : Prop where
  texts : ∀ text ∈ [e.namespace, e.workloadUid, e.workloadName, e.replicaSetUid, e.replicaSetName],
    Text.trim text = text ∧ text ≠ "" ∧ Text.len text ≤ 253
  hash : ∀ text ∈ e.podTemplateHash, text ≠ "" ∧ Text.len text ≤ 253
  identity : e.releaseIdentity.validate = .ok ()

variable {text : String}

theorem boundedText_of_bounded {max : Nat} (htrim : btrim text = text)
    (hne : text ≠ "") (hlen : Text.len text ≤ max) : boundedText max text := by
  have hpos : 1 ≤ text.length := by
    exact length_pos_iff.mpr fun h => hne (Text.toList_eq_nil_iff.mp h)
  have hmax : text.length ≤ max := le_trans Text.length_le_len hlen
  simp [boundedText, htrim, hpos, hmax]

theorem boundedText_btrim {max : Nat} (h : boundedText max text) : btrim text = text := by
  simp only [boundedText, Bool.and_eq_true, decide_eq_true_eq] at h
  exact h.1.1.symm

theorem btrim_of_trim (h : Text.trim text = text) : btrim text = text :=
  Text.trimMatches_eq_self_mono (fun c hc => by rw [of_decide_eq_true hc]; rfl) h

/-- The texts of evidence that the tables store. -/
def storedTexts (e : WorkloadRevisionEvidence) : List String :=
  [e.namespace, e.workloadUid, e.workloadKind, e.workloadName, e.replicaSetUid, e.replicaSetName] ++
    e.podTemplateHash.toList

/-- For well-formed evidence the checks of the table come down to the kind and the hash. -/
theorem WellFormed.passesChecks_iff {e : WorkloadRevisionEvidence} (he : WellFormed e) (releaseId : Nat) :
    (newRevision e releaseId).passesChecks ↔
      e.workloadKind = "Deployment" ∧ ∀ text ∈ e.podTemplateHash, btrim text = text := by
  have hversion : 0 < storedVersion e.releaseIdentity.version := by
    rw [storedVersion_of_valid he.identity]
    exact Nat.one_pos
  have htext : ∀ text ∈ [e.namespace, e.workloadUid, e.workloadName, e.replicaSetUid, e.replicaSetName],
      boundedText 253 text := by
    intro text hmem
    obtain ⟨htrim, hne, hlen⟩ := he.texts text hmem
    exact boundedText_of_bounded (btrim_of_trim htrim) hne hlen
  have hhash : e.podTemplateHash.all (boundedText 253) ↔ ∀ text ∈ e.podTemplateHash, btrim text = text := by
    rw [Option.all_eq_true]
    constructor
    · exact fun h text hmem => boundedText_btrim (h text hmem)
    · intro h text hmem
      obtain ⟨hne, hlen⟩ := he.hash text hmem
      exact boundedText_of_bounded (h text hmem) hne hlen
  simp only [forall_mem_cons] at htext
  obtain ⟨hns, hworkload, hname, huid, hrsname, -⟩ := htext
  simp only [NewDeploymentRevision.passesChecks, newRevision, hversion, hns, hworkload, hname,
    huid, hrsname, decide_true, Bool.true_and, Bool.and_eq_true, and_true, hhash]
  exact and_congr_left fun _ => decide_eq_true_iff

/-- What is recorded already agrees with the evidence: the same replica set has the same
release, and the digest is not that of another replica set. -/
def Agrees (db : Db) (e : WorkloadRevisionEvidence) : Prop :=
  ∀ workloadUid replicaSetUid digest, Recorded db workloadUid replicaSetUid digest →
    ((workloadUid, replicaSetUid) = (e.workloadUid, e.replicaSetUid) → digest = e.releaseIdentity.digest) ∧
      (revisionDigestOf workloadUid replicaSetUid digest = revisionDigest e →
        (workloadUid, replicaSetUid) = (e.workloadUid, e.replicaSetUid))

/-- The revision of the evidence, if it is recorded. -/
def revisionOf (db : Db) (e : WorkloadRevisionEvidence) : Option Revision :=
  db.revisions.find? (Revision.hasKey e.workloadUid e.replicaSetUid)

/-- After the revision of the evidence was recorded under an id. -/
structure Entered (db db' : Db) (e : WorkloadRevisionEvidence) (revisionId : Nat) : Prop where
  sound : Sound db'
  recorded : ∀ workloadUid replicaSetUid digest, Recorded db' workloadUid replicaSetUid digest ↔
    Recorded db workloadUid replicaSetUid digest ∨
      (workloadUid, replicaSetUid, digest) = (e.workloadUid, e.replicaSetUid, e.releaseIdentity.digest)
  id_eq : revisionId = ((revisionOf db e).map Revision.id).getD db.nextId
  revision_lt : revisionId < db'.nextId
  releases : db'.releases = db.releases
  episodes : db'.episodes = db.episodes

variable {releaseId : Nat}

section
variable {db : Db} {e : WorkloadRevisionEvidence}

variable {v : Revision}

theorem revisionOf_eq_some (h : revisionOf db e = some v) :
    v ∈ db.revisions ∧ revisionKey v = (e.workloadUid, e.replicaSetUid) := by
  have hkey := find?_some h
  simp only [Revision.hasKey, Bool.and_eq_true, decide_eq_true_eq] at hkey
  exact ⟨mem_of_find?_eq_some h, Prod.ext hkey.1 hkey.2⟩

theorem revisionOf_eq_none (h : revisionOf db e = none) :
    ∀ v ∈ db.revisions, revisionKey v ≠ (e.workloadUid, e.replicaSetUid) := by
  intro v hv hkey
  have hnone := find?_eq_none.mp h v hv
  obtain ⟨hworkload, hreplica⟩ := Prod.ext_iff.mp hkey
  exact hnone (by simpa [Revision.hasKey] using ⟨hworkload, hreplica⟩)

theorem Sound.identityDigest_eq (h : Sound db) (hv : v ∈ db.revisions) (hd : ObservedAs db v.releaseId digest) :
    v.identityDigest = revisionDigestOf v.workloadUid v.replicaSetUid digest := by
  obtain ⟨_, hd', heq⟩ := h.revision_digests v hv
  rw [h.digest_unique hd hd']
  exact heq

/-- The evidence agrees with its recorded revision exactly when release and digest are the same. -/
theorem Sound.agrees_iff_of_some (h : Sound db) (hv : revisionOf db e = some v)
    (hrelease : ObservedAs db releaseId e.releaseIdentity.digest) :
    Agrees db e ↔ v.releaseId = releaseId ∧ v.identityDigest = revisionDigest e := by
  obtain ⟨hmem, hkey⟩ := revisionOf_eq_some hv
  obtain ⟨hworkload, hreplica⟩ := Prod.ext_iff.mp hkey
  obtain ⟨d, hd, hdigest⟩ := h.revision_digests v hmem
  constructor
  · intro hagrees
    have hsame := (hagrees _ _ d ⟨v, hmem, rfl, rfl, hd⟩).1 hkey
    subst hsame
    refine ⟨h.releaseId_unique hd hrelease, ?_⟩
    rw [hdigest, revisionDigest_eq]
    exact congrArg₂ (revisionDigestOf · · _) hworkload hreplica
  · rintro ⟨rfl, hidentity⟩ _ _ d' ⟨v', hmem', rfl, rfl, hd'⟩
    constructor
    · intro hkey'
      cases eq_of_key_eq h.revision_keys hmem' hmem (hkey'.trans hkey.symm)
      exact h.digest_unique hd' hrelease
    intro hsame
    have hidentity' : v'.identityDigest = v.identityDigest :=
      (h.identityDigest_eq hmem' hd').trans (hsame.trans hidentity.symm)
    cases eq_of_key_eq h.revision_identities hmem' hmem hidentity'
    exact hkey

/-- Evidence of a replica set that is not recorded agrees when its digest is a new one. -/
theorem Sound.agrees_iff_of_none (h : Sound db) (hnone : revisionOf db e = none) :
    Agrees db e ↔ ∀ v ∈ db.revisions, v.identityDigest ≠ revisionDigest e := by
  have hkeys := revisionOf_eq_none hnone
  constructor
  · intro hagrees v hv hidentity
    obtain ⟨d, hd, hdigest⟩ := h.revision_digests v hv
    exact hkeys v hv ((hagrees _ _ d ⟨v, hv, rfl, rfl, hd⟩).2 (hdigest.symm.trans hidentity))
  · rintro hnew _ _ d ⟨v, hv, rfl, rfl, hd⟩
    refine ⟨fun hkey => absurd hkey (hkeys v hv), fun hsame => ?_⟩
    exact absurd ((h.identityDigest_eq hv hd).trans hsame) (hnew v hv)

/-- The revision is observed again: only the time of its last observation changes. -/
theorem Sound.observedAgain (h : Sound db) (hv : revisionOf db e = some v)
    (hrelease : ObservedAs db v.releaseId e.releaseIdentity.digest) (p : Revision → Bool) (observedAt : Int) :
    Entered db { db with
      revisions := db.revisions.map fun v' => if p v' then v'.observe observedAt else v' } e v.id := by
  have hmap : (db.revisions.map fun v' => if p v' then v'.observe observedAt else v') = db.revisions.map fun v' =>
      { v' with lastObservedAt := (if p v' then v'.observe observedAt else v').lastObservedAt } :=
    map_congr_left fun v' _ => by split <;> rfl
  rw [hmap]
  obtain ⟨hmem, hkey⟩ := revisionOf_eq_some hv
  obtain ⟨hworkload, hreplica⟩ := Prod.ext_iff.mp hkey
  exact {
    sound := {
      h with
      revision_fresh := forall_mem_map.mpr h.revision_fresh
      revision_keys := nodup_map_map h.revision_keys fun _ _ => rfl
      revision_identities := nodup_map_map h.revision_identities fun _ _ => rfl
      revision_versions := forall_mem_map.mpr h.revision_versions
      revision_digests := forall_mem_map.mpr h.revision_digests }
    recorded := by
      intro workloadUid replicaSetUid digest
      simp only [Recorded, mem_map, exists_exists_and_eq_and]
      refine (or_iff_left_of_imp fun heq => ?_).symm
      cases heq
      exact ⟨v, hmem, hworkload, hreplica, hrelease⟩
    id_eq := by rw [hv]; rfl
    revision_lt := h.revision_fresh v hmem
    releases := rfl
    episodes := rfl }

/-- A revision is appended under a key and a digest of its own. -/
theorem Sound.entered (h : Sound db) (hnone : revisionOf db e = none) (v : Revision) (hid : v.id = db.nextId)
    (hkey : revisionKey v = (e.workloadUid, e.replicaSetUid)) (hversion : v.identityVersion = 1)
    (hrelease : ObservedAs db v.releaseId e.releaseIdentity.digest) (hidentity : v.identityDigest = revisionDigest e)
    (hnew : ∀ v' ∈ db.revisions, v'.identityDigest ≠ revisionDigest e) :
    Entered db { db with nextId := db.nextId + 1, revisions := db.revisions ++ [v] } e db.nextId := by
  obtain ⟨hworkload, hreplica⟩ : v.workloadUid = e.workloadUid ∧ v.replicaSetUid = e.replicaSetUid :=
    Prod.ext_iff.mp hkey
  have hdigest : v.identityDigest = revisionDigestOf v.workloadUid v.replicaSetUid e.releaseIdentity.digest := by
    rw [hidentity, revisionDigest_eq, hworkload, hreplica]
  exact {
    sound := {
      h.succ with
      revision_fresh := forall_mem_concat h.succ.revision_fresh (hid ▸ Nat.lt_succ_self _)
      revision_keys := nodup_map_append_singleton h.revision_keys (hkey ▸ revisionOf_eq_none hnone)
      revision_identities := nodup_map_append_singleton h.revision_identities (hidentity ▸ hnew)
      revision_versions := forall_mem_concat h.revision_versions hversion
      revision_digests := forall_mem_concat h.revision_digests ⟨_, hrelease, hdigest⟩ }
    recorded := by
      intro workloadUid replicaSetUid digest
      simp only [Recorded, mem_append, mem_singleton, or_and_right, exists_or, exists_eq_left]
      refine or_congr_right ⟨?_, ?_⟩
      · rintro ⟨hw, hr, hd⟩
        rw [← hw, ← hr, h.digest_unique hd hrelease, hworkload, hreplica]
      · intro heq
        cases heq
        exact ⟨hworkload, hreplica, hrelease⟩
    id_eq := by rw [hnone]; rfl
    revision_lt := Nat.lt_succ_self _
    releases := rfl
    episodes := rfl }

/-- What the columns of the revision's table ask of well-formed evidence. -/
def FitsColumns (e : WorkloadRevisionEvidence) : Prop :=
  (∀ text ∈ storedTexts e, hasNul text = false) ∧ e.workloadKind = "Deployment" ∧
    ∀ text ∈ e.podTemplateHash, btrim text = text

theorem insertRevision_of_not_fits (he : WellFormed e) (hfits : ¬ FitsColumns e) :
    ∃ error, insertRevision db (newRevision e releaseId) = .error error := by
  unfold insertRevision
  split
  · exact ⟨_, rfl⟩
  next hnul =>
  split
  · exact ⟨_, rfl⟩
  next hchecks =>
  refine absurd ⟨?_, (he.passesChecks_iff releaseId).mp (not_not.mp hchecks)⟩ hfits
  intro text hmem
  rw [← Bool.not_eq_true]
  exact fun htext => hnul (any_eq_true.mpr ⟨text, hmem, htext⟩)

/-- The columns agree, so only what is recorded already can refuse the evidence. -/
theorem insertRevision_of_fits (h : Sound db) (he : WellFormed e) (hfits : FitsColumns e)
    (hrelease : ObservedAs db releaseId e.releaseIdentity.digest) : (¬ Agrees db e ∧
      ((∃ error, insertRevision db (newRevision e releaseId) = .error error) ∨
        insertRevision db (newRevision e releaseId) = .ok (none, db))) ∨ (Agrees db e ∧
      ∃ revisionId db', insertRevision db (newRevision e releaseId) =
        .ok (some revisionId, db') ∧ Entered db db' e revisionId) := by
  have hone := storedVersion_of_valid he.identity
  have hnul : ¬ (newRevision e releaseId).texts.any hasNul := by
    intro hany
    obtain ⟨text, hmem, htext⟩ := any_eq_true.mp hany
    rw [hfits.1 text hmem] at htext
    cases htext
  have hchecks := (he.passesChecks_iff releaseId).mpr hfits.2
  unfold insertRevision
  rw [if_neg hnul, if_neg (not_not.mpr hchecks)]
  dsimp only
  have hkey : Revision.hasKey (newRevision e releaseId).workloadUid
      (newRevision e releaseId).replicaSetUid = Revision.hasKey e.workloadUid e.replicaSetUid := rfl
  rw [hkey]
  cases hfind : revisionOf db e with
  | some v =>
    have hiff := h.agrees_iff_of_some hfind hrelease
    rw [revisionOf] at hfind
    rw [hfind]
    by_cases hsame : v.releaseId = releaseId ∧ v.identityDigest = revisionDigest e
    · right
      refine ⟨hiff.mpr hsame, _, _, if_pos hsame, ?_⟩
      exact h.observedAgain hfind (by rw [hsame.1]; exact hrelease) _ _
    · left
      exact ⟨mt hiff.mp hsame, .inr (if_neg hsame)⟩
  | none =>
    have hiff := h.agrees_iff_of_none hfind
    rw [revisionOf] at hfind
    rw [hfind]
    by_cases hclash : db.revisions.any (Revision.hasIdentity
        (newRevision e releaseId).identityVersion
        (newRevision e releaseId).identityDigest)
    · left
      refine ⟨fun hagrees => ?_, .inl ⟨_, if_pos hclash⟩⟩
      obtain ⟨v, hv, hidentity⟩ := any_eq_true.mp hclash
      simp only [Revision.hasIdentity, Bool.and_eq_true, decide_eq_true_eq] at hidentity
      exact hiff.mp hagrees v hv hidentity.2
    · right
      have hnew : ∀ v ∈ db.revisions, v.identityDigest ≠ revisionDigest e := by
        intro v hv hidentity
        refine hclash (any_eq_true.mpr ⟨v, hv, ?_⟩)
        simp only [Revision.hasIdentity, Bool.and_eq_true, decide_eq_true_eq]
        exact ⟨(h.revision_versions v hv).trans hone.symm, hidentity⟩
      exact ⟨hiff.mpr hnew, _, _, if_neg hclash, h.entered hfind _ rfl rfl hone hrelease rfl hnew⟩

end

/-! ## Episodes -/

variable {f : Episode → Episode} {revisionId : Nat} {observedAt : Int}

section
variable {db : Db}

theorem episodeCount_updateEpisodes (hf : ∀ ep, (f ep).revisionId = ep.revisionId) :
    episodeCount (Deployments.updateEpisodes db f) revisionId = episodeCount db revisionId := by
  simp only [episodeCount, episodesOf, Deployments.updateEpisodes, filter_map, length_map]
  congr 2
  funext ep
  simp [hf]

/-- A write that keeps the revision and the number of every episode. -/
theorem Sound.updateEpisodes (h : Sound db) (hrevision : ∀ ep, (f ep).revisionId = ep.revisionId)
    (hnumber : ∀ ep, (f ep).occurrenceNumber = ep.occurrenceNumber) : Sound (Deployments.updateEpisodes db f) :=
  { h with
    episode_revisions := by
      refine forall_mem_map.mpr fun ep hep => ?_
      rw [hrevision]
      exact h.episode_revisions ep hep
    occurrences := by
      refine forall_mem_map.mpr fun ep hep => ?_
      rw [hrevision, hnumber, episodeCount_updateEpisodes hrevision]
      exact h.occurrences ep hep }

theorem foldl_linkPredecessor {episodeId : Nat} {ids : List Nat} (db : Db) :
    ∃ predecessors, ids.foldl (linkPredecessor episodeId observedAt) db = { db with predecessors } := by
  induction ids generalizing db with
  | nil => exact ⟨db.predecessors, rfl⟩
  | cons _ _ ih =>
    rw [foldl_cons]
    unfold linkPredecessor
    split
    · exact ih db
    · obtain ⟨predecessors, heq⟩ := ih { db with predecessors := _ }
      exact ⟨predecessors, heq⟩

/-- What opening an episode leaves: the releases and revisions as they were, and one more
episode exactly when the revision had none open. -/
structure EpisodeOpened (db db' : Db) (revisionId : Nat) : Prop where
  sound : Sound db'
  releases : db'.releases = db.releases
  revisions : db'.revisions = db.revisions
  episodes : db'.episodes.map Episode.id =
    db.episodes.map Episode.id ++ if (Deployments.openEpisode db revisionId).isSome then [] else [db.nextId]

theorem Sound.touched (h : Sound db) {ep : Episode} (hopen : Deployments.openEpisode db revisionId = some ep) :
    EpisodeOpened db (touchEpisode db ep.id observedAt) revisionId where
  sound := h.updateEpisodes (fun ep' => by split <;> rfl) fun ep' => by split <;> rfl
  releases := rfl
  revisions := rfl
  episodes := by
    rw [hopen, Option.isSome_some, if_pos rfl, append_nil]
    simp only [touchEpisode, Deployments.updateEpisodes, map_map]
    refine map_congr_left fun ep' _ => ?_
    rw [Function.comp_apply]
    split <;> rfl

/-- An episode under the next number of its revision. -/
theorem Sound.inserted (h : Sound db) {ep : Episode} (hrevision : ep.revisionId < db.nextId)
    (hnumber : ep.occurrenceNumber = episodeCount db ep.revisionId + 1) {predecessors : List Deployments.Predecessor} :
    Sound { db with nextId := db.nextId + 1, episodes := db.episodes ++ [ep], predecessors } := by
  have hcount : ∀ revisionId, episodeCount
      { db with nextId := db.nextId + 1, episodes := db.episodes ++ [ep], predecessors } revisionId =
      episodeCount db revisionId + if ep.revisionId = revisionId then 1 else 0 := by
    intro revisionId
    simp only [episodeCount, episodesOf, filter_append, length_append]
    by_cases heq : ep.revisionId = revisionId
    · simp [heq]
    · simp [heq]
  exact { h.succ with
    episode_revisions := forall_mem_concat h.succ.episode_revisions (Nat.lt_succ_of_lt hrevision)
    occurrences := by
      refine forall_mem_concat (fun ep' hep' => ?_) ?_
      · rw [hcount]
        exact le_trans (h.occurrences ep' hep') (Nat.le_add_right _ _)
      · rw [hcount, if_pos rfl, hnumber] }

/-- On sound tables no constraint stands against an episode. -/
theorem Sound.openEpisode (h : Sound db) (hrevision : revisionId < db.nextId) :
    ∃ db', ReleaseDiscovery.openEpisode db releaseId revisionId observedAt = .ok db' ∧
      EpisodeOpened db db' revisionId := by
  unfold ReleaseDiscovery.openEpisode
  dsimp only
  cases hopen : Deployments.openEpisode db revisionId with
  | some => exact ⟨_, rfl, h.touched hopen⟩
  | none =>
    have hnumber : ¬ (db.episodes.any fun ep => decide (ep.revisionId = revisionId) &&
        decide (ep.occurrenceNumber = episodeCount db revisionId + 1)) := by
      intro hany
      obtain ⟨ep, hep, heq⟩ := any_eq_true.mp hany
      simp only [Bool.and_eq_true, decide_eq_true_eq] at heq
      have hle := h.occurrences ep hep
      rw [heq.1, heq.2] at hle
      omega
    have hnone : ¬ (db.episodes.any fun ep => decide (ep.revisionId = revisionId) && ep.state.isOpen) := by
      intro hany
      obtain ⟨ep, hep, heq⟩ := any_eq_true.mp hany
      exact find?_eq_none.mp hopen ep hep heq
    unfold insertEpisode
    rw [if_neg hnumber, if_neg hnone]
    obtain ⟨_, heq⟩ := foldl_linkPredecessor { db with nextId := db.nextId + 1, episodes := _ }
    refine ⟨_, congrArg Except.ok heq, ?_⟩
    exact {
      sound := h.inserted hrevision rfl
      releases := rfl
      revisions := rfl
      episodes := by
        rw [hopen]
        simp }

end

end Okoscope.Server.DeploymentInvariants
