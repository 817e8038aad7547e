import Okoscope.Lib.Run
import Okoscope.Protocol.WireImage
import Okoscope.Server.DeploymentInvariants

/-!
# Deployment evidence in a session

The part of an agent's session that takes deployment evidence. A message that the decoder or
the database refuses ends the session with an error status. Which evidence the database
refuses is a matter of its columns and of what was recorded before.
-/
namespace Okoscope.Server.RevisionSession

open Lib.Bytes Lib.Outcome Lib.Run EventModel Protocol
open Deployments (Db SqlError Revision Episode hasNul)
open ReleaseDiscovery (releaseVersion persistRevisionEvidence persistReadinessSnapshot)
open DeploymentInvariants
open Deployments List

/-! ## The session -/

inductive AgentMessage where
  | revisionEvidence (value : V1.WorkloadRevisionEvidence)
  | readinessSnapshot (value : V1.RevisionReadinessSnapshot)

inductive Status where
  | failedPrecondition (message : String)
  | invalidArgument (error : ProtocolError)
  | internal (message : String)
  deriving DecidableEq

/-- A failure of the database is not told to the agent. -/
def internalError {α : Type} (result : Except SqlError α) : Except Status α :=
  result.mapError fun _ => .internal "internal server error"

/-- One message of an open session, given whether the agent announced release discovery and the
configured stabilization period. -/
def handleMessage (discovery : Bool) (stabilization : Option String) (db : Db) (message : AgentMessage) :
    Except Status Db :=
  if ¬ discovery then
    .error (.failedPrecondition "revision evidence requires kubernetes.release-discovery/v1 capability")
  else
    match message with
    | .revisionEvidence value => do
      let evidence ← (tryFromRevisionEvidence value).mapError .invalidArgument
      internalError (persistRevisionEvidence db evidence)
    | .readinessSnapshot value => do
      let snapshot ← (tryFromReadinessSnapshot value).mapError .invalidArgument
      internalError (persistReadinessSnapshot stabilization db snapshot)

/-- The session ends with the status of the first message that fails. -/
def openSession (discovery : Bool) (stabilization : Option String) (db : Db) (messages : List AgentMessage) :
    Except Status Db :=
  messages.foldlM (handleMessage discovery stabilization) db

/-! ## What the database accepts -/

/-- Evidence that the tables take. -/
structure Accepts (db : Db) (e : WorkloadRevisionEvidence) : Prop where
  columns : FitsColumns e
  components : ∀ component ∈ e.releaseIdentity.containers, hasNulComponent component = false
  version : ¬ ManualVersion db (releaseVersion e.releaseIdentity.digest)
  agrees : Agrees db e

/-- The revision of the evidence has an episode that has not ended. -/
def HasOpenEpisode (db : Db) (e : WorkloadRevisionEvidence) : Prop :=
  ∃ v, revisionOf db e = some v ∧ (openEpisode db v.id).isSome

/-- After the evidence was persisted. -/
structure Persisted (db db' : Db) (e : WorkloadRevisionEvidence) : Prop where
  sound : Sound db'
  recorded : ∀ workloadUid replicaSetUid digest, Recorded db' workloadUid replicaSetUid digest ↔
    Recorded db workloadUid replicaSetUid digest ∨
      (workloadUid, replicaSetUid, digest) = (e.workloadUid, e.replicaSetUid, e.releaseIdentity.digest)
  manual : ∀ version, ManualVersion db' version ↔ ManualVersion db version
  opened : e.ready ∧ ¬ HasOpenEpisode db e →
    ∃ id, db'.episodes.map Episode.id = db.episodes.map Episode.id ++ [id]
  kept : ¬ (e.ready ∧ ¬ HasOpenEpisode db e) → db'.episodes.map Episode.id = db.episodes.map Episode.id

section
variable {db : Db} {e : WorkloadRevisionEvidence}

theorem recorded_of_resolved {db' : Db} {releaseId : Nat} {digest : ByteVec 32} (h : Sound db)
    (hresolved : Resolved db db' releaseId digest) (workloadUid replicaSetUid : String) (d : ByteVec 32) :
    Recorded db' workloadUid replicaSetUid d ↔ Recorded db workloadUid replicaSetUid d := by
  unfold Recorded
  rw [hresolved.revisions]
  constructor
  · rintro ⟨v, hv, hw, hr, hd⟩
    obtain ⟨_, hd', -⟩ := h.revision_digests v hv
    have hsame := hresolved.sound.digest_unique hd ((hresolved.observedAs _ _).mpr (.inl hd'))
    exact ⟨v, hv, hw, hr, hsame ▸ hd'⟩
  · rintro ⟨v, hv, hw, hr, hd⟩
    exact ⟨v, hv, hw, hr, (hresolved.observedAs _ _).mpr (.inl hd)⟩

/-- The id under which a revision was entered has an open episode exactly when the revision had one. -/
theorem openEpisode_entered {db' : Db} {revisionId : Nat} (h : Sound db) (hentered : Entered db db' e revisionId) :
    (openEpisode db' revisionId).isSome ↔ HasOpenEpisode db e := by
  have hepisodes : openEpisode db' revisionId = openEpisode db revisionId := by
    rw [openEpisode, hentered.episodes, ← openEpisode]
  have hid := hentered.id_eq
  rw [hepisodes]
  cases hfind : revisionOf db e with
  | some v =>
    rw [hfind, Option.map_some, Option.getD_some] at hid
    rw [hid]
    constructor
    · exact fun hopen => ⟨v, hfind, hopen⟩
    rintro ⟨v', hv', hopen⟩
    rw [hfind] at hv'
    cases hv'
    exact hopen
  | none =>
    rw [hfind, Option.map_none, Option.getD_none] at hid
    constructor
    · intro hopen
      obtain ⟨ep, hep⟩ := Option.isSome_iff_exists.mp hopen
      have hmem := mem_of_find?_eq_some hep
      have hrevision := find?_some hep
      simp only [Bool.and_eq_true, decide_eq_true_eq] at hrevision
      have hlt := h.episode_revisions ep hmem
      omega
    · rintro ⟨v, hv, -⟩
      rw [hfind] at hv
      cases hv

/-- The episode part of a message, once its revision has an id. -/
theorem Entered.persisted {db₁ db₂ : Db} {releaseId revisionId : Nat} (h : Sound db)
    (hresolved : Resolved db db₁ releaseId e.releaseIdentity.digest) (hentered : Entered db₁ db₂ e revisionId) :
    ∃ db', (if e.ready then
        ReleaseDiscovery.openEpisode db₂ releaseId revisionId (storedAt e.observedAt) else .ok db₂) =
          .ok db' ∧ Persisted db db' e := by
  have hrecorded : ∀ workloadUid replicaSetUid digest, Recorded db₂ workloadUid replicaSetUid digest ↔
      Recorded db workloadUid replicaSetUid digest ∨
        (workloadUid, replicaSetUid, digest) = (e.workloadUid, e.replicaSetUid, e.releaseIdentity.digest) := by
    intro workloadUid replicaSetUid digest
    rw [hentered.recorded, recorded_of_resolved h hresolved]
  have hmanual : ∀ version, ManualVersion db₂ version ↔ ManualVersion db version := by
    intro version
    rw [ManualVersion, hentered.releases]
    exact hresolved.manual version
  have hepisodes : db₂.episodes = db.episodes := hentered.episodes.trans hresolved.episodes
  have hopen : (openEpisode db₂ revisionId).isSome ↔ HasOpenEpisode db e := by
    rw [openEpisode_entered hresolved.sound hentered]
    unfold HasOpenEpisode revisionOf openEpisode
    rw [hresolved.revisions, hresolved.episodes]
  cases hready : e.ready with
  | false =>
    refine ⟨db₂, rfl, ⟨hentered.sound, hrecorded, hmanual, fun hn => ?_, fun _ => by rw [hepisodes]⟩⟩
    rw [hready] at hn
    cases hn.1
  | true =>
    obtain ⟨db', hdb', hopened⟩ := hentered.sound.openEpisode hentered.revision_lt
    have hids := hopened.episodes
    rw [hepisodes] at hids
    refine ⟨db', hdb', ⟨hopened.sound, ?_, ?_, fun hn => ?_, fun hn => ?_⟩⟩
    · intro workloadUid replicaSetUid digest
      rw [← hrecorded]
      unfold Recorded ObservedAs
      rw [hopened.revisions, hopened.releases]
    · intro version
      rw [← hmanual, ManualVersion, hopened.releases]
      rfl
    · rw [if_neg fun hsome => hn.2 (hopen.mp hsome)] at hids
      exact ⟨_, hids⟩
    · have hsome : (openEpisode db₂ revisionId).isSome := by
        rw [hopen]
        by_contra hnone
        exact hn ⟨hready, hnone⟩
      rwa [if_pos hsome, append_nil] at hids

/-- Well-formed evidence is persisted exactly when the tables accept it. -/
theorem persistRevisionEvidence_cases (h : Sound db) (he : WellFormed e) :
    (¬ Accepts db e ∧ ∃ error, persistRevisionEvidence db e = .error error) ∨
      (Accepts db e ∧ ∃ db', persistRevisionEvidence db e = .ok db' ∧ Persisted db db' e) := by
  unfold persistRevisionEvidence lockRevision
  by_cases hlock : (hasNul e.workloadUid || hasNul e.replicaSetUid)
  · left
    rw [if_pos hlock]
    refine ⟨fun haccepts => ?_, _, rfl⟩
    have hworkload := haccepts.columns.1 e.workloadUid (by simp [storedTexts])
    have hreplica := haccepts.columns.1 e.replicaSetUid (by simp [storedTexts])
    rw [hworkload, hreplica] at hlock
    cases hlock
  rw [if_neg hlock]
  rcases resolveObservedRelease_cases h he.identity with
    ⟨hrefused, error, herror⟩ | ⟨⟨hnul, hversion⟩, releaseId, db₁, hok, hresolved⟩
  · left
    rw [herror]
    refine ⟨fun haccepts => ?_, _, rfl⟩
    rcases hrefused with hnul | hmanual
    · obtain ⟨component, hmem, hnul⟩ := any_eq_true.mp hnul
      rw [haccepts.components component hmem] at hnul
      cases hnul
    · exact haccepts.version hmanual
  rw [hok]
  have hcomponents : ∀ component ∈ e.releaseIdentity.containers, hasNulComponent component = false := by
    intro component hmem
    rw [← Bool.not_eq_true]
    intro hcomponent
    rw [any_eq_true.mpr ⟨component, hmem, hcomponent⟩] at hnul
    cases hnul
  by_cases hfits : FitsColumns e
  case neg =>
    left
    obtain ⟨error, herror⟩ : ∃ error, insertRevision db₁ (ReleaseDiscovery.newRevision e releaseId) = .error error :=
      insertRevision_of_not_fits he hfits
    refine ⟨fun haccepts => hfits haccepts.columns, error, ?_⟩
    simp [bind, Except.bind, herror]
  have hrelease : ObservedAs db₁ releaseId e.releaseIdentity.digest := (hresolved.observedAs _ _).mpr (.inr ⟨rfl, rfl⟩)
  have hagrees : Agrees db₁ e ↔ Agrees db e := by
    unfold Agrees
    simp [recorded_of_resolved h hresolved]
  rcases insertRevision_of_fits hresolved.sound he hfits hrelease with
    ⟨hdisagrees, herror⟩ | ⟨hag, revisionId, db₂, hok₂, hentered⟩
  · left
    refine ⟨fun haccepts => hdisagrees (hagrees.mpr haccepts.agrees), ?_⟩
    rcases herror with ⟨error, herror⟩ | hnone
    · refine ⟨error, ?_⟩
      simp [bind, Except.bind, herror]
    · refine ⟨.protocol "conflicting immutable identity for Kubernetes ReplicaSet", ?_⟩
      simp [bind, Except.bind, hnone]
  · right
    obtain ⟨db', hdb', hpersisted⟩ := Entered.persisted h hresolved hentered
    refine ⟨⟨hfits, hcomponents, hversion, hagrees.mp hag⟩, db', ?_, hpersisted⟩
    simp only [bind, Except.bind, hok₂]
    exact hdb'

end

/-! ## Whole sessions -/

variable {e : WorkloadRevisionEvidence}

/-- The decoder's guarantees. -/
theorem wellFormed_of_decoded {value : V1.WorkloadRevisionEvidence}
    (h : tryFromRevisionEvidence value = .ok e) : WellFormed e := by
  simp only [tryFromRevisionEvidence, bind_eq_ok, exists_unit, ite_error_eq_ok, pure_eq_ok, requireBounded_eq_ok]
    at h
  obtain ⟨-, hns, hworkload, -, hname, huid, hrsname, -, hhash, _, -, _, -, _, hidentity, rfl⟩ := h
  refine ⟨?_, ?_, ?_⟩
  · simp only [forall_mem_cons, not_mem_nil, false_implies, implies_true, and_true]
    exact ⟨hns, hworkload, hname, huid, hrsname⟩
  · intro text hmem
    simp only [Option.any_eq_true, not_exists, not_and, Bool.or_eq_true, decide_eq_true_eq, not_or, not_lt] at hhash
    exact hhash text hmem
  · simp only [decodeReleaseIdentity, bind_eq_ok, exists_unit, mapError_eq_ok, pure_eq_ok] at hidentity
    obtain ⟨_, -, _, -, _, -, hvalid, rfl⟩ := hidentity
    exact hvalid

/-- Two pieces of evidence that can both be recorded: the same replica set has the same
release, and no digest is that of two replica sets. -/
def Compatible (e e' : WorkloadRevisionEvidence) : Prop :=
  ((e.workloadUid, e.replicaSetUid) = (e'.workloadUid, e'.replicaSetUid) →
      e.releaseIdentity.digest = e'.releaseIdentity.digest) ∧
    (revisionDigest e = revisionDigest e' → (e.workloadUid, e.replicaSetUid) = (e'.workloadUid, e'.replicaSetUid))

/-- Persisted evidence rules out what it is not compatible with, and nothing else. -/
theorem Persisted.accepts_iff {db db' : Db} (h : Persisted db db' e)
    (e' : WorkloadRevisionEvidence) : Accepts db' e' ↔ Accepts db e' ∧ Compatible e e' := by
  have hagrees : Agrees db' e' ↔ Agrees db e' ∧ Compatible e e' := by
    unfold Agrees
    simp only [h.recorded]
    constructor
    · intro hall
      refine ⟨fun w r d hd => hall w r d (.inl hd), ?_⟩
      exact hall e.workloadUid e.replicaSetUid e.releaseIdentity.digest (.inr rfl)
    rintro ⟨hold, hnew⟩ w r d (hd | heq)
    · exact hold w r d hd
    · cases heq
      exact hnew
  constructor
  · intro ha
    obtain ⟨hag, hcompatible⟩ := hagrees.mp ha.agrees
    exact ⟨⟨ha.columns, ha.components, mt (h.manual _).mpr ha.version, hag⟩, hcompatible⟩
  · rintro ⟨ha, hcompatible⟩
    exact ⟨ha.columns, ha.components, mt (h.manual _).mp ha.version, hagrees.mpr ⟨ha.agrees, hcompatible⟩⟩

/-- The session on evidence that the decoder accepts. -/
theorem openSession_decoded {stabilization : Option String} {wires : List V1.WorkloadRevisionEvidence}
    {es : List WorkloadRevisionEvidence} (hdecode : wires.mapM tryFromRevisionEvidence = .ok es) (db : Db) :
    openSession true stabilization db (wires.map .revisionEvidence) =
      es.foldlM (fun db e => internalError (persistRevisionEvidence db e)) db := by
  have hdecoded := mapM_eq_ok.mp hdecode
  clear hdecode
  induction hdecoded generalizing db with
  | nil => rfl
  | @cons wire e _ _ he _ ih =>
    have hfirst : handleMessage true stabilization db (.revisionEvidence wire) =
        internalError (persistRevisionEvidence db e) := by
      simp only [handleMessage, he, not_true_eq_false, if_false]
      rfl
    rw [openSession, map_cons, foldlM_cons, foldlM_cons, hfirst]
    exact bind_congr fun db' => ih db'

/-- A session survives a sequence of decoded evidence exactly when the tables accept each
piece and any two of them are compatible. -/
theorem session_survives_iff (db : Db) (h : Sound db) (stabilization : Option String)
    (wires : List V1.WorkloadRevisionEvidence) (es : List WorkloadRevisionEvidence)
    (hdecode : wires.mapM tryFromRevisionEvidence = .ok es) :
    (∃ db', openSession true stabilization db (wires.map .revisionEvidence) = .ok db') ↔
      (∀ e ∈ es, Accepts db e) ∧ es.Pairwise Compatible := by
  have hwell : ∀ e ∈ es, WellFormed e := by
    intro e he
    obtain ⟨_, -, hwire⟩ := exists_of_mem_mapM hdecode he
    exact wellFormed_of_decoded hwire
  rw [openSession_decoded hdecode]
  refine foldlM_ok_iff_pairwise ?_ ?_ h es hwell
  · intro db e hdb he
    rcases persistRevisionEvidence_cases hdb he with ⟨hrefused, error, herror⟩ | ⟨haccepts, db', hok, -⟩
    · refine iff_of_false ?_ hrefused
      rintro ⟨t, ht⟩
      rw [internalError, mapError_eq_ok, herror] at ht
      cases ht
    · exact iff_of_true ⟨db', mapError_eq_ok.mpr hok⟩ haccepts
  · intro db e db' hdb he hok
    rw [internalError, mapError_eq_ok] at hok
    rcases persistRevisionEvidence_cases hdb he with ⟨-, error, herror⟩ | ⟨-, t, ht, hpersisted⟩
    · rw [herror] at hok
      cases hok
    · cases ht.symm.trans hok
      exact ⟨hpersisted.sound, hpersisted.accepts_iff⟩

/-- A pod of one container with this image. -/
def singleImage (image : UInt8) : ReleaseIdentity :=
  let components := [{
    category := .application
    name := "application"
    image := some "registry/application:tag"
    digest := ByteVec.fill 32 image }]
  { version := releaseIdentityVersion, digest := digestComponents components, containers := components }

/-- What an agent reports for a ready pod of a replica set that runs this image. -/
def report (replicaSetUid : String) (image : UInt8) : WorkloadRevisionEvidence where
  evidenceId := "pod-" ++ replicaSetUid
  observedAt := 0
  «namespace» := "production"
  workloadUid := "deployment-uid"
  workloadKind := "Deployment"
  workloadName := "application"
  replicaSetUid
  replicaSetName := replicaSetUid
  podUid := "pod-" ++ replicaSetUid
  podTemplateHash := some replicaSetUid
  releaseIdentity := singleImage image
  ready := true

theorem accepts_empty (hcolumns : FitsColumns e)
    (hcomponents : ∀ component ∈ e.releaseIdentity.containers, hasNulComponent component = false) :
    Accepts Db.empty e where
  columns := hcolumns
  components := hcomponents
  version := fun ⟨_, hr, _⟩ => by cases hr
  agrees := fun _ _ _ ⟨_, hv, _⟩ => by cases hv

instance (e : WorkloadRevisionEvidence) : Decidable (FitsColumns e) :=
  inferInstanceAs (Decidable (_ ∧ _ ∧ ∀ text ∈ e.podTemplateHash, _))

instance (e e' : WorkloadRevisionEvidence) : Decidable (Compatible e e') :=
  inferInstanceAs (Decidable ((_ → _) ∧ (_ → _)))

theorem rollout_survives : ∃ db', openSession true none Db.empty
      ([fromRevisionEvidence (report "rs-a" 0xaa), fromRevisionEvidence (report "rs-b" 0xbb)].map
        .revisionEvidence) = .ok db' := by
  refine (session_survives_iff Db.empty sound_empty none _ [report "rs-a" 0xaa, report "rs-b" 0xbb]
    (by decide +kernel)).mpr ⟨?_, by decide +kernel⟩
  intro e he
  simp only [mem_cons, not_mem_nil, or_false] at he
  rcases he with rfl | rfl
  · exact accepts_empty (by decide) (by decide)
  · exact accepts_empty (by decide) (by decide)

/-- Two pods of one replica set that run different images, as they do when its tag has moved. -/
theorem moved_tag_ends_session :
    [fromRevisionEvidence (report "rs-a" 0xaa), fromRevisionEvidence (report "rs-a" 0xbb)].mapM
        tryFromRevisionEvidence = .ok [report "rs-a" 0xaa, report "rs-a" 0xbb] ∧ openSession true none Db.empty
        [.revisionEvidence (fromRevisionEvidence (report "rs-a" 0xaa)),
          .revisionEvidence (fromRevisionEvidence (report "rs-a" 0xbb))] =
        .error (.internal "internal server error") := by
  refine ⟨?_, ?_⟩
  · decide +kernel
  · decide +kernel

end Okoscope.Server.RevisionSession
