import Okoscope.Server.RevisionSession

/-!
# Replayed evidence and ended episodes

An agent sends everything it has observed again whenever any of it changes, so evidence of a
revision arrives again after the revision's episode has ended. Opening an episode does not
look at the time of the evidence: it opens a new one whenever none is open.
-/
namespace Okoscope.Server.EpisodeReplay

open Lib Lib.Outcome EventModel Protocol
open Deployments (Db Episode storedAt)
open ReleaseDiscovery (persistReadinessSnapshot)
open DeploymentInvariants RevisionSession List

/-- One message, in whatever session it arrives: a failure ends the session and leaves the
tables as they were. -/
def receive (stabilization : Option String) (db : Db) (message : AgentMessage) : Db :=
  match handleMessage true stabilization db message with
  | .ok db' => db'
  | .error _ => db

def receiveAll (stabilization : Option String) (db : Db) (messages : List AgentMessage) : Db :=
  messages.foldl (receive stabilization) db

def episodeIds (db : Db) : List Nat := db.episodes.map Episode.id

/-- The evidence is not later than the latest end of an episode of its revision. -/
def Stale (db : Db) (e : WorkloadRevisionEvidence) : Prop :=
  ∃ v, revisionOf db e = some v ∧
    ∃ ep ∈ Deployments.episodesOf db v.id, ep.state.endedSince (storedAt e.observedAt)

/-- The evidence was persisted in the course of these messages. -/
def PersistedBefore (stabilization : Option String) (db : Db) (messages : List AgentMessage)
    (e : WorkloadRevisionEvidence) : Prop :=
  ∃ before wire after, messages = before ++ .revisionEvidence wire :: after ∧ tryFromRevisionEvidence wire = .ok e ∧
    ∃ db', handleMessage true stabilization (receiveAll stabilization db before) (.revisionEvidence wire) = .ok db'

/-- Evidence that is stale, or was persisted before, opens no episode. -/
def NeverReopens (stabilization : Option String) (db : Db) (messages : List AgentMessage) : Prop :=
  ∀ before wire after e, messages = before ++ .revisionEvidence wire :: after → tryFromRevisionEvidence wire = .ok e →
    Stale (receiveAll stabilization db before) e ∨ PersistedBefore stabilization db before e →
      episodeIds (receive stabilization (receiveAll stabilization db before) (.revisionEvidence wire)) =
        episodeIds (receiveAll stabilization db before)

/-- Such evidence only arrives unready, or while the revision's episode is open, or is refused. -/
def RepeatsHarmless (stabilization : Option String) (db : Db) (messages : List AgentMessage) : Prop :=
  ∀ before wire after e, messages = before ++ .revisionEvidence wire :: after → tryFromRevisionEvidence wire = .ok e →
    Stale (receiveAll stabilization db before) e ∨ PersistedBefore stabilization db before e →
      e.ready = false ∨ HasOpenEpisode (receiveAll stabilization db before) e ∨
        ¬ Accepts (receiveAll stabilization db before) e

/-! ## One message -/

variable {e : WorkloadRevisionEvidence} {wire : V1.WorkloadRevisionEvidence}

section
variable {db : Db} {stabilization : Option String}

/-- Evidence opens an episode exactly when the tables accept it, it is ready, and its
revision has no episode open. -/
theorem episodeIds_receive_iff (h : Sound db) (he : tryFromRevisionEvidence wire = .ok e) :
    episodeIds (receive stabilization db (.revisionEvidence wire)) = episodeIds db ↔
      e.ready = false ∨ HasOpenEpisode db e ∨ ¬ Accepts db e := by
  simp only [receive, handleMessage, he, not_true_eq_false, if_false]
  show episodeIds (match internalError (ReleaseDiscovery.persistRevisionEvidence db e) with
    | .ok db' => db'
    | .error _ => db) = _ ↔ _
  rw [internalError]
  rcases persistRevisionEvidence_cases h (wellFormed_of_decoded he) with
    ⟨hrefused, error, herror⟩ | ⟨haccepts, db', hok, hpersisted⟩
  · rw [herror]
    exact iff_of_true rfl (.inr (.inr hrefused))
  rw [hok]
  by_cases hopens : e.ready ∧ ¬ HasOpenEpisode db e
  · obtain ⟨_, hid⟩ := hpersisted.opened hopens
    refine iff_of_false ?_ ?_
    · intro heq
      have hlength := congrArg List.length (hid.symm.trans heq)
      simp [episodeIds] at hlength
    rintro (hready | hopen | hrefused)
    · rw [hready] at hopens
      cases hopens.1
    · exact hopens.2 hopen
    · exact hrefused haccepts
  · refine iff_of_true (hpersisted.kept hopens) ?_
    by_cases hready : e.ready
    · exact .inr (.inl (by_contra fun hopen => hopens ⟨hready, hopen⟩))
    · exact .inl (Bool.not_eq_true _ ▸ hready)

theorem sound_persistReadinessSnapshot (h : Sound db) {snapshot : RevisionReadinessSnapshot} {db' : Db}
    (hok : ReleaseDiscovery.persistReadinessSnapshot stabilization db snapshot = .ok db') : Sound db' := by
  unfold ReleaseDiscovery.persistReadinessSnapshot at hok
  split at hok
  · cases hok
    exact h
  next =>
  obtain ⟨_, -, hok⟩ := bind_eq_ok.mp hok
  obtain ⟨db₁, hinsert, hok⟩ := bind_eq_ok.mp hok
  have hsound : Sound db₁ := by
    simp only [Deployments.insertSnapshot, ite_error_eq_ok] at hinsert
    obtain ⟨-, -, hinsert⟩ := hinsert
    split at hinsert
    · cases hinsert
      exact h
    · cases hinsert
      exact { h with }
  split at hok
  · cases hok
    exact hsound.updateEpisodes (fun ep => by split <;> simp) fun ep => by split <;> simp
  · cases hok
    exact hsound.updateEpisodes (fun ep => by split <;> simp) fun ep => by split <;> simp

theorem sound_receive (h : Sound db) {message : AgentMessage} : Sound (receive stabilization db message) := by
  unfold receive
  split
  · next hok =>
    cases message with
    | revisionEvidence =>
      simp only [handleMessage, not_true_eq_false, if_false, bind_eq_ok, mapError_eq_ok, internalError] at hok
      obtain ⟨_, he, hok⟩ := hok
      rcases persistRevisionEvidence_cases h (wellFormed_of_decoded he) with
        ⟨-, error, herror⟩ | ⟨-, t, ht, hpersisted⟩
      · rw [herror] at hok
        cases hok
      · cases ht.symm.trans hok
        exact hpersisted.sound
    | readinessSnapshot =>
      simp only [handleMessage, not_true_eq_false, if_false, bind_eq_ok, mapError_eq_ok, internalError] at hok
      obtain ⟨_, -, hok⟩ := hok
      exact sound_persistReadinessSnapshot h hok
  · exact h

end

/-! ## Whole runs -/

theorem sound_receiveAll {db : Db} (h : Sound db) {stabilization : Option String} {messages : List AgentMessage} :
    Sound (receiveAll stabilization db messages) := by
  induction messages generalizing db with
  | nil => exact h
  | cons _ _ ih => exact ih (sound_receive h)

/-- Whatever a server receives from the agents, its releases, revisions and episodes stay consistent. -/
theorem deployment_tables_sound (stabilization : Option String) (messages : List AgentMessage) :
    Sound (receiveAll stabilization Db.empty messages) := sound_receiveAll sound_empty

/-- In every run, stale and repeated evidence opens no episode exactly when all of it arrives
unready, while the revision's episode is still open, or is refused. -/
theorem neverReopens_iff_repeatsHarmless (stabilization : Option String) (db : Db) (h : Sound db)
    (messages : List AgentMessage) :
    NeverReopens stabilization db messages ↔ RepeatsHarmless stabilization db messages := by
  constructor
  · intro hnever before wire after e hsplit he hrepeat
    exact (episodeIds_receive_iff (sound_receiveAll h) he).mp
      (hnever before wire after e hsplit he hrepeat)
  · intro hharmless before wire after e hsplit he hrepeat
    exact (episodeIds_receive_iff (sound_receiveAll h) he).mpr
      (hharmless before wire after e hsplit he hrepeat)

/-- The report of a ready pod, as it is sent. -/
def observation : AgentMessage := .revisionEvidence (fromRevisionEvidence (report "rs-a" 0xaa))

/-- The snapshot, two hundred seconds later, that no pod is left. -/
def departure : AgentMessage :=
  .readinessSnapshot (fromReadinessSnapshot {
    snapshotId := "zero"
    observedAt := 200 * DateTime.nanosPerSecond
    initialized := true
    continuous := true
    revisionDigest := revisionDigest (report "rs-a" 0xaa)
    podCount := 0
    readyPodCount := 0
    workloadReadyPodCount := 0 })

theorem report_decoded : tryFromRevisionEvidence (fromRevisionEvidence (report "rs-a" 0xaa)) =
    .ok (report "rs-a" 0xaa) := by
  decide +kernel

theorem observation_persisted :
    handleMessage true none Db.empty observation = .ok (receive none Db.empty observation) := by
  decide +kernel

theorem hasOpenEpisode_of_any {db : Db}
    (h : (revisionOf db e).any (fun v => (Deployments.openEpisode db v.id).isSome)) : HasOpenEpisode db e :=
  (Option.any_eq_true _ _).mp h

theorem replay_while_open_harmless : NeverReopens none Db.empty [observation, observation] := by
  refine (neverReopens_iff_repeatsHarmless none Db.empty sound_empty _).mpr ?_
  intro before wire after e hsplit he hrepeat
  match before, hsplit with
  | [], _ =>
    rcases hrepeat with ⟨v, hv, -⟩ | ⟨before, _, _, hsplit, -⟩
    · cases hv
    · exact absurd hsplit (by simp)
  | [_], hsplit =>
    cases hsplit
    cases report_decoded.symm.trans he
    exact .inr (.inl (hasOpenEpisode_of_any (by decide +kernel)))
  | _ :: _ :: _, hsplit =>
    have hlength := congrArg List.length hsplit
    simp at hlength

/-- After its pods are gone and the episode has ended, the same report opens another one. -/
theorem replay_reopens : episodeIds (receiveAll none Db.empty [observation, departure]) = [2] ∧
      Stale (receiveAll none Db.empty [observation, departure]) (report "rs-a" 0xaa) ∧
      episodeIds (receiveAll none Db.empty [observation, departure, observation]) = [2, 3] ∧
      ¬ NeverReopens none Db.empty [observation, departure, observation] := by
  have hruns : episodeIds (receiveAll none Db.empty [observation, departure]) = [2] ∧
      episodeIds (receiveAll none Db.empty [observation, departure, observation]) = [2, 3] ∧
      (revisionOf (receiveAll none Db.empty [observation, departure]) (report "rs-a" 0xaa)).any
        (fun v => (Deployments.episodesOf (receiveAll none Db.empty [observation, departure]) v.id).any
          fun ep => ep.state.endedSince (storedAt (report "rs-a" 0xaa).observedAt)) := by
    decide +kernel
  obtain ⟨hbefore, hafter, hstale⟩ := hruns
  refine ⟨hbefore, ?_, hafter, fun hnever => ?_⟩
  · obtain ⟨v, hv, hany⟩ := (Option.any_eq_true _ _).mp hstale
    exact ⟨v, hv, any_eq_true.mp hany⟩
  have hsame := hnever [observation, departure] _ [] (report "rs-a" 0xaa) rfl report_decoded
    (.inr ⟨[], _, [departure], rfl, report_decoded, _, observation_persisted⟩)
  have hlast : receiveAll none Db.empty [observation, departure, observation] =
      receive none (receiveAll none Db.empty [observation, departure]) observation := by
    simp only [receiveAll, foldl_cons, foldl_nil]
  rw [← observation, ← hlast, hbefore, hafter] at hsame
  cases hsame

end Okoscope.Server.EpisodeReplay
