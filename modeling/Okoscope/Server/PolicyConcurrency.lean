import Okoscope.Server.PolicyDiscipline

/-!
# Commands beside evaluations

Every command on policies keeps the discipline too, so that what is committed is
sound whatever requests run side by side. An evaluation that claims to be current
is then right.
-/
namespace Okoscope.Server.PolicyConcurrency

open Lib Lib.Bytes Lib.Table Lib.ReadCommitted
open Policy PolicyTables PolicyProjection
open PolicyService PolicyInvariants PolicyDiscipline
open Discipline List

variable {δ α β : Type}

/-! ## Transactions that change policies -/

/-- Writes that say nothing about groups, items, links and evaluations, and nothing about which
revisions count: at most a new policy without a revision. -/
def minor : Write δ → Bool
  | .policy p => p.currentRevisionId.isNone
  | .rename _ _ | .revision _ | .recomputation _ | .suppression _ | .cancelSuppression _ _ _ | .command _ => true
  | _ => false

/-- What a command has written: apart from minor writes, current revisions that it has written too
and versions, all of one application. -/
structure Lawful (scope : PolicyScope) (ws : List (Write δ)) : Prop where
  writes : ∀ w ∈ ws, minor w ∨ (∃ policyId revisionId, w = .currentRevision scope policyId revisionId) ∨
    ∃ v, w = .stateVersion scope v
  currents : ∀ policyId revisionId, .currentRevision scope policyId revisionId ∈ ws →
    ∃ r, .revision r ∈ ws ∧ r.id = revisionId

/-- Nothing but minor writes so far. -/
def Drafting (ws : List (Write δ)) : Prop := ∀ w ∈ ws, minor w

/-- The writes of a command may be committed: it holds the version it has changed, and it has taken
the next one if it has changed which revisions count. -/
structure Settled (scope : PolicyScope) (held : List Lock) (ws : List (Write δ)) (s : Db δ) : Prop where
  lawful : Lawful scope ws
  state : .state scope ∈ held ∨ Drafting ws
  version : (applyAll apply s ws).version scope = s.version scope + 1 ∨
    ((applyAll apply s ws).version scope = s.version scope ∧
      ∀ policyId revisionId, .currentRevision scope policyId revisionId ∉ ws)

variable {scope : PolicyScope} {ws new : List (Write δ)} {s : Db δ} {held : List Lock}
variable {t : Program δ α}

/-- What a write of a command on the application is, by its kind. -/
def Permitted (scope : PolicyScope) : Write δ → Prop
  | .currentRevision scope' _ _ | .stateVersion scope' _ => scope' = scope
  | w => minor w

section
variable (h : Lawful scope ws)
include h

theorem Lawful.permitted {w : Write δ} (hw : w ∈ ws) : Permitted scope w := by
  obtain hm | ⟨_, _, rfl⟩ | ⟨_, rfl⟩ := h.writes w hw
  · cases w <;> first | exact hm | cases hm
  · rfl
  · rfl

theorem Lawful.groups (s : Db δ) : (applyAll apply s ws).groups = s.groups := by
  have hnone : newGroups ws = [] := by
    refine eq_nil_iff_forall_not_mem.mpr fun g hg => ?_
    cases h.permitted (mem_newGroups.mp hg)
  rw [groups_applyAll, hnone, append_nil]

theorem Lawful.items (s : Db δ) : (applyAll apply s ws).items = s.items := by
  have hnone : newItems ws = [] := by
    refine eq_nil_iff_forall_not_mem.mpr fun i hi => ?_
    cases h.permitted (mem_newItems.mp hi)
  rw [items_applyAll, hnone, append_nil]

theorem Lawful.links {l : Link} (hl : l ∈ (applyAll apply s ws).links) : l ∈ s.links := by
  obtain hl | hl := links_applyAll.mp hl
  · exact hl
  · cases h.permitted hl

theorem Lawful.evaluations {e : GroupEvaluation} (he : e ∈ (applyAll apply s ws).groupEvaluations) :
    e ∈ s.groupEvaluations := by
  obtain he | he := groupEvaluations_applyAll he
  · exact he
  · cases h.permitted he

theorem Lawful.policies (p : Policy) (hp : .policy p ∈ ws) : p.currentRevisionId = none := by
  exact Option.isNone_iff_eq_none.mp (h.permitted hp)

/-- The writes of a command leave other applications alone. -/
theorem Lawful.other {scope' : PolicyScope} (hne : scope' ≠ scope) :
    (∀ v, .stateVersion scope' v ∉ ws) ∧ ∀ policyId revisionId, .currentRevision scope' policyId revisionId ∉ ws :=
  ⟨fun _ hv => hne (h.permitted hv), fun _ _ hw => hne (h.permitted hw)⟩

theorem Lawful.append (hnew : ∀ w ∈ new, minor w) : Lawful scope (ws ++ new) where
  writes w hw := by
    obtain hw | hw := mem_append.mp hw
    · exact h.writes w hw
    · exact .inl (hnew w hw)
  currents policyId revisionId hw := by
    obtain hw | hw := mem_append.mp hw
    · obtain ⟨r, hr, hid⟩ := h.currents policyId revisionId hw
      exact ⟨r, mem_append_left _ hr, hid⟩
    · cases hnew _ hw

theorem Lawful.pushVersion {v : Nat} : Lawful scope (ws ++ [.stateVersion scope v]) where
  writes w hw := by
    obtain hw | rfl := mem_append_singleton.mp hw
    · exact h.writes w hw
    · exact .inr (.inr ⟨v, rfl⟩)
  currents policyId revisionId hw := by
    obtain hw | hw := mem_append_singleton.mp hw
    · obtain ⟨r, hr, hid⟩ := h.currents policyId revisionId hw
      exact ⟨r, mem_append_left _ hr, hid⟩
    · cases hw

end

section
variable (h : Drafting ws)
include h

theorem lawful_of_drafting : Lawful scope ws where
  writes w hw := .inl (h w hw)
  currents _ _ hw := by cases h _ hw

theorem Drafting.append (hnew : ∀ w ∈ new, minor w) : Drafting (ws ++ new) := by
  intro w hw
  exact (mem_append.mp hw).elim (h w) (hnew w)

theorem Drafting.version : (applyAll apply s ws).version scope = s.version scope := by
  apply version_applyAll
  intro v hv
  cases h _ hv

theorem settled_of_drafting : Settled scope held ws s where
  lawful := lawful_of_drafting h
  state := .inr h
  version := .inr ⟨h.version, fun _ _ hw => by cases h _ hw⟩

end

section
variable (h : Settled scope held ws s)
include h

theorem Settled.later {s' : Db δ} (hl : Later held s s') : Settled scope held ws s' := by
  obtain hheld | hdraft := h.state
  · have hsame := hl.version scope hheld
    refine ⟨h.lawful, h.state, ?_⟩
    rw [version_applyAll_congr hsame ws, hsame]
    exact h.version
  · exact settled_of_drafting hdraft

theorem Settled.append {locks : List Lock} (hnew : ∀ w ∈ new, minor w) :
    Settled scope (held ++ locks) (ws ++ new) s := by
  refine ⟨h.lawful.append hnew, h.state.imp (mem_append_left _) fun hd => hd.append hnew, ?_⟩
  rw [applyAll_append, version_applyAll fun v hv => by cases hnew _ hv]
  refine h.version.imp_right fun hv => ⟨hv.1, fun policyId revisionId hw => ?_⟩
  obtain hw | hw := mem_append.mp hw
  · exact hv.2 policyId revisionId hw
  · cases hnew _ hw

theorem Settled.grows (hs : Sound s) : Grows s (applyAll apply s ws) := by
  refine ⟨fun g hg => ?_, fun i hi => ?_, fun l hl => links_applyAll.mpr (.inl hl), fun scope' => ?_, fun scope' he => ?_⟩
  · rwa [h.lawful.groups]
  · rwa [h.lawful.items]
  · by_cases hscope : scope' = scope
    · subst hscope
      obtain hv | ⟨hv, -⟩ := h.version
      · omega
      · omega
    · exact (version_applyAll (h.lawful.other hscope).1).ge
  · apply enabledRevisions_applyAll hs.currents h.lawful.policies
    by_cases hscope : scope' = scope
    · subst hscope
      obtain hv | ⟨-, hnone⟩ := h.version
      · omega
      · exact hnone
    · exact (h.lawful.other hscope).2

theorem Settled.sound (hs : Sound s) : Sound (applyAll apply s ws) := by
  have hgrows := h.grows hs
  refine ⟨?_, ?_, fun l hl => (hs.links l (h.lawful.links hl)).mono hgrows,
    fun e he => (hs.evaluations e (h.lawful.evaluations he)).mono hgrows, fun p hp id hid => ?_⟩
  · rw [h.lawful.groups]
    exact hs.groupIds
  · rw [h.lawful.items]
    exact hs.itemIds
  obtain ⟨q, hq, hqid⟩ | ⟨scope', policyId, hw⟩ := current_applyAll h.lawful.policies hp hid
  · obtain ⟨r, hr, hrid⟩ := hs.currents q hq id hqid
    exact ⟨r, revisions_applyAll.mpr (.inl hr), hrid⟩
  have hscope : scope' = scope := by
    by_contra hne
    exact (h.lawful.other hne).2 _ _ hw
  subst hscope
  obtain ⟨r, hr, hrid⟩ := h.lawful.currents policyId id hw
  exact ⟨r, revisions_applyAll.mpr (.inr hr), hrid⟩

theorem Settled.commit (hs : Sound s) : Commit held s (applyAll apply s ws) where
  grows := h.grows hs
  groups g hg := by
    rw [h.lawful.groups] at hg
    exact .inl hg
  items i hi := by
    rw [h.lawful.items] at hi
    exact .inl hi
  version scope' := by
    by_cases hscope : scope' = scope
    · subst hscope
      exact h.state.elim .inr fun hd => .inl hd.version
    · exact .inl (version_applyAll (h.lawful.other hscope).1)

theorem Settled.commits : discipline.Commits apply held ws s := by
  intro s' hr hs'
  have h' := h.later (later_of_rely hr)
  exact ⟨h'.sound hs', h'.commit hs'⟩

end

/-! ### Rules for commands -/

/-- The program leads from one assertion about a command to another. -/
structure Moves (J : List Lock → List (Write δ) → Db δ → Prop) (t : Tx (Db δ) (Write δ) Lock Failure α)
    (J' : List Lock → List (Write δ) → Db δ → Prop) : Prop where
  wp : ∀ held ws s, J held ws s → discipline.wp apply (fun _ => J') t held ws s

/-- Neither the commits of others nor minor writes can undo the assertion. -/
def Absorbs (J : List Lock → List (Write δ) → Db δ → Prop) : Prop :=
  ∀ held ws s s' locks new, J held ws s → discipline.Rely held s s' → (∀ w ∈ new, minor w) →
    J (held ++ locks) (ws ++ new) s'

theorem absorbs_drafting : Absorbs (fun _ ws (_ : Db δ) => Drafting ws) :=
  fun _ _ _ _ _ _ h _ hnew => h.append hnew

theorem absorbs_settled : Absorbs (Settled (δ := δ) scope) :=
  fun _ _ _ _ _ _ h hr hnew => (h.later (later_of_rely hr)).append hnew

section
variable {J J' J'' : List Lock → List (Write δ) → Db δ → Prop}

theorem Moves.bind {f : α → Program δ β}
    (ht : Moves J t J') (hf : ∀ a, Moves J' (f a) J'') : Moves J (t >>= f) J'' := by
  refine ⟨fun held ws s h => ?_⟩
  rw [wp_bind]
  exact wp_mono (fun a held' ws' s' h => (hf a).wp held' ws' s' h) (ht.wp held ws s h)

theorem moves_pure (a : α) : Moves J (pure a) J := ⟨fun _ _ _ h => h⟩

theorem moves_fail {e : Failure} : Moves J (.fail e : Program δ α) J' :=
  ⟨fun _ _ _ _ => trivial⟩

theorem moves_ensure {ok : Bool} {e : Failure} : Moves J (.ensure ok e) J :=
  ⟨fun _ _ _ h => wp_ensure fun _ => h⟩

theorem moves_ofExcept {x : Except Failure α} : Moves J (.ofExcept x) J :=
  ⟨fun _ _ _ h => wp_ofExcept fun _ _ => h⟩

theorem moves_exec (hJ : Absorbs J) {locks : Db δ → List Lock} {writes : Db δ → List (Write δ)} {result : Db δ → α}
    (hw : ∀ db, ∀ w ∈ writes db, minor w) : Moves J (.exec locks writes result) J :=
  ⟨fun held ws s h => wp_exec fun s' hr _ => hJ held ws s s' _ _ h hr (hw _)⟩

theorem moves_query (hJ : Absorbs J) (f : Db δ → α) : Moves J (.query f) J := by
  refine ⟨fun held ws s h => wp_query fun s' hr _ => ?_⟩
  have h' := hJ held ws s s' [] [] h hr (fun _ hw => by cases hw)
  rwa [append_nil, append_nil] at h'

theorem moves_insertRow (hJ : Absorbs J) {taken : Db δ → Bool} {lock : Lock} {w : Write δ} {index : String}
    (hw : minor w) : Moves J (insertRow taken lock w index) (fun held ws s => J held ws s ∧ w ∈ ws) := by
  refine ⟨fun held ws s h => ?_⟩
  rw [insertRow, wp_bind, insertUnless, wp_bind]
  refine wp_exec fun s' hr _ => ?_
  cases htaken : taken (applyAll apply s' ws)
  · have hnew : ∀ w' ∈ [w], minor w' := by
      intro w' hw'
      rw [mem_singleton.mp hw']
      exact hw
    exact ⟨hJ held ws s s' [lock] [w] h hr hnew, mem_concat_self⟩
  · trivial

theorem Moves.mono (h : Moves J t J') (hj : ∀ held ws s, J' held ws s → J'' held ws s) : Moves J t J'' :=
  ⟨fun held ws s h' => wp_mono (fun _ held' ws' s' => hj held' ws' s') (h.wp held ws s h')⟩

end

/-! ### The commands -/

/-- The current revision has been set, and the next version has not been taken yet. -/
def Moved (scope : PolicyScope) (ws : List (Write δ)) : Prop :=
  Lawful scope ws ∧ ∀ v, .stateVersion scope v ∉ ws

variable {policyId : Nat}

theorem moves_setCurrentRevision (r : Revision) :
    Moves (fun _ ws (_ : Db δ) => Drafting ws ∧ .revision r ∈ ws) (setCurrentRevision scope r.id policyId)
      (fun _ ws _ => Moved scope ws) := by
  refine ⟨fun held ws s h => wp_exec fun s' _ _ => ?_⟩
  obtain ⟨hdraft, hr⟩ := h
  refine ⟨⟨fun w hw => ?_, fun policyId' revisionId hw => ?_⟩, fun v hv => ?_⟩
  · obtain hw | hw := mem_append_singleton.mp hw
    · exact .inl (hdraft w hw)
    · exact .inr (.inl ⟨policyId, r.id, hw⟩)
  · obtain hw | hw := mem_append_singleton.mp hw
    · cases hdraft _ hw
    · cases hw
      exact ⟨r, mem_append_left _ hr, rfl⟩
  · obtain hv | hv := mem_append_singleton.mp hv
    · cases hdraft _ hv
    · cases hv

theorem moves_bumpStateVersion :
    Moves (fun _ ws (_ : Db δ) => Moved scope ws) (bumpStateVersion scope) (Settled scope) := by
  refine ⟨fun held ws s h => wp_exec fun s' _ _ => ?_⟩
  obtain ⟨hlawful, hversion⟩ := h
  refine ⟨hlawful.pushVersion, .inl mem_concat_self, .inl ?_⟩
  rw [applyAll_append, applyAll_cons, applyAll_nil, version_apply_stateVersion, version_applyAll hversion]

/-- A program that drafts its writes and settles them. -/
abbrev Settles (scope : PolicyScope) (t : Program δ α) : Prop :=
  Moves (fun _ ws _ => Drafting ws) t (Settled scope)

/-- A version that is created is the one that readers took before. -/
theorem moves_currentStateVersion : Settles (δ := δ) scope (currentStateVersion scope) := by
  refine ⟨fun held ws s h => wp_exec fun s' _ _ => ?_⟩
  split
  next hnone =>
    refine ⟨(lawful_of_drafting h).pushVersion, .inl mem_concat_self, .inr ⟨?_, fun policyId revisionId hw => ?_⟩⟩
    · rw [applyAll_append, applyAll_cons, applyAll_nil, version_apply_stateVersion, ← h.version, Db.version,
        Option.isNone_iff_eq_none.mp hnone]
      rfl
    · obtain hw | hw := mem_append_singleton.mp hw
      · cases h _ hw
      · cases hw
  next =>
    rw [append_nil]
    exact settled_of_drafting h

variable {ids : RevisionIds} {input : RevisionInput}

theorem moves_appendRevision {now : Int} (revisionNumber : Nat) (priorRevisionId : Option Nat) (enabled : Bool)
    {identity : Item} : Settles (δ := δ) scope
      (appendRevision now scope ids policyId revisionNumber priorRevisionId enabled input identity) := by
  refine (moves_insertRow absorbs_drafting rfl).bind fun _ => ?_
  refine (moves_setCurrentRevision _).bind fun _ => ?_
  refine moves_bumpStateVersion.bind fun version => ?_
  refine (moves_insertRow absorbs_settled rfl).bind fun _ => ?_
  exact (moves_pure _).mono fun _ _ _ h => h.1

variable {header : Option Nat}

section
variable {J : List Lock → List (Write δ) → Db δ → Prop}

section
variable (hJ : Absorbs J) (scope : PolicyScope)
include hJ

theorem moves_ensureApplication : Moves J (ensureApplication scope) J :=
  (moves_query hJ _).bind fun _ => moves_ensure

theorem moves_ensureLinked {itemId : Nat} {groupId : Option Nat} : Moves J (ensureLinked scope itemId groupId) J := by
  cases groupId with
  | none => exact moves_pure ()
  | some => exact (moves_query hJ _).bind fun linked => moves_ensure

theorem moves_loadRevisionIdentity : Moves J (loadRevisionIdentity scope input) J := by
  refine moves_ofExcept.bind fun input => ?_
  refine (moves_query hJ _).bind fun found => ?_
  cases found with
  | none => exact moves_fail
  | some =>
    refine (moves_ensureLinked hJ scope).bind fun _ => ?_
    exact moves_ensure.bind fun _ => moves_pure _

theorem moves_currentRevisionForUpdate : Moves J (currentRevisionForUpdate scope policyId) J := by
  refine (moves_exec hJ fun _ _ hw => by cases hw).bind fun found => ?_
  cases found
  · exact moves_pure none
  · exact moves_query hJ fun db => db.currentRevision scope policyId

end

theorem moves_renameTo (hJ : Absorbs J) {name : Option String} : Moves J (renameTo policyId name) J := by
  cases name with
  | none => exact moves_pure ()
  | some name =>
    show Moves J (rename policyId name) J
    refine moves_exec hJ fun _ w hw => ?_
    rw [mem_singleton.mp hw]
    rfl

theorem keeps_of_projects (h : Projects (fun _ => True) t fun _ _ => True) : discipline.Keeps apply t := by
  intro s hs
  refine wp_mono ?_ (h.wp [] [] s hs (projecting_nil hs) trivial)
  intro _ _ _ _ h'
  exact h'.2.1.commits

theorem keeps_of_moves (h : Settles scope t) : discipline.Keeps apply t := by
  intro s _
  refine wp_mono ?_ (h.wp [] [] s fun _ hw => by cases hw)
  intro _ _ _ _ h'
  exact h'.commits

theorem sound_fresh (projects : List Project) (applications : List PolicyScope) :
    Sound (Db.fresh projects applications : Db δ) where
  groupIds := nodup_nil
  itemIds := nodup_nil
  links _ h := by cases h
  evaluations _ h := by cases h
  currents _ h := by cases h

variable [DecidableEq δ]

theorem moves_beginCommand (hJ : Absorbs J) {organizationId key : Nat} {digest : δ} :
    Moves J (beginCommand organizationId key digest) J := by
  have hlocked : Moves J (lockedCommand organizationId key) J :=
    (moves_exec hJ fun _ _ hw => by cases hw).bind fun _ => moves_query hJ _
  refine hlocked.bind fun found => ?_
  cases found with
  | none => exact moves_pure _
  | some =>
    dsimp only
    split
    · exact moves_pure _
    · exact moves_fail

/-- A command that is performed settles its writes, and one that is replayed has none. -/
theorem moves_underKey {key : Nat} {kind : CommandKind} {digest : δ} {perform : Program δ MutationResult}
    (hperform : Settles scope perform) : Settles scope (underKey scope key kind digest perform) := by
  refine (moves_beginCommand absorbs_drafting).bind fun stored => ?_
  cases stored with
  | some result => exact (moves_pure result).mono fun _ _ _ h => settled_of_drafting h
  | none =>
    refine hperform.bind fun result => ?_
    refine (moves_insertRow absorbs_settled rfl).bind fun _ => ?_
    exact (moves_pure result).mono fun _ _ _ h => h.1

variable (digest : RequestBody → δ)

section
variable (now : Int) (scope : PolicyScope)

theorem moves_createPolicy {input : CreatePolicyInput} :
    Settles scope (createPolicy digest now scope header policyId ids input) := by
  refine (moves_ensureApplication absorbs_drafting scope).bind fun _ => ?_
  refine moves_ofExcept.bind fun name => ?_
  refine moves_ofExcept.bind fun key => moves_underKey ?_
  refine (moves_loadRevisionIdentity absorbs_drafting scope).bind fun loaded => ?_
  obtain ⟨_, _⟩ := loaded
  refine Moves.bind ((moves_insertRow absorbs_drafting rfl).mono fun _ _ _ h => h.1) fun _ => ?_
  exact moves_appendRevision _ _ _

theorem moves_replacePolicy {input : ReplacePolicyInput} :
    Settles scope (replacePolicy digest now scope policyId header ids input) := by
  refine moves_ofExcept.bind fun key => ?_
  refine moves_ofExcept.bind fun name => moves_underKey ?_
  refine (moves_currentRevisionForUpdate absorbs_drafting scope).bind fun found => ?_
  cases found with
  | none => exact moves_fail
  | some =>
    refine (moves_renameTo absorbs_drafting).bind fun _ => ?_
    refine (moves_loadRevisionIdentity absorbs_drafting scope).bind fun loaded => ?_
    obtain ⟨_, _⟩ := loaded
    exact moves_appendRevision _ _ _

theorem moves_setPolicyEnabled {enabled : Bool} :
    Settles scope (setPolicyEnabled digest now scope policyId header ids enabled) := by
  refine moves_ofExcept.bind fun key => moves_underKey ?_
  refine (moves_currentRevisionForUpdate absorbs_drafting scope).bind fun found => ?_
  cases found with
  | none => exact moves_fail
  | some =>
    refine (moves_loadRevisionIdentity absorbs_drafting scope).bind fun loaded => ?_
    obtain ⟨_, _⟩ := loaded
    exact moves_appendRevision _ _ _

theorem moves_createSuppression (id : Nat) {input : SuppressionInput} :
    Settles scope (createSuppression digest now scope header id input) := by
  refine (moves_ensureApplication absorbs_drafting scope).bind fun _ => ?_
  refine moves_ofExcept.bind fun input => ?_
  refine moves_ofExcept.bind fun key => moves_underKey ?_
  refine (moves_loadRevisionIdentity absorbs_drafting scope).bind fun loaded => ?_
  refine Moves.bind ((moves_insertRow absorbs_drafting rfl).mono fun _ _ _ h => h.1) fun _ => ?_
  exact moves_currentStateVersion.bind fun version => moves_pure _

theorem moves_cancelSuppression (id : Nat) : Settles scope (cancelSuppression digest now scope id header) := by
  refine moves_ofExcept.bind fun key => moves_underKey ?_
  refine (moves_exec absorbs_drafting fun _ w hw => ?_).bind fun updated => ?_
  · rw [mem_singleton.mp hw]
    rfl
  · refine moves_ensure.bind fun _ => ?_
    exact moves_currentStateVersion.bind fun version => moves_pure _

end

/-! ## Every request keeps the discipline -/

theorem keeps_transaction (request : Request) : discipline.Keeps apply (transaction digest request) := by
  cases request with
  | createPolicy now scope =>
    exact keeps_of_moves ((moves_createPolicy digest now scope).bind fun _ => moves_pure _)
  | replacePolicy now scope =>
    exact keeps_of_moves ((moves_replacePolicy digest now scope).bind fun _ => moves_pure _)
  | setPolicyEnabled now scope =>
    exact keeps_of_moves
      ((moves_setPolicyEnabled digest now scope).bind fun _ => moves_pure _)
  | createSuppression now scope _ id =>
    exact keeps_of_moves ((moves_createSuppression digest now scope id).bind fun _ => moves_pure _)
  | cancelSuppression now scope id =>
    exact keeps_of_moves ((moves_cancelSuppression digest now scope id).bind fun _ => moves_pure _)
  | ingest =>
    exact keeps_of_projects (projects_persistApplicationBatchOutcome.bind fun _ => projects_pure fun _ h => h)
  | recompute =>
    exact keeps_of_projects (projects_runOneBatch.bind fun _ => projects_pure fun _ h => h)

/-! ## Evaluations that claim to be current -/

/-- What is committed after the given steps. -/
def committed (projects : List Project) (applications : List PolicyScope)
    (steps : List (ReadCommitted.Step Request)) : Db δ :=
  (Run.trace (ReadCommitted.step apply (transaction digest))
    (World.init (Db.fresh projects applications)) steps).2.committed

end

/-- The inventory items that a group is linked to. -/
def linkedItems (db : Db δ) (groupId : Nat) : List Item :=
  db.items.filter fun i => db.links.any fun l => l.itemId = i.id && l.groupId = groupId

/-- The evaluation is the one stored for the group, and it has the version of the application and
that of the evaluator. -/
structure ClaimsCurrent (db : Db δ) (g : Group) (e : GroupEvaluation) : Prop where
  stored : get? GroupEvaluation.groupId g.id db.groupEvaluations = some e
  stateVersion : e.policyStateVersion = db.version g.key.scope
  evaluatorVersion : e.evaluatorVersion = policyEvaluatorVersion

/-- However the statements of any number of requests interleave: the rows of the tables stay linked, and a
stored evaluation names no version to come and, at the current one, is what the enabled revisions say. -/
theorem policy_tables_sound [DecidableEq δ] (digest : RequestBody → δ) (projects : List Project)
    (applications : List PolicyScope) (steps : List (ReadCommitted.Step Request)) :
    Sound (committed digest projects applications steps) :=
  committed_inv (keeps_transaction digest) (sound_fresh projects applications)

/-- However the statements of any number of requests interleave: the stored evaluation of a group
that is linked to one item, if it claims to be current, is what the enabled current revisions say
about the item at the placement of the group, in whatever order they are listed. -/
theorem current_evaluation_right [DecidableEq δ] (digest : RequestBody → δ) (projects : List Project)
    (applications : List PolicyScope) (steps : List (ReadCommitted.Step Request)) {g : Group}
    (hg : g ∈ (committed digest projects applications steps).groups) {i : Item}
    (hi : linkedItems (committed digest projects applications steps) g.id = [i]) {e : GroupEvaluation}
    (he : ClaimsCurrent (committed digest projects applications steps) g e) {candidates : List ScopedPolicyCandidate}
    (hc : candidates.Perm (Db.candidates (committed digest projects applications steps) g.key.scope)) :
    let right := evaluateScoped ⟨g.key.scope, i.key.behavior, g.key.placement⟩ candidates
    e.evaluation.verdict = right.verdict ∧ e.evaluation.winningRevisionId = right.winningRevisionId ∧
      e.evaluation.specificity = right.specificity := by
  intro right
  have hsound : Sound (committed digest projects applications steps) :=
    committed_inv (keeps_transaction digest) (sound_fresh projects applications)
  have hright : e.evaluation = right := by
    obtain ⟨hmem, hid⟩ := get?_eq_some he.stored
    obtain ⟨g', hg', j, hj, hid', -, hl, -, hright⟩ := hsound.evaluations e hmem
    obtain rfl : g' = g := eq_of_key_eq hsound.groupIds hg' hg (hid'.trans hid)
    have hlinked : j ∈ linkedItems (committed digest projects applications steps) g'.id := by
      refine mem_filter.mpr ⟨hj, any_eq_true.mpr ⟨_, hl, ?_⟩⟩
      simp
    rw [hi, mem_singleton] at hlinked
    subst hlinked
    rw [hright he.stateVersion]
    exact evaluate_perm ((hc.symm.filter _).map _)
  rw [hright]
  exact ⟨rfl, rfl, rfl⟩

def shop : PolicyScope := ⟨1, 1, 1⟩

/-- An event of one process at one place. -/
def startUp (eventId : Nat) : Observation where
  agentId := 1
  eventId
  observedAt := 0
  placement := ⟨1, "default", "Deployment", "shop"⟩
  podUid := "pod"
  containerName := "shop"
  fingerprintDigest := ByteVec.fill 32 1
  kind := .process
  identityDigest := ByteVec.fill 32 2
  seedable := true
  restartLoop := none
  groupId := 10
  itemId := 20
  restartLoopGroupId := 11

/-- A policy is made for the process while another of its events is ingested, and the recomputation
follows. -/
def overlappingRun : List (ReadCommitted.Step Request) :=
  .start (.ingest shop [startUp 1]) :: replicate 20 (.advance 0) ++
    [.start (.createPolicy 0 shop (some 7) 30 ⟨31, 32⟩
      ⟨"start-up", ⟨20, none, ⟨∅, {"default"}, ∅, ∅⟩, .expected, none⟩⟩), .start (.ingest shop [startUp 2])] ++
    (replicate 20 [ReadCommitted.Step.advance 1, .advance 2]).flatten ++
    .start (.recompute 1 40 100) :: replicate 20 (.advance 3)

def overlapped : Db RequestBody := committed id [⟨1, 1, none⟩] [shop] overlappingRun

def startUpEvaluation : GroupEvaluation :=
  ⟨shop, 10, 1, 1, ⟨.expected, .insidePlacement, some ⟨1, 0, 0, 1, 0⟩, some 31, [31]⟩⟩

def startUpGroup : Group := ⟨10, (startUp 1).groupKey shop⟩

def startUpItem : Item := ⟨20, (startUp 1).itemKey shop, true⟩

theorem current_evaluation_right_overlappingRun :
    let right := evaluateScoped ⟨startUpGroup.key.scope, startUpItem.key.behavior, startUpGroup.key.placement⟩
      (Db.candidates overlapped startUpGroup.key.scope)
    startUpEvaluation.evaluation.verdict = right.verdict ∧
      startUpEvaluation.evaluation.winningRevisionId = right.winningRevisionId ∧
      startUpEvaluation.evaluation.specificity = right.specificity :=
  have hg : startUpGroup ∈ overlapped.groups := by decide +kernel
  have hi : linkedItems overlapped startUpGroup.id = [startUpItem] := by decide +kernel
  have he : ClaimsCurrent overlapped startUpGroup startUpEvaluation := ⟨by decide +kernel, by decide +kernel, rfl⟩
  current_evaluation_right id [⟨1, 1, none⟩] [shop] overlappingRun hg hi he (.refl _)

end Okoscope.Server.PolicyConcurrency
