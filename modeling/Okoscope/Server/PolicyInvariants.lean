import Okoscope.Server.PolicyService

/-!
# What the transactions on policies may change

A version and the enabled current revisions of an application go together: a
commit that changes the revisions takes the next version, and it holds the row
of the version from then on. An evaluation is justified if it is not newer than
the version and, when it has the version, says what the revisions say. Every
transaction keeps all evaluations justified, whatever the others commit between
its statements.
-/
namespace Okoscope.Server.PolicyInvariants

open Lib.Table Lib.ReadCommitted
open Policy PolicyTables PolicyProjection List

variable {δ : Type}

/-- The enabled current revisions of an application as the evaluation sees them. -/
def Db.candidates (db : Db δ) (scope : PolicyScope) : List ScopedPolicyCandidate :=
  (db.enabledRevisions scope).map (candidateOf scope)

/-! ## What a list of writes does to each table -/

def newGroups (ws : List (Write δ)) : List Group :=
  ws.filterMap fun w => match w with
    | .group g => some g
    | _ => none

def newItems (ws : List (Write δ)) : List Item :=
  ws.filterMap fun w => match w with
    | .item i => some i
    | _ => none

variable {ws : List (Write δ)} {s : Db δ} {scope : PolicyScope}

theorem mem_newGroups {g : Group} : g ∈ newGroups ws ↔ .group g ∈ ws := by
  rw [newGroups, mem_filterMap]
  constructor
  · intro h
    obtain ⟨w, hw, hg⟩ := h
    cases w <;> first | (cases hg; exact hw) | cases hg
  · intro h
    exact ⟨_, h, rfl⟩

theorem mem_newItems {i : Item} : i ∈ newItems ws ↔ .item i ∈ ws := by
  rw [newItems, mem_filterMap]
  constructor
  · intro h
    obtain ⟨w, hw, hi⟩ := h
    cases w <;> first | (cases hi; exact hw) | cases hi
  · intro h
    exact ⟨_, h, rfl⟩

theorem groups_applyAll : (applyAll apply s ws).groups = s.groups ++ newGroups ws := by
  induction ws generalizing s with
  | nil => simp [newGroups]
  | cons w _ ih =>
    rw [applyAll_cons, ih]
    cases w <;> simp [apply, newGroups]

theorem items_applyAll : (applyAll apply s ws).items = s.items ++ newItems ws := by
  induction ws generalizing s with
  | nil => simp [newItems]
  | cons w _ ih =>
    rw [applyAll_cons, ih]
    cases w <;> simp [apply, newItems]

theorem links_applyAll {l : Link} : l ∈ (applyAll apply s ws).links ↔ l ∈ s.links ∨ .link l ∈ ws := by
  induction ws generalizing s with
  | nil => simp
  | cons w _ ih =>
    rw [applyAll_cons, ih, mem_cons]
    cases w <;> simp [apply, or_assoc]

theorem revisions_applyAll {r : Revision} :
    r ∈ (applyAll apply s ws).revisions ↔ r ∈ s.revisions ∨ .revision r ∈ ws := by
  induction ws generalizing s with
  | nil => simp
  | cons w _ ih =>
    rw [applyAll_cons, ih, mem_cons]
    cases w <;> simp [apply, or_assoc]

theorem groupEvaluations_applyAll {e : GroupEvaluation}
    (h : e ∈ (applyAll apply s ws).groupEvaluations) : e ∈ s.groupEvaluations ∨ .groupEvaluation e ∈ ws := by
  induction ws generalizing s with
  | nil => exact .inl h
  | cons w _ ih =>
    obtain h | h := ih h
    · cases w
      case groupEvaluation e' =>
        obtain ⟨h, -⟩ | rfl := mem_put.mp h
        · exact .inl h
        · exact .inr mem_cons_self
      all_goals exact .inl h
    · exact .inr (mem_cons_of_mem _ h)

theorem current_applyAll (hnew : ∀ p, .policy p ∈ ws → p.currentRevisionId = none)
    {p : Policy} (hp : p ∈ (applyAll apply s ws).policies) {id : Nat} (hid : p.currentRevisionId = some id) :
    (∃ q ∈ s.policies, q.currentRevisionId = some id) ∨ ∃ scope policyId, .currentRevision scope policyId id ∈ ws := by
  have h : ∀ q ∈ (applyAll apply s ws).policies, ∀ id, q.currentRevisionId = some id →
      (∃ q ∈ s.policies, q.currentRevisionId = some id) ∨
        ∃ scope policyId, .currentRevision scope policyId id ∈ ws := by
    refine applyAll_induction apply (p := fun db : Db δ => ∀ q ∈ db.policies, ∀ id, q.currentRevisionId = some id →
      (∃ q ∈ s.policies, q.currentRevisionId = some id) ∨
        ∃ scope policyId, .currentRevision scope policyId id ∈ ws) ?_ ?_
    · intro w hw db ih
      cases w
      case policy p =>
        intro q hq id hid
        obtain hq | rfl := mem_append_singleton.mp hq
        · exact ih q hq id hid
        · rw [hnew _ hw] at hid
          cases hid
      case rename policyId name =>
        exact forall_mem_updateWhere ih fun q hq _ => ih q hq
      case currentRevision scope policyId revisionId =>
        refine forall_mem_updateWhere ih fun q hq _ id hid => ?_
        cases hid
        exact .inr ⟨scope, policyId, hw⟩
      all_goals exact ih
    · intro q hq id hid
      exact .inl ⟨q, hq, hid⟩
  exact h p hp id hid

theorem version_apply_of_ne {w : Write δ} (h : ∀ v, w ≠ .stateVersion scope v) :
    (apply s w).version scope = s.version scope := by
  cases w
  case stateVersion scope' v =>
    have hne : scope' ≠ scope := by
      intro he
      subst he
      exact h v rfl
    simp [apply, Db.version, Db.stateVersion, get?_put, if_neg hne]
  all_goals rfl

theorem version_apply_stateVersion {v : Nat} : (apply s (.stateVersion scope v)).version scope = v := by
  simp [apply, Db.version, Db.stateVersion, get?_put]

theorem version_applyAll (h : ∀ v, .stateVersion scope v ∉ ws) :
    (applyAll apply s ws).version scope = s.version scope := by
  refine applyAll_induction apply (p := fun db : Db δ => db.version scope = s.version scope) ?_ rfl
  intro w hw db ih
  rw [version_apply_of_ne, ih]
  intro v he
  subst he
  exact h v hw

/-- The version that the writes leave depends on the version they find. -/
theorem version_applyAll_congr {s' : Db δ} (h : s.version scope = s'.version scope)
    (ws : List (Write δ)) : (applyAll apply s ws).version scope = (applyAll apply s' ws).version scope := by
  induction ws generalizing s s' with
  | nil => exact h
  | cons w _ ih =>
    apply ih
    by_cases hw : ∃ v, w = .stateVersion scope v
    · obtain ⟨_, rfl⟩ := hw
      rw [version_apply_stateVersion, version_apply_stateVersion]
    · have hw' : ∀ v, w ≠ .stateVersion scope v := fun v he => hw ⟨v, he⟩
      rw [version_apply_of_ne hw', version_apply_of_ne hw', h]

/-- Every current revision is there. -/
def Currents (db : Db δ) : Prop :=
  ∀ p ∈ db.policies, ∀ id, p.currentRevisionId = some id → ∃ r ∈ db.revisions, r.id = id

theorem get?_append_of_mem {rows : List Revision} {id : Nat} (h : ∃ r ∈ rows, r.id = id) {r : Revision} :
    get? Revision.id id (rows ++ [r]) = get? Revision.id id rows := by
  rw [get?, get?, find?_append]
  obtain ⟨q, hq, hid⟩ := h
  cases hf : rows.find? fun r => r.id = id with
  | none =>
    have := find?_eq_none.mp hf q hq
    simp [hid] at this
  | some => rfl

/-- The revisions that count for an application stay the same unless one of its policies is pointed
to another revision. -/
theorem enabledRevisions_applyAll (hs : Currents s) (hnew : ∀ p, .policy p ∈ ws → p.currentRevisionId = none)
    (h : ∀ policyId revisionId, .currentRevision scope policyId revisionId ∉ ws) :
    (applyAll apply s ws).enabledRevisions scope = s.enabledRevisions scope := by
  suffices hboth : (∀ p ∈ (applyAll apply s ws).policies, p.scope = scope → ∀ id, p.currentRevisionId = some id →
      ∃ r ∈ (applyAll apply s ws).revisions, r.id = id) ∧
        (applyAll apply s ws).enabledRevisions scope = s.enabledRevisions scope from hboth.2
  refine applyAll_induction apply (p := fun db : Db δ =>
    (∀ p ∈ db.policies, p.scope = scope → ∀ id, p.currentRevisionId = some id → ∃ r ∈ db.revisions, r.id = id) ∧
      db.enabledRevisions scope = s.enabledRevisions scope) ?_ ⟨fun p hp _ => hs p hp, rfl⟩
  intro w hw db ih
  obtain ⟨hcur, heq⟩ := ih
  cases w
  case policy p =>
    refine ⟨fun q hq hscope id hid => ?_, ?_⟩
    · obtain hq | rfl := mem_append_singleton.mp hq
      · exact hcur q hq hscope id hid
      · rw [hnew _ hw] at hid
        cases hid
    · rw [← heq]
      simp [Db.enabledRevisions, apply, hnew _ hw]
  case rename policyId name =>
    refine ⟨forall_mem_updateWhere hcur fun q hq _ => hcur q hq, ?_⟩
    rw [← heq]
    simp only [Db.enabledRevisions, apply, updateWhere, filterMap_map]
    congr 1
    funext p
    simp only [Function.comp_apply]
    split <;> rfl
  case revision r =>
    refine ⟨fun q hq hscope id hid => ?_, ?_⟩
    · obtain ⟨r', hr', hid'⟩ := hcur q hq hscope id hid
      exact ⟨r', mem_append_left _ hr', hid'⟩
    rw [← heq]
    apply filterMap_congr
    intro p hp
    split
    next hscope =>
      cases hid : p.currentRevisionId with
      | none => rfl
      | some id => simp only [apply, Option.bind_some, get?_append_of_mem (hcur p hp hscope id hid)]
    next => rfl
  case currentRevision scope' policyId revisionId =>
    have hne : scope' ≠ scope := by
      intro he
      subst he
      exact h policyId revisionId hw
    have hother : ∀ p : Policy, p.scope = scope → ¬ (p.scope = scope' && p.id = policyId) := by
      intro p hscope hc
      rw [Bool.and_eq_true] at hc
      exact hne ((of_decide_eq_true hc.1).symm.trans hscope)
    refine ⟨forall_mem_updateWhere hcur fun q _ hc hscope => absurd hc (hother q hscope), ?_⟩
    rw [← heq]
    simp only [Db.enabledRevisions, apply, updateWhere, filterMap_map]
    congr 1
    funext p
    simp only [Function.comp_apply]
    by_cases hscope : p.scope = scope
    · rw [if_neg (hother p hscope)]
    · split <;> rfl
  all_goals exact ⟨hcur, heq⟩

end Okoscope.Server.PolicyInvariants
