import Mathlib.Data.Finset.Card
import Mathlib.Data.Finset.Sort
import Mathlib.Data.List.Sort
import Mathlib.Data.Prod.Lex
import Okoscope.Lib.Bytes
import Okoscope.Lib.Text

/-!
# Policy evaluation

Managed policies say where a behaviour is expected. Of the policies that apply
to a placement the most specific ones decide: if they agree, their effect is the
verdict, and if they do not, the verdict is a conflict. Ids are numbers in the
order of the identifiers they stand for.
-/
namespace Okoscope.Server.Policy

open Lib Lib.Bytes List

def policyEvaluatorVersion : Nat := 1
def maxPolicyExplanationRevisions : Nat := 10

/-! ## Placements -/

structure Placement where
  clusterId : Nat
  «namespace» : String
  workloadKind : String
  workloadName : String
  deriving DecidableEq

/-- Where a policy applies; an empty dimension leaves it open. -/
structure PlacementMatcher where
  clusterIds : Finset Nat
  namespaces : Finset String
  workloadKinds : Finset String
  workloadNames : Finset String
  deriving DecidableEq

/-- How many dimensions a matcher constrains, and which; compared in this order. -/
structure Specificity where
  constrainedDimensions : Nat
  workloadName : Nat
  workloadKind : Nat
  «namespace» : Nat
  cluster : Nat
  deriving DecidableEq

namespace Specificity

def key (s : Specificity) : Nat ×ₗ Nat ×ₗ Nat ×ₗ Nat ×ₗ Nat :=
  toLex (s.constrainedDimensions, toLex (s.workloadName, toLex (s.workloadKind, toLex (s.namespace, s.cluster))))

theorem key_injective : Function.Injective key := by
  intro a b h
  cases a
  cases b
  simpa [key] using h

instance : LinearOrder Specificity := LinearOrder.lift' key key_injective

end Specificity

namespace PlacementMatcher

def unconstrained : PlacementMatcher := ⟨∅, ∅, ∅, ∅⟩

def «matches» (m : PlacementMatcher) (p : Placement) : Bool :=
  (m.clusterIds = ∅ || p.clusterId ∈ m.clusterIds) && (m.namespaces = ∅ || p.namespace ∈ m.namespaces) &&
    (m.workloadKinds = ∅ || p.workloadKind ∈ m.workloadKinds) &&
    (m.workloadNames = ∅ || p.workloadName ∈ m.workloadNames)

def flag (b : Bool) : Nat := if b then 1 else 0

def specificity (m : PlacementMatcher) : Specificity :=
  let cluster := flag (m.clusterIds ≠ ∅)
  let namespaceFlag := flag (m.namespaces ≠ ∅)
  let workloadKind := flag (m.workloadKinds ≠ ∅)
  let workloadName := flag (m.workloadNames ≠ ∅)
  { constrainedDimensions := cluster + namespaceFlag + workloadKind + workloadName
    workloadName
    workloadKind
    «namespace» := namespaceFlag
    cluster }

def maxValues : Nat := 50
def maxValueBytes : Nat := 253

def validValue (value : String) : Bool := Text.trim value ≠ "" && Text.len (Text.trim value) ≤ maxValueBytes

/-- Trims the values of a dimension; the error names the dimension. -/
def normalizeValues (values : Finset String) (field : String) : Except String (Finset String) :=
  if ∀ v ∈ values, validValue v then .ok (values.image Text.trim) else .error field

def normalize (m : PlacementMatcher) : Except String PlacementMatcher :=
  if maxValues < m.clusterIds.card ∨ maxValues < m.namespaces.card ∨ maxValues < m.workloadKinds.card ∨
      maxValues < m.workloadNames.card then
    .error "each placement dimension must contain at most 50 values"
  else do
    let namespaces ← normalizeValues m.namespaces "namespace"
    let workloadKinds ← normalizeValues m.workloadKinds "workload_kind"
    let workloadNames ← normalizeValues m.workloadNames "workload_name"
    return { m with namespaces, workloadKinds, workloadNames }

end PlacementMatcher

/-! ## Evaluation -/

inductive PolicyEffect where
  | expected
  | requiresReview
  deriving DecidableEq

inductive PolicyVerdict where
  | unclassified
  | expected
  | requiresReview
  | policyConflict
  deriving DecidableEq

inductive EvaluationReason where
  | noMatchingPolicy
  | insidePlacement
  | outsidePlacement
  | equalSpecificityConflict
  deriving DecidableEq

structure PolicyCandidate where
  revisionId : Nat
  placement : PlacementMatcher
  insideEffect : PolicyEffect
  outsideEffect : Option PolicyEffect

structure PolicyScope where
  organizationId : Nat
  projectId : Nat
  applicationId : Nat
  deriving DecidableEq

/-- What a behaviour is known by in its application. -/
structure BehaviorKey where
  identityVersion : Nat
  identityDigest : ByteVec 32
  deriving DecidableEq

structure ScopedPolicyCandidate where
  scope : PolicyScope
  behavior : BehaviorKey
  candidate : PolicyCandidate

structure EvaluationInput where
  scope : PolicyScope
  behavior : BehaviorKey
  placement : Placement

structure Evaluation where
  verdict : PolicyVerdict
  reason : EvaluationReason
  specificity : Option Specificity
  winningRevisionId : Option Nat
  relatedRevisionIds : List Nat
  deriving DecidableEq

/-- A candidate that has an effect at a placement. -/
structure Applicable where
  specificity : Specificity
  revisionId : Nat
  effect : PolicyEffect
  inside : Bool
  deriving DecidableEq

def applicable? (placement : Placement) (c : PolicyCandidate) : Option Applicable :=
  let inside := c.placement.matches placement
  (if inside then some c.insideEffect else c.outsideEffect).map fun effect =>
    ⟨c.placement.specificity, c.revisionId, effect, inside⟩

/-- The entries of the greatest specificity, by revision. -/
def mostSpecific (best : Specificity) (entries : List Applicable) : List Applicable :=
  (entries.filter (·.specificity = best)).insertionSort fun a b => a.revisionId ≤ b.revisionId

def verdictOf : PolicyEffect → PolicyVerdict
  | .expected => .expected
  | .requiresReview => .requiresReview

open Applicable

def relatedRevisionIds (chosen : List Applicable) : List Nat :=
  (chosen.take maxPolicyExplanationRevisions).map revisionId

def unclassified : Evaluation where
  verdict := .unclassified
  reason := .noMatchingPolicy
  specificity := none
  winningRevisionId := none
  relatedRevisionIds := []

/-- What the most specific entries say. -/
def decideAmong (best : Specificity) : List Applicable → Evaluation
  -- some entry has the greatest specificity, so the list is not empty
  | [] => unclassified
  | first :: rest =>
    if (first :: rest).any (·.effect ≠ first.effect) then
      { verdict := .policyConflict
        reason := .equalSpecificityConflict
        specificity := some best
        winningRevisionId := none
        relatedRevisionIds := relatedRevisionIds (first :: rest) }
    else
      { verdict := verdictOf first.effect
        reason := if (first :: rest).all (·.inside) then .insidePlacement else .outsidePlacement
        specificity := some best
        winningRevisionId := if rest = [] then some first.revisionId else none
        relatedRevisionIds := relatedRevisionIds (first :: rest) }

def evaluate (placement : Placement) (candidates : List PolicyCandidate) : Evaluation :=
  let entries := candidates.filterMap (applicable? placement)
  match (entries.map specificity).max? with
  | none => unclassified
  | some best => decideAmong best (mostSpecific best entries)

def EvaluationInput.concerns (input : EvaluationInput) (c : ScopedPolicyCandidate) : Bool :=
  c.scope = input.scope && c.behavior = input.behavior

def evaluateScoped (input : EvaluationInput) (candidates : List ScopedPolicyCandidate) : Evaluation :=
  evaluate input.placement ((candidates.filter input.concerns).map ScopedPolicyCandidate.candidate)

/-! ## The order of the candidates does not matter -/

theorem max?_perm {l l' : List Specificity} (h : l.Perm l') : l.max? = l'.max? := by
  cases hm : l.max? with
  | none =>
    rw [max?_eq_none_iff] at hm
    subst hm
    rw [h.symm.eq_nil]
    rfl
  | some =>
    obtain ⟨hmem, hle⟩ := max?_eq_some_iff.mp hm
    symm
    exact max?_eq_some_iff.mpr ⟨h.mem_iff.mp hmem, fun b hb => hle b (h.mem_iff.mpr hb)⟩

variable {best : Specificity}

theorem pairwise_mostSpecific {l : List Applicable} : ((mostSpecific best l).map revisionId).Pairwise (· ≤ ·) := by
  rw [pairwise_map]
  exact pairwise_insertionSort _ _

variable {chosen : List Applicable}

theorem relatedRevisionIds_eq :
    relatedRevisionIds chosen = (chosen.map revisionId).take maxPolicyExplanationRevisions :=
  map_take

/-- Entries conflict exactly if two of them differ, whichever comes first. -/
theorem any_effect_ne_iff (a : Applicable) (as : List Applicable) : (a :: as).any (·.effect ≠ a.effect) ↔
    ∃ x ∈ a :: as, ∃ y ∈ a :: as, x.effect ≠ y.effect := by
  rw [any_eq_true]
  constructor
  · intro hx
    obtain ⟨x, hx, hne⟩ := hx
    exact ⟨x, hx, a, mem_cons_self, of_decide_eq_true hne⟩
  intro hxy
  obtain ⟨x, hx, y, hy, hne⟩ := hxy
  by_cases hxa : x.effect = a.effect
  · exact ⟨y, hy, decide_eq_true fun hya => hne (hxa.trans hya.symm)⟩
  · exact ⟨x, hx, decide_eq_true hxa⟩

/-- Entries that agree as a set and have the same revisions in order decide alike. -/
theorem decideAmong_perm {l l' : List Applicable} (h : l.Perm l')
    (hids : l.map revisionId = l'.map revisionId) : decideAmong best l = decideAmong best l' := by
  cases l with
  | nil => rw [h.symm.eq_nil]
  | cons first rest =>
    cases l' with
    | nil => cases h.eq_nil
    | cons first' rest' =>
      have hlength : rest = [] ↔ rest' = [] := by
        have := h.length_eq
        simp only [length_cons, Nat.add_right_cancel_iff] at this
        rw [← length_eq_zero_iff, ← length_eq_zero_iff, this]
      have hfirst : first.revisionId = first'.revisionId := (List.cons.inj hids).1
      have hinside : (first :: rest).all (·.inside) = (first' :: rest').all (·.inside) := h.all_eq
      have hsame : (first :: rest).any (·.effect ≠ first.effect) = (first' :: rest').any (·.effect ≠ first'.effect) := by
        rw [Bool.eq_iff_iff, any_effect_ne_iff, any_effect_ne_iff]
        simp [h.mem_iff]
      simp only [decideAmong]
      rw [hsame, relatedRevisionIds_eq, relatedRevisionIds_eq, hids, hinside, hfirst]
      split
      · rfl
      next hno =>
        have heffect : first.effect = first'.effect := by
          by_contra hne
          rw [← hsame, any_effect_ne_iff] at hno
          exact hno ⟨first, mem_cons_self, first', h.mem_iff.mpr mem_cons_self, hne⟩
        simp [heffect, hlength]

theorem evaluate_perm {placement : Placement} {l l' : List PolicyCandidate} (h : l.Perm l') :
    evaluate placement l = evaluate placement l' := by
  have hentries := h.filterMap (applicable? placement)
  simp only [evaluate, max?_perm (hentries.map specificity)]
  split
  · rfl
  next =>
    have hperm : ∀ best, (mostSpecific best (l.filterMap (applicable? placement))).Perm
        (mostSpecific best (l'.filterMap (applicable? placement))) :=
      fun _ => (perm_insertionSort _ _).trans ((hentries.filter _).trans (perm_insertionSort _ _).symm)
    apply decideAmong_perm
    · exact hperm _
    · exact List.Perm.eq_of_pairwise (fun a b _ _ hab hba => Nat.le_antisymm hab hba) pairwise_mostSpecific
        pairwise_mostSpecific ((hperm _).map _)

/-! ## The most specific candidates decide -/

/-- The applicable candidates that none is more specific than. -/
def strongest (placement : Placement) (candidates : List PolicyCandidate) : Finset Applicable :=
  let entries := candidates.filterMap (applicable? placement)
  entries.toFinset.filter fun a => ∀ b ∈ entries, b.specificity ≤ a.specificity

section
variable {placement : Placement} {l l' : List PolicyCandidate}

theorem filterMap_applicable_sublist :
    ((l.filterMap (applicable? placement)).map revisionId).Sublist (l.map PolicyCandidate.revisionId) := by
  induction l with
  | nil => exact .refl _
  | cons c _ ih =>
    cases hc : applicable? placement c with
    | none =>
      rw [filterMap_cons_none hc]
      exact ih.cons _
    | some =>
      obtain ⟨_, -, rfl⟩ := Option.map_eq_some_iff.mp hc
      rw [filterMap_cons_some hc]
      exact ih.cons_cons _

/-- The entry of a candidate at a placement: with its inside effect where its own placement matches, and elsewhere
with its outside effect, if it has one. -/
def AppliesAs (placement : Placement) (c : PolicyCandidate) (a : Applicable) : Prop :=
  a.revisionId = c.revisionId ∧ a.specificity = c.placement.specificity ∧
    if c.placement.matches placement then a.inside ∧ a.effect = c.insideEffect
    else a.inside = false ∧ c.outsideEffect = some a.effect

theorem applicable?_eq_some {c : PolicyCandidate} {a : Applicable} :
    applicable? placement c = some a ↔ AppliesAs placement c a := by
  obtain ⟨_, _, _, _⟩ := a
  by_cases hin : c.placement.matches placement <;> simp [AppliesAs, applicable?, hin] <;> grind

theorem mem_strongest {a : Applicable} : a ∈ strongest placement l ↔ (∃ c ∈ l, AppliesAs placement c a) ∧
    ∀ c ∈ l, ∀ b, AppliesAs placement c b → b.specificity ≤ a.specificity := by
  simp only [strongest, Finset.mem_filter, mem_toFinset, mem_filterMap, applicable?_eq_some, forall_exists_index, and_imp]
  exact and_congr_right fun _ => ⟨fun h c hc b hb => h b c hc hb, fun h b c hc hb => h c hc b hb⟩

/-- Either no candidate applies, or the entries that decide are the strongest ones, by revision. -/
theorem evaluate_cases (hids : (l.map PolicyCandidate.revisionId).Nodup) :
    (strongest placement l = ∅ ∧ evaluate placement l = unclassified) ∨
      ∃ best chosen, chosen ≠ [] ∧ chosen.toFinset = strongest placement l ∧
        (chosen.map revisionId).Pairwise (· < ·) ∧ (∀ a ∈ chosen, a.specificity = best) ∧
        evaluate placement l = decideAmong best chosen := by
  generalize hentries : l.filterMap (applicable? placement) = entries
  have hnodup : (entries.map revisionId).Nodup := by
    refine List.Nodup.sublist ?_ hids
    rw [← hentries]
    exact filterMap_applicable_sublist
  simp only [strongest, evaluate, hentries]
  cases hmax : (entries.map specificity).max? with
  | none =>
    left
    rw [max?_eq_none_iff, map_eq_nil_iff] at hmax
    subst hmax
    exact ⟨rfl, rfl⟩
  | some =>
    right
    obtain ⟨hmem, hle⟩ := max?_eq_some_iff.mp hmax
    obtain ⟨top, htop, rfl⟩ := mem_map.mp hmem
    have hle' : ∀ b ∈ entries, b.specificity ≤ top.specificity := fun b hb => hle _ (mem_map_of_mem hb)
    have hperm := perm_insertionSort (fun a b : Applicable => a.revisionId ≤ b.revisionId)
      (entries.filter (·.specificity = top.specificity))
    refine ⟨top.specificity, mostSpecific top.specificity entries, ?_, ?_, ?_, ?_, rfl⟩
    · refine ne_nil_of_mem (hperm.mem_iff.mpr (mem_filter.mpr ⟨htop, decide_eq_true rfl⟩))
    · ext a
      rw [mostSpecific, mem_toFinset, hperm.mem_iff, mem_filter, Finset.mem_filter, mem_toFinset, decide_eq_true_eq]
      constructor
      · rintro ⟨ha, hspecificity⟩
        exact ⟨ha, fun b hb => hspecificity ▸ hle' b hb⟩
      · rintro ⟨ha, hgreatest⟩
        exact ⟨ha, le_antisymm (hle' a ha) (hgreatest top htop)⟩
    · have hchosen : ((mostSpecific top.specificity entries).map revisionId).Nodup := by
        rw [mostSpecific, (hperm.map _).nodup_iff]
        exact hnodup.sublist (filter_sublist.map _)
      exact (pairwise_mostSpecific.and hchosen).imp fun h => lt_of_le_of_ne h.1 h.2
    · intro a ha
      exact of_decide_eq_true (mem_filter.mp (hperm.mem_iff.mp ha)).2

/-- What decides is one of the effects that are there. -/
theorem verdict_decideAmong (hne : chosen ≠ []) :
    (decideAmong best chosen).verdict = .policyConflict ∧ (∃ x ∈ chosen, ∃ y ∈ chosen, x.effect ≠ y.effect) ∨
      ∃ effect, (decideAmong best chosen).verdict = verdictOf effect ∧ ∀ x ∈ chosen, x.effect = effect := by
  cases chosen with
  | nil => exact absurd rfl hne
  | cons first rest =>
    have hconflict := any_effect_ne_iff first rest
    rw [decideAmong]
    split
    next h => exact .inl ⟨rfl, hconflict.mp h⟩
    next h =>
      refine .inr ⟨first.effect, rfl, fun x hx => ?_⟩
      by_contra hx'
      exact h (hconflict.mpr ⟨x, hx, first, mem_cons_self, hx'⟩)

theorem winningRevisionId_decideAmong {id : Nat} :
    (decideAmong best chosen).winningRevisionId = some id ↔ ∃ a, chosen = [a] ∧ a.revisionId = id := by
  cases chosen with
  | nil => simp [decideAmong, unclassified]
  | cons _ rest =>
    rw [decideAmong]
    cases rest with
    | nil => simp
    | cons => split <;> simp

theorem verdictOf_ne {effect : PolicyEffect} :
    verdictOf effect ≠ .unclassified ∧ verdictOf effect ≠ .policyConflict := by
  cases effect <;> decide

theorem relatedRevisionIds_decideAmong : (decideAmong best chosen).relatedRevisionIds =
      (chosen.map revisionId).take maxPolicyExplanationRevisions := by
  cases chosen with
  | nil => rfl
  | cons =>
    rw [← relatedRevisionIds_eq, decideAmong]
    split <;> rfl

/-- Entries in the order of their revisions are known by their set. -/
theorem perm_of_toFinset_eq {chosen' : List Applicable} (h : (chosen.map revisionId).Pairwise (· < ·))
    (h' : (chosen'.map revisionId).Pairwise (· < ·)) (hset : chosen.toFinset = chosen'.toFinset) :
    chosen.Perm chosen' :=
  perm_of_nodup_nodup_toFinset_eq (List.Nodup.of_map _ (h.imp ne_of_lt)) (List.Nodup.of_map _ (h'.imp ne_of_lt)) hset

theorem evaluate_eq_of_strongest_eq (hids : (l.map PolicyCandidate.revisionId).Nodup)
    (hids' : (l'.map PolicyCandidate.revisionId).Nodup) (h : strongest placement l' = strongest placement l) :
    evaluate placement l' = evaluate placement l := by
  obtain ⟨hnone, he⟩ | ⟨best, _, hne, hset, hsorted, hbest, he⟩ := evaluate_cases hids <;>
    obtain ⟨hnone', he'⟩ | ⟨best', _, hne', hset', hsorted', hbest', he'⟩ := evaluate_cases hids'
  · rw [he, he']
  · rw [h, hnone, toFinset_eq_empty_iff] at hset'
    exact absurd hset' hne'
  · rw [← h, hnone', toFinset_eq_empty_iff] at hset
    exact absurd hset hne
  have hperm := perm_of_toFinset_eq hsorted' hsorted (hset'.trans (h.trans hset.symm))
  obtain ⟨a, ha⟩ := exists_mem_of_ne_nil _ hne
  have hsame : best' = best := (hbest' a (hperm.mem_iff.mpr ha)).symm.trans (hbest a ha)
  rw [he, he', hsame]
  refine decideAmong_perm hperm (List.Perm.eq_of_pairwise (fun a b _ _ hab hba => ?_) hsorted' hsorted (hperm.map _))
  omega

/-- Of candidates with revisions of their own, in whatever order they come, the strongest ones alone decide (those
that apply and that none that applies is more specific than), and candidates of other scopes or behaviours do not
count. -/
theorem most_specific_wins (placement : Placement) (hids : (l.map PolicyCandidate.revisionId).Nodup) :
    (∀ a, a ∈ strongest placement l ↔ (∃ c ∈ l, AppliesAs placement c a) ∧
      ∀ c ∈ l, ∀ b, AppliesAs placement c b → b.specificity ≤ a.specificity) ∧
    (∀ l', l.Perm l' → evaluate placement l' = evaluate placement l) ∧
    (∀ l', (l'.map PolicyCandidate.revisionId).Nodup → strongest placement l' = strongest placement l →
      evaluate placement l' = evaluate placement l) ∧
    ((evaluate placement l).verdict = .unclassified ↔ strongest placement l = ∅) ∧
    ((evaluate placement l).verdict = .policyConflict ↔
      ∃ x ∈ strongest placement l, ∃ y ∈ strongest placement l, x.effect ≠ y.effect) ∧
    (∀ x ∈ strongest placement l, (∀ y ∈ strongest placement l, y.effect = x.effect) →
      (evaluate placement l).verdict = verdictOf x.effect) ∧ (∀ id, (evaluate placement l).winningRevisionId = some id ↔
      ∃ x, strongest placement l = {x} ∧ x.revisionId = id) ∧ (evaluate placement l).relatedRevisionIds =
      (((strongest placement l).image revisionId).sort (· ≤ ·)).take maxPolicyExplanationRevisions ∧
    ∀ (input : EvaluationInput) (cs cs' : List ScopedPolicyCandidate),
      cs.filter (fun c => c.scope = input.scope && c.behavior = input.behavior) =
        cs'.filter (fun c => c.scope = input.scope && c.behavior = input.behavior) →
      evaluateScoped input cs' = evaluateScoped input cs := by
  refine ⟨fun a => mem_strongest, fun l' h => (evaluate_perm h).symm,
    fun l' hids' h => evaluate_eq_of_strongest_eq hids hids' h, ?_⟩
  have hscoped : ∀ (input : EvaluationInput) (cs cs' : List ScopedPolicyCandidate),
      cs.filter (fun c => c.scope = input.scope && c.behavior = input.behavior) =
        cs'.filter (fun c => c.scope = input.scope && c.behavior = input.behavior) →
      evaluateScoped input cs' = evaluateScoped input cs := by
    intro input cs cs' h
    have hconcerned : cs.filter input.concerns = cs'.filter input.concerns := h
    rw [evaluateScoped, evaluateScoped, hconcerned]
  obtain ⟨hnone, he⟩ | ⟨_, chosen, hne, hset, hsorted, -, he⟩ := evaluate_cases hids
  · rw [he, hnone]
    exact ⟨by simp [unclassified], by simp [unclassified], by simp, by simp [unclassified], by simp [unclassified], hscoped⟩
  have hmem : ∀ x, x ∈ strongest placement l ↔ x ∈ chosen := fun x => by rw [← hset, mem_toFinset]
  simp only [he, hmem]
  refine ⟨?_, ?_, ?_, fun id => ?_, ?_, hscoped⟩
  · rw [← hset, toFinset_eq_empty_iff]
    refine iff_of_false ?_ hne
    obtain ⟨hconflict, -⟩ | ⟨_, hverdict, -⟩ := verdict_decideAmong hne
    · rw [hconflict]
      decide
    · rw [hverdict]
      exact verdictOf_ne.1
  · obtain ⟨hconflict, hdiffer⟩ | ⟨_, hverdict, hall⟩ := verdict_decideAmong hne
    · exact iff_of_true hconflict hdiffer
    · rw [hverdict]
      refine iff_of_false verdictOf_ne.2 ?_
      rintro ⟨x, hx, y, hy, hxy⟩
      exact hxy ((hall x hx).trans (hall y hy).symm)
  · intro x hx hall
    obtain ⟨-, y, hy, z, hz, hyz⟩ | ⟨_, hverdict, hall'⟩ := verdict_decideAmong hne
    · exact absurd ((hall y hy).trans (hall z hz).symm) hyz
    · rw [hverdict, hall' x hx]
  · rw [winningRevisionId_decideAmong]
    refine exists_congr fun x => and_congr_left fun _ => ?_
    rw [← hset]
    constructor
    · rintro rfl
      rfl
    · intro hsingle
      exact perm_singleton.mp (perm_of_toFinset_eq hsorted (pairwise_singleton _ _) hsingle)
  · have hids : (strongest placement l).image revisionId = (chosen.map revisionId).toFinset := by
      ext id
      simp [hmem]
    rw [relatedRevisionIds_decideAmong, hids, (toFinset_sort _ (hsorted.imp ne_of_lt)).mpr (hsorted.imp le_of_lt)]

end

/-- A policy for one namespace wins over one for all places. -/
theorem most_specific_wins_shop : (evaluate ⟨1, "shop", "Deployment", "payment-api"⟩
      [⟨1, .unconstrained, .requiresReview, none⟩, ⟨2, ⟨∅, {"shop"}, ∅, ∅⟩, .expected, none⟩]).winningRevisionId = some 2 :=
  ((most_specific_wins _ (by decide)).2.2.2.2.2.2.1 2).mpr ⟨⟨⟨1, 0, 0, 1, 0⟩, 2, .expected, true⟩, by decide, rfl⟩

end Okoscope.Server.Policy
