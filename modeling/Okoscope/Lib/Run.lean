import Okoscope.Lib.Outcome

/-!
# Runs of a machine

A machine answers one call at a time and may fail; a run performs calls in
order and stops at the first failure. An invariant that every admissible call
establishes again, without failing, holds after every admissible run. A machine
that never fails leaves a history of calls and answers, and its invariants may
speak of that history.
-/
namespace Okoscope.Lib.Run

open Outcome List

variable {ε σ α β : Type}

/-- Performs the calls in order and collects the answers. -/
def run (step : σ → α → Except ε (β × σ)) : σ → List α → Except ε (List β × σ)
  | s, [] => .ok ([], s)
  | s, a :: as =>
    match step s a with
    | .error e => .error e
    | .ok (b, s') =>
      match run step s' as with
      | .error e => .error e
      | .ok (bs, s'') => .ok (b :: bs, s'')

variable {as : List α}

section
variable {step : σ → α → Except ε (β × σ)}

theorem run_cons_eq_ok {s t : σ} {a : α} {bs : List β} : run step s (a :: as) = .ok (bs, t) ↔
      ∃ b s' rest, step s a = .ok (b, s') ∧ run step s' as = .ok (rest, t) ∧ bs = b :: rest := by
  rw [run]
  constructor
  · intro h
    split at h
    · cases h
    next b s' hs =>
    split at h
    · cases h
    · next rest _ hr =>
      cases h
      exact ⟨b, s', rest, hs, hr, rfl⟩
  · rintro ⟨b, s', rest, hs, hr, rfl⟩
    simp [hs, hr]

/-- What every successful admissible call preserves, every successful run preserves. -/
theorem run_preserves (inv : σ → Prop) (admissible : α → Prop)
    (hstep : ∀ s a b s', inv s → admissible a → step s a = .ok (b, s') → inv s') {s t : σ} (hs : inv s)
    (has : ∀ a ∈ as, admissible a) {bs : List β} (h : run step s as = .ok (bs, t)) : inv t := by
  induction as generalizing s bs with
  | nil =>
    cases h
    exact hs
  | cons a _ ih =>
    obtain ⟨b, s', _, hb, hr, -⟩ := run_cons_eq_ok.mp h
    exact ih (hstep s a b s' hs (has a mem_cons_self) hb) (fun a' h => has a' (mem_cons_of_mem _ h)) hr

theorem run_append_eq_ok {s t : σ} {as' : List α} {bs : List β} : run step s (as ++ as') = .ok (bs, t) ↔
      ∃ first u rest, run step s as = .ok (first, u) ∧ run step u as' = .ok (rest, t) ∧ bs = first ++ rest := by
  induction as generalizing s bs with
  | nil =>
    constructor
    · intro h
      exact ⟨[], s, bs, rfl, h, rfl⟩
    intro h
    obtain ⟨_, _, _, hfirst, hrest, rfl⟩ := h
    cases hfirst
    exact hrest
  | cons _ _ ih =>
    simp only [cons_append, run_cons_eq_ok, ih]
    constructor
    · intro h
      obtain ⟨b, s', _, hb, ⟨first, u, rest, hf, hr, rfl⟩, rfl⟩ := h
      exact ⟨b :: first, u, rest, ⟨b, s', first, hb, hf, rfl⟩, hr, rfl⟩
    · intro h
      obtain ⟨_, u, rest, ⟨b, s', first, hb, hf, rfl⟩, hr, rfl⟩ := h
      exact ⟨b, s', first ++ rest, hb, ⟨first, u, rest, hf, hr, rfl⟩, rfl⟩

/-- The invariant rule for what speaks of the calls made so far. -/
theorem run_history (inv : List α → σ → Prop)
    (hstep : ∀ h s a b s', inv h s → step s a = .ok (b, s') → inv (h ++ [a]) s') {s t : σ} (hs : inv [] s)
    {bs : List β} (h : run step s as = .ok (bs, t)) : inv as t := by
  -- the induction is on the calls left, so those already made have to be general
  have hrest : ∀ done s bs, inv done s → run step s as = .ok (bs, t) → inv (done ++ as) t := by
    clear hs h s bs
    induction as with
    | nil =>
      intro done s bs hs h
      cases h
      rw [append_nil]
      exact hs
    | cons a _ ih =>
      intro done s bs hs h
      obtain ⟨b, s', rest, hb, hr, -⟩ := run_cons_eq_ok.mp h
      have hnext := ih (done ++ [a]) s' rest (hstep done s a b s' hs hb) hr
      rwa [append_assoc, singleton_append] at hnext
  exact hrest [] s bs hs h

/-- The invariant rule: admissible calls that succeed and keep the invariant do so
in every run. -/
theorem run_invariant {inv : σ → Prop} {admissible : α → Prop}
    (hstep : ∀ s a, inv s → admissible a → ∃ b s', step s a = .ok (b, s') ∧ inv s') {s : σ} (hs : inv s)
    (has : ∀ a ∈ as, admissible a) : ∃ bs t, run step s as = .ok (bs, t) ∧ inv t := by
  induction as generalizing s with
  | nil => exact ⟨[], s, rfl, hs⟩
  | cons a _ ih =>
    obtain ⟨b, s', hb, hs'⟩ := hstep s a hs (has a mem_cons_self)
    obtain ⟨bs, t, hr, ht⟩ := ih hs' fun a' h => has a' (mem_cons_of_mem _ h)
    exact ⟨b :: bs, t, run_cons_eq_ok.mpr ⟨b, s', bs, hb, hr, rfl⟩, ht⟩

end

/-- A machine that takes a call exactly when the call fits the state, and for which every
call taken rules out the calls it is not compatible with, performs a list of calls exactly
when each of them fits the first state and any two of them are compatible. -/
theorem foldlM_ok_iff_pairwise {step : σ → α → Except ε σ} {inv : σ → Prop} {fits : σ → α → Prop}
    {compatible : α → α → Prop} {admissible : α → Prop}
    (hstep : ∀ s a, inv s → admissible a → ((∃ t, step s a = .ok t) ↔ fits s a))
    (hnext : ∀ s a t, inv s → admissible a → step s a = .ok t → inv t ∧ ∀ b, fits t b ↔ fits s b ∧ compatible a b)
    {s : σ} (hs : inv s) (as : List α) (has : ∀ a ∈ as, admissible a) :
    (∃ t, as.foldlM step s = .ok t) ↔ (∀ a ∈ as, fits s a) ∧ as.Pairwise compatible := by
  induction as generalizing s with
  | nil => simp [pure, Except.pure]
  | cons a _ ih =>
    obtain ⟨ha, has⟩ := forall_mem_cons.mp has
    rw [foldlM_cons, forall_mem_cons, pairwise_cons]
    constructor
    · rintro ⟨t, ht⟩
      obtain ⟨s', hs', ht⟩ := bind_eq_ok.mp ht
      obtain ⟨hinv, hfits⟩ := hnext s a s' hs ha hs'
      obtain ⟨hrest, hpairs⟩ := (ih hinv has).mp ⟨t, ht⟩
      refine ⟨⟨(hstep s a hs ha).mp ⟨s', hs'⟩, fun b hb => ?_⟩, fun b hb => ?_, hpairs⟩
      · exact ((hfits b).mp (hrest b hb)).1
      · exact ((hfits b).mp (hrest b hb)).2
    · rintro ⟨⟨hfirst, hrest⟩, hcompatible, hpairs⟩
      obtain ⟨s', hs'⟩ := (hstep s a hs ha).mpr hfirst
      obtain ⟨hinv, hfits⟩ := hnext s a s' hs ha hs'
      obtain ⟨t, ht⟩ := (ih hinv has).mpr ⟨fun b hb => (hfits b).mpr ⟨hrest b hb, hcompatible b hb⟩, hpairs⟩
      exact ⟨t, bind_eq_ok.mpr ⟨s', hs', ht⟩⟩

/-- The history of a machine that never fails, and the state it ends in. -/
def trace (step : σ → α → β × σ) : σ → List α → List (α × β) × σ
  | s, [] => ([], s)
  | s, a :: as =>
    ((a, (step s a).1) :: (trace step (step s a).2 as).1, (trace step (step s a).2 as).2)

variable {admissible : σ → α → Prop}

section
variable {step : σ → α → β × σ}

theorem map_fst_trace {s : σ} : (trace step s as).1.map Prod.fst = as := by
  induction as generalizing s with
  | nil => rfl
  | cons _ _ ih => rw [trace, map_cons, ih]

/-- Every entry of a history is what its call gives in the state that the calls before it lead to. -/
theorem mem_trace {s : σ} {entry : α × β} (h : entry ∈ (trace step s as).1) :
    ∃ before after, as = before ++ entry.1 :: after ∧ entry.2 = (step (trace step s before).2 entry.1).1 := by
  induction as generalizing s with
  | nil => cases h
  | cons a as ih =>
    rcases mem_cons.mp h with rfl | h
    · exact ⟨[], as, rfl, rfl⟩
    · obtain ⟨before, after, hsplit, hentry⟩ := ih h
      exact ⟨a :: before, after, by rw [hsplit, cons_append], hentry⟩

/-- Every call of the list is admissible in the state it is made in. -/
def Along (step : σ → α → β × σ) (admissible : σ → α → Prop) : σ → List α → Prop
  | _, [] => True
  | s, a :: as => admissible s a ∧ Along step admissible (step s a).2 as

instance Along.decidable {admissible : σ → α → Prop} [∀ s a, Decidable (admissible s a)] :
    ∀ s as, Decidable (Along step admissible s as)
  | _, [] => inferInstanceAs (Decidable True)
  | s, a :: as =>
    have : Decidable (Along step admissible (step s a).2 as) := Along.decidable (step s a).2 as
    inferInstanceAs (Decidable (_ ∧ _))

/-- The invariant rule for histories of admissible calls. -/
theorem trace_invariant_along (inv : List (α × β) → σ → Prop)
    (hstep : ∀ h s a, inv h s → admissible s a → inv (h ++ [(a, (step s a).1)]) (step s a).2) {s : σ} (hs : inv [] s)
    (has : Along step admissible s as) : inv (trace step s as).1 (trace step s as).2 := by
  -- the induction is on the calls left, so the history already made has to be general
  have hrest : ∀ h s, inv h s → Along step admissible s as → inv (h ++ (trace step s as).1) (trace step s as).2 := by
    clear hs has s
    induction as with
    | nil =>
      intro h s hs _
      simpa [trace] using hs
    | cons a _ ih =>
      intro h s hs has
      have hnext := ih _ _ (hstep h s a hs has.1) has.2
      rwa [append_assoc, singleton_append] at hnext
  exact hrest [] s hs has

theorem along_of_forall {admissible : α → Prop} (h : ∀ a ∈ as, admissible a) (s : σ) :
    Along step (fun _ => admissible) s as := by
  induction as generalizing s with
  | nil => trivial
  | cons _ _ ih =>
    obtain ⟨ha, has⟩ := forall_mem_cons.mp h
    exact ⟨ha, ih has _⟩

theorem Along.mono {admissible' : σ → α → Prop} (h : ∀ s a, admissible s a → admissible' s a) {s : σ}
    (has : Along step admissible s as) : Along step admissible' s as := by
  induction as generalizing s with
  | nil => trivial
  | cons _ _ ih => exact ⟨h _ _ has.1, ih has.2⟩

theorem along_of_always (h : ∀ s a, admissible s a) (s : σ) : Along step admissible s as := by
  induction as generalizing s with
  | nil => trivial
  | cons a _ ih => exact ⟨h s a, ih _⟩

theorem trace_append (s : σ) (as bs : List α) :
    (trace step s (as ++ bs)).2 = (trace step (trace step s as).2 bs).2 := by
  induction as generalizing s with
  | nil => rfl
  | cons _ _ ih =>
    exact ih _

theorem trace_append_fst {s : σ} {bs : List α} :
    (trace step s (as ++ bs)).1 = (trace step s as).1 ++ (trace step (trace step s as).2 bs).1 := by
  induction as generalizing s with
  | nil => rfl
  | cons _ _ ih =>
    rw [cons_append, trace, trace, cons_append, ih]

theorem along_append {s : σ} {bs : List α} :
    Along step admissible s (as ++ bs) ↔ Along step admissible s as ∧ Along step admissible (trace step s as).2 bs := by
  induction as generalizing s with
  | nil => exact ⟨fun h => ⟨trivial, h⟩, fun h => h.2⟩
  | cons _ _ ih =>
    rw [cons_append, Along, Along, ih, and_assoc]
    rfl

/-- The invariant rule for histories. -/
theorem trace_invariant (step : σ → α → β × σ) (inv : List (α × β) → σ → Prop)
    (hstep : ∀ h s a, inv h s → inv (h ++ [(a, (step s a).1)]) (step s a).2)
    {s : σ} (hs : inv [] s) (as : List α) : inv (trace step s as).1 (trace step s as).2 :=
  trace_invariant_along inv (fun h s a hi _ => hstep h s a hi) hs (along_of_always (fun _ _ => trivial) s)

/-- The invariant rule for calls at times that do not go back: what holds at a time holds later, and a call at
that time, or at none, keeps it. -/
theorem trace_clocked {τ : Type} {le : τ → τ → Prop} {clock : α → Option τ} (inv : τ → List (α × β) → σ → Prop)
    {s : σ} (hs : ∀ t, inv t [] s) (hlater : ∀ t t' h s, le t t' → inv t h s → inv t' h s)
    (hstep : ∀ t h s a, inv t h s → (clock a = none ∨ clock a = some t) → admissible s a →
      inv t (h ++ [(a, (step s a).1)]) (step s a).2)
    {t : τ} (hclock : (as.filterMap clock ++ [t]).Pairwise le) (has : Along step admissible s as) :
    inv t (trace step s as).1 (trace step s as).2 := by
  have hall := trace_invariant_along
    (fun h s => ∀ t, ((h.map Prod.fst).filterMap clock ++ [t]).Pairwise le → inv t h s) ?_ (fun t _ => hs t) has
  · exact hall t (by rwa [map_fst_trace])
  intro h s a hinv ha t ht
  rw [map_append, map_singleton, filterMap_append] at ht
  cases hc : clock a with
  | none => exact hstep t h s a (hinv t (by simpa [hc] using ht)) (.inl hc) ha
  | some u =>
    simp only [filterMap_cons, hc, filterMap_nil] at ht
    obtain ⟨hbefore, -, hle⟩ := pairwise_append.mp ht
    refine hlater u t _ _ (hle u (by simp) t (by simp)) (hstep u h s a (hinv u hbefore) (.inr hc) ha)

end

end Okoscope.Lib.Run
