import Okoscope.Lib.Run

/-!
# Commands under idempotency keys

A machine stores the result of a command under the key that came with it,
together with a digest of the command, and answers a command whose key and digest
it finds with the stored result. What a key stands for is the first command that
succeeded under it. Whether the machine answers every command as that command
deserves comes down to one question: whether commands of the same digest under one
key are the same.
-/
namespace Okoscope.Lib.Idempotency

open Run

variable {σ α β ε κ ι δ : Type}

/-- A machine with keys: what a call asks for under which key, what stands under a key, and the form
in which a result is kept there. -/
structure Keyed (σ α β ε κ ι δ : Type) where
  step : σ → α → Except ε β × σ
  keyed : α → Option (κ × ι)
  digest : ι → δ
  row : σ → κ → Option (δ × β)
  again : β → β
  conflict : ε → Prop

/-- The first command that succeeded under a key, and its result. -/
def stored [DecidableEq κ] (keyed : α → Option (κ × ι)) (history : List (α × Except ε β)) (k : κ) : Option (ι × β) :=
  history.findSome? fun x =>
    match keyed x.1, x.2 with
    | some (k', i), .ok b => if k' = k then some (i, b) else none
    | _, _ => none

/-- The machine looks at its rows as it should, in the states it can be in. -/
structure Lawful (m : Keyed σ α β ε κ ι δ) (inv : σ → Prop) : Prop where
  keeps : ∀ s a, inv s → inv (m.step s a).2
  replayed : ∀ s a k i b, inv s → m.keyed a = some (k, i) → m.row s k = some (m.digest i, b) →
    m.step s a = (.ok b, s)
  refused : ∀ s a k i d b, inv s → m.keyed a = some (k, i) → m.row s k = some (d, b) → d ≠ m.digest i →
    ∃ e, m.conflict e ∧ m.step s a = (.error e, s)
  performed : ∀ s a k i, inv s → m.keyed a = some (k, i) → m.row s k = none →
    (∃ e, m.step s a = (.error e, s)) ∨ ∃ b s', m.step s a = (.ok b, s') ∧ m.row s' k = some (m.digest i, m.again b) ∧
      ∀ k', k' ≠ k → m.row s' k' = m.row s k'
  unkeyed : ∀ s a, inv s → m.keyed a = none → ∀ k, m.row (m.step s a).2 k = m.row s k

variable {a : α} {k : κ}

section
variable [DecidableEq κ]

/-- What a command under a key deserves. If the key is new and the command succeeds, it has an
effect. If the key stands for the same command, its result is given again and nothing changes, and if
it stands for another one, the command is refused and nothing changes. -/
def Answered (m : Keyed σ α β ε κ ι δ) (history : List (α × Except ε β)) (s : σ) (a : α) (k : κ) (i : ι) : Prop :=
  match stored m.keyed history k with
  | none => ∀ b, (m.step s a).1 = .ok b → (m.step s a).2 ≠ s
  | some (first, b) =>
    (first = i → m.step s a = (.ok (m.again b), s)) ∧
      (first ≠ i → ∃ e, m.conflict e ∧ m.step s a = (.error e, s))

variable {keyed : α → Option (κ × ι)}

theorem stored_append {history : List (α × Except ε β)} {x : α × Except ε β} :
    stored keyed (history ++ [x]) k = (stored keyed history k).or (stored keyed [x] k) :=
  List.findSome?_append

theorem stored_unkeyed (h : keyed a = none) {r : Except ε β} : stored keyed [(a, r)] k = none := by
  simp [stored, h]

theorem stored_error {e : ε} : stored keyed [(a, (.error e : Except ε β))] k = none := by
  rw [stored, List.findSome?_singleton]
  cases keyed a <;> rfl

theorem stored_ok {k' : κ} {i : ι} (h : keyed a = some (k', i)) {b : β} :
    stored keyed [(a, (.ok b : Except ε β))] k = if k' = k then some (i, b) else none := by
  simp [stored, h]

variable {m : Keyed σ α β ε κ ι δ} {inv : σ → Prop}

section
variable (hm : Lawful m inv) {s : σ} (hs : inv s) (hnew : ∀ k, m.row s k = none)
include hm hs hnew

/-- The rows are those of the commands that the keys stand for. -/
theorem row_trace {calls : List α} : inv (trace m.step s calls).2 ∧ ∀ k, m.row (trace m.step s calls).2 k =
      (stored m.keyed (trace m.step s calls).1 k).map fun p => (m.digest p.1, m.again p.2) := by
  refine trace_invariant m.step (fun h s => inv s ∧ ∀ k, m.row s k =
    (stored m.keyed h k).map fun p => (m.digest p.1, m.again p.2)) ?_ ⟨hs, hnew⟩ calls
  intro h s a ih
  obtain ⟨hs, hrows⟩ := ih
  refine ⟨hm.keeps s a hs, fun k => ?_⟩
  rw [stored_append]
  cases hk : m.keyed a with
  | none => rw [hm.unkeyed s a hs hk, hrows, stored_unkeyed hk, Option.or_none]
  | some p =>
    obtain ⟨k', i⟩ := p
    cases hrow : m.row s k' with
    | some q =>
      -- the key stands for a command already, which stays the first
      obtain ⟨d, b⟩ := q
      have hfirst : ∃ x, stored m.keyed h k' = some x := by
        rw [hrows] at hrow
        obtain ⟨x, hx, -⟩ := Option.map_eq_some_iff.mp hrow
        exact ⟨x, hx⟩
      have hstate : (m.step s a).2 = s ∧ (stored m.keyed h k).or (stored m.keyed [(a, (m.step s a).1)] k) =
          stored m.keyed h k := by
        by_cases hd : d = m.digest i
        · subst hd
          rw [hm.replayed s a k' i b hs hk hrow]
          refine ⟨rfl, ?_⟩
          rw [stored_ok hk]
          by_cases hkk : k' = k
          · obtain ⟨_, hx⟩ := hfirst
            rw [← hkk, hx]
            rfl
          · rw [if_neg hkk, Option.or_none]
        · obtain ⟨_, -, he⟩ := hm.refused s a k' i d b hs hk hrow hd
          rw [he, stored_error, Option.or_none]
          exact ⟨rfl, rfl⟩
      rw [hstate.1, hstate.2, hrows]
    | none =>
      have hnone : stored m.keyed h k' = none := by
        rw [hrows] at hrow
        exact Option.map_eq_none_iff.mp hrow
      obtain ⟨_, he⟩ | ⟨_, _, hb, hnow, hothers⟩ := hm.performed s a k' i hs hk hrow
      · rw [he, stored_error, Option.or_none, hrows]
      rw [hb, stored_ok hk]
      by_cases hkk : k' = k
      · subst hkk
        rw [hnow, hnone, if_pos rfl]
        rfl
      · rw [hothers k (fun h => hkk h.symm), if_neg hkk, Option.or_none, hrows]

/-- After any calls, a command gets what it deserves exactly if its key does not stand for another
command of the same digest. -/
theorem answered_iff (calls : List α) {i : ι} (hk : m.keyed a = some (k, i)) :
    Answered m (trace m.step s calls).1 (trace m.step s calls).2 a k i ↔
      ∀ first b, stored m.keyed (trace m.step s calls).1 k = some (first, b) →
        m.digest first = m.digest i → first = i := by
  obtain ⟨hs', hrows⟩ := row_trace hm hs hnew
  have hrow := hrows k
  rw [Answered]
  cases hstored : stored m.keyed (trace m.step s calls).1 k with
  | none =>
    rw [hstored] at hrow
    refine ⟨fun _ first b h => absurd h (by simp), fun _ b hb heq => ?_⟩
    obtain ⟨_, he⟩ | ⟨_, _, hb', hnow, -⟩ := hm.performed _ a k i hs' hk hrow
    · rw [he] at hb
      cases hb
    -- the key was new, and now it is not
    rw [hb'] at heq
    rw [← heq, hnow] at hrow
    cases hrow
  | some p =>
    obtain ⟨first, b⟩ := p
    rw [hstored, Option.map_some] at hrow
    constructor
    · intro h first' b' he hd
      cases he
      by_contra hne
      obtain ⟨_, -, he⟩ := h.2 hne
      rw [hd] at hrow
      rw [hm.replayed _ a k i (m.again b) hs' hk hrow] at he
      cases he
    · intro h
      constructor
      · intro he
        subst he
        exact hm.replayed _ a k first (m.again b) hs' hk hrow
      · intro hne
        exact hm.refused _ a k i _ (m.again b) hs' hk hrow fun hd => hne (h first b rfl hd)

end

end

/-! ## Two machines side by side -/

section
variable {σ' α' β' ε' κ' ι' δ' : Type}

/-- Either machine takes the calls made to it; their keys have nothing to do with each other. -/
def Keyed.beside (m : Keyed σ α β ε κ ι δ) (m' : Keyed σ' α' β' ε' κ' ι' δ') :
    Keyed (σ × σ') (α ⊕ α') (β ⊕ β') (ε ⊕ ε') (κ ⊕ κ') (ι ⊕ ι') (δ ⊕ δ') where
  step
    | s, .inl a => (((m.step s.1 a).1.mapError .inl).map .inl, (m.step s.1 a).2, s.2)
    | s, .inr a => (((m'.step s.2 a).1.mapError .inr).map .inr, s.1, (m'.step s.2 a).2)
  keyed
    | .inl a => (m.keyed a).map (Prod.map .inl .inl)
    | .inr a => (m'.keyed a).map (Prod.map .inr .inr)
  digest := Sum.map m.digest m'.digest
  row
    | s, .inl k => (m.row s.1 k).map (Prod.map .inl .inl)
    | s, .inr k => (m'.row s.2 k).map (Prod.map .inr .inr)
  again := Sum.map m.again m'.again
  conflict := Sum.elim m.conflict m'.conflict

section
variable {m : Keyed σ α β ε κ ι δ} {m' : Keyed σ' α' β' ε' κ' ι' δ'} {s : σ × σ'}

theorem of_map_eq_some {κ' δ' : Type} {f : κ → κ'} {g : δ → δ'} {o : Option (κ × δ)} {x : κ'} {y : δ'}
    (h : o.map (Prod.map f g) = some (x, y)) : ∃ k d, x = f k ∧ y = g d ∧ o = some (k, d) := by
  obtain ⟨⟨k, d⟩, ho, he⟩ := Option.map_eq_some_iff.mp h
  cases he
  exact ⟨k, d, rfl, rfl, ho⟩

theorem step_inl {r : Except ε β} {t : σ} (h : m.step s.1 a = (r, t)) :
    (m.beside m').step s (.inl a) = ((r.mapError .inl).map .inl, t, s.2) := by
  simp [Keyed.beside, h]

theorem step_inr {a : α'} {r : Except ε' β'} {t : σ'} (h : m'.step s.2 a = (r, t)) :
    (m.beside m').step s (.inr a) = ((r.mapError .inr).map .inr, s.1, t) := by
  simp [Keyed.beside, h]

end

theorem Lawful.beside {m : Keyed σ α β ε κ ι δ} {m' : Keyed σ' α' β' ε' κ' ι' δ'} {inv : σ → Prop} {inv' : σ' → Prop}
    (hm : Lawful m inv) (hm' : Lawful m' inv') : Lawful (m.beside m') fun s => inv s.1 ∧ inv' s.2 where
  keeps := by
    rintro s (a | a) ⟨hs, hs'⟩
    · exact ⟨hm.keeps s.1 a hs, hs'⟩
    · exact ⟨hs, hm'.keeps s.2 a hs'⟩
  replayed := by
    rintro s (a | a) k i b ⟨hs, hs'⟩ hk hrow
    · obtain ⟨k, i, rfl, rfl, hkey⟩ := of_map_eq_some hk
      obtain ⟨_, b, hd, rfl, hr⟩ := of_map_eq_some hrow
      cases hd
      exact step_inl (hm.replayed s.1 a k i b hs hkey hr)
    · obtain ⟨k, i, rfl, rfl, hkey⟩ := of_map_eq_some hk
      obtain ⟨_, b, hd, rfl, hr⟩ := of_map_eq_some hrow
      cases hd
      exact step_inr (hm'.replayed s.2 a k i b hs' hkey hr)
  refused := by
    rintro s (a | a) k i d b ⟨hs, hs'⟩ hk hrow hd
    · obtain ⟨k, i, rfl, rfl, hkey⟩ := of_map_eq_some hk
      obtain ⟨d, b, rfl, rfl, hr⟩ := of_map_eq_some hrow
      obtain ⟨e, hc, he⟩ := hm.refused s.1 a k i d b hs hkey hr fun h => hd (congrArg Sum.inl h)
      exact ⟨.inl e, hc, step_inl he⟩
    · obtain ⟨k, i, rfl, rfl, hkey⟩ := of_map_eq_some hk
      obtain ⟨d, b, rfl, rfl, hr⟩ := of_map_eq_some hrow
      obtain ⟨e, hc, he⟩ := hm'.refused s.2 a k i d b hs' hkey hr fun h => hd (congrArg Sum.inr h)
      exact ⟨.inr e, hc, step_inr he⟩
  performed := by
    rintro s (a | a) k i ⟨hs, hs'⟩ hk hrow
    · obtain ⟨k, i, rfl, rfl, hkey⟩ := of_map_eq_some hk
      obtain ⟨e, he⟩ | ⟨b, t, hb, hnow, hothers⟩ := hm.performed s.1 a k i hs hkey (Option.map_eq_none_iff.mp hrow)
      · exact .inl ⟨.inl e, step_inl he⟩
      refine .inr ⟨.inl b, (t, s.2), step_inl hb, by simp [Keyed.beside, hnow], ?_⟩
      rintro (k' | k') hne
      · simp [Keyed.beside, hothers k' fun h => hne (congrArg Sum.inl h)]
      · rfl
    · obtain ⟨k, i, rfl, rfl, hkey⟩ := of_map_eq_some hk
      obtain ⟨e, he⟩ | ⟨b, t, hb, hnow, hothers⟩ := hm'.performed s.2 a k i hs' hkey (Option.map_eq_none_iff.mp hrow)
      · exact .inl ⟨.inr e, step_inr he⟩
      refine .inr ⟨.inr b, (s.1, t), step_inr hb, by simp [Keyed.beside, hnow], ?_⟩
      rintro (k' | k') hne
      · rfl
      · simp [Keyed.beside, hothers k' fun h => hne (congrArg Sum.inr h)]
  unkeyed := by
    rintro s (a | a) ⟨hs, hs'⟩ hk (k | k)
    · simp [Keyed.beside, hm.unkeyed s.1 a hs (Option.map_eq_none_iff.mp hk)]
    · rfl
    · rfl
    · simp [Keyed.beside, hm'.unkeyed s.2 a hs' (Option.map_eq_none_iff.mp hk)]

end

end Okoscope.Lib.Idempotency
