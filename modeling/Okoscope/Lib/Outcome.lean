import Mathlib.Data.List.Forall2

/-!
# Fallible computations

Rules that take a successful `Except` computation apart: sequencing, guards,
error mapping, optional values and traversals of a list.
-/
namespace Okoscope.Lib.Outcome

open List

variable {ε ε' α β : Type}

/-- The value of an option, or the given error. -/
def okOr (o : Option α) (e : ε) : Except ε α :=
  match o with
  | some a => .ok a
  | none => .error e

variable {a : α} {e : ε} {x : Except ε α}

theorem ite_error_eq_ok {c : Prop} [Decidable c] : (if c then .error e else x) = .ok a ↔ ¬ c ∧ x = .ok a := by
  by_cases hc : c <;> simp [hc]

variable {b : β}

theorem ite_ne_error_eq_ok [DecidableEq β] {a : β} {r : α} :
    (if a ≠ b then .error e else x) = .ok r ↔ a = b ∧ x = .ok r := by
  rw [ite_error_eq_ok, not_not]

/-- A fallible function under an option. -/
def transpose (f : α → Except ε β) : Option α → Except ε (Option β)
  | none => .ok none
  | some a => (f a).map some

variable {f : α → Except ε β}

theorem bind_eq_ok : (x >>= f) = .ok b ↔ ∃ a, x = .ok a ∧ f a = .ok b := by
  cases x with
  | error => simp [bind, Except.bind]
  | ok => simp [bind, Except.bind]

/-- A sequence that fails with an error has a part that does. -/
theorem bind_ne_error (hx : x ≠ .error e) (hf : ∀ a, f a ≠ .error e) : (x >>= f) ≠ .error e := by
  cases x with
  | error =>
    intro h
    cases h
    exact hx rfl
  | ok a => exact hf a

theorem ite_error_ne_error {c : Prop} [Decidable c] {e' : ε} (he : c → e' ≠ e)
    (hx : ¬ c → x ≠ .error e) : (if c then .error e' else x) ≠ .error e := by
  by_cases hc : c
  · rw [if_pos hc]
    intro h
    cases h
    exact he hc rfl
  · rw [if_neg hc]
    exact hx hc

theorem bind_unit_eq_ok {x : Except ε Unit} {f : Unit → Except ε β} :
    (x >>= f) = .ok b ↔ x = .ok () ∧ f () = .ok b := by
  rw [bind_eq_ok]
  constructor
  · rintro ⟨⟨⟩, hx, hf⟩
    exact ⟨hx, hf⟩
  · rintro ⟨hx, hf⟩
    exact ⟨(), hx, hf⟩

theorem exists_bind_ok : (∃ b, (x >>= f) = .ok b) ↔ ∃ a, x = .ok a ∧ ∃ b, f a = .ok b := by
  simp only [bind_eq_ok]
  exact ⟨fun ⟨b, a, ha, hb⟩ => ⟨a, ha, b, hb⟩, fun ⟨a, ha, b, hb⟩ => ⟨b, a, ha, hb⟩⟩

theorem exists_pure_ok : (∃ b, (pure a : Except ε α) = .ok b) ↔ True :=
  ⟨fun _ => trivial, fun _ => ⟨a, rfl⟩⟩

theorem exists_and_eq_and {b : β} {p q : β → Prop} : (∃ a, p a ∧ a = b ∧ q a) ↔ p b ∧ q b := by
  simp

theorem exists_unit {p : Unit → Prop} : (∃ u, p u) ↔ p () :=
  ⟨fun ⟨(), h⟩ => h, fun h => ⟨(), h⟩⟩

theorem pure_eq_ok {b : α} : (pure a : Except ε α) = .ok b ↔ a = b := by
  simp [pure, Except.pure]

theorem ok_eq_ok {b : α} : (Except.ok a : Except ε α) = .ok b ↔ a = b := by simp

theorem toOption_eq_some : x.toOption = some a ↔ x = .ok a := by
  cases x <;> simp [Except.toOption]

theorem map_eq_ok {f : α → β} : x.map f = .ok b ↔ ∃ a, x = .ok a ∧ f a = b := by
  cases x with
  | error => simp [Except.map]
  | ok => simp [Except.map]

theorem mapError_eq_ok {f : ε → ε'} : x.mapError f = .ok a ↔ x = .ok a := by
  cases x with
  | error => simp [Except.mapError]
  | ok => simp [Except.mapError]

theorem okOr_eq_ok {o : Option α} : okOr o e = .ok a ↔ o = some a := by
  cases o with
  | none => simp [okOr]
  | some => simp [okOr]

theorem transpose_none : transpose f none = .ok none := rfl

theorem transpose_some_eq_ok {b : Option β} : transpose f (some a) = .ok b ↔ ∃ c, f a = .ok c ∧ b = some c := by
  rw [transpose, map_eq_ok]
  constructor
  · rintro ⟨c, hc, rfl⟩
    exact ⟨c, hc, rfl⟩
  · rintro ⟨c, hc, rfl⟩
    exact ⟨c, hc, rfl⟩

variable {dec : α → Except ε β}

/-- Decoding an encoded option, when the decoder answers exactly on the values
that satisfy a condition. -/
theorem transpose_map_eq_ok {γ : Type} {enc : γ → α} {p : γ → Prop} {g : γ → β}
    (h : ∀ c b, dec (enc c) = .ok b ↔ p c ∧ b = g c) (o : Option γ) (r : Option β) :
    transpose dec (o.map enc) = .ok r ↔ (∀ c, o = some c → p c) ∧ r = o.map g := by
  cases o with
  | none => simp [transpose_none, eq_comm]
  | some c =>
    rw [Option.map_some, transpose_some_eq_ok]
    constructor
    · rintro ⟨b, hb, rfl⟩
      obtain ⟨hp, rfl⟩ := (h c b).mp hb
      exact ⟨fun c' hc' => Option.some.inj hc' ▸ hp, rfl⟩
    · rintro ⟨hp, rfl⟩
      exact ⟨g c, (h c _).mpr ⟨hp c rfl, rfl⟩, rfl⟩

theorem transpose_map_of_ok {enc : β → α} (h : ∀ c, dec (enc c) = .ok c) (o : Option β) :
    transpose dec (o.map enc) = .ok o := by
  cases o with
  | none => rfl
  | some c => rw [Option.map_some, transpose, h c]; rfl

variable {l : List α}

theorem forM_eq_ok {f : α → Except ε Unit} : l.forM f = .ok () ↔ ∀ a ∈ l, f a = .ok () := by
  induction l with
  | nil => simp [List.forM, pure_eq_ok]
  | cons a rest ih =>
    have hcons : (a :: rest).forM f = (f a >>= fun _ => rest.forM f) := rfl
    rw [hcons, bind_unit_eq_ok, ih, forall_mem_cons]

theorem foldlM_preserves {σ : Type} {f : σ → α → Except ε σ} (inv : σ → Prop)
    (hstep : ∀ s, ∀ a ∈ l, ∀ t, inv s → f s a = .ok t → inv t) {s t : σ} (hs : inv s) (h : l.foldlM f s = .ok t) :
    inv t := by
  induction l generalizing s with
  | nil =>
    cases h
    exact hs
  | cons a _ ih =>
    obtain ⟨s', hs', h⟩ := bind_eq_ok.mp h
    exact ih (fun s b hb => hstep s b (mem_cons_of_mem _ hb)) (hstep s a mem_cons_self s' hs hs') h

theorem mapM_eq_ok {r : List β} : l.mapM f = .ok r ↔ List.Forall₂ (fun a b => f a = .ok b) l r := by
  induction l generalizing r with
  | nil =>
    rw [mapM_nil, pure_eq_ok]
    constructor
    · rintro rfl
      exact .nil
    · intro h
      cases h
      rfl
  | cons _ _ ih =>
    rw [mapM_cons, bind_eq_ok]
    constructor
    · rintro ⟨b, hb, h⟩
      obtain ⟨_, hbs, h⟩ := bind_eq_ok.mp h
      cases pure_eq_ok.mp h
      exact .cons hb (ih.mp hbs)
    · intro h
      cases h with
      | cons hb hbs => exact ⟨_, hb, bind_eq_ok.mpr ⟨_, ih.mpr hbs, pure_eq_ok.mpr rfl⟩⟩

theorem exists_of_mem_mapM {r : List β} (h : l.mapM f = .ok r) (hb : b ∈ r) : ∃ a ∈ l, f a = .ok b := by
  have hall := mapM_eq_ok.mp h
  clear h
  induction hall with
  | nil => cases hb
  | @cons a _ _ _ hac _ ih =>
    rcases mem_cons.mp hb with rfl | hb
    · exact ⟨a, mem_cons_self, hac⟩
    · obtain ⟨a', ha', hab⟩ := ih hb
      exact ⟨a', mem_cons_of_mem _ ha', hab⟩

/-- Traversing the images of a list under an encoder whose decoder answers
exactly on the elements that satisfy a condition. -/
theorem mapM_map_eq_ok {γ : Type} {enc : γ → α} {p : γ → Prop} {g : γ → β}
    (h : ∀ c b, dec (enc c) = .ok b ↔ p c ∧ b = g c) (l : List γ) (r : List β) :
    (l.map enc).mapM dec = .ok r ↔ (∀ c ∈ l, p c) ∧ r = l.map g := by
  rw [mapM_eq_ok]
  induction l generalizing r with
  | nil =>
    constructor
    · intro hr
      cases hr
      simp
    · rintro ⟨-, rfl⟩
      exact .nil
  | cons c rest ih =>
    rw [map_cons, forall₂_cons_left_iff]
    constructor
    · rintro ⟨b, bs, hb, hbs, rfl⟩
      obtain ⟨hp, rfl⟩ := (h c b).mp hb
      obtain ⟨hps, rfl⟩ := (ih bs).mp hbs
      exact ⟨forall_mem_cons.mpr ⟨hp, hps⟩, rfl⟩
    · rintro ⟨hps, rfl⟩
      obtain ⟨hp, hps⟩ := forall_mem_cons.mp hps
      exact ⟨g c, rest.map g, (h c _).mpr ⟨hp, rfl⟩, (ih _).mpr ⟨hps, rfl⟩, rfl⟩

theorem mapM_map_of_ok {enc : β → α} (h : ∀ c, dec (enc c) = .ok c) {l : List β} : (l.map enc).mapM dec = .ok l := by
  have hone : ∀ c b, dec (enc c) = .ok b ↔ True ∧ b = id c := by
    intro c b
    rw [h c, ok_eq_ok, true_and, id, eq_comm]
  exact (mapM_map_eq_ok hone l l).mpr ⟨fun _ _ => trivial, (map_id l).symm⟩

end Okoscope.Lib.Outcome
