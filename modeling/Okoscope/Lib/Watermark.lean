import Mathlib.Data.List.Nodup
import Mathlib.Order.MinMax

/-!
# Counting once with a bounded memory

Whoever counts things that may be reported again has to remember what was counted. A
memory that is cleared can do so for the things after a watermark: what lies before it
is turned away, so what was counted and forgotten must lie before it. The watermark
only rises.
-/
namespace Okoscope.Lib.Watermark

section
variable {τ : Type} [LinearOrder τ]

/-- The later of two instants of which either may be missing. -/
def greatest : Option τ → Option τ → Option τ
  | some s, some t => some (max s t)
  | some s, none => some s
  | none, t => t

/-- Before the watermark, if there is one. -/
def past (mark : Option τ) (t : τ) : Bool := mark.any fun m => t < m

theorem past_eq_true {mark : Option τ} {t : τ} : past mark t ↔ ∃ m, mark = some m ∧ t < m := by
  cases mark with
  | none => simp [past]
  | some => simp [past]

theorem past_greatest {mark mark' : Option τ} {t : τ} (h : past mark t ∨ past mark' t) :
    past (greatest mark mark') t := by
  cases mark with
  | none => exact h.resolve_left nofun
  | some =>
    cases mark' with
    | none => exact h.resolve_right nofun
    | some => simpa [past, greatest] using h

end

section
variable {κ : Type} {remembered past remembered' past' : κ → Prop} {counted : List κ}

/-- Nothing was counted twice, and what was counted is remembered or lies in the past. -/
structure OnceOnly (remembered past : κ → Prop) (counted : List κ) : Prop where
  nodup : counted.Nodup
  covered : ∀ k ∈ counted, remembered k ∨ past k

theorem onceOnly_nil : OnceOnly remembered past [] :=
  ⟨List.nodup_nil, nofun⟩

/-- What is forgotten must lie in the past, and the past only grows. -/
theorem OnceOnly.forget (h : OnceOnly remembered past counted)
    (hforget : ∀ k, remembered k → remembered' k ∨ past' k) (hpast : ∀ k, past k → past' k) :
    OnceOnly remembered' past' counted := by
  refine ⟨h.nodup, fun k hk => ?_⟩
  obtain hr | hp := h.covered k hk
  · exact hforget k hr
  · exact .inr (hpast k hp)

/-- What is neither remembered nor past can be counted, if it is remembered from then on. -/
theorem OnceOnly.count (h : OnceOnly remembered past counted) {new : List κ} (hnew : new.Nodup)
    (hfresh : ∀ k ∈ new, ¬ remembered k ∧ ¬ past k) (hkeep : ∀ k, remembered k → remembered' k)
    (hremember : ∀ k ∈ new, remembered' k) : OnceOnly remembered' past (counted ++ new) := by
  constructor
  · refine List.nodup_append.mpr ⟨h.nodup, hnew, fun a ha b hb hab => ?_⟩
    subst hab
    obtain hr | hp := h.covered a ha
    · exact (hfresh a hb).1 hr
    · exact (hfresh a hb).2 hp
  · intro k hk
    rcases List.mem_append.mp hk with hk | hk
    · exact (h.covered k hk).imp_left (hkeep k)
    · exact .inl (hremember k hk)

end

end Okoscope.Lib.Watermark
