import Mathlib.Data.List.Induction

/-!
# Lists filled slot by slot

A list put together from numbered slots: what one slot contributes alone, and
when two contributions to every slot can be read one after the other.
-/
namespace Okoscope.Lib.Slots

open List

variable {α β : Type}

/-- The contributions of the first `count` slots, in order. -/
def fill (count : Nat) (slot : Nat → List α) : List α := (List.range count).flatMap slot

variable {slot : Nat → List α}

theorem fill_succ {count : Nat} : fill (count + 1) slot = fill count slot ++ slot count := by
  simp [fill, range_succ]

/-- A list whose elements contribute by position fills the slots. -/
theorem flatMap_eq_fill {l : List β} {f : β → List α} (h : ∀ n x, l[n]? = some x → f x = slot n) :
    l.flatMap f = fill l.length slot := by
  induction l using List.reverseRecOn with
  | nil => rfl
  | append_singleton l x ih =>
    have hlast : f x = slot l.length := h l.length x (by simp)
    have hinit : l.flatMap f = fill l.length slot := ih fun n y hy =>
      h n y (by rw [List.getElem?_append_left (List.getElem?_eq_some_iff.mp hy).1]; exact hy)
    rw [flatMap_append, hinit, length_append, length_singleton, fill_succ]
    simp [hlast]

theorem fill_single {count i : Nat} (hi : i < count) {a : α} :
    fill count (fun n => if n = i then [a] else []) = [a] := by
  induction count with
  | zero => omega
  | succ count ih =>
    rw [fill_succ]
    by_cases h : i = count
    · have hempty : fill count (fun n => if n = i then [a] else []) = [] := by
        simp only [fill, flatMap_eq_nil_iff, mem_range]
        intro n hn
        rw [if_neg (by omega)]
      rw [hempty, if_pos h.symm, nil_append]
    · rw [ih (by omega), if_neg (by omega), append_nil]

/-- When no slot with a first contribution comes after one with a second, the first
contributions come before the second. -/
theorem fill_append {count : Nat} {f g : Nat → List α} (h : ∀ m n, g m ≠ [] → f n ≠ [] → n ≤ m) :
    fill count (fun n => f n ++ g n) = fill count f ++ fill count g := by
  induction count with
  | zero => rfl
  | succ count ih =>
    have hswap : fill count g ++ f count = f count ++ fill count g := by
      by_cases hf : f count = []
      · rw [hf, append_nil, nil_append]
      have hg : fill count g = [] := by
        simp only [fill, flatMap_eq_nil_iff, mem_range]
        intro m hm
        by_contra hne
        have := h m count hne hf
        omega
      rw [hg, append_nil, nil_append]
    rw [fill_succ, fill_succ, fill_succ, ih]
    calc fill count f ++ fill count g ++ (f count ++ g count)
        = fill count f ++ (fill count g ++ f count) ++ g count := by simp [append_assoc]
      _ = fill count f ++ (f count ++ fill count g) ++ g count := by rw [hswap]
      _ = fill count f ++ f count ++ (fill count g ++ g count) := by simp [append_assoc]

end Okoscope.Lib.Slots
