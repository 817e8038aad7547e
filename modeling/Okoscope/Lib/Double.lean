import Mathlib.Algebra.Order.Field.Power
import Mathlib.Algebra.Order.Field.Rat

/-!
# Numbers of double precision

A double is followed as long as it is finite. How a result is rounded is left open, as long
as rounding keeps the order, the sign and the powers of two, as rounding to the nearest does:
a result between two powers of two then stays between them.
-/
namespace Okoscope.Lib

structure Rounding where
  round : ℚ → ℚ
  mono : Monotone round
  neg : ∀ q, round (-q) = -round q
  pow : ∀ e : ℤ, -1022 ≤ e → e ≤ 1023 → round (2 ^ e) = 2 ^ e

/-- Exact results. -/
def Rounding.exact : Rounding := ⟨id, monotone_id, fun _ => rfl, fun _ _ _ => rfl⟩

/-- A number, or nothing for what is not finite. -/
def Double (_ : Rounding) : Type := Option ℚ

namespace Double

variable {r : Rounding}

def of (q : ℚ) : Double r := if |r.round q| < 2 ^ (1024 : ℤ) then some (r.round q) else none

def lift (f : ℚ → ℚ → Double r) (x y : Double r) : Double r :=
  Option.bind x fun a => Option.bind y (f a)

def add : Double r → Double r → Double r := lift fun a b => of (a + b)

def sub : Double r → Double r → Double r := lift fun a b => of (a - b)

def mul : Double r → Double r → Double r := lift fun a b => of (a * b)

/-- A number over zero is infinite or none at all. -/
def div : Double r → Double r → Double r := lift fun a b => if b = 0 then none else of (a / b)

/-- Between two powers of two. -/
def Within (n : ℕ) (q : ℚ) : Prop := 2 ^ (-n : ℤ) ≤ q ∧ q ≤ 2 ^ (n : ℤ)

def Scaled (n : ℕ) (x : Double r) : Prop := ∃ q : ℚ, x = some q ∧ Within n q

def Tame (n : ℕ) (x : Double r) : Prop := ∃ q : ℚ, x = some q ∧ 0 ≤ q ∧ q ≤ 2 ^ (n : ℤ)

def Nonneg (x : Double r) : Prop := ∃ q : ℚ, x = some q ∧ 0 ≤ q

variable {m n : ℕ} {x y : Double r} {p q : ℚ}

theorem two_pow_pos (e : ℤ) : (0 : ℚ) < 2 ^ e := zpow_pos rfl e

theorem Within.pos (h : Within n q) : 0 < q := (two_pow_pos _).trans_le h.1

theorem Within.mul (hp : Within m p) (hq : Within n q) : Within (m + n) (p * q) := by
  rw [Within, Nat.cast_add, neg_add, zpow_add₀ two_ne_zero, zpow_add₀ two_ne_zero]
  exact ⟨mul_le_mul hp.1 hq.1 (two_pow_pos _).le hp.pos.le, mul_le_mul hp.2 hq.2 hq.pos.le (two_pow_pos _).le⟩

theorem Within.inv (h : Within n q) : Within n q⁻¹ := by
  have hlow := inv_anti₀ h.pos h.2
  have hhigh := inv_anti₀ (two_pow_pos _) h.1
  rw [← zpow_neg] at hlow hhigh
  rw [neg_neg] at hhigh
  exact ⟨hlow, hhigh⟩

theorem Tame.nonneg (h : Tame n x) : Nonneg x := h.imp fun _ => And.imp_right And.left

theorem Scaled.tame (h : Scaled n x) : Tame n x := h.imp fun _ => And.imp_right fun hq => ⟨hq.pos.le, hq.2⟩

theorem Rounding.zero : r.round 0 = 0 := self_eq_neg.mp (by rw [← r.neg, neg_zero])

theorem of_eq (hn : n ≤ 1022) (h : |q| ≤ 2 ^ (n : ℤ)) :
    (of q : Double r) = some (r.round q) ∧ |r.round q| ≤ 2 ^ (n : ℤ) := by
  have hhigh := r.mono (abs_le.mp h).2
  have hlow := r.mono (abs_le.mp h).1
  rw [r.neg] at hlow
  rw [r.pow _ (by omega) (by omega)] at hlow hhigh
  have habs := abs_le.mpr ⟨hlow, hhigh⟩
  exact ⟨if_pos (habs.trans_lt (zpow_lt_zpow_right₀ rfl (by omega))), habs⟩

theorem tame_of (hn : n ≤ 1022) (h : 0 ≤ q) (h' : q ≤ 2 ^ (n : ℤ)) : Tame n (of q : Double r) := by
  obtain ⟨hof, hhigh⟩ := of_eq (r := r) hn ((abs_of_nonneg h).trans_le h')
  exact ⟨_, hof, Rounding.zero.ge.trans (r.mono h), (le_abs_self _).trans hhigh⟩

theorem of_zero : (of 0 : Double r) = some 0 := by
  obtain ⟨hof, -⟩ := of_eq (r := r) (n := 0) (by decide) (abs_zero.trans_le (two_pow_pos _).le)
  rwa [Rounding.zero] at hof

theorem scaled_of (hn : n ≤ 1022) (h : Within n q) : Scaled n (of q : Double r) := by
  have hlow := r.mono h.1
  rw [r.pow _ (by omega) (by omega)] at hlow
  obtain ⟨hof, hhigh⟩ := of_eq (r := r) hn ((abs_of_pos h.pos).trans_le h.2)
  exact ⟨_, hof, hlow, (le_abs_self _).trans hhigh⟩

theorem div_of_pos (h : 0 < q) : div (r := r) (some p) (some q) = of (p * q⁻¹) := by
  rw [← div_eq_mul_inv]
  exact if_neg h.ne'

theorem div_zero : div x (some 0) = none := by
  cases x <;> rfl

section
variable (hmn : m + n ≤ 1022)
include hmn

theorem tame_of_mul (hp : 0 ≤ p) (hp' : p ≤ 2 ^ (m : ℤ)) (hq : 0 ≤ q) (hq' : q ≤ 2 ^ (n : ℤ)) :
    Tame (m + n) (of (p * q) : Double r) := by
  refine tame_of hmn (mul_nonneg hp hq) ?_
  rw [Nat.cast_add, zpow_add₀ two_ne_zero]
  exact mul_le_mul hp' hq' hq (two_pow_pos _).le

theorem Tame.mul (hx : Tame m x) (hy : Tame n y) : Tame (m + n) (x.mul y) := by
  obtain ⟨p, rfl, hp, hp'⟩ := hx
  obtain ⟨q, rfl, hq, hq'⟩ := hy
  exact tame_of_mul hmn hp hp' hq hq'

theorem Tame.div (hx : Tame m x) (hy : Scaled n y) : Tame (m + n) (x.div y) := by
  obtain ⟨p, rfl, hp, hp'⟩ := hx
  obtain ⟨q, rfl, hq⟩ := hy
  rw [div_of_pos hq.pos]
  exact tame_of_mul hmn hp hp' hq.inv.pos.le hq.inv.2

theorem Scaled.div (hx : Scaled m x) (hy : Scaled n y) : Scaled (m + n) (x.div y) := by
  obtain ⟨p, rfl, hp⟩ := hx
  obtain ⟨q, rfl, hq⟩ := hy
  rw [div_of_pos hq.pos]
  exact scaled_of hmn (hp.mul hq.inv)

/-- A difference is as large as what it is taken from or what is taken. -/
theorem exists_sub_div (h : n ≤ m) (hx : Scaled n x) (hy : Tame m y) : ∃ q : ℚ, (x.sub y).div x = some q := by
  obtain ⟨q, rfl, hq⟩ := hx
  obtain ⟨p, rfl, hp, hp'⟩ := hy
  have hq' : q ≤ 2 ^ (m : ℤ) := hq.2.trans (zpow_le_zpow_right₀ one_le_two (by omega))
  obtain ⟨hsub, hd⟩ := of_eq (r := r) (by omega) (abs_sub_le_of_nonneg_of_le hq.pos.le hq' hp hp')
  refine ⟨_, (congrArg (div · _) hsub).trans ((div_of_pos hq.pos).trans (of_eq hmn ?_).1)⟩
  rw [abs_mul, abs_of_pos hq.inv.pos, Nat.cast_add, zpow_add₀ two_ne_zero]
  exact mul_le_mul hd hq.inv.2 hq.inv.pos.le (two_pow_pos _).le

end

end Double

end Okoscope.Lib
