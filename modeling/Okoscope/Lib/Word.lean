import Mathlib.Data.UInt

/-!
# Saturating machine words

Arithmetic on words that stops at the largest word instead of wrapping.
-/
namespace Okoscope.Lib.Word

/-- The largest 64-bit word. -/
def max64 : UInt64 := 0xffffffffffffffff

def saturatingAdd (a b : UInt64) : UInt64 := if a.toNat + b.toNat < 2 ^ 64 then a + b else max64

theorem toNat_saturatingAdd {a b : UInt64} : (saturatingAdd a b).toNat = min (a.toNat + b.toNat) (2 ^ 64 - 1) := by
  unfold saturatingAdd
  split
  · next h =>
    rw [UInt64.toNat_add, Nat.mod_eq_of_lt h]
    omega
  · next =>
    have hmax : max64.toNat = 2 ^ 64 - 1 := rfl
    omega

def saturatingMul (a b : UInt64) : UInt64 := if a.toNat * b.toNat < 2 ^ 64 then a * b else max64

/-- A count as a 32-bit word; one that is too large becomes the largest word. -/
def saturating32 (n : Nat) : UInt32 := if n < 2 ^ 32 then UInt32.ofNat n else 0xffffffff

def saturatingSub (a b : UInt64) : UInt64 := if b ≤ a then a - b else 0

theorem toNat_saturatingSub {a b : UInt64} : (saturatingSub a b).toNat = a.toNat - b.toNat := by
  unfold saturatingSub
  split
  · next h => exact UInt64.toNat_sub_of_le _ _ h
  next h =>
  rw [UInt64.le_iff_toNat_le] at h
  rw [UInt64.toNat_zero]
  omega

theorem toNat_max {a b : UInt64} : (max a b).toNat = max a.toNat b.toNat := by
  have hmax : max a b = if a ≤ b then b else a := rfl
  rw [hmax]
  by_cases h : a ≤ b
  · rw [if_pos h, max_eq_right (UInt64.le_iff_toNat_le.mp h)]
  · rw [if_neg h, max_eq_left (Nat.le_of_lt (Nat.lt_of_not_le fun h' => h (UInt64.le_iff_toNat_le.mpr h')))]

/-- The successor of a 64-bit word held as a number; the largest word is its own successor. -/
def saturatingSucc (n : Nat) : Nat := min (n + 1) (2 ^ 64 - 1)

/-- The largest signed 32-bit integer. -/
def i32Max : Nat := 2147483647

/-- The successor of a signed 32-bit integer that is not negative; the largest is its own successor. -/
def saturatingSuccI32 (n : Nat) : Nat := min (n + 1) i32Max

end Okoscope.Lib.Word
