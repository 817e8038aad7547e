import Mathlib.Algebra.Group.Int.Defs
import Mathlib.Data.Int.Basic

/-!
# Instants

An instant is a count of nanoseconds since the Unix epoch. On the wire it is a
signed 64-bit count, which covers the years 1677 to 2262. Leap-second instants
are not represented: every instant read here has a sub-second part below one
second.
-/
namespace Okoscope.Lib

/-- Nanoseconds since the Unix epoch. -/
abbrev DateTime := Int

namespace DateTime

def nanosPerSecond : Int := 1000000000

/-- First and last second the calendar of the source can represent. -/
def minSecond : Int := -8334601228800
def maxSecond : Int := 8210266876799

/-- Whether the instant is a signed 64-bit count of nanoseconds. -/
def Fits (t : DateTime) : Prop := -2 ^ 63 ≤ t ∧ t < 2 ^ 63

instance (t : DateTime) : Decidable (Fits t) := inferInstanceAs (Decidable (_ ∧ _))

/-- The 64-bit count, unless it overflows. -/
def timestampNanosOpt (t : DateTime) : Option Int64 := if Fits t then some (Int64.ofInt t) else none

/-- The instant at a second and a sub-second part. -/
def fromTimestamp (secs : Int) (nanos : Nat) : Option DateTime :=
  if minSecond ≤ secs ∧ secs ≤ maxSecond ∧ nanos < 1000000000 then some (secs * nanosPerSecond + nanos)
  else none

/-- The instant of a 64-bit count, split into seconds and a remainder as the source does. -/
def fromUnixNanos (v : Int64) : Option DateTime :=
  fromTimestamp (v.toInt / nanosPerSecond) (v.toInt % nanosPerSecond).toNat

/-- The count written for an instant; an instant out of range is written as zero. -/
def unixNanos (t : DateTime) : Int64 := (timestampNanosOpt t).getD 0

/-- What a reader makes of the count written for an instant. -/
def onWire (t : DateTime) : DateTime := if Fits t then t else 0

theorem fromUnixNanos_eq {v : Int64} : fromUnixNanos v = some v.toInt := by
  have hlo := v.le_toInt
  have hhi := v.toInt_lt
  have hr : 0 ≤ v.toInt % nanosPerSecond := Int.emod_nonneg _ (by decide)
  have hr' : v.toInt % nanosPerSecond < nanosPerSecond := Int.emod_lt_of_pos _ (by decide)
  have hd := Int.emod_add_mul_ediv v.toInt nanosPerSecond
  have hrange : minSecond ≤ v.toInt / nanosPerSecond ∧ v.toInt / nanosPerSecond ≤ maxSecond ∧
      (v.toInt % nanosPerSecond).toNat < 1000000000 := by
    simp only [nanosPerSecond, minSecond, maxSecond] at hr hr' hd ⊢
    omega
  have hsum : v.toInt / nanosPerSecond * nanosPerSecond + ((v.toInt % nanosPerSecond).toNat : Int) = v.toInt := by
    simp only [nanosPerSecond] at hr hr' hd ⊢
    omega
  rw [fromUnixNanos, fromTimestamp, if_pos hrange, hsum]

theorem timestampNanosOpt_eq_none {t : DateTime} (h : ¬ Fits t) : timestampNanosOpt t = none := if_neg h

@[simp] theorem toInt_unixNanos (t : DateTime) : (unixNanos t).toInt = onWire t := by
  unfold unixNanos onWire
  split
  · next hf =>
    rw [timestampNanosOpt, if_pos hf]
    exact Int64.toInt_ofInt_of_le hf.1 hf.2
  · next hf =>
    rw [timestampNanosOpt_eq_none hf]
    rfl

@[simp] theorem fromUnixNanos_unixNanos (t : DateTime) : fromUnixNanos (unixNanos t) = some (onWire t) := by
  rw [fromUnixNanos_eq, toInt_unixNanos]

theorem onWire_of_fits {t : DateTime} (h : Fits t) : onWire t = t := if_pos h

end DateTime
end Okoscope.Lib
