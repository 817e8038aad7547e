import Mathlib.Data.List.Basic

/-!
# Open enumerations on the wire

A protocol enumeration travels as a 32-bit number. Reading one answers a member
only for the numbers the schema lists.
-/
namespace Okoscope.Lib

/-- The members of an enumeration with their wire numbers. -/
class WireEnum (α : Type) where
  members : List α
  number : α → Int32
  complete : ∀ a, a ∈ members := by rintro (_ | _) <;> decide
  injective : ∀ a b, number a = number b → a = b := by rintro (_ | _) (_ | _) <;> decide

namespace WireEnum

variable {α : Type} [WireEnum α]

/-- The member with the given number, when the schema lists it. -/
def tryFrom (n : Int32) : Option α := (members : List α).find? (fun a => number a == n)

@[simp] theorem tryFrom_number (a : α) : tryFrom (number a) = some a := by
  unfold tryFrom
  cases h : (members : List α).find? (fun b => number b == number a) with
  | none =>
    have hn := List.find?_eq_none.mp h a (complete a)
    simp at hn
  | some b =>
    have hb := List.find?_some h
    rw [injective b a (by simpa using hb)]

end WireEnum
end Okoscope.Lib
