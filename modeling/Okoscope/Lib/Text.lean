import Mathlib.Algebra.Group.Int.Defs
import Mathlib.Algebra.Group.Nat.Defs
import Mathlib.Data.List.DropRight

/-!
# Text as the standard library of the source reads it

Strings are sequences of Unicode scalar values; their length is counted in
UTF-8 bytes. Whitespace is the Unicode `White_Space` property and control
characters are the general category `Cc`.
-/
namespace Okoscope.Lib.Text

open List

/-- Unicode `White_Space`. -/
def isWhitespace (c : Char) : Bool :=
  let n := c.toNat
  (9 ≤ n && n ≤ 13) || n == 0x20 || n == 0x85 || n == 0xA0 || n == 0x1680 ||
    (0x2000 ≤ n && n ≤ 0x200A) || n == 0x2028 || n == 0x2029 || n == 0x202F || n == 0x205F || n == 0x3000

/-- General category `Cc`. -/
def isControl (c : Char) : Bool :=
  let n := c.toNat
  n < 0x20 || (0x7F ≤ n && n < 0xA0)

def isAsciiUppercase (c : Char) : Bool := 'A' ≤ c && c ≤ 'Z'
def isAsciiLowercase (c : Char) : Bool := 'a' ≤ c && c ≤ 'z'
def isAsciiDigit (c : Char) : Bool := '0' ≤ c && c ≤ '9'
def isAsciiAlphanumeric (c : Char) : Bool := isAsciiUppercase c || isAsciiLowercase c || isAsciiDigit c
def isAscii (c : Char) : Bool := c.toNat < 128

/-- Length in UTF-8 bytes. -/
def len (s : String) : Nat := s.utf8ByteSize

/-- Whether the character occurs in the text. -/
def contains (s : String) (c : Char) : Bool := s.toList.contains c

/-- Drops the characters that satisfy the predicate from both ends. -/
def trimMatches (p : Char → Bool) (s : String) : String :=
  String.ofList ((s.toList.dropWhile p).rdropWhile p)

/-- Drops whitespace from both ends. -/
def trim (s : String) : String := trimMatches isWhitespace s

/-- Drops whitespace from the end. -/
def trimEnd (s : String) : String := String.ofList (s.toList.rdropWhile isWhitespace)

/-- The number that decimal digits spell; there has to be one at least. -/
def parseDigits (digits : List Char) : Option Nat :=
  if digits ≠ [] ∧ digits.all isAsciiDigit then
    some (digits.foldl (fun n c => 10 * n + (c.toNat - '0'.toNat)) 0)
  else
    none

/-- A decimal number with an optional sign, when it is a signed 64-bit one. -/
def parseI64 (s : String) : Option Int :=
  let value : Option Int :=
    match s.toList with
    | '+' :: digits => (parseDigits digits).map Int.ofNat
    | '-' :: digits => (parseDigits digits).map fun n => -n
    | digits => (parseDigits digits).map Int.ofNat
  value.filter fun v => -2 ^ 63 ≤ v && v < 2 ^ 63

/-- A decimal number, with a plus sign or without, when it is an unsigned 64-bit one. -/
def parseU64 (digits : List Char) : Option UInt64 :=
  let value :=
    match digits with
    | '+' :: digits => parseDigits digits
    | digits => parseDigits digits
  (value.filter fun v => v < 2 ^ 64).map UInt64.ofNat

/-- The lines of a text, without their ends; nothing follows the last line end. -/
def lines (text : List Char) : List (List Char) :=
  let lines := text.splitOn '\n'
  (if lines.getLast? = some [] then lines.dropLast else lines).map fun line =>
    if line.getLast? = some '\r' then line.dropLast else line

/-- The words of a text, between whitespace. -/
def words (text : List Char) : List (List Char) := (text.splitOnP isWhitespace).filter fun word => !word.isEmpty

/-- Every character satisfies the predicate; the empty text does. -/
def Blank (p : Char → Bool) (s : String) : Prop := ∀ c ∈ s.toList, p c

instance (p : Char → Bool) (s : String) : Decidable (Blank p s) :=
  List.decidableBAll (fun c => p c) s.toList

theorem ofList_eq_empty_iff {l : List Char} : String.ofList l = "" ↔ l = [] := by
  rw [← String.toList_inj, String.toList_ofList]
  rfl

variable {s : String}

theorem toList_eq_nil_iff : s.toList = [] ↔ s = "" := by
  rw [← ofList_eq_empty_iff, String.ofList_toList]

variable {p : Char → Bool}

theorem trimMatches_eq_empty_iff : trimMatches p s = "" ↔ Blank p s := by
  unfold trimMatches Blank
  rw [ofList_eq_empty_iff, rdropWhile_eq_nil_iff]
  constructor
  · intro h
    have hdrop : s.toList.dropWhile p = [] := by
      by_contra hne
      have hhead := head_dropWhile_not p hne
      rw [h _ (head_mem hne)] at hhead
      cases hhead
    exact dropWhile_eq_nil_iff.mp hdrop
  · intro h c hc
    exact h c ((dropWhile_suffix p).subset hc)

theorem trim_eq_empty_iff : trim s = "" ↔ Blank isWhitespace s :=
  trimMatches_eq_empty_iff

theorem length_le_len : s.length ≤ len s := by
  have hlist : ∀ cs : List Char, cs.length ≤ (String.ofList cs).utf8ByteSize := by
    intro cs
    induction cs with
    | nil => exact Nat.zero_le _
    | cons c =>
      have hpos := c.utf8Size_pos
      rw [← singleton_append, String.ofList_append, String.utf8ByteSize_append, length_append,
        ← String.singleton_eq_ofList, String.utf8ByteSize_singleton, length_singleton]
      omega
  have hs := hlist s.toList
  rwa [String.ofList_toList, String.length_toList] at hs

theorem trimMatches_eq_self_iff :
    trimMatches p s = s ↔ s.toList.dropWhile p = s.toList ∧ s.toList.rdropWhile p = s.toList := by
  unfold trimMatches
  rw [← String.toList_inj, String.toList_ofList]
  constructor
  · intro h
    have hlen : s.toList.length ≤ (s.toList.dropWhile p).length := by
      conv_lhs => rw [← h]
      exact ( rdropWhile_prefix p _).length_le
    have hdrop := (dropWhile_suffix p).eq_of_length_le hlen
    rw [hdrop] at h
    exact ⟨hdrop, h⟩
  · rintro ⟨hdrop, hrdrop⟩
    rw [hdrop, hrdrop]

/-- A text that nothing is trimmed from keeps its ends under a stronger predicate. -/
theorem trimMatches_eq_self_mono {q : Char → Bool} (hpq : ∀ c, p c → q c)
    (h : trimMatches q s = s) : trimMatches p s = s := by
  obtain ⟨hdrop, hrdrop⟩ := trimMatches_eq_self_iff.mp h
  rw [dropWhile_eq_self_iff] at hdrop
  rw [rdropWhile_eq_self_iff] at hrdrop
  refine trimMatches_eq_self_iff.mpr ⟨dropWhile_eq_self_iff.mpr ?_, rdropWhile_eq_self_iff.mpr ?_⟩
  · exact fun hl hp => hdrop hl (hpq _ hp)
  · exact fun hl hp => hrdrop hl (hpq _ hp)

end Okoscope.Lib.Text
