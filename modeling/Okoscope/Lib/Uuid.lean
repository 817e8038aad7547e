import Okoscope.Lib.Bytes

/-!
# Universally unique identifiers

Sixteen bytes, printed as lower-case hexadecimal in groups of 8-4-4-4-12. The
reader also accepts the unseparated, braced and URN spellings, in either case.
-/
namespace Okoscope.Lib

open Bytes List

/-- An identifier of sixteen bytes. -/
abbrev Uuid := ByteVec 16

namespace Uuid

/-- The identifier of all zeros. -/
def nil : Uuid := ByteVec.fill 16 0

/-- Identifiers are ordered as the numbers their bytes are, the first byte the highest. -/
def rank (u : Uuid) : Nat := u.toList.foldl (fun n b => n * 256 + b.toNat) 0

/-- Thirty-two digits in groups of 8-4-4-4-12. -/
def hyphenate (h : List Char) : List Char :=
  h.take 8 ++ '-' :: ((h.drop 8).take 4 ++ '-' :: ((h.drop 12).take 4 ++ '-' ::
    ((h.drop 16).take 4 ++ '-' :: h.drop 20)))

/-- The digits of a text in groups of 8-4-4-4-12. -/
def unhyphenate (cs : List Char) : Option (List Char) :=
  if cs.length = 36 ∧ cs[8]? = some '-' ∧ cs[13]? = some '-' ∧ cs[18]? = some '-' ∧ cs[23]? = some '-' then
    some (cs.take 8 ++ (cs.drop 9).take 4 ++ (cs.drop 14).take 4 ++ (cs.drop 19).take 4 ++ cs.drop 24)
  else none

/-- Canonical text. -/
def toText (u : Uuid) : String := String.ofList (hyphenate (hexText u.toList))

/-- The digits of any accepted spelling. -/
def digits (cs : List Char) : Option (List Char) :=
  if cs.length = 32 then some cs
  else if cs.length = 36 then unhyphenate cs
  else if cs.length = 38 ∧ cs.head? = some '\x7b' ∧ cs.getLast? = some '\x7d' then unhyphenate cs.tail.dropLast
  else if cs.length = 45 ∧ cs.take 9 = "urn:uuid:".toList then unhyphenate (cs.drop 9)
  else none

/-- Reads an identifier from any accepted spelling. -/
def parseStr (s : String) : Option Uuid := do
  let ds ← digits s.toList
  let bytes ← parseHex ds
  ByteVec.ofList? 16 bytes

theorem unhyphenate_groups {p q r s t : List Char} (hp : p.length = 8) (hq : q.length = 4)
    (hr : r.length = 4) (hs : s.length = 4) (ht : t.length = 12) :
    unhyphenate (p ++ '-' :: (q ++ '-' :: (r ++ '-' :: (s ++ '-' :: t)))) = some (p ++ q ++ r ++ s ++ t) := by
  simp [unhyphenate, hp, hq, hr, hs, ht, drop_append, drop_eq_nil_of_le]

theorem unhyphenate_hyphenate {h : List Char} (hl : h.length = 32) : unhyphenate (hyphenate h) = some h := by
  unfold hyphenate
  rw [unhyphenate_groups (by simp [hl]) (by simp [hl]) (by simp [hl]) (by simp [hl]) (by simp [hl])]
  have h16 : (h.drop 16).take 4 ++ h.drop 20 = h.drop 16 := by
    rw [show 20 = 16 + 4 from rfl, ← drop_drop, take_append_drop]
  have h12 : (h.drop 12).take 4 ++ h.drop 16 = h.drop 12 := by
    rw [show 16 = 12 + 4 from rfl, ← drop_drop, take_append_drop]
  have h8 : (h.drop 8).take 4 ++ h.drop 12 = h.drop 8 := by
    rw [show 12 = 8 + 4 from rfl, ← drop_drop, take_append_drop]
  rw [append_assoc, h16, append_assoc, h12, append_assoc, h8, take_append_drop]

theorem hyphenate_length {h : List Char} (hl : h.length = 32) : (hyphenate h).length = 36 := by
  simp [hyphenate, hl]

@[simp] theorem parseStr_toText (u : Uuid) : parseStr u.toText = some u := by
  have hlen : (hexText u.toList).length = 32 := by rw [hexText_length, u.toList_length]
  have hd : digits (hyphenate (hexText u.toList)) = some (hexText u.toList) := by
    unfold digits
    rw [if_neg (by rw [hyphenate_length hlen]; decide), if_pos (hyphenate_length hlen), unhyphenate_hyphenate hlen]
  simp [parseStr, toText, hd, bind, Option.bind]

example : parseStr "00000000-0000-0000-0000-000000000000" = some nil := by decide +kernel

end Uuid
end Okoscope.Lib
