import Okoscope.Lib.Bytes
import Okoscope.Lib.Text

/-!
# Reading UTF-8

Strict decoding accepts exactly the encodings of texts. Lossy decoding replaces
each maximal ill-formed part by one replacement character.
-/
namespace Okoscope.Lib.Utf8

/-- The text whose encoding the bytes are. -/
def fromUtf8 (bytes : List UInt8) : Option String := String.fromUTF8? ⟨bytes.toArray⟩

theorem len_fromUtf8 {bytes : List UInt8} {s : String} (h : fromUtf8 bytes = some s) : Text.len s = bytes.length := by
  unfold fromUtf8 String.fromUTF8? at h
  split at h
  · cases h
    rfl
  · cases h

theorem fromUtf8_toByteArray {s : String} : fromUtf8 s.toByteArray.data.toList = some s := by
  have hbytes : (⟨s.toByteArray.data.toList.toArray⟩ : ByteArray) = s.toByteArray := rfl
  rw [fromUtf8, String.fromUTF8?, hbytes, dif_pos s.isValidUTF8]
  rfl

def replacement : Char := '�'

def isContinuation (b : UInt8) : Bool := b &&& 0xc0 = 0x80

/-- Whether the byte may follow the lead byte of a sequence of three or four bytes. -/
def secondFits (lead second : UInt8) : Bool :=
  if lead = 0xe0 then 0xa0 ≤ second && second ≤ 0xbf
  else if lead = 0xed then 0x80 ≤ second && second ≤ 0x9f
  else if lead = 0xf0 then 0x90 ≤ second && second ≤ 0xbf
  else if lead = 0xf4 then 0x80 ≤ second && second ≤ 0x8f
  else if 0xe1 ≤ lead && lead ≤ 0xf3 then isContinuation second
  else false

/-- How many bytes the ill-formed part at the head of the list has. -/
def illFormedLength : List UInt8 → Nat
  | lead :: second :: rest =>
    if secondFits lead second then
      match rest with
      | third :: _ => if 0xf0 ≤ lead && isContinuation third then 3 else 2
      | [] => 2
    else 1
  | _ => 1

/-- Every turn reads at least one byte, so the number of bytes bounds the turns. -/
def lossyChars : Nat → List UInt8 → List Char
  | 0, _ => []
  | _ + 1, [] => []
  | fuel + 1, bytes =>
    match ByteArray.utf8DecodeChar? ⟨bytes.toArray⟩ 0 with
    | some c => c :: lossyChars fuel (bytes.drop c.utf8Size)
    | none => replacement :: lossyChars fuel (bytes.drop (illFormedLength bytes))

def fromUtf8Lossy (bytes : List UInt8) : String := String.ofList (lossyChars bytes.length bytes)

example : fromUtf8Lossy [0x61, 0xe2, 0x82, 0x62, 0xff, 0xc3, 0xa9] = "a�b�é" := by decide +kernel

end Okoscope.Lib.Utf8
