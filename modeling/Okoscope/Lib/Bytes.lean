import Mathlib.Data.Vector.Basic

/-!
# Bytes, words and hexadecimal text

Fixed arrays are length-indexed vectors of bytes. Words are written big-endian
into digests and read little-endian from kernel records.
-/
namespace Okoscope.Lib.Bytes

/-- A byte array of fixed length. -/
abbrev ByteVec (n : Nat) := List.Vector UInt8 n

/-- A slice as a fixed array, when its length agrees. -/
def ByteVec.ofList? (n : Nat) (l : List UInt8) : Option (ByteVec n) :=
  if h : l.length = n then some ⟨l, h⟩ else none

@[simp] theorem ByteVec.ofList?_toList {n : Nat} (v : ByteVec n) : ByteVec.ofList? n v.toList = some v := by
  unfold ByteVec.ofList?
  rw [dif_pos v.toList_length]
  rfl

theorem ByteVec.ofList?_eq_none {n : Nat} {l : List UInt8} (h : l.length ≠ n) : ByteVec.ofList? n l = none := dif_neg h

/-- The array filled with one byte. -/
def ByteVec.fill (n : Nat) (b : UInt8) : ByteVec n := ⟨List.replicate n b, List.length_replicate⟩

/-- The `width` low bytes of a number, most significant first. -/
def beBytes : Nat → Nat → List UInt8
  | 0, _ => []
  | width + 1, n => UInt8.ofNat (n / 256 ^ width) :: beBytes width n

@[simp] theorem beBytes_length (width n : Nat) : (beBytes width n).length = width := by
  induction width with
  | zero => rfl
  | succ width ih => simp [beBytes, ih]

/-- The number whose bytes are given most significant first. -/
def beNat (bytes : List UInt8) : Nat := bytes.foldl (fun acc b => acc * 256 + b.toNat) 0

theorem foldl_beBytes {width n acc : Nat} :
    (beBytes width n).foldl (fun acc b => acc * 256 + b.toNat) acc = acc * 256 ^ width + n % 256 ^ width := by
  induction width generalizing acc with
  | zero => simp [beBytes, Nat.mod_one]
  | succ width ih =>
    have hmod : n % 256 ^ (width + 1) = n % 256 ^ width + 256 ^ width * (n / 256 ^ width % 256) := Nat.mod_pow_succ
    have hbyte : (UInt8.ofNat (n / 256 ^ width)).toNat = n / 256 ^ width % 256 := UInt8.toNat_ofNat'
    rw [beBytes, List.foldl_cons, ih, hbyte, hmod, Nat.add_mul, Nat.mul_assoc, ← Nat.pow_succ', Nat.mul_comm (_ % 256),
      Nat.add_assoc, Nat.add_comm (256 ^ width * _)]

theorem beNat_beBytes {width n : Nat} : beNat (beBytes width n) = n % 256 ^ width := by
  rw [beNat, foldl_beBytes, Nat.zero_mul, Nat.zero_add]

theorem beBytes_inj {width a b : Nat} (ha : a < 256 ^ width) (hb : b < 256 ^ width)
    (h : beBytes width a = beBytes width b) : a = b := by
  have hnat := congrArg beNat h
  rwa [beNat_beBytes, beNat_beBytes, Nat.mod_eq_of_lt ha, Nat.mod_eq_of_lt hb] at hnat

/-- The number whose bytes are given least significant first. -/
def leNat : List UInt8 → Nat
  | [] => 0
  | b :: rest => b.toNat + 256 * leNat rest

/-- The low bytes of a number, least significant first. -/
def leBytes : Nat → Nat → List UInt8
  | 0, _ => []
  | width + 1, n => UInt8.ofNat n :: leBytes width (n / 256)

theorem leNat_leBytes {width n : Nat} : leNat (leBytes width n) = n % 256 ^ width := by
  induction width generalizing n with
  | zero => rw [leBytes, leNat, Nat.pow_zero, Nat.mod_one]
  | succ _ ih =>
    have hbyte : (UInt8.ofNat n).toNat = n % 256 := UInt8.toNat_ofNat'
    rw [leBytes, leNat, ih, hbyte, Nat.pow_succ', Nat.mod_mul]

/-- A 32-bit number as a 16-bit one, when it fits. -/
def narrow16 (v : UInt32) : Option UInt16 := if v.toNat < 2 ^ 16 then some v.toUInt16 else none

/-- A 32-bit number as a byte, when it fits. -/
def narrow8 (v : UInt32) : Option UInt8 := if v.toNat < 2 ^ 8 then some v.toUInt8 else none

@[simp] theorem narrow16_toUInt32 (v : UInt16) : narrow16 v.toUInt32 = some v := by
  rw [narrow16, if_pos (by rw [UInt16.toNat_toUInt32]; exact v.toNat_lt), UInt16.toUInt16_toUInt32]

@[simp] theorem narrow8_toUInt32 (v : UInt8) : narrow8 v.toUInt32 = some v := by
  rw [narrow8, if_pos (by rw [UInt8.toNat_toUInt32]; exact v.toNat_lt), UInt8.toUInt8_toUInt32]

/-- The UTF-8 bytes of a text. -/
def utf8Bytes (s : String) : List UInt8 := s.toList.flatMap String.utf8EncodeChar

/-- Lower-case hexadecimal digit of a number below sixteen. -/
def hexDigit (n : Nat) : Char := Char.ofNat (if n < 10 then 48 + n else 87 + n)

/-- Value of a hexadecimal digit in either case. -/
def hexValue (c : Char) : Option Nat :=
  let n := c.toNat
  if 48 ≤ n ∧ n ≤ 57 then some (n - 48)
  else if 97 ≤ n ∧ n ≤ 102 then some (n - 87)
  else if 65 ≤ n ∧ n ≤ 70 then some (n - 55)
  else none

/-- The two digits of a byte. -/
def hexPair (b : UInt8) : List Char := [hexDigit (b.toNat / 16), hexDigit (b.toNat % 16)]

/-- Lower-case hexadecimal text of a byte list. -/
def hexText (bytes : List UInt8) : List Char := bytes.flatMap hexPair

/-- The byte two digits spell. -/
def hexByte (hi lo : Char) : Option UInt8 := do
  let h ← hexValue hi
  let l ← hexValue lo
  return UInt8.ofNat (16 * h + l)

/-- Reads pairs of digits; an odd digit or a foreign character fails. -/
def parseHex : List Char → Option (List UInt8)
  | [] => some []
  | [_] => none
  | hi :: lo :: rest => do
    let b ← hexByte hi lo
    let bs ← parseHex rest
    return b :: bs

theorem hexValue_hexDigit : ∀ n < 16, hexValue (hexDigit n) = some n := by decide

theorem hexByte_pair {b : UInt8} : hexByte (hexDigit (b.toNat / 16)) (hexDigit (b.toNat % 16)) = some b := by
  have hb : b.toNat < 256 := UInt8.toNat_lt b
  have hhi := hexValue_hexDigit (b.toNat / 16) (by omega)
  have hlo := hexValue_hexDigit (b.toNat % 16) (by omega)
  simp only [hexByte, hhi, hlo, bind, Option.bind, pure]
  rw [Nat.div_add_mod b.toNat 16, UInt8.ofNat_toNat]

@[simp] theorem parseHex_hexText (bytes : List UInt8) : parseHex (hexText bytes) = some bytes := by
  induction bytes with
  | nil => rfl
  | cons b rest ih =>
    have hcons : hexText (b :: rest) = hexDigit (b.toNat / 16) :: hexDigit (b.toNat % 16) :: hexText rest := rfl
    rw [hcons, parseHex, hexByte_pair, ih]
    rfl

theorem hexText_injective : Function.Injective hexText := by
  intro a b h
  have hp := congrArg parseHex h
  rw [parseHex_hexText, parseHex_hexText] at hp
  exact Option.some.inj hp

@[simp] theorem hexText_length (bytes : List UInt8) : (hexText bytes).length = 2 * bytes.length := by
  induction bytes with
  | nil => rfl
  | cons b rest ih =>
    have hcons : hexText (b :: rest) = hexPair b ++ hexText rest := rfl
    rw [hcons, List.length_append, ih, List.length_cons]
    simp only [hexPair, List.length_cons, List.length_nil]
    omega

end Okoscope.Lib.Bytes
