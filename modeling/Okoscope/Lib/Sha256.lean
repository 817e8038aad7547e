import Mathlib.Data.List.Basic
import Okoscope.Lib.Bytes

/-!
# SHA-256

The digest of FIPS 180-4 on byte lists. Words are natural numbers below
`2 ^ 32`; the message schedule is a sliding window of sixteen words.
-/
namespace Okoscope.Lib.Sha256

open Bytes

def word (n : Nat) : Nat := n % 2 ^ 32
def rotr (n x : Nat) : Nat := (x >>> n) ||| word (x <<< (32 - n))
def ch (x y z : Nat) : Nat := (x &&& y) ^^^ ((x ^^^ 0xffffffff) &&& z)
def maj (x y z : Nat) : Nat := (x &&& y) ^^^ (x &&& z) ^^^ (y &&& z)
def bigSigma0 (x : Nat) : Nat := rotr 2 x ^^^ rotr 13 x ^^^ rotr 22 x
def bigSigma1 (x : Nat) : Nat := rotr 6 x ^^^ rotr 11 x ^^^ rotr 25 x
def smallSigma0 (x : Nat) : Nat := rotr 7 x ^^^ rotr 18 x ^^^ (x >>> 3)
def smallSigma1 (x : Nat) : Nat := rotr 17 x ^^^ rotr 19 x ^^^ (x >>> 10)

/-- Fractional parts of the cube roots of the first sixty-four primes. -/
def roundConstants : List Nat := [
  0x428a2f98, 0x71374491, 0xb5c0fbcf, 0xe9b5dba5, 0x3956c25b, 0x59f111f1, 0x923f82a4, 0xab1c5ed5,
  0xd807aa98, 0x12835b01, 0x243185be, 0x550c7dc3, 0x72be5d74, 0x80deb1fe, 0x9bdc06a7, 0xc19bf174,
  0xe49b69c1, 0xefbe4786, 0x0fc19dc6, 0x240ca1cc, 0x2de92c6f, 0x4a7484aa, 0x5cb0a9dc, 0x76f988da,
  0x983e5152, 0xa831c66d, 0xb00327c8, 0xbf597fc7, 0xc6e00bf3, 0xd5a79147, 0x06ca6351, 0x14292967,
  0x27b70a85, 0x2e1b2138, 0x4d2c6dfc, 0x53380d13, 0x650a7354, 0x766a0abb, 0x81c2c92e, 0x92722c85,
  0xa2bfe8a1, 0xa81a664b, 0xc24b8b70, 0xc76c51a3, 0xd192e819, 0xd6990624, 0xf40e3585, 0x106aa070,
  0x19a4c116, 0x1e376c08, 0x2748774c, 0x34b0bcb5, 0x391c0cb3, 0x4ed8aa4a, 0x5b9cca4f, 0x682e6ff3,
  0x748f82ee, 0x78a5636f, 0x84c87814, 0x8cc70208, 0x90befffa, 0xa4506ceb, 0xbef9a3f7, 0xc67178f2]

/-- The eight working variables. -/
structure Registers where
  a : Nat
  b : Nat
  c : Nat
  d : Nat
  e : Nat
  f : Nat
  g : Nat
  h : Nat

/-- Fractional parts of the square roots of the first eight primes. -/
def initial : Registers :=
  ⟨0x6a09e667, 0xbb67ae85, 0x3c6ef372, 0xa54ff53a, 0x510e527f, 0x9b05688c, 0x1f83d9ab, 0x5be0cd19⟩

def round (r : Registers) (k w : Nat) : Registers :=
  let t1 := word (r.h + bigSigma1 r.e + ch r.e r.f r.g + k + w)
  let t2 := word (bigSigma0 r.a + maj r.a r.b r.c)
  ⟨word (t1 + t2), r.a, r.b, r.c, word (r.d + t1), r.e, r.f, r.g⟩

/-- The schedule word that follows a window of sixteen. -/
def nextWord (window : List Nat) : Nat :=
  word (smallSigma1 (window.getD 14 0) + window.getD 9 0 + smallSigma0 (window.getD 1 0) + window.getD 0 0)

def rounds : List Nat → List Nat → Registers → Registers
  | [], _, r => r
  | k :: ks, window, r => rounds ks (window.tail ++ [nextWord window]) (round r k (window.headD 0))

def Registers.add (r s : Registers) : Registers :=
  ⟨word (r.a + s.a), word (r.b + s.b), word (r.c + s.c), word (r.d + s.d),
    word (r.e + s.e), word (r.f + s.f), word (r.g + s.g), word (r.h + s.h)⟩

def compress (r : Registers) (block : List UInt8) : Registers :=
  r.add (rounds roundConstants ((block.toChunks 4).map beNat) r)

/-- A one bit, zeros up to the length field, and the length in bits. -/
def padding (length : Nat) : List UInt8 :=
  0x80 :: List.replicate ((119 - length % 64) % 64) 0 ++ beBytes 8 (length * 8)

def Registers.toBytes (r : Registers) : List UInt8 :=
  beBytes 4 r.a ++ beBytes 4 r.b ++ beBytes 4 r.c ++ beBytes 4 r.d ++
    beBytes 4 r.e ++ beBytes 4 r.f ++ beBytes 4 r.g ++ beBytes 4 r.h

theorem Registers.toBytes_length {r : Registers} : r.toBytes.length = 32 := by
  simp [Registers.toBytes]

/-- The digest of a message. -/
def digest (message : List UInt8) : ByteVec 32 :=
  ⟨(((message ++ padding message.length).toChunks 64).foldl compress initial).toBytes,
    Registers.toBytes_length⟩

/-- The standard's one-block test vector. -/
example : (digest [0x61, 0x62, 0x63]).toList.take 8 = [0xba, 0x78, 0x16, 0xbf, 0x8f, 0x01, 0xcf, 0xea] := by
  decide +kernel

end Okoscope.Lib.Sha256
