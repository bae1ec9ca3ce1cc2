import Mathlib.Data.UInt
import QuantumLlm.Lib.Cutting

/-!
# The secure hash of FIPS 180-4

SHA-256 of whole messages: the padding, the message schedule, the rounds and the digest, as
the standard states them. The round constants are not a table here but the first bits of the
fractional parts of cube roots, and so is the initial value of square roots.
-/

namespace QuantumLlm.Fips180

/-! ## Functions on words -/

def rotr (word count : UInt32) : UInt32 := (word >>> count) ||| (word <<< (32 - count))

def ch (x y z : UInt32) : UInt32 := (x &&& y) ^^^ (~~~x &&& z)

def maj (x y z : UInt32) : UInt32 := (x &&& y) ^^^ (x &&& z) ^^^ (y &&& z)

def bigSigma0 (x : UInt32) : UInt32 := rotr x 2 ^^^ rotr x 13 ^^^ rotr x 22

def bigSigma1 (x : UInt32) : UInt32 := rotr x 6 ^^^ rotr x 11 ^^^ rotr x 25

def smallSigma0 (x : UInt32) : UInt32 := rotr x 7 ^^^ rotr x 18 ^^^ (x >>> 3)

def smallSigma1 (x : UInt32) : UInt32 := rotr x 17 ^^^ rotr x 19 ^^^ (x >>> 10)

/-- The word of four bytes, the first one on top. -/
def word (first second third fourth : UInt8) : UInt32 :=
  (first.toUInt32 <<< 24) ||| (second.toUInt32 <<< 16) ||| (third.toUInt32 <<< 8) |||
    fourth.toUInt32

/-- The word's bytes, the top one first. -/
def bytesOf (word : UInt32) : List UInt8 :=
  [(word >>> 24).toUInt8, (word >>> 16).toUInt8, (word >>> 8).toUInt8, word.toUInt8]

/-! ## One block -/

/-- The eight words of a hash value, which are also the working variables. -/
structure Words where
  a : UInt32
  b : UInt32
  c : UInt32
  d : UInt32
  e : UInt32
  f : UInt32
  g : UInt32
  h : UInt32

def Words.add (left right : Words) : Words :=
  ⟨left.a + right.a, left.b + right.b, left.c + right.c, left.d + right.d, left.e + right.e,
    left.f + right.f, left.g + right.g, left.h + right.h⟩

/-- Words `M` of a block. -/
def message (block : List UInt8) (index : Nat) : UInt32 :=
  word (block.getD (4 * index) 0) (block.getD (4 * index + 1) 0) (block.getD (4 * index + 2) 0)
    (block.getD (4 * index + 3) 0)

/-- Words `W` of the message schedule. -/
def schedule (block : List UInt8) (index : Nat) : UInt32 :=
  if index < 16 then message block index
  else smallSigma1 (schedule block (index - 2)) + schedule block (index - 7) +
    smallSigma0 (schedule block (index - 15)) + schedule block (index - 16)
termination_by index

/-- One round with its constant `K` and its word `W`. -/
def round (v : Words) (k w : UInt32) : Words :=
  let t1 := v.h + bigSigma1 v.e + ch v.e v.f v.g + k + w
  let t2 := bigSigma0 v.a + maj v.a v.b v.c
  ⟨t1 + t2, v.a, v.b, v.c, v.d + t1, v.e, v.f, v.g⟩

variable (constants : List UInt32)

def compress (value : Words) (block : List UInt8) : Words :=
  value.add ((List.range 64).foldl
    (fun v index => round v (constants.getD index 0) (schedule block index)) value)

/-! ## Whole messages -/

/-- As many zeros as put the length at the end of a block. -/
def zeros (length : Nat) : Nat := (119 - length % 64) % 64

/-- The length of a message in bits, in eight bytes. -/
def lengthBytes (length : Nat) : List UInt8 :=
  (List.range 8).map fun index => (UInt64.ofNat (8 * length) >>> UInt64.ofNat (56 - 8 * index)).toUInt8

def padded (bytes : List UInt8) : List UInt8 :=
  bytes ++ 0x80 :: List.replicate (zeros bytes.length) 0 ++ lengthBytes bytes.length

def digest (value : Words) : List UInt8 :=
  [value.a, value.b, value.c, value.d, value.e, value.f, value.g, value.h].flatMap bytesOf

/-- The digest of a message for an initial value. -/
def hashOf (initial : Words) (bytes : List UInt8) : List UInt8 :=
  digest ((cut 64 (padded bytes)).foldl (compress constants) initial)

/-- The number of zeros is the least one with which the padded message is made of whole blocks. -/
theorem zeros_least (length more : Nat) : (length + 1 + more + 8) % 64 = 0 ↔
    zeros length ≤ more ∧ (more - zeros length) % 64 = 0 := by
  unfold zeros
  omega

/-! ## Constants -/

def primes : List Nat := (List.range 312).filter fun number =>
  1 < number ∧ ∀ divisor ∈ List.range 18, 1 < divisor → divisor < number → number % divisor ≠ 0

/-- The word is the first 32 bits of the fractional part of a root of a number. -/
def IsRootFraction (degree number : Nat) (word : UInt32) : Prop :=
  ∃ whole < 20, (whole * 2 ^ 32 + word.toNat) ^ degree ≤ number * 2 ^ (32 * degree) ∧
    number * 2 ^ (32 * degree) < (whole * 2 ^ 32 + word.toNat + 1) ^ degree

instance (degree number : Nat) (word : UInt32) : Decidable (IsRootFraction degree number word) :=
  inferInstanceAs (Decidable (∃ whole < 20, _ ∧ _))

end QuantumLlm.Fips180
