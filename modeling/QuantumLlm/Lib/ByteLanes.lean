import Mathlib.Data.Int.Order.Basic

/-!
# Vector registers of bytes

Registers of 128 and 256 bits as functions of their lanes, lane 0 first in memory. The
operations are named after the intrinsics that they are.
-/

namespace QuantumLlm.ByteLanes

abbrev Bytes128 := Fin 16 → BitVec 8
abbrev Bytes256 := Fin 32 → BitVec 8
abbrev Words256 := Fin 16 → BitVec 16
abbrev Dwords256 := Fin 8 → BitVec 32

def loadu {lanes : Nat} (memory : Nat → BitVec 8) : Fin lanes → BitVec 8 := fun lane => memory lane

/-- Shifts 16-bit lanes, so that a byte takes in bits of the byte above it. -/
def srliEpi16 (value : Bytes128) (count : Nat) : Bytes128 := fun lane =>
  let word := value ⟨lane.1 / 2 * 2 + 1, by omega⟩ ++ value ⟨lane.1 / 2 * 2, by omega⟩
  (word >>> count).extractLsb' (lane.1 % 2 * 8) 8

def unpackloEpi8 (even odd : Bytes128) : Bytes128 := fun lane =>
  (if lane.1 % 2 = 0 then even else odd) ⟨lane.1 / 2, by omega⟩

def unpackhiEpi8 (even odd : Bytes128) : Bytes128 := fun lane =>
  (if lane.1 % 2 = 0 then even else odd) ⟨8 + lane.1 / 2, by omega⟩

def setM128i (high low : Bytes128) : Bytes256 := fun lane =>
  if hlow : lane.1 < 16 then low ⟨lane.1, hlow⟩ else high ⟨lane.1 - 16, by omega⟩

def broadcastsi128 (value : Bytes128) : Bytes256 := fun lane => value ⟨lane.1 % 16, by omega⟩

/-- Looks each index up in its own 128-bit half. -/
def shuffleEpi8 (value indices : Bytes256) : Bytes256 := fun lane =>
  if (indices lane).msb then 0
  else value ⟨lane.1 / 16 * 16 + (indices lane).toNat % 16, by omega⟩

def signEpi8 (value sign : Bytes256) : Bytes256 := fun lane =>
  if (sign lane).msb then -value lane else if sign lane = 0 then 0 else value lane

def absEpi8 (value : Bytes256) : Bytes256 := fun lane =>
  if (value lane).msb then -value lane else value lane

/-! Neighbouring lanes, which make one lane of twice the width. -/

def evenLane {lanes : Nat} (lane : Fin lanes) : Fin (2 * lanes) := ⟨2 * lane.1, by omega⟩

def oddLane {lanes : Nat} (lane : Fin lanes) : Fin (2 * lanes) := ⟨2 * lane.1 + 1, by omega⟩

/-- Two neighbouring products of unsigned and signed bytes. -/
def pairSum (unsigned signed : Bytes256) (lane : Fin 16) : Int :=
  (unsigned (evenLane lane)).toNat * (signed (evenLane lane)).toInt +
    (unsigned (oddLane lane)).toNat * (signed (oddLane lane)).toInt

/-- Pair sums, saturated to 16 bits. -/
def maddubsEpi16 (unsigned signed : Bytes256) : Words256 := fun lane =>
  BitVec.ofInt 16 (max (-32768) (min 32767 (pairSum unsigned signed lane)))

/-- Sums of two neighbouring products, in 32 bits. -/
def maddEpi16 (left right : Words256) : Dwords256 := fun lane =>
  BitVec.ofInt 32
    ((left (evenLane lane)).toInt * (right (evenLane lane)).toInt +
      (left (oddLane lane)).toInt * (right (oddLane lane)).toInt)

/-! ## What the operations do together -/

/-- Two halves unpacked and set together are one interleaving. -/
theorem setM128i_unpack (even odd : Bytes128) (lane : Fin 32) :
    setM128i (unpackhiEpi8 even odd) (unpackloEpi8 even odd) lane =
      (if lane.1 % 2 = 0 then even else odd) ⟨lane.1 / 2, by omega⟩ := by
  unfold setM128i unpackhiEpi8 unpackloEpi8
  split
  next => rfl
  next hhigh =>
    have hparity : (lane.1 - 16) % 2 = lane.1 % 2 := by omega
    have hindex : 8 + (lane.1 - 16) / 2 = lane.1 / 2 := by omega
    simp only [hparity, hindex]

/-- The bits from the byte above are all masked away. -/
theorem srliEpi16_and (value : Bytes128) (lane : Fin 16) :
    srliEpi16 value 4 lane &&& 0x0f#8 = value lane >>> 4 := by
  have hword : ∀ high low : BitVec 8, (high ++ low).toNat = high.toNat * 256 + low.toNat := by
    intro high low
    rw [BitVec.toNat_append, ← Nat.shiftLeft_add_eq_or_of_lt low.isLt, Nat.shiftLeft_eq]
  apply BitVec.eq_of_toNat_eq
  rw [BitVec.toNat_and, show (0x0f#8).toNat = 2 ^ 4 - 1 from rfl, Nat.and_two_pow_sub_one_eq_mod,
    srliEpi16, BitVec.extractLsb'_toNat, BitVec.toNat_ushiftRight, hword, BitVec.toNat_ushiftRight]
  simp only [Nat.shiftRight_eq_div_pow]
  rcases Nat.mod_two_eq_zero_or_one lane.1 with hparity | hparity
  · have hlane : lane.1 / 2 * 2 = lane.1 := by omega
    have hlow := (value lane).isLt
    simp only [hparity, hlane, Fin.eta, Nat.zero_mul, Nat.pow_zero, Nat.div_one]
    omega
  · have hlane : lane.1 / 2 * 2 + 1 = lane.1 := by omega
    have hlow := (value ⟨lane.1 / 2 * 2, by omega⟩).isLt
    have hhigh := (value lane).isLt
    simp only [hparity, hlane, Fin.eta, Nat.one_mul]
    omega

theorem toInt_maddubsEpi16 {unsigned signed : Bytes256} {lane : Fin 16}
    (hlow : -32768 ≤ pairSum unsigned signed lane) (hhigh : pairSum unsigned signed lane ≤ 32767) :
    (maddubsEpi16 unsigned signed lane).toInt = pairSum unsigned signed lane := by
  rw [maddubsEpi16, min_eq_right hhigh, max_eq_right hlow, BitVec.toInt_ofInt_eq_self]
  · omega
  · omega
  · omega

/-- A sign moved onto the other factor keeps a product, also that of the least byte. -/
theorem absEpi8_mul_signEpi8 {value sign : Bytes256} {lane : Fin 32}
    (hvalue : (value lane).toInt ≠ -128) :
    ((absEpi8 sign lane).toNat : Int) * (signEpi8 value sign lane).toInt =
      (value lane).toInt * (sign lane).toInt := by
  unfold absEpi8 signEpi8
  split
  next hneg =>
    have hsign := BitVec.toInt_eq_msb_cond (sign lane)
    rw [if_pos hneg] at hsign
    have habs : ((-sign lane).toNat : Int) = -(sign lane).toInt := by
      have hlow := BitVec.le_toNat_of_msb_true hneg
      have hlt := (sign lane).isLt
      rw [BitVec.toNat_neg, Nat.mod_eq_of_lt (by omega), hsign]
      omega
    rw [BitVec.toInt_neg_of_ne_intMin fun h => hvalue (by rw [h]; rfl), habs, Int.neg_mul_neg,
      Int.mul_comm]
  next hpos =>
    have hsign := BitVec.toInt_eq_msb_cond (sign lane)
    rw [if_neg hpos] at hsign
    split
    next hzero => simp [hzero]
    next => rw [hsign, Int.mul_comm]

/-- Multiplied by ones, two 16-bit lanes add up without a wrap. -/
theorem toInt_maddEpi16_one (words : Words256) (lane : Fin 8) :
    (maddEpi16 words (fun _ => 1) lane).toInt =
      (words (evenLane lane)).toInt + (words (oddLane lane)).toInt := by
  have hone : (1 : BitVec 16).toInt = 1 := rfl
  have hbound : ∀ word : BitVec 16, -32768 ≤ word.toInt ∧ word.toInt ≤ 32767 := fun word =>
    ⟨BitVec.le_toInt word, BitVec.toInt_le⟩
  obtain ⟨hlow, hhigh⟩ := hbound (words (evenLane lane))
  obtain ⟨hlow', hhigh'⟩ := hbound (words (oddLane lane))
  rw [maddEpi16, hone, Int.mul_one, Int.mul_one]
  exact BitVec.toInt_ofInt_eq_self (by omega) (by omega) (by omega)

end QuantumLlm.ByteLanes
