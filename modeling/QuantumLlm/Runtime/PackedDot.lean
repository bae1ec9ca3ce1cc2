import Mathlib.Algebra.BigOperators.Fin
import Mathlib.Algebra.Field.Rat
import Mathlib.Tactic.Ring
import QuantumLlm.Lib.ByteLanes
import QuantumLlm.Runtime.CpuExecutors

/-!
# The packed FP4 dot product

A row of packed FP4 weights times a Q8 activation: the portable loop, and the loop over vector
registers that keeps eight partial sums. Floats are exact rationals; a scale that is not finite
leaves a row without a value.
-/

namespace QuantumLlm.Runtime.Cpu

open List ByteLanes

/-! ## Scalars -/

/-- The value of a binary32, where it is finite. -/
def binary32 (bits : BitVec 32) : Option ℚ :=
  let exponent := (bits >>> 23).toNat % 256
  let fraction : ℚ := (bits.toNat % 2 ^ 23 : Nat)
  let sign : ℚ := if bits.msb then -1 else 1
  if exponent = 255 then none
  else if exponent = 0 then some (sign * fraction / 2 ^ 149)
  else some (sign * (2 ^ 23 + fraction) * 2 ^ exponent / 2 ^ 150)

def decodeUe8m0 (code : BitVec 8) : Option ℚ :=
  binary32 (if code = 0 then 0x00400000 else code.setWidth 32 <<< 23)

def decodeFp4Twice (code : BitVec 8) : BitVec 8 :=
  let index := code &&& 0x07
  let magnitude :=
    if index ≤ 4 then index else if index = 5 then 6 else if index = 6 then 8 else 12
  if code &&& 0x08 ≠ 0 then -magnitude else magnitude

/-- The FP4 code of an index: the low half of a byte first. -/
def fp4Code (packed : Nat → BitVec 8) (index : Nat) : BitVec 8 :=
  if index % 2 = 0 then packed (index / 2) &&& 0x0f else packed (index / 2) >>> 4

def dotFp4Q8Block (packed activation : Nat → BitVec 8) : Int :=
  (List.range kBlockColumns).foldl (fun sum index =>
    sum + (decodeFp4Twice (fp4Code packed index)).toInt * (activation index).toInt) 0

/-! ## Vectors -/

def decodeTable : Bytes128 :=
  ![0, 1, 2, 3, 4, 6, 8, 12, 0, -1, -2, -3, -4, -6, -8, -12]

/-- The codes of a block, one in each lane. -/
def indices (packed : Nat → BitVec 8) : Bytes256 :=
  let source : Bytes128 := loadu packed
  let low : Bytes128 := fun lane => source lane &&& 0x0f
  let high : Bytes128 := fun lane => srliEpi16 source 4 lane &&& 0x0f
  setM128i (unpackhiEpi8 low high) (unpackloEpi8 low high)

def decodedWeights (packed : Nat → BitVec 8) : Bytes256 :=
  shuffleEpi8 (broadcastsi128 decodeTable) (indices packed)

/-- What `_mm256_maddubs_epi16` multiplies: the magnitudes of the activations, and the weights
with the activations' signs. -/
def factors (packed activation : Nat → BitVec 8) : Bytes256 × Bytes256 :=
  (absEpi8 (loadu activation), signEpi8 (decodedWeights packed) (loadu activation))

/-- The pair sums of a block before saturation. -/
def blockPairs (packed activation : Nat → BitVec 8) : Fin 16 → Int :=
  pairSum (factors packed activation).1 (factors packed activation).2

def dotFp4Q8Lanes (packed activation : Nat → BitVec 8) : Dwords256 :=
  let (magnitudes, signedWeights) := factors packed activation
  maddEpi16 (maddubsEpi16 magnitudes signedWeights) fun _ => 1

def horizontalSumF32 (value : Fin 8 → ℚ) : ℚ :=
  let lanes : Fin 4 → ℚ := fun lane => value ⟨lane.1, by omega⟩ + value ⟨4 + lane.1, by omega⟩
  lanes 0 + lanes 1 + (lanes 2 + lanes 3)

/-! ## Rows -/

section Rows

variable (weights scales activation : Nat → BitVec 8) (activationScale : ℚ) (row columns : UInt32)

def blockWeights (block : Nat) : Nat → BitVec 8 := fun index =>
  weights (row.toNat * (columns.toNat / 2) + block * 16 + index)

def blockActivation (block : Nat) : Nat → BitVec 8 := fun index => activation (block * 32 + index)

def blockScale (block : Nat) : Option ℚ :=
  decodeUe8m0 (scales (row.toNat * (columns.toNat / kBlockColumns) + block))

/-- One block of the portable loop. -/
def addBlock (total : ℚ) (block : Nat) : Option ℚ :=
  (blockScale scales row columns block).map fun scale =>
    total + dotFp4Q8Block (blockWeights weights row columns block)
      (blockActivation activation block) * scale

/-- One block of the vector loop. -/
def addLanes (lanes : Fin 8 → ℚ) (block : Nat) : Option (Fin 8 → ℚ) :=
  (blockScale scales row columns block).map fun scale lane =>
    lanes lane + (dotFp4Q8Lanes (blockWeights weights row columns block)
      (blockActivation activation block) lane).toInt * scale

/-- `packed_dot` without vector registers. -/
def packedDotPortable : Option ℚ :=
  ((List.range (columns.toNat / kBlockColumns)).foldlM
    (addBlock weights scales activation row columns) 0).map (· * activationScale * (1 / 2))

/-- `packed_dot` with AVX2: eight lanes stay live, and are summed once. -/
def packedDotAvx2 : Option ℚ :=
  ((List.range (columns.toNat / kBlockColumns)).foldlM
    (addLanes weights scales activation row columns) fun _ => 0).map
      (horizontalSumF32 · * activationScale * (1 / 2))

end Rows

/-! ## The lanes of a block -/

variable (packed activation : Nat → BitVec 8)

theorem indices_eq (lane : Fin 32) : indices packed lane = fp4Code packed lane.1 := by
  unfold indices fp4Code
  simp only [setM128i_unpack]
  split
  next => rfl
  next => exact srliEpi16_and _ _

theorem fp4Code_lt (index : Nat) : (fp4Code packed index).toNat < 16 := by
  unfold fp4Code
  split
  · rw [BitVec.toNat_and]
    exact Nat.lt_of_le_of_lt Nat.and_le_right (by decide)
  · rw [BitVec.toNat_ushiftRight, Nat.shiftRight_eq_div_pow]
    have := (packed (index / 2)).isLt
    omega

/-- The table is the scalar decoder. -/
theorem decodeTable_eq (code : Fin 16) :
    decodeTable code = decodeFp4Twice (BitVec.ofNat 8 code.1) := by
  revert code
  decide

theorem decodeFp4Twice_le (code : Fin 16) :
    (decodeFp4Twice (BitVec.ofNat 8 code.1)).toInt.natAbs ≤ 12 := by
  revert code
  decide

theorem decodedWeights_eq (lane : Fin 32) :
    decodedWeights packed lane = decodeFp4Twice (fp4Code packed lane.1) := by
  have hlt := fp4Code_lt packed lane.1
  have hmsb : (fp4Code packed lane.1).msb = false := by
    rw [BitVec.msb_eq_decide, decide_eq_false_iff_not]
    omega
  have htable := decodeTable_eq ⟨(fp4Code packed lane.1).toNat, hlt⟩
  have hindex : (lane.1 / 16 * 16 + (fp4Code packed lane.1).toNat % 16) % 16 =
      (fp4Code packed lane.1).toNat := by omega
  rw [BitVec.ofNat_toNat, BitVec.setWidth_eq] at htable
  simp only [decodedWeights, shuffleEpi8, indices_eq, hmsb, Bool.false_eq_true, if_false,
    broadcastsi128, hindex, htable]

/-- The product of one weight and its activation. -/
def product (index : Nat) : Int :=
  (decodeFp4Twice (fp4Code packed index)).toInt * (activation index).toInt

theorem natAbs_product_le (index : Nat) : (product packed activation index).natAbs ≤ 12 * 128 := by
  have hweight := decodeFp4Twice_le ⟨_, fp4Code_lt packed index⟩
  rw [BitVec.ofNat_toNat, BitVec.setWidth_eq] at hweight
  have hlow := BitVec.le_toInt (activation index)
  have hhigh := BitVec.toInt_le (x := activation index)
  rw [product, Int.natAbs_mul]
  exact Nat.mul_le_mul hweight (by omega)

/-- The 32-bit sum of the portable loop does not overflow. -/
theorem natAbs_sum_le (count : Nat) : ((List.range count).foldl (fun sum index =>
    sum + product packed activation index) 0).natAbs ≤ count * (12 * 128) := by
  induction count with
  | zero => rfl
  | succ count ih =>
    have hproduct := natAbs_product_le packed activation count
    rw [List.range_succ, foldl_append, foldl_cons, foldl_nil]
    omega

theorem factors_mul (lane : Fin 32) :
    ((factors packed activation).1 lane).toNat * ((factors packed activation).2 lane).toInt =
      product packed activation lane.1 := by
  have hweight := decodeFp4Twice_le ⟨_, fp4Code_lt packed lane.1⟩
  rw [BitVec.ofNat_toNat, BitVec.setWidth_eq] at hweight
  rw [product, ← decodedWeights_eq] at *
  exact absEpi8_mul_signEpi8 (by omega)

theorem blockPairs_eq (lane : Fin 16) :
    blockPairs packed activation lane =
      product packed activation (2 * lane.1) + product packed activation (2 * lane.1 + 1) :=
  congrArg₂ (· + ·) (factors_mul packed activation _) (factors_mul packed activation _)

theorem blockPairs_bounds (lane : Fin 16) :
    -32768 ≤ blockPairs packed activation lane ∧ blockPairs packed activation lane ≤ 32767 := by
  have heven := natAbs_product_le packed activation (2 * lane.1)
  have hodd := natAbs_product_le packed activation (2 * lane.1 + 1)
  rw [blockPairs_eq]
  omega

theorem toInt_dotFp4Q8Lanes (lane : Fin 8) :
    (dotFp4Q8Lanes packed activation lane).toInt =
      blockPairs packed activation (evenLane lane) + blockPairs packed activation (oddLane lane) := by
  obtain ⟨hlow, hhigh⟩ := blockPairs_bounds packed activation (evenLane lane)
  obtain ⟨hlow', hhigh'⟩ := blockPairs_bounds packed activation (oddLane lane)
  unfold dotFp4Q8Lanes
  rw [toInt_maddEpi16_one, toInt_maddubsEpi16 hlow hhigh, toInt_maddubsEpi16 hlow' hhigh']
  rfl

theorem sum_dotFp4Q8Lanes :
    ∑ lane, (dotFp4Q8Lanes packed activation lane).toInt = dotFp4Q8Block packed activation := by
  change _ = (List.range 32).foldl (fun sum index => sum + product packed activation index) 0
  simp only [toInt_dotFp4Q8Lanes, blockPairs_eq, evenLane, oddLane, Fin.sum_univ_eight, List.range,
    List.range.loop, foldl_cons, foldl_nil]
  dsimp
  omega

theorem horizontalSumF32_eq (lanes : Fin 8 → ℚ) : horizontalSumF32 lanes = ∑ lane, lanes lane := by
  rw [Fin.sum_univ_eight]
  change lanes 0 + lanes 4 + (lanes 1 + lanes 5) + (lanes 2 + lanes 6 + (lanes 3 + lanes 7)) = _
  ring

variable (weights scales : Nat → BitVec 8) (activationScale : ℚ) (row columns : UInt32)

theorem addLanes_sum (lanes : Fin 8 → ℚ) (block : Nat) :
    (addLanes weights scales activation row columns lanes block).map horizontalSumF32 =
      addBlock weights scales activation row columns (horizontalSumF32 lanes) block := by
  rw [addLanes, addBlock, Option.map_map]
  refine congrArg (Option.map · _) (funext fun scale => ?_)
  simp only [Function.comp, horizontalSumF32_eq, Finset.sum_add_distrib, ← Finset.sum_mul,
    ← sum_dotFp4Q8Lanes, Int.cast_sum]

theorem foldlM_addLanes (blocks : List Nat) (lanes : Fin 8 → ℚ) :
    (blocks.foldlM (addLanes weights scales activation row columns) lanes).map horizontalSumF32 =
      blocks.foldlM (addBlock weights scales activation row columns) (horizontalSumF32 lanes) := by
  induction blocks generalizing lanes with
  | nil => rfl
  | cons block rest ih =>
    rw [foldlM_cons, foldlM_cons, ← addLanes_sum]
    cases addLanes weights scales activation row columns lanes block with
    | none => rfl
    | some lanes => exact ih lanes

/-- In each block the factors of lane `i` are those of weight `i` and activation `i`, no pair sum
saturates, no 32-bit lane wraps, and the lanes add up to the scalar product; so both loops give
the same value for each row. -/
theorem packed_dot_agree :
    (∀ packed activation : Nat → BitVec 8,
      (∀ lane : Fin 32, decodedWeights packed lane = decodeFp4Twice (fp4Code packed lane.1) ∧
        ((factors packed activation).1 lane).toNat * ((factors packed activation).2 lane).toInt =
          (decodeFp4Twice (fp4Code packed lane.1)).toInt * (activation lane.1).toInt) ∧
      (∀ lane : Fin 16, -32768 ≤ blockPairs packed activation lane ∧
        blockPairs packed activation lane ≤ 32767) ∧
      (∀ lane : Fin 8, (dotFp4Q8Lanes packed activation lane).toInt =
        blockPairs packed activation (evenLane lane) + blockPairs packed activation (oddLane lane)) ∧
      ∑ lane, (dotFp4Q8Lanes packed activation lane).toInt = dotFp4Q8Block packed activation) ∧
    packedDotAvx2 weights scales activation activationScale row columns =
      packedDotPortable weights scales activation activationScale row columns := by
  refine ⟨fun packed activation => ⟨fun lane => ⟨decodedWeights_eq packed lane,
    factors_mul packed activation lane⟩, blockPairs_bounds packed activation,
    toInt_dotFp4Q8Lanes packed activation, sum_dotFp4Q8Lanes packed activation⟩, ?_⟩
  have hzero : horizontalSumF32 (fun _ => 0) = 0 := by simp [horizontalSumF32_eq]
  have hlanes := foldlM_addLanes activation weights scales row columns
    (List.range (columns.toNat / kBlockColumns)) fun _ => 0
  rw [hzero] at hlanes
  rw [packedDotAvx2, packedDotPortable, ← hlanes, Option.map_map]
  rfl

end QuantumLlm.Runtime.Cpu
