import Mathlib.Data.Int.Log
import Mathlib.Data.Rat.Floor
import QuantumLlm.ExpertPack.Quant
import QuantumLlm.Lib.Nearest

/-!
# Block formats over exact rationals

The FP4 and MXFP6 encoders with exact arithmetic, as the standard library and as NumPy run
them, and the decoders. A block shares one UE8M0 code, whose scale is a power of two; each
element is the nearest level of the format at that scale.
-/

namespace QuantumLlm.ExpertPack

open Nearest

/-- `_FP4_E2M1_LEVELS`. -/
def fp4E2m1Levels : List ℚ := [0, 1 / 2, 1, 3 / 2, 2, 3, 4, 6]

/-- `_MXFP6_E3M2_LEVELS`. -/
def mxfp6E3m2Levels : List ℚ :=
  [0, 1 / 16, 1 / 8, 3 / 16, 1 / 4, 5 / 16, 3 / 8, 7 / 16, 1 / 2, 5 / 8, 3 / 4, 7 / 8, 1, 5 / 4,
    3 / 2, 7 / 4, 2, 5 / 2, 3, 7 / 2, 4, 5, 6, 7, 8, 10, 12, 14, 16, 20, 24, 28]

/-- `math.ldexp(1.0, code - 127)`. -/
def blockScale (code : Nat) : ℚ := 2 ^ ((code : ℤ) - 127)

/-- The code of an exponent, in the range of the codes. -/
def clampCode (exponent : ℤ) : Nat :=
  (min (fp4Ue8m0MaxCode : ℤ) (max fp4Ue8m0MinCode (exponent + 127))).toNat

/-- `max(abs(value) for value in chunk)`. -/
def maximumOf (chunk : List ℚ) : ℚ := chunk.foldl (fun maximum value => max maximum |value|) 0

def squaredError (chunk : List ℚ) (code : Nat) : ℚ :=
  let scale := blockScale code
  (chunk.map fun value =>
    (level fp4E2m1Levels (scanned fp4E2m1Levels |value / scale|) * scale - |value|) ^ 2).sum

/-- The operations of the encoders, exactly; those of INT8 and of the source types as they are. -/
def exactArithmetic (arithmetic : Arithmetic ℚ) : Arithmetic ℚ :=
  { arithmetic with
    zero := 0
    finite := fun _ => true
    exponent := fun chunk =>
      if maximumOf chunk = 0 then none else some (Int.clog 2 (maximumOf chunk / 6))
    lowerError := fun chunk candidate covering =>
      decide (squaredError chunk candidate < squaredError chunk covering)
    nearestIndex := fun code value => Fin.ofNat 8 (scanned fp4E2m1Levels |value / blockScale code|)
    negative := fun code value => decide (value / blockScale code < 0) }

/-- `frexp` of a positive number: its mantissa, from a half up to one, and its exponent. -/
def frexp (value : ℚ) : ℚ × ℤ :=
  (value / 2 ^ (Int.log 2 value + 1), Int.log 2 value + 1)

def coveringCode (grid : List ℚ) : Nat :=
  let maximum := maximumOf grid
  let parts := frexp (if maximum ≠ 0 then maximum / 6 else 1)
  let coveringExponent := if parts.1 = 1 / 2 then parts.2 - 1 else parts.2
  if maximum ≠ 0 then clampCode coveringExponent else 127

def coveringMagnitudes (grid : List ℚ) : List ℚ :=
  grid.map fun value => |value| / blockScale (coveringCode grid)

def coveringIndices (grid : List ℚ) : List Nat :=
  (coveringMagnitudes grid).map (searched fp4E2m1Levels)

def candidateCode (grid : List ℚ) : Nat := max fp4Ue8m0MinCode (coveringCode grid - 1)

def candidateIndices (grid : List ℚ) : List Nat :=
  (coveringMagnitudes grid).map fun magnitude => searched fp4E2m1Levels (magnitude * 2)

/-- The squared error at the covering scale, in its units. -/
def coveringError (grid : List ℚ) : ℚ :=
  ((coveringMagnitudes grid).map fun magnitude =>
    (level fp4E2m1Levels (searched fp4E2m1Levels magnitude) - magnitude) ^ 2).sum

/-- The squared error at half the covering scale, in the units of the covering scale. -/
def candidateError (grid : List ℚ) : ℚ :=
  ((coveringMagnitudes grid).map fun magnitude =>
    (1 / 2 * level fp4E2m1Levels (searched fp4E2m1Levels (magnitude * 2)) - magnitude) ^ 2).sum

def useCandidate (grid : List ℚ) : Bool :=
  decide (candidateCode grid ≠ coveringCode grid ∧ candidateError grid < coveringError grid)

def baselineCode (optimizeMse : Bool) (grid : List ℚ) : Nat :=
  if optimizeMse && useCandidate grid then candidateCode grid else coveringCode grid

def baselineIndices (optimizeMse : Bool) (grid : List ℚ) : List Nat :=
  if optimizeMse && useCandidate grid then candidateIndices grid else coveringIndices grid

/-- The nibbles of a block: the indices with the signs of the values. -/
def nibblesOf (grid : List ℚ) (indices : List Nat) : List Nat :=
  List.zipWith (fun (value : ℚ) index => index ||| (decide (value < 0)).toNat <<< 3) grid indices

/-- Two nibbles a byte, the even ones low. -/
def packPairs : List Nat → Bytes
  | low :: high :: rest => UInt8.ofNat (low ||| high <<< 4) :: packPairs rest
  | _ => []

/-- The blocks of a row, which is padded with zeros. -/
def gridsOf (groupSize columns blocks : Nat) (values : List ℚ) : List (List ℚ) :=
  let padded := values ++ List.replicate (blocks * groupSize - columns) 0
  (List.range blocks).map fun block => (padded.drop (block * groupSize)).take groupSize

/-- A row of `write_fp4_block32_rows`. -/
def numpyFp4Row (optimizeMse : Bool) (columns blocks : Nat) (values : List ℚ) : Encoded :=
  let grids := gridsOf fp4QuantGroupSize columns blocks values
  ⟨packPairs (grids.flatMap fun grid => nibblesOf grid (baselineIndices optimizeMse grid)),
    grids.map fun grid => UInt8.ofNat (baselineCode optimizeMse grid)⟩

/-- The rows of a tensor, some of them at a time. -/
def numpyRows (row : List ℚ → Encoded) (chunkRows : Nat) : Nat → List (List ℚ) → Encoded
  | 0, _ => ⟨[], []⟩
  | _, [] => ⟨[], []⟩
  | rounds + 1, rows =>
    let encoded := (rows.take chunkRows).map row
    let rest := numpyRows row chunkRows rounds (rows.drop chunkRows)
    ⟨encoded.flatMap Encoded.payload ++ rest.payload, encoded.flatMap Encoded.scales ++ rest.scales⟩

def mxfp6QuantGroupSize : Nat := 32

/-- `_mxfp6_block_code`. -/
def mxfp6BlockCode (maximum : ℚ) : Nat :=
  if maximum = 0 then 127 else clampCode (Int.log 2 maximum - 4)

/-- `_mxfp6_pack_codes`. -/
def packGroups : List Nat → Bytes
  | c0 :: c1 :: c2 :: c3 :: rest =>
    let word := c0 ||| c1 <<< 6 ||| c2 <<< 12 ||| c3 <<< 18
    UInt8.ofNat (word &&& 0xff) :: UInt8.ofNat (word >>> 8 &&& 0xff) ::
      UInt8.ofNat (word >>> 16 &&& 0xff) :: packGroups rest
  | _ => []

def mxfp6PackCodes (codes : List Nat) : Except String Bytes := do
  demand (codes.length % 4 = 0) "MXFP6 code count must be divisible by four"
  .ok (packGroups codes)

/-- A block of `write_mxfp6_e3m2_block32_rows` in the standard library. -/
def mxfp6Block (chunk : List ℚ) : Except String Encoded := do
  let scaleCode := mxfp6BlockCode (maximumOf chunk)
  let payload ← mxfp6PackCodes (chunk.map fun value =>
    scanned mxfp6E3m2Levels |value / blockScale scaleCode| ||| if value < 0 then 0x20 else 0)
  .ok ⟨payload, [UInt8.ofNat scaleCode]⟩

def mxfp6Row (columns blocks : Nat) (values : List ℚ) : Except String Encoded := do
  demand (values.length = columns) "short decoded row"
  let materialized := values ++ List.replicate (blocks * mxfp6QuantGroupSize - columns) 0
  encodeRows (fun block => mxfp6Block
    ((materialized.drop (block * mxfp6QuantGroupSize)).take mxfp6QuantGroupSize)) blocks

/-- `scale_codes` of the NumPy path. -/
def numpyMxfp6Code (grid : List ℚ) : Nat :=
  let maximum := maximumOf grid
  let floorExponent := (frexp (if maximum ≠ 0 then maximum else 1)).2 - 1
  if maximum ≠ 0 then clampCode (floorExponent - 4) else 127

def numpyMxfp6Codes (grid : List ℚ) : List Nat :=
  grid.map fun value =>
    let quotient := value / blockScale (numpyMxfp6Code grid)
    searched mxfp6E3m2Levels |quotient| ||| (decide (quotient < 0)).toNat <<< 5

/-- A row of `write_mxfp6_e3m2_block32_rows` in NumPy. -/
def numpyMxfp6Row (columns blocks : Nat) (values : List ℚ) : Encoded :=
  let grids := gridsOf mxfp6QuantGroupSize columns blocks values
  ⟨packGroups (grids.flatMap numpyMxfp6Codes), grids.map fun grid =>
    UInt8.ofNat (numpyMxfp6Code grid)⟩

/-- `FP4_E2M1_VALUES`. -/
def fp4E2m1Values : List ℚ :=
  [0, 1 / 2, 1, 3 / 2, 2, 3, 4, 6, 0, -1 / 2, -1, -3 / 2, -2, -3, -4, -6]

/-- The nibbles of a payload, low before high. -/
def unpackNibbles (payload : Bytes) : List Nat :=
  payload.flatMap fun packed => [packed.toNat &&& 0x0f, (packed.toNat >>> 4) &&& 0x0f]

/-- A block of `iter_scaled_fp4_e2m1_blocks`. -/
def decodeFp4Block (encoded : Encoded) : List ℚ :=
  (unpackNibbles encoded.payload).map fun code =>
    fp4E2m1Values.getD code 0 * blockScale (encoded.scales.headD 0).toNat

/-- `mxfp6_code`. -/
def mxfp6Code (packed : Bytes) (column : Nat) : Nat :=
  let group := column / 4
  let item := column % 4
  let word := (packed.getD (3 * group) 0).toNat ||| (packed.getD (3 * group + 1) 0).toNat <<< 8 |||
    (packed.getD (3 * group + 2) 0).toNat <<< 16
  word >>> (6 * item) &&& 0x3f

/-- `decode_mxfp6_e3m2_times16`. -/
def decodeMxfp6E3m2Times16 (code : Nat) : ℤ :=
  let magnitudeCode := code &&& 0x1f
  let exponent := magnitudeCode >>> 2
  let mantissa := magnitudeCode &&& 0x03
  let magnitude : ℤ := if exponent = 0 then mantissa else ((4 + mantissa) <<< (exponent - 1) : Nat)
  if code &&& 0x20 ≠ 0 then -magnitude else magnitude

/-- A block as the device reads it. -/
def decodeMxfp6Block (count : Nat) (encoded : Encoded) : List ℚ :=
  (List.range count).map fun column =>
    decodeMxfp6E3m2Times16 (mxfp6Code encoded.payload column) * (1 / 16) *
      blockScale (encoded.scales.headD 0).toNat

end QuantumLlm.ExpertPack
