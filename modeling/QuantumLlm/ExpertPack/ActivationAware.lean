import Mathlib.Order.WithBot
import QuantumLlm.ExpertPack.Blocks
import QuantumLlm.Lib.Descent

/-!
# Activation-aware FP4 rows

`write_fp4_block32_rows` with an activation calibration, exactly: blocks return to their covering
scale one by one where the outputs on the samples come closer to the exact ones, and then codes
move to a neighbour, as many of the best ones as help most together.
-/

namespace QuantumLlm.ExpertPack

open Nearest Descent

def dot (left right : List ℚ) : ℚ := (List.zipWith (· * ·) left right).sum

def plus (left right : List ℚ) : List ℚ := List.zipWith (· + ·) left right

def minus (left right : List ℚ) : List ℚ := List.zipWith (· - ·) left right

def sumOfSquares (residual : List ℚ) : ℚ := (residual.map fun value => value * value).sum

/-- The outputs of a row on the samples. -/
def outputsOf (samples : List (List ℚ)) (row : List ℚ) : List ℚ :=
  samples.map fun sample => dot sample row

def signOf (value : ℚ) : ℚ := if value < 0 then -1 else 1

/-- The padded values of a row, the codes of its blocks, and the indices of its levels. -/
structure RowCodes where
  values : List ℚ
  codes : List Nat
  indices : List Nat

def RowCodes.valueScales (row : RowCodes) : List ℚ :=
  row.codes.flatMap fun code => List.replicate fp4QuantGroupSize (blockScale code)

def RowCodes.decoded (row : RowCodes) : List ℚ :=
  List.zipWith (· * ·)
    (List.zipWith (fun index scale => level fp4E2m1Levels index * scale) row.indices
      row.valueScales)
    (row.values.map signOf)

def RowCodes.encoded (row : RowCodes) : Encoded :=
  ⟨packPairs (nibblesOf row.values row.indices), row.codes.map UInt8.ofNat⟩

def scaledBlock (scale : ℚ) (grid : List ℚ) (indices : List Nat) : List ℚ :=
  List.zipWith (fun index value => level fp4E2m1Levels index * scale * signOf value) indices grid

def coveringDecoded (grid : List ℚ) : List ℚ :=
  scaledBlock (blockScale (coveringCode grid)) grid (coveringIndices grid)

def candidateDecoded (grid : List ℚ) : List ℚ :=
  scaledBlock (blockScale (coveringCode grid) * (1 / 2)) grid (candidateIndices grid)

def baselineDecoded (grid : List ℚ) : List ℚ :=
  if useCandidate grid then candidateDecoded grid else coveringDecoded grid

/-- What a block gains by its covering scale; nothing where it has that one. -/
def blockDelta (grid : List ℚ) : List ℚ :=
  if useCandidate grid then minus (coveringDecoded grid) (candidateDecoded grid)
  else grid.map fun _ => 0

/-- The samples at the columns of a block. -/
def blockSamples (samples : List (List ℚ)) (block : Nat) : List (List ℚ) :=
  samples.map fun sample => (sample.drop (block * fp4QuantGroupSize)).take fp4QuantGroupSize

def outputDelta (samples grids : List (List ℚ)) (block : Nat) : List ℚ :=
  outputsOf (blockSamples samples block) (blockDelta (grids.getD block []))

/-- The blocks that return to their covering scale, by isolated gain. -/
def selectCovering (samples grids : List (List ℚ)) : List Nat :=
  let residual := outputsOf samples (grids.flatMap fun grid => minus (baselineDecoded grid) grid)
  let currentError := sumOfSquares residual
  let isolatedGain := fun block =>
    currentError - sumOfSquares (plus residual (outputDelta samples grids block))
  let order := (List.range grids.length).mergeSort fun left right =>
    decide (isolatedGain right ≤ isolatedGain left)
  (greedy plus sumOfSquares (outputDelta samples grids)
    (fun block => useCandidate (grids.getD block [])) order ⟨residual, currentError, []⟩).selected

/-- A row with some of its blocks at the covering scale and the others at the baseline. -/
def rowWith (grids : List (List ℚ)) (selected : List Nat) : RowCodes where
  values := grids.flatten
  codes := grids.mapIdx fun block grid =>
    if block ∈ selected then coveringCode grid else baselineCode true grid
  indices := (grids.mapIdx fun block grid =>
    if block ∈ selected then coveringIndices grid else baselineIndices true grid).flatten

structure ColumnChange where
  delta : ℚ
  index : Nat
  isolatedGain : ℚ
  eligible : Bool

/-- The better neighbour of the level of a column. -/
def RowCodes.columnChange (samples : List (List ℚ)) (columns : Nat) (row : RowCodes)
    (column : Nat) : ColumnChange :=
  let residual := outputsOf samples (minus row.decoded row.values)
  let inputs := samples.map fun sample => sample.getD column 0
  let index := row.indices.getD column 0
  let scale := row.valueScales.getD column 0
  let sign := signOf (row.values.getD column 0)
  let baseline := level fp4E2m1Levels index * scale * sign
  let lowerIndex := index - 1
  let upperIndex := min (index + 1) (fp4E2m1Levels.length - 1)
  let lowerDelta := level fp4E2m1Levels lowerIndex * scale * sign - baseline
  let upperDelta := level fp4E2m1Levels upperIndex * scale * sign - baseline
  let correlation := dot residual inputs
  let energy := sumOfSquares inputs
  let lowerObjective := 2 * lowerDelta * correlation + lowerDelta * lowerDelta * energy
  let upperObjective := 2 * upperDelta * correlation + upperDelta * upperDelta * energy
  let useUpper := upperObjective < lowerObjective
  let delta := if useUpper then upperDelta else lowerDelta
  let isolatedGain := -(if useUpper then upperObjective else lowerObjective)
  ⟨delta, if useUpper then upperIndex else lowerIndex, isolatedGain,
    decide (delta ≠ 0 ∧ 0 < isolatedGain ∧ column < columns)⟩

def RowCodes.columnChanges (samples : List (List ℚ)) (columns : Nat) (row : RowCodes) :
    List ColumnChange :=
  (List.range row.values.length).map (row.columnChange samples columns)

/-- `-ranked_gain`. -/
def ColumnChange.key (change : ColumnChange) : WithTop ℚ :=
  if change.eligible then ((-change.isolatedGain : ℚ) : WithTop ℚ) else ⊤

def fp4ActivationMaximumCandidates : Nat := 64

section

variable (argpartition : List (WithTop ℚ) → Nat → List Nat)

/-- The candidate columns, by their key and then by their number. -/
def RowCodes.candidates (samples : List (List ℚ)) (columns : Nat) (row : RowCodes) : List Nat :=
  let keys := (row.columnChanges samples columns).map ColumnChange.key
  let candidateCount := min fp4ActivationMaximumCandidates row.values.length
  let partition := (argpartition keys (candidateCount - 1)).take candidateCount
  partition.mergeSort fun left right => decide (keys.getD left ⊤ < keys.getD right ⊤ ∨
    (keys.getD left ⊤ = keys.getD right ⊤ ∧ left ≤ right))

/-- What a change of a column adds to the outputs. -/
def RowCodes.contribution (samples : List (List ℚ)) (columns : Nat) (row : RowCodes)
    (column : Nat) : List ℚ :=
  samples.map fun sample =>
    sample.getD column 0 * (row.columnChange samples columns column).delta

/-- The columns whose codes change: the best prefix of the candidates, if it helps. -/
def RowCodes.selectColumns (samples : List (List ℚ)) (columns : Nat) (row : RowCodes) :
    List Nat :=
  let residual := outputsOf samples (minus row.decoded row.values)
  let eligible := fun column => (row.columnChange samples columns column).eligible
  let order := row.candidates argpartition samples columns
  let prefixSse := prefixErrors plus sumOfSquares residual
    (order.map (row.contribution samples columns))
  let bestRank := argmin prefixSse
  let eligibleCount := order.countP eligible
  if 0 < eligibleCount ∧ bestRank < eligibleCount ∧
      prefixSse.getD bestRank 0 < sumOfSquares residual then
    (order.take (bestRank + 1)).filter eligible
  else []

/-- A row with the codes of some columns at their better neighbours. -/
def RowCodes.withColumns (samples : List (List ℚ)) (columns : Nat) (row : RowCodes)
    (selected : List Nat) : RowCodes :=
  { row with
    indices := row.indices.mapIdx fun column index =>
      if column ∈ selected then (row.columnChange samples columns column).index else index }

/-- `_activation_aware_payload_indices`, with the count of the changes. -/
def activationAwarePayloadIndices (samples : List (List ℚ)) (columns : Nat)
    (rows : List RowCodes) : List RowCodes × Nat :=
  if rows.all fun row => (row.columnChanges samples columns).all fun change => !change.eligible then
    (rows, 0)
  else
    (rows.map fun row =>
        row.withColumns samples columns (row.selectColumns argpartition samples columns),
      (rows.map fun row => (row.selectColumns argpartition samples columns).length).sum)

/-- The rows of a chunk, and how many blocks and codes have changed. -/
def activationFp4Rows (selectPayloadCodes : Bool) (samples : List (List ℚ))
    (columns blocks count : Nat) (numeric : List ℚ) :
    Except String (List Encoded × Nat × Nat) := do
  demand (samples ≠ [] ∧ ∀ sample ∈ samples, sample.length = blocks * fp4QuantGroupSize)
    "invalid activation calibration"
  demand (numeric.length = count * columns) "short decoded rows"
  let grids := (List.range count).map fun row =>
    gridsOf fp4QuantGroupSize columns blocks ((numeric.drop (row * columns)).take columns)
  let selections := grids.map (selectCovering samples)
  let rows := List.zipWith rowWith grids selections
  let chosen := if selectPayloadCodes then
    activationAwarePayloadIndices argpartition samples columns rows else (rows, 0)
  .ok (chosen.1.map RowCodes.encoded, (selections.map List.length).sum, chosen.2)

end

/-- A row of `iter_scaled_fp4_e2m1_blocks`. -/
def decodeFp4Row : Bytes → Bytes → List ℚ
  | _, [] => []
  | payload, scale :: scales =>
    decodeFp4Block ⟨payload.take (fp4QuantGroupSize / 2), [scale]⟩ ++
      decodeFp4Row (payload.drop (fp4QuantGroupSize / 2)) scales

/-- The squared error of the outputs of a row on the samples. -/
def residualError (samples : List (List ℚ)) (padded : List ℚ) (encoded : Encoded) : ℚ :=
  sumOfSquares (outputsOf samples (minus (decodeFp4Row encoded.payload encoded.scales) padded))

end QuantumLlm.ExpertPack
