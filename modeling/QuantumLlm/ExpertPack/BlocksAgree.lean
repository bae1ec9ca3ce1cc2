import Mathlib.Algebra.BigOperators.Ring.List
import QuantumLlm.ExpertPack.BlocksDecoded

/-!
# NumPy writes the same rows

The scale that NumPy takes from `frexp`, its binary search and its errors, which are in units of
the covering scale, lead to the bytes of the standard library on every row.
-/

namespace QuantumLlm.ExpertPack

open Nearest List

theorem encodeRows_ok (part : Nat → Encoded) (count : Nat) :
    encodeRows (fun index => .ok (part index)) count =
      .ok ⟨(List.range count).flatMap fun index => (part index).payload,
        (List.range count).flatMap fun index => (part index).scales⟩ := by
  induction count with
  | zero => rfl
  | succ count ih =>
    rw [encodeRows, ih, range_succ, flatMap_append, flatMap_append,
      flatMap_singleton, flatMap_singleton]
    rfl

theorem encodeRows_congr {row other : Nat → Except String Encoded} {count : Nat}
    (h : ∀ index < count, row index = other index) :
    encodeRows row count = encodeRows other count := by
  induction count with
  | zero => rfl
  | succ count ih =>
    rw [encodeRows, encodeRows, ih fun index hindex => h index (by omega),
      h count (Nat.lt_succ_self count)]

variable {groupSize columns blocks chunkRows : Nat} {values grid : List ℚ}
  {codes : List ℚ → List Nat} {grids rows : List (List ℚ)}

theorem mem_gridsOf (hvalues : values.length = columns) (hcolumns : columns ≤ blocks * groupSize)
    (h : grid ∈ gridsOf groupSize columns blocks values) : grid.length = groupSize := by
  obtain ⟨block, hblock, rfl⟩ := mem_map.1 h
  have hlater := Nat.mul_le_mul_right groupSize (mem_range.1 hblock)
  rw [Nat.succ_mul] at hlater
  rw [length_take, length_drop, length_append, length_replicate, hvalues]
  omega

theorem packPairs_flatMap (h : ∀ grid ∈ grids, (codes grid).length % 2 = 0) :
    packPairs (grids.flatMap codes) = grids.flatMap fun grid => packPairs (codes grid) := by
  induction grids with
  | nil => rfl
  | cons grid rest ih =>
    rw [flatMap_cons, flatMap_cons, packPairs_append (h grid mem_cons_self),
      ih fun other hother => h other (mem_cons_of_mem _ hother)]

theorem packGroups_flatMap (h : ∀ grid ∈ grids, (codes grid).length % 4 = 0) :
    packGroups (grids.flatMap codes) = grids.flatMap fun grid => packGroups (codes grid) := by
  induction grids with
  | nil => rfl
  | cons grid rest ih =>
    rw [flatMap_cons, flatMap_cons, packGroups_append (h grid mem_cons_self),
      ih fun other hother => h other (mem_cons_of_mem _ hother)]

theorem numpyRows_eq {row : List ℚ → Encoded} (hchunk : 0 < chunkRows)
    (rounds : Nat) (h : rows.length ≤ rounds) :
    numpyRows row chunkRows rounds rows =
      ⟨rows.flatMap fun values => (row values).payload,
        rows.flatMap fun values => (row values).scales⟩ := by
  induction rounds generalizing rows with
  | zero =>
    rw [length_eq_zero_iff.1 (Nat.le_zero.1 h)]
    rfl
  | succ rounds ih =>
    cases rows with
    | nil => rfl
    | cons first rest =>
      have hshorter : ((first :: rest).drop chunkRows).length ≤ rounds := by
        rw [length_drop]
        omega
      have hne : first :: rest = [] → False := fun hnil => cons_ne_nil first rest hnil
      have hwhole : ∀ part : List ℚ → Bytes,
          ((first :: rest).take chunkRows).flatMap part ++
            ((first :: rest).drop chunkRows).flatMap part = (first :: rest).flatMap part := by
        intro part
        rw [← flatMap_append, take_append_drop]
      rw [numpyRows.eq_3 row chunkRows (first :: rest) rounds hne, ih hshorter]
      rw [flatMap_map, flatMap_map, hwhole, hwhole]

/-! ## FP4 -/

theorem coveringCode_range (grid : List ℚ) :
    1 ≤ coveringCode grid ∧ coveringCode grid ≤ 254 := by
  unfold coveringCode
  by_cases hzero : maximumOf grid = 0
  · rw [if_neg (not_not.2 hzero)]
    omega
  · rw [if_pos hzero]
    exact clampCode_range _

variable {arithmetic : Arithmetic ℚ}

theorem searched_quotient (code : Nat) (value : ℚ) :
    searched fp4E2m1Levels (|value| / blockScale code) =
      scanned fp4E2m1Levels (|value| / blockScale code) :=
  searched_eq_scanned (fp4E2m1Levels_inTable (quotient_nonneg code value))

theorem quotient_half {code : Nat} (hcode : 1 < code) (value : ℚ) :
    |value| / blockScale code * 2 = |value| / blockScale (code - 1) := by
  have hscale := blockScale_add (code - 1) 1
  rw [Nat.sub_add_cancel (by omega)] at hscale
  rw [hscale]
  field_simp

theorem coveringError_scaled (grid : List ℚ) : squaredError grid (coveringCode grid) =
    blockScale (coveringCode grid) ^ 2 * coveringError grid := by
  have hscale := ne_of_gt (blockScale_pos (coveringCode grid))
  unfold squaredError coveringError coveringMagnitudes
  dsimp only
  rw [map_map, ← sum_map_mul_left]
  congr 1
  refine map_congr_left fun value _ => ?_
  rw [Function.comp_apply, searched_quotient, abs_div_scale]
  field_simp

theorem candidateError_scaled (hcode : 1 < coveringCode grid) :
    squaredError grid (coveringCode grid - 1) =
      blockScale (coveringCode grid) ^ 2 * candidateError grid := by
  have hscale := ne_of_gt (blockScale_pos (coveringCode grid))
  have hhalf : blockScale (coveringCode grid - 1) = 1 / 2 * blockScale (coveringCode grid) := by
    have hdouble := blockScale_add (coveringCode grid - 1) 1
    rw [Nat.sub_add_cancel (by omega)] at hdouble
    linarith
  unfold squaredError candidateError coveringMagnitudes
  dsimp only
  rw [map_map, ← sum_map_mul_left]
  congr 1
  refine map_congr_left fun value _ => ?_
  rw [Function.comp_apply, quotient_half hcode, searched_quotient, abs_div_scale]
  rw [hhalf]
  field_simp

theorem baselineCode_eq (optimizeMse : Bool) (grid : List ℚ) :
    baselineCode optimizeMse grid = fp4Code arithmetic optimizeMse grid := by
  have hcovering := @coveringCode_eq arithmetic grid
  obtain ⟨hone, -⟩ := coveringCode_range grid
  unfold baselineCode fp4Code
  cases optimizeMse with
  | false => exact hcovering
  | true =>
    rw [if_pos rfl, fp4MinErrorBlockCode_exact, ← hcovering, Bool.true_and, ← squaredError_eq,
      ← squaredError_eq, coveringError_scaled]
    unfold useCandidate candidateCode
    rw [show fp4Ue8m0MinCode = 1 from rfl]
    by_cases hfirst : coveringCode grid = 1
    · rw [hfirst, if_neg (fun h => (of_decide_eq_true h).1 rfl),
        if_neg fun h => absurd h.1 (Nat.lt_irrefl 1)]
    · have hless : squaredError grid (coveringCode grid - 1) <
          blockScale (coveringCode grid) ^ 2 * coveringError grid ↔
            candidateError grid < coveringError grid := by
        rw [candidateError_scaled (by omega),
          mul_lt_mul_iff_right₀ (pow_pos (blockScale_pos (coveringCode grid)) 2)]
      rw [Nat.max_eq_right (by omega)]
      by_cases hlower : candidateError grid < coveringError grid
      · rw [if_pos (decide_eq_true ⟨by omega, hlower⟩), if_pos ⟨by omega, hless.2 hlower⟩]
      · rw [if_neg (fun h => hlower (of_decide_eq_true h).2), if_neg fun h => hlower (hless.1 h.2)]

theorem baselineIndices_eq (optimizeMse : Bool) (grid : List ℚ) :
    baselineIndices optimizeMse grid = grid.map fun value =>
      scanned fp4E2m1Levels (|value| / blockScale (baselineCode optimizeMse grid)) := by
  have hcovering : coveringIndices grid = grid.map fun value =>
      scanned fp4E2m1Levels (|value| / blockScale (coveringCode grid)) := by
    unfold coveringIndices coveringMagnitudes
    rw [map_map]
    exact map_congr_left fun value _ => searched_quotient _ value
  unfold baselineIndices baselineCode
  by_cases huse : (optimizeMse && useCandidate grid) = true
  · rw [if_pos huse, if_pos huse]
    rw [Bool.and_eq_true] at huse
    have hne := (of_decide_eq_true huse.2).1
    obtain ⟨hone, -⟩ := coveringCode_range grid
    have hcode : candidateCode grid = coveringCode grid - 1 ∧ 1 < coveringCode grid := by
      unfold candidateCode fp4Ue8m0MinCode at hne ⊢
      omega
    unfold candidateIndices coveringMagnitudes
    rw [map_map, hcode.1]
    refine map_congr_left fun value _ => ?_
    rw [Function.comp_apply, quotient_half hcode.2, searched_quotient]
  · rw [if_neg huse, if_neg huse, hcovering]

theorem fp4Block_numpy (optimizeMse : Bool) (grid : List ℚ) :
    fp4Block (exactArithmetic arithmetic) optimizeMse grid =
      ⟨packPairs (nibblesOf grid (baselineIndices optimizeMse grid)),
        [UInt8.ofNat (baselineCode optimizeMse grid)]⟩ := by
  have hcode := @baselineCode_eq arithmetic optimizeMse grid
  have hnibbles : nibblesOf grid (baselineIndices optimizeMse grid) = grid.map fun value =>
      scanned fp4E2m1Levels (|value| / blockScale (baselineCode optimizeMse grid)) |||
        (decide (value < 0)).toNat <<< 3 := by
    unfold nibblesOf
    rw [baselineIndices_eq, zipWith_map_right, zipWith_self]
  rw [hnibbles]
  change (⟨fp4PackNibbles (grid.map fun value =>
    ((exactArithmetic arithmetic).nearestIndex (fp4Code arithmetic optimizeMse grid) value,
      (exactArithmetic arithmetic).negative (fp4Code arithmetic optimizeMse grid) value)),
    [UInt8.ofNat (fp4Code arithmetic optimizeMse grid)]⟩ : Encoded) = _
  rw [← hcode, fp4PackNibbles_eq, map_map]
  congr 2
  refine map_congr_left fun value _ => ?_
  have hsign : (exactArithmetic arithmetic).negative (baselineCode optimizeMse grid) value =
      decide (value < 0) := decide_eq_decide.2 (div_scale_neg _ value)
  rw [Function.comp_apply, hsign, nearestIndex_val, abs_div_scale]

theorem nibblesOf_length (optimizeMse : Bool) (grid : List ℚ) :
    (nibblesOf grid (baselineIndices optimizeMse grid)).length = grid.length := by
  unfold nibblesOf
  rw [baselineIndices_eq, length_zipWith, length_map, Nat.min_self]

theorem fp4Row_numpy (optimizeMse : Bool)
    (hvalues : values.length = columns) (hcolumns : columns ≤ blocks * fp4QuantGroupSize) :
    fp4Row (exactArithmetic arithmetic) optimizeMse columns blocks values =
      .ok (numpyFp4Row optimizeMse columns blocks values) := by
  have hfinite : values.all (exactArithmetic arithmetic).finite = true :=
    all_eq_true.2 fun value _ => rfl
  have hnibbles : ∀ grid ∈ gridsOf fp4QuantGroupSize columns blocks values,
      (nibblesOf grid (baselineIndices optimizeMse grid)).length % 2 = 0 := by
    intro grid hgrid
    rw [nibblesOf_length, mem_gridsOf hvalues hcolumns hgrid]
    rfl
  unfold fp4Row
  rw [demand, if_pos hfinite, demand, if_pos hvalues]
  rw [encodeRows_ok]
  unfold numpyFp4Row
  dsimp only
  rw [packPairs_flatMap hnibbles]
  unfold gridsOf
  rw [flatMap_map, map_map, map_eq_flatMap]
  simp only [fp4Block_numpy]
  rfl

theorem numpyMxfp6Codes_eq (grid : List ℚ) :
    numpyMxfp6Codes grid = grid.map (mxfp6CodeOf (mxfp6BlockCode (maximumOf grid))) := by
  unfold numpyMxfp6Codes mxfp6CodeOf
  rw [numpyMxfp6Code_eq]
  refine map_congr_left fun value _ => ?_
  dsimp only
  rw [abs_div_scale, searched_eq_scanned (mxfp6E3m2Levels_inTable (quotient_nonneg _ value)),
    decide_eq_decide.2 (div_scale_neg _ value)]

theorem mxfp6Row_numpy
    (hvalues : values.length = columns) (hcolumns : columns ≤ blocks * mxfp6QuantGroupSize) :
    mxfp6Row columns blocks values = .ok (numpyMxfp6Row columns blocks values) := by
  have hcodes : ∀ grid ∈ gridsOf mxfp6QuantGroupSize columns blocks values,
      (numpyMxfp6Codes grid).length % 4 = 0 := by
    intro grid hgrid
    rw [numpyMxfp6Codes_eq, length_map, mem_gridsOf hvalues hcolumns hgrid]
    rfl
  unfold mxfp6Row
  rw [demand, if_pos hvalues]
  have hblock : ∀ block < blocks, mxfp6Block (((values ++
      List.replicate (blocks * mxfp6QuantGroupSize - columns) 0).drop
        (block * mxfp6QuantGroupSize)).take mxfp6QuantGroupSize) = .ok
          ⟨packGroups (numpyMxfp6Codes (((values ++
            List.replicate (blocks * mxfp6QuantGroupSize - columns) 0).drop
              (block * mxfp6QuantGroupSize)).take mxfp6QuantGroupSize)),
            [UInt8.ofNat (numpyMxfp6Code (((values ++
              List.replicate (blocks * mxfp6QuantGroupSize - columns) 0).drop
                (block * mxfp6QuantGroupSize)).take mxfp6QuantGroupSize))]⟩ := by
    intro block hblock
    have hlength := hcodes _ (mem_map_of_mem (mem_range.2 hblock))
    rw [numpyMxfp6Codes_eq, length_map] at hlength
    rw [mxfp6Block_eq, if_pos hlength, numpyMxfp6Codes_eq, numpyMxfp6Code_eq]
  rw [encodeRows_congr hblock, encodeRows_ok]
  unfold numpyMxfp6Row
  dsimp only
  rw [packGroups_flatMap hcodes]
  unfold gridsOf
  rw [flatMap_map, map_map, map_eq_flatMap]
  rfl

/-! ## The encoders -/

/-- The blocks of a row. -/
def rowBlocks (groupSize columns : Nat) : Nat := (columns + groupSize - 1) / groupSize

theorem le_rowBlocks (h : 0 < groupSize) (columns : Nat) :
    columns ≤ rowBlocks groupSize columns * groupSize := by
  unfold rowBlocks
  have hmod := Nat.mod_add_div (columns + groupSize - 1) groupSize
  have hlt := Nat.mod_lt (columns + groupSize - 1) h
  rw [Nat.mul_comm] at hmod
  omega

theorem rows_numpy {row : List ℚ → Except String Encoded} {numpyRow : List ℚ → Encoded}
    (h : ∀ values ∈ rows, row values = .ok (numpyRow values)) (hchunk : 0 < chunkRows) :
    encodeRows (fun index => row (rows.getD index [])) rows.length =
      .ok (numpyRows numpyRow chunkRows rows.length rows) := by
  have hrows : ∀ index < rows.length, row (rows.getD index []) =
      .ok (numpyRow (rows.getD index [])) := by
    intro index hindex
    rw [getD_eq_getElem?_getD, getElem?_eq_getElem hindex, Option.getD_some]
    exact h _ (getElem_mem hindex)
  have hlisted : (List.range rows.length).map (fun index => rows.getD index []) = rows := by
    refine ext_getElem (by rw [length_map, length_range]) fun index _ hindex => ?_
    rw [getElem_map, getElem_range, getD_eq_getElem?_getD,
      getElem?_eq_getElem hindex, Option.getD_some]
  have hpart : ∀ part : List ℚ → Bytes, (List.range rows.length).flatMap
      (fun index => part (rows.getD index [])) = rows.flatMap part := by
    intro part
    rw [← flatMap_map, hlisted]
  rw [encodeRows_congr hrows, encodeRows_ok, numpyRows_eq hchunk _ (Nat.le_refl _),
    hpart fun values => (numpyRow values).payload, hpart fun values => (numpyRow values).scales]

/-- Every element of a block is decoded to its nearest level at a code, and of two equally near
ones to the even. -/
def AtCode (levels : List ℚ) (code : Nat) (chunk decoded : List ℚ) : Prop :=
  List.Forall₂ (fun value result => ∃ index,
    IsNearest levels (|value| / blockScale code) index ∧
      result = signed (decide (value < 0)) (level levels index) * blockScale code) chunk decoded

theorem Doubling.atCode {levels : List ℚ} {bound : ℚ} (hlevels : Doubling levels bound)
    (code : Nat) (chunk : List ℚ) : AtCode levels code chunk (chunk.map (quantized levels code)) := by
  unfold AtCode
  rw [forall₂_map_right_iff, forall₂_same]
  exact fun value _ =>
    ⟨_, scanned_isNearest (hlevels.inTable (quotient_nonneg code value)), rfl⟩

/-- The FP4 encoder: its covering scale, its choice of the lower one, the levels, the return to
a decoded block, the packing, and the rows of NumPy. -/
structure Fp4Exact (arithmetic : Arithmetic ℚ) : Prop where
  covering : ∀ chunk, LeastCovering 6 (maximumOf chunk) (fp4Code arithmetic false chunk)
  smaller : ∀ chunk, fp4Code arithmetic true chunk =
    if 1 < fp4Code arithmetic false chunk ∧
        distance fp4E2m1Levels chunk (fp4Code arithmetic false chunk - 1) <
          distance fp4E2m1Levels chunk (fp4Code arithmetic false chunk) then
      fp4Code arithmetic false chunk - 1
    else fp4Code arithmetic false chunk
  decoded : ∀ optimizeMse chunk, chunk.length % 2 = 0 →
    (fp4Block (exactArithmetic arithmetic) optimizeMse chunk).scales =
        [UInt8.ofNat (fp4Code arithmetic optimizeMse chunk)] ∧
      AtCode fp4E2m1Levels (fp4Code arithmetic optimizeMse chunk) chunk
        (decodeFp4Block (fp4Block (exactArithmetic arithmetic) optimizeMse chunk))
  again : ∀ first second chunk, chunk.length % 2 = 0 →
    decodeFp4Block (fp4Block (exactArithmetic arithmetic) second
      (decodeFp4Block (fp4Block (exactArithmetic arithmetic) first chunk))) =
        decodeFp4Block (fp4Block (exactArithmetic arithmetic) first chunk)
  unpacked : ∀ codes : List Nat, (∀ code ∈ codes, code < 16) → codes.length % 2 = 0 →
    unpackNibbles (packPairs codes) = codes
  rows : ∀ optimizeMse columns chunkRows rows, 0 < chunkRows →
    (∀ values ∈ rows, values.length = columns) →
      encodeRows (fun index => fp4Row (exactArithmetic arithmetic) optimizeMse columns
        (rowBlocks fp4QuantGroupSize columns) (rows.getD index [])) rows.length =
          .ok (numpyRows (numpyFp4Row optimizeMse columns (rowBlocks fp4QuantGroupSize columns))
            chunkRows rows.length rows)

/-- The MXFP6 encoder, whose scale is the greatest that the maximum reaches sixteen times. -/
structure Mxfp6Exact : Prop where
  reached : ∀ chunk, GreatestReached 16 (maximumOf chunk) (mxfp6BlockCode (maximumOf chunk))
  decoded : ∀ chunk, chunk.length % 4 = 0 → ∃ encoded again, mxfp6Block chunk = .ok encoded ∧
    encoded.scales = [UInt8.ofNat (mxfp6BlockCode (maximumOf chunk))] ∧
    AtCode mxfp6E3m2Levels (mxfp6BlockCode (maximumOf chunk)) chunk
      (decodeMxfp6Block chunk.length encoded) ∧
    mxfp6Block (decodeMxfp6Block chunk.length encoded) = .ok again ∧
    decodeMxfp6Block chunk.length again = decodeMxfp6Block chunk.length encoded
  unpacked : ∀ codes : List Nat, (∀ code ∈ codes, code < 64) → codes.length % 4 = 0 →
    ∃ packed, mxfp6PackCodes codes = .ok packed ∧
      (List.range codes.length).map (mxfp6Code packed) = codes
  rows : ∀ columns chunkRows rows, 0 < chunkRows → (∀ values ∈ rows, values.length = columns) →
    encodeRows (fun index => mxfp6Row columns (rowBlocks mxfp6QuantGroupSize columns)
      (rows.getD index [])) rows.length =
        .ok (numpyRows (numpyMxfp6Row columns (rowBlocks mxfp6QuantGroupSize columns))
          chunkRows rows.length rows)

theorem mxfp6_exact : Mxfp6Exact where
  reached := fun chunk => mxfp6BlockCode_greatest (maximumOf_nonneg chunk)
  decoded := fun chunk hchunk => by
    obtain ⟨encoded, again, hencoded, hdecoded, hagain, hsame⟩ := mxfp6Block_decoded hchunk
    refine ⟨encoded, again, hencoded, ?_, ?_, hagain, hsame⟩
    · rw [mxfp6Block_eq, if_pos hchunk] at hencoded
      cases hencoded
      rfl
    · rw [hdecoded]
      exact mxfp6E3m2Levels_doubling.atCode _ chunk
  unpacked := fun codes hcodes hlength => by
    refine ⟨packGroups codes, ?_, mxfp6Code_packGroups hcodes hlength⟩
    rw [mxfp6PackCodes, demand, if_pos hlength]
    rfl
  rows := fun columns chunkRows rows hchunk hrows => rows_numpy (fun values hvalues =>
    mxfp6Row_numpy (hrows values hvalues) (le_rowBlocks (by decide) columns)) hchunk

theorem fp4_exact (arithmetic : Arithmetic ℚ) : Fp4Exact arithmetic where
  covering := fun chunk => fp4BlockCode_least chunk
  smaller := fun chunk => fp4MinErrorBlockCode_exact chunk
  decoded := fun optimizeMse chunk hchunk => by
    refine ⟨rfl, ?_⟩
    rw [fp4Block_decoded optimizeMse hchunk]
    exact fp4E2m1Levels_doubling.atCode _ chunk
  again := fun first second chunk hchunk => fp4Block_again first second hchunk
  unpacked := fun codes hcodes hlength => unpackNibbles_packPairs hcodes hlength
  rows := fun optimizeMse columns chunkRows rows hchunk hrows => rows_numpy (fun values hvalues =>
    fp4Row_numpy optimizeMse (hrows values hvalues) (le_rowBlocks (by decide) columns)) hchunk

theorem blocks_exact (arithmetic : Arithmetic ℚ) : Fp4Exact arithmetic ∧ Mxfp6Exact :=
  ⟨fp4_exact arithmetic, mxfp6_exact⟩

/-- A maximum of 31 gets the scale one, up to 28, although that of two covers it. An odd nibble
is not packed, and a count of codes that four does not divide is refused. -/
theorem mxfp6_scale_below_maximum : maximumOf [31, 0, 0, 0] = 31 ∧
    (mxfp6Block [31, 0, 0, 0]).map Encoded.scales = .ok [127] ∧
    28 * blockScale 127 < 31 ∧ 31 ≤ 28 * blockScale 128 ∧
    ¬ LeastCovering 28 (maximumOf [31, 0, 0, 0]) (mxfp6BlockCode (maximumOf [31, 0, 0, 0])) ∧
    unpackNibbles (packPairs [1]) = [] ∧
    mxfp6PackCodes [1] = .error "MXFP6 code count must be divisible by four" := by
  have hcode : mxfp6BlockCode 31 = 127 := by decide +kernel
  refine ⟨by decide +kernel, by decide +kernel, by decide +kernel, by decide +kernel, ?_,
    by decide +kernel, by decide +kernel⟩
  rw [show maximumOf [31, 0, 0, 0] = 31 by decide +kernel, hcode]
  intro h
  rcases h.covers (by norm_num) with hcovers | hlast
  · exact absurd hcovers (by decide +kernel)
  · exact absurd hlast (by decide)

end QuantumLlm.ExpertPack
