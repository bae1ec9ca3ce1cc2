import Mathlib.Algebra.Order.BigOperators.Group.List
import QuantumLlm.ExpertPack.BlocksExact

/-!
# Blocks decode to their nearest levels

What a block decodes to, and that a decoded block encodes to itself. Its elements are levels at
its scale; at the smaller scale that covers them they are levels again, since doubling a level
gives a level as long as the scale covers it.
-/

namespace QuantumLlm.ExpertPack

open Nearest List

def signed (negative : Bool) (magnitude : ℚ) : ℚ := if negative then -magnitude else magnitude

/-- A value as its nearest level at the scale of a code. -/
def quantized (levels : List ℚ) (code : Nat) (value : ℚ) : ℚ :=
  signed (decide (value < 0)) (level levels (scanned levels (|value| / blockScale code))) *
    blockScale code

theorem signed_abs (value : ℚ) : signed (decide (value < 0)) |value| = value := by
  unfold signed
  by_cases hnegative : value < 0
  · rw [decide_eq_true hnegative, if_pos rfl, abs_of_neg hnegative, neg_neg]
  · rw [decide_eq_false hnegative, if_neg Bool.false_ne_true, abs_of_nonneg (not_lt.1 hnegative)]

theorem abs_signed (negative : Bool) (magnitude : ℚ) : |signed negative magnitude| = |magnitude| := by
  unfold signed
  cases negative
  · rw [if_neg Bool.false_ne_true]
  · rw [if_pos rfl, abs_neg]

theorem quotient_nonneg (code : Nat) (value : ℚ) : 0 ≤ |value| / blockScale code :=
  div_nonneg (abs_nonneg _) (le_of_lt (blockScale_pos code))

/-- A table from zero on in which a level below half the bound has its double. -/
structure Doubling (levels : List ℚ) (bound : ℚ) : Prop where
  positive : 0 < bound
  increasing : levels.Pairwise (· < ·)
  two : 2 ≤ levels.length
  zero : level levels 0 = 0
  double : ∀ index < levels.length, 2 * level levels index < bound →
    ∃ other < levels.length, level levels other = 2 * level levels index

theorem fp4E2m1Levels_doubling : Doubling fp4E2m1Levels 8 :=
  ⟨by norm_num, by unfold fp4E2m1Levels; decide +kernel, by decide, rfl, by decide +kernel⟩

theorem mxfp6E3m2Levels_doubling : Doubling mxfp6E3m2Levels 32 :=
  ⟨by norm_num, by unfold mxfp6E3m2Levels; decide +kernel, by decide, rfl, by decide +kernel⟩

section

variable {levels : List ℚ} {bound : ℚ} (hlevels : Doubling levels bound)
include hlevels

variable {value : ℚ} {index code other : Nat}

theorem Doubling.inTable (h : 0 ≤ value) : InTable levels value :=
  ⟨hlevels.increasing, hlevels.two, by rw [hlevels.zero]; exact h⟩

theorem Doubling.level_nonneg (h : index < levels.length) :
    0 ≤ level levels index := by
  rw [← hlevels.zero]
  exact level_le hlevels.increasing (Nat.zero_le _) h

theorem Doubling.scanned_lt (h : 0 ≤ value) :
    scanned levels value < levels.length := (scanned_isNearest (hlevels.inTable h)).1

theorem Doubling.power (h : index < levels.length) (distance : Nat)
    (hbound : 2 ^ distance * level levels index < bound) :
    ∃ other < levels.length, level levels other = 2 ^ distance * level levels index := by
  induction distance with
  | zero => exact ⟨index, h, by rw [pow_zero, one_mul]⟩
  | succ distance ih =>
    have hnonneg := mul_nonneg (pow_nonneg (show (0 : ℚ) ≤ 2 by norm_num) distance)
      (hlevels.level_nonneg h)
    rw [pow_succ', mul_assoc] at hbound ⊢
    obtain ⟨other, hother, hlevel⟩ := ih (by linarith)
    rw [← hlevel] at hbound ⊢
    exact hlevels.double other hother hbound

theorem quantized_of_level (hother : other ≤ code) (hindex : index < levels.length)
    (hvalue : |value| = level levels index * blockScale code)
    (hbound : |value| < bound * blockScale other) : quantized levels other value = value := by
  obtain ⟨distance, rfl⟩ := Nat.exists_eq_add_of_le hother
  have hscale := blockScale_pos other
  have hquotient : |value| / blockScale other = 2 ^ distance * level levels index := by
    rw [hvalue, blockScale_add, div_eq_iff (ne_of_gt hscale)]
    ring
  obtain ⟨exact, hexact, hlevel⟩ := hlevels.power hindex distance (by
    rw [← hquotient, div_lt_iff₀ hscale]
    exact hbound)
  have hnearest : level levels (scanned levels (|value| / blockScale other)) *
      blockScale other = |value| := by
    rw [hquotient, ← hlevel, scanned_level hlevels.increasing hlevels.two hexact, hlevel,
      ← hquotient, div_mul_cancel₀ _ (ne_of_gt hscale)]
  have hsigned : quantized levels other value = signed (decide (value < 0))
      (level levels (scanned levels (|value| / blockScale other)) * blockScale other) := by
    unfold quantized signed
    split_ifs
    · rw [neg_mul]
    · rfl
  rw [hsigned, hnearest, signed_abs]

theorem quantized_zero (code : Nat) : quantized levels code 0 = 0 := by
  have hlength : 0 < levels.length := by
    have htwo := hlevels.two
    omega
  refine quantized_of_level hlevels (Nat.le_refl code) hlength ?_ ?_
  · rw [abs_zero, hlevels.zero, zero_mul]
  · rw [abs_zero]
    exact mul_pos hlevels.positive (blockScale_pos code)

theorem abs_quantized (code : Nat) (value : ℚ) : |quantized levels code value| =
    level levels (scanned levels (|value| / blockScale code)) * blockScale code := by
  unfold quantized
  rw [abs_mul, abs_signed, abs_of_pos (blockScale_pos code),
    abs_of_nonneg (hlevels.level_nonneg (hlevels.scanned_lt (quotient_nonneg code value)))]

theorem maximumOf_quantized_le {top : ℚ} (htop : ∀ index < levels.length, level levels index ≤ top)
    (code : Nat) (chunk : List ℚ) :
    maximumOf (chunk.map (quantized levels code)) ≤ top * blockScale code := by
  have hscale := le_of_lt (blockScale_pos code)
  have hbound : ∀ value, |quantized levels code value| ≤ top * blockScale code := by
    intro value
    rw [abs_quantized hlevels]
    exact mul_le_mul_of_nonneg_right (htop _ (hlevels.scanned_lt (quotient_nonneg code value)))
      hscale
  refine maximumOf_le (le_trans (abs_nonneg _) (hbound 0)) fun decoded hdecoded => ?_
  obtain ⟨value, -, rfl⟩ := mem_map.1 hdecoded
  exact hbound value

theorem quantized_again {chunk : List ℚ}
    (h : maximumOf (chunk.map (quantized levels code)) ≠ 0 → other ≤ code ∧
      maximumOf (chunk.map (quantized levels code)) < bound * blockScale other) :
    ∀ decoded ∈ chunk.map (quantized levels code), quantized levels other decoded = decoded := by
  intro decoded hdecoded
  have hmost := le_maximumOf hdecoded
  by_cases hzero : maximumOf (chunk.map (quantized levels code)) = 0
  · rw [hzero] at hmost
    rw [abs_eq_zero.1 (le_antisymm hmost (abs_nonneg _))]
    exact quantized_zero hlevels other
  · obtain ⟨hother, hbound⟩ := h hzero
    obtain ⟨value, -, rfl⟩ := mem_map.1 hdecoded
    exact quantized_of_level hlevels hother (hlevels.scanned_lt (quotient_nonneg code value))
      (abs_quantized hlevels code value) (lt_of_le_of_lt hmost hbound)

end

theorem fp4_level_le : ∀ index < fp4E2m1Levels.length, level fp4E2m1Levels index ≤ 6 := by
  decide +kernel

theorem mxfp6_level_le : ∀ index < mxfp6E3m2Levels.length, level mxfp6E3m2Levels index ≤ 28 := by
  decide +kernel

variable {code other : Nat} {chunk : List ℚ}

theorem leastCovering_quantized (hcode : code ≤ 254) (hone : 1 ≤ code)
    (h : LeastCovering 6 (maximumOf (chunk.map (quantized fp4E2m1Levels code))) other)
    (hne : maximumOf (chunk.map (quantized fp4E2m1Levels code)) ≠ 0) : other ≤ code ∧
      maximumOf (chunk.map (quantized fp4E2m1Levels code)) < 8 * blockScale other := by
  have hmost := maximumOf_quantized_le fp4E2m1Levels_doubling fp4_level_le code chunk
  have hother : other ≤ code := by
    by_contra hlater
    exact absurd hmost (not_le.2 (h.least hne code hone (by omega)))
  have hscale := blockScale_pos other
  refine ⟨hother, ?_⟩
  rcases h.covers hne with hcovers | hlast
  · linarith
  · have hsame : code = other := by omega
    rw [hsame] at hmost ⊢
    linarith

theorem greatestReached_quantized (hcode : code ≤ 254) (hone : 1 ≤ code)
    (h : GreatestReached 16 (maximumOf (chunk.map (quantized mxfp6E3m2Levels code))) other)
    (hne : maximumOf (chunk.map (quantized mxfp6E3m2Levels code)) ≠ 0) : other ≤ code ∧
      maximumOf (chunk.map (quantized mxfp6E3m2Levels code)) < 32 * blockScale other := by
  have hmost := maximumOf_quantized_le mxfp6E3m2Levels_doubling mxfp6_level_le code chunk
  have hscale := blockScale_pos code
  have hnext := blockScale_add code 1
  have hother : other ≤ code := by
    rcases h.reached hne with hreached | hfirst
    · by_contra hlater
      have hle := blockScale_le (show code + 1 ≤ other by omega)
      rw [hnext] at hle
      linarith
    · omega
  refine ⟨hother, ?_⟩
  rcases Nat.lt_or_eq_of_le hother with hlt | rfl
  · have hgreatest := h.greatest hne (other + 1) (by omega) (by omega)
    rw [blockScale_add] at hgreatest
    linarith
  · linarith

/-- The squared distance of a block from what it is at a code. -/
def distance (levels : List ℚ) (chunk : List ℚ) (code : Nat) : ℚ :=
  (chunk.map fun value => (quantized levels code value - value) ^ 2).sum

theorem distance_nonneg (levels : List ℚ) (chunk : List ℚ) (code : Nat) :
    0 ≤ distance levels chunk code := by
  refine sum_nonneg fun term hterm => ?_
  obtain ⟨value, -, rfl⟩ := mem_map.1 hterm
  exact sq_nonneg _

theorem distance_eq_zero {levels : List ℚ}
    (h : ∀ value ∈ chunk, quantized levels code value = value) :
    distance levels chunk code = 0 := by
  refine sum_eq_zero fun term hterm => ?_
  obtain ⟨value, hvalue, rfl⟩ := mem_map.1 hterm
  rw [h value hvalue, sub_self]
  norm_num

theorem quantized_error (levels : List ℚ) (code : Nat) (value : ℚ) :
    (level levels (scanned levels (|value| / blockScale code)) * blockScale code - |value|) ^ 2 =
      (quantized levels code value - value) ^ 2 := by
  unfold quantized signed
  by_cases hnegative : value < 0
  · rw [decide_eq_true hnegative, if_pos rfl, abs_of_neg hnegative]
    ring
  · rw [decide_eq_false hnegative, if_neg Bool.false_ne_true, abs_of_nonneg (not_lt.1 hnegative)]

theorem squaredError_eq (chunk : List ℚ) (code : Nat) :
    squaredError chunk code = distance fp4E2m1Levels chunk code := by
  unfold squaredError distance
  dsimp only
  congr 1
  refine map_congr_left fun value _ => ?_
  rw [abs_div_scale]
  exact quantized_error fp4E2m1Levels code value

variable {arithmetic : Arithmetic ℚ}

/-- The code of a block: the covering one, or with the option the lower of smaller distance. -/
def fp4Code (arithmetic : Arithmetic ℚ) (optimizeMse : Bool) (chunk : List ℚ) : Nat :=
  if optimizeMse then fp4MinErrorBlockCode (exactArithmetic arithmetic) chunk
  else fp4BlockCode (exactArithmetic arithmetic) chunk

theorem fp4Code_range (optimizeMse : Bool) (chunk : List ℚ) :
    1 ≤ fp4Code arithmetic optimizeMse chunk ∧ fp4Code arithmetic optimizeMse chunk ≤ 254 := by
  unfold fp4Code
  cases optimizeMse
  · exact fp4BlockCode_range chunk
  · exact fp4MinErrorBlockCode_range chunk

theorem fp4MinErrorBlockCode_exact (chunk : List ℚ) :
    fp4MinErrorBlockCode (exactArithmetic arithmetic) chunk =
      if 1 < fp4BlockCode (exactArithmetic arithmetic) chunk ∧
          distance fp4E2m1Levels chunk (fp4BlockCode (exactArithmetic arithmetic) chunk - 1) <
            distance fp4E2m1Levels chunk (fp4BlockCode (exactArithmetic arithmetic) chunk) then
        fp4BlockCode (exactArithmetic arithmetic) chunk - 1
      else fp4BlockCode (exactArithmetic arithmetic) chunk := by
  obtain ⟨hone, -⟩ := @fp4BlockCode_range ℚ (exactArithmetic arithmetic) chunk
  have hlower : ∀ candidate covering,
      (exactArithmetic arithmetic).lowerError chunk candidate covering =
        decide (distance fp4E2m1Levels chunk candidate < distance fp4E2m1Levels chunk covering) := by
    intro candidate covering
    rw [← squaredError_eq, ← squaredError_eq]
    rfl
  unfold fp4MinErrorBlockCode
  dsimp only
  generalize fp4BlockCode (exactArithmetic arithmetic) chunk = covering at hone
  rw [hlower, show fp4Ue8m0MinCode = 1 from rfl]
  by_cases hfirst : covering = 1
  · rw [hfirst, if_pos (show max 1 (1 - 1) = 1 from rfl),
      if_neg fun h => absurd h.1 (Nat.lt_irrefl 1)]
  · rw [Nat.max_eq_right (by omega), if_neg (by omega)]
    by_cases hless : distance fp4E2m1Levels chunk (covering - 1) <
        distance fp4E2m1Levels chunk covering
    · rw [decide_eq_true hless, if_pos rfl, if_pos ⟨by omega, hless⟩]
    · rw [decide_eq_false hless, if_neg Bool.false_ne_true, if_neg fun h => hless h.2]

theorem fp4E2m1Values_nibble : ∀ (index : Fin 8) (negative : Bool),
    (index.val ||| negative.toNat <<< 3) < 16 ∧
      fp4E2m1Values.getD (index.val ||| negative.toNat <<< 3) 0 =
        signed negative (level fp4E2m1Levels index.val) := by decide +kernel

theorem blockScale_byte (h : code ≤ 254) :
    blockScale (UInt8.ofNat code).toNat = blockScale code := by
  rw [UInt8.toNat_ofNat', Nat.mod_eq_of_lt (by omega)]

theorem fp4Block_decoded (optimizeMse : Bool) (h : chunk.length % 2 = 0) :
    decodeFp4Block (fp4Block (exactArithmetic arithmetic) optimizeMse chunk) =
      chunk.map (quantized fp4E2m1Levels (fp4Code arithmetic optimizeMse chunk)) := by
  have hrange := @fp4Code_range arithmetic optimizeMse chunk
  unfold decodeFp4Block fp4Block
  change (unpackNibbles (fp4PackNibbles (chunk.map fun value =>
    ((exactArithmetic arithmetic).nearestIndex (fp4Code arithmetic optimizeMse chunk) value,
      (exactArithmetic arithmetic).negative (fp4Code arithmetic optimizeMse chunk) value)))).map
    (fun code => fp4E2m1Values.getD code 0 *
      blockScale (UInt8.ofNat (fp4Code arithmetic optimizeMse chunk)).toNat) = _
  generalize fp4Code arithmetic optimizeMse chunk = code at hrange
  rw [blockScale_byte hrange.2, fp4PackNibbles_eq, unpackNibbles_packPairs, map_map, map_map]
  · refine map_congr_left fun value _ => ?_
    rw [Function.comp_apply, Function.comp_apply, (fp4E2m1Values_nibble _ _).2,
      nearestIndex_val, abs_div_scale]
    have hsign : (exactArithmetic arithmetic).negative code value = decide (value < 0) :=
      decide_eq_decide.2 (div_scale_neg code value)
    rw [hsign]
    rfl
  · intro nibble hnibble
    obtain ⟨pair, -, rfl⟩ := mem_map.1 hnibble
    exact (fp4E2m1Values_nibble pair.1 pair.2).1
  · rw [length_map, length_map]
    exact h

theorem fp4Block_again (first second : Bool) (h : chunk.length % 2 = 0) :
    decodeFp4Block (fp4Block (exactArithmetic arithmetic) second
      (decodeFp4Block (fp4Block (exactArithmetic arithmetic) first chunk))) =
        decodeFp4Block (fp4Block (exactArithmetic arithmetic) first chunk) := by
  rw [fp4Block_decoded first h, fp4Block_decoded second (by rw [length_map]; exact h)]
  obtain ⟨hone, hlast⟩ := @fp4Code_range arithmetic first chunk
  generalize fp4Code arithmetic first chunk = code at hone hlast
  have hagain := quantized_again fp4E2m1Levels_doubling (leastCovering_quantized hlast hone
    (@fp4BlockCode_least arithmetic (chunk.map (quantized fp4E2m1Levels code))))
  have hcode : fp4Code arithmetic second (chunk.map (quantized fp4E2m1Levels code)) =
      fp4BlockCode (exactArithmetic arithmetic) (chunk.map (quantized fp4E2m1Levels code)) := by
    unfold fp4Code
    cases second
    · rfl
    · rw [if_pos rfl, fp4MinErrorBlockCode_exact, distance_eq_zero hagain, if_neg]
      exact fun hless => absurd hless.2 (not_lt.2 (distance_nonneg _ _ _))
  rw [hcode]
  exact (map_congr_left hagain).trans (map_id _)

theorem decodeMxfp6_code : ∀ (index : Fin 32) (negative : Bool),
    (index.val ||| negative.toNat <<< 5) < 64 ∧
      (decodeMxfp6E3m2Times16 (index.val ||| negative.toNat <<< 5) : ℚ) * (1 / 16) =
        signed negative (level mxfp6E3m2Levels index.val) := by decide +kernel

/-- The 6-bit code of a value at a scale. -/
def mxfp6CodeOf (code : Nat) (value : ℚ) : Nat :=
  scanned mxfp6E3m2Levels (|value| / blockScale code) ||| (decide (value < 0)).toNat <<< 5

theorem mxfp6CodeOf_decoded (code : Nat) (value : ℚ) : mxfp6CodeOf code value < 64 ∧
    (decodeMxfp6E3m2Times16 (mxfp6CodeOf code value) : ℚ) * (1 / 16) * blockScale code =
      quantized mxfp6E3m2Levels code value := by
  have hindex := mxfp6_scanned_lt (quotient_nonneg code value)
  obtain ⟨hsize, hvalue⟩ := decodeMxfp6_code ⟨_, hindex⟩ (decide (value < 0))
  unfold mxfp6CodeOf
  refine ⟨hsize, ?_⟩
  rw [hvalue]
  rfl

theorem mxfp6Block_eq (chunk : List ℚ) : mxfp6Block chunk =
    if chunk.length % 4 = 0 then
      .ok ⟨packGroups (chunk.map (mxfp6CodeOf (mxfp6BlockCode (maximumOf chunk)))),
        [UInt8.ofNat (mxfp6BlockCode (maximumOf chunk))]⟩
    else .error "MXFP6 code count must be divisible by four" := by
  have hcodes : (fun value : ℚ =>
      scanned mxfp6E3m2Levels |value / blockScale (mxfp6BlockCode (maximumOf chunk))| |||
        if value < 0 then 0x20 else 0) = mxfp6CodeOf (mxfp6BlockCode (maximumOf chunk)) := by
    funext value
    unfold mxfp6CodeOf
    rw [abs_div_scale]
    by_cases hnegative : value < 0
    · rw [if_pos hnegative, decide_eq_true hnegative]
      rfl
    · rw [if_neg hnegative, decide_eq_false hnegative]
      rfl
  unfold mxfp6Block mxfp6PackCodes
  dsimp only
  rw [hcodes, length_map]
  by_cases hlength : chunk.length % 4 = 0
  · rw [if_pos hlength, demand, if_pos hlength]
    rfl
  · rw [if_neg hlength, demand, if_neg hlength]
    rfl

theorem decodeMxfp6Block_packed {code : Nat} (hcode : code ≤ 254) {chunk : List ℚ}
    (h : chunk.length % 4 = 0) :
    decodeMxfp6Block chunk.length
      ⟨packGroups (chunk.map (mxfp6CodeOf code)), [UInt8.ofNat code]⟩ =
        chunk.map (quantized mxfp6E3m2Levels code) := by
  have hunpacked := @mxfp6Code_packGroups (chunk.map (mxfp6CodeOf code))
    (fun packed hpacked => by
      obtain ⟨value, -, rfl⟩ := mem_map.1 hpacked
      exact (mxfp6CodeOf_decoded code value).1) (by rw [length_map]; exact h)
  rw [length_map] at hunpacked
  have hsplit : decodeMxfp6Block chunk.length
      ⟨packGroups (chunk.map (mxfp6CodeOf code)), [UInt8.ofNat code]⟩ =
        ((List.range chunk.length).map (mxfp6Code (packGroups (chunk.map (mxfp6CodeOf code))))).map
          fun packed => (decodeMxfp6E3m2Times16 packed : ℚ) * (1 / 16) *
            blockScale (UInt8.ofNat code).toNat := by
    unfold decodeMxfp6Block
    rw [map_map]
    rfl
  rw [hsplit, hunpacked, blockScale_byte hcode, map_map]
  exact map_congr_left fun value _ => (mxfp6CodeOf_decoded code value).2

/-- A block decodes to the nearest levels at its code, and these decode to themselves again. -/
theorem mxfp6Block_decoded (h : chunk.length % 4 = 0) :
    ∃ encoded again, mxfp6Block chunk = .ok encoded ∧
      decodeMxfp6Block chunk.length encoded =
        chunk.map (quantized mxfp6E3m2Levels (mxfp6BlockCode (maximumOf chunk))) ∧
      mxfp6Block (decodeMxfp6Block chunk.length encoded) = .ok again ∧
      decodeMxfp6Block chunk.length again = decodeMxfp6Block chunk.length encoded := by
  obtain ⟨hone, hlast⟩ := (mxfp6BlockCode_greatest (maximumOf_nonneg chunk)).range
  have hdecoded := decodeMxfp6Block_packed hlast h
  generalize hcode : mxfp6BlockCode (maximumOf chunk) = code at *
  have hgreatest := mxfp6BlockCode_greatest
    (maximumOf_nonneg (chunk.map (quantized mxfp6E3m2Levels code)))
  have hagain := quantized_again mxfp6E3m2Levels_doubling
    (greatestReached_quantized hlast hone hgreatest)
  have hsecond := @decodeMxfp6Block_packed _ hgreatest.range.2
    (chunk.map (quantized mxfp6E3m2Levels code)) (by rw [length_map]; exact h)
  rw [length_map, map_congr_left hagain, map_id'] at hsecond
  have hblock := mxfp6Block_eq (chunk.map (quantized mxfp6E3m2Levels code))
  rw [length_map, if_pos h] at hblock
  exact ⟨_, _, by rw [mxfp6Block_eq, if_pos h, hcode], hdecoded, by rw [hdecoded, hblock],
    by rw [hdecoded, hsecond]⟩

end QuantumLlm.ExpertPack
