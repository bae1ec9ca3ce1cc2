import QuantumLlm.ExpertPack.ActivationAware
import QuantumLlm.ExpertPack.BlocksAgree

/-!
# Activation-aware rows are no worse

The running residual is that of the row with the accepted changes, of whole blocks first and of
single columns then, so that the row that is written has at most the error of the baseline.
-/

namespace QuantumLlm.ExpertPack

open Nearest Descent List

theorem plus_comm (left right : List ℚ) : plus left right = plus right left := by
  unfold plus
  induction left generalizing right with
  | nil => cases right <;> rfl
  | cons first rest ih =>
    cases right with
    | nil => rfl
    | cons other others => rw [zipWith_cons_cons, zipWith_cons_cons, ih, add_comm]

theorem plus_assoc (left middle right : List ℚ) :
    plus (plus left middle) right = plus left (plus middle right) := by
  unfold plus
  induction left generalizing middle right with
  | nil => rfl
  | cons first rest ih =>
    cases middle with
    | nil => rfl
    | cons other others =>
      cases right with
      | nil => rfl
      | cons last lasts =>
        simp only [zipWith_cons_cons]
        rw [ih, add_assoc]

instance plus_commutative : Std.Commutative plus := ⟨plus_comm⟩

instance plus_associative : Std.Associative plus := ⟨plus_assoc⟩

theorem dot_append (sample left right : List ℚ) : dot sample (left ++ right) =
    dot (sample.take left.length) left + dot (sample.drop left.length) right := by
  unfold dot
  induction left generalizing sample with
  | nil => simp
  | cons first rest ih =>
    cases sample with
    | nil => simp
    | cons value sample =>
      simp only [cons_append, zipWith_cons_cons, sum_cons, length_cons,
        take_succ_cons, drop_succ_cons, ih]
      ring

variable {left right first values grid : List ℚ} {block code : Nat}
  {codes indices others : List Nat} {grids : List (List ℚ)}

theorem dot_plus (sample : List ℚ) (h : left.length = right.length) :
    dot sample (plus left right) = dot sample left + dot sample right := by
  unfold dot plus
  induction left generalizing sample right with
  | nil =>
    rw [length_eq_zero_iff.1 h.symm]
    simp
  | cons first rest ih =>
    cases right with
    | nil => exact absurd h (by simp)
    | cons other others =>
      cases sample with
      | nil => simp
      | cons value sample =>
        simp only [zipWith_cons_cons, sum_cons]
        rw [ih sample (by simpa using h)]
        ring

theorem dot_set (sample row : List ℚ) {column : Nat} (h : column < row.length) (value : ℚ) :
    dot sample (row.set column value) =
      dot sample row + sample.getD column 0 * (value - row.getD column 0) := by
  unfold dot
  induction row generalizing sample column with
  | nil => exact absurd h (Nat.not_lt_zero _)
  | cons first rest ih =>
    cases sample with
    | nil => simp
    | cons input sample =>
      cases column with
      | zero =>
        simp only [set_cons_zero, zipWith_cons_cons, sum_cons, getD_cons_zero]
        ring
      | succ column =>
        simp only [set_cons_succ, zipWith_cons_cons, sum_cons, getD_cons_succ]
        rw [ih sample (by simpa using h)]
        ring

theorem dot_set_block {size : Nat} {rows : List (List ℚ)} (hrows : ∀ row ∈ rows, row.length = size)
    (hblock : block < rows.length) {delta : List ℚ} (hdelta : delta.length = size)
    (sample : List ℚ) :
    dot sample ((rows.set block (plus (rows.getD block []) delta)).flatten) =
      dot sample rows.flatten + dot ((sample.drop (block * size)).take size) delta := by
  induction rows generalizing sample block with
  | nil => exact absurd hblock (Nat.not_lt_zero _)
  | cons row rest ih =>
    have hrow := hrows row mem_cons_self
    cases block with
    | zero =>
      rw [set_cons_zero, getD_cons_zero, flatten_cons, flatten_cons,
        dot_append, dot_append, dot_plus _ (hrow.trans hdelta.symm)]
      have hlength : (plus row delta).length = size := by
        unfold plus
        rw [length_zipWith, hrow, hdelta, Nat.min_self]
      rw [hlength, hrow, Nat.zero_mul, drop_zero]
      ring
    | succ block =>
      rw [set_cons_succ, getD_cons_succ, flatten_cons, flatten_cons, dot_append, dot_append, hrow,
        ih (fun other hother => hrows other (mem_cons_of_mem _ hother))
          (by simpa using hblock), drop_drop, Nat.add_one_mul, Nat.add_comm size, add_assoc]

theorem outputsOf_congr {samples : List (List ℚ)} {row other : List ℚ} {change : List ℚ → ℚ}
    (h : ∀ sample, dot sample other = dot sample row + change sample) :
    outputsOf samples other = plus (outputsOf samples row) (samples.map change) := by
  unfold outputsOf plus
  rw [zipWith_map_left, zipWith_map_right, zipWith_self]
  exact map_congr_left fun sample _ => h sample

/-- A row whose blocks have a code each and whose values a level each. -/
structure RowCodes.Valid (row : RowCodes) : Prop where
  values : row.values.length = row.codes.length * fp4QuantGroupSize
  indices : row.indices.length = row.values.length
  levels : ∀ index ∈ row.indices, index < 8
  codes : ∀ code ∈ row.codes, 1 ≤ code ∧ code ≤ 254

theorem zipWith_length {α β γ : Type} (f : α → β → γ) {left : List α} {right : List β}
    (h : left.length = right.length) : (List.zipWith f left right).length = right.length := by
  rw [length_zipWith, h, Nat.min_self]

section

variable (hfirst : first.length = fp4QuantGroupSize) (hindices : indices.length = fp4QuantGroupSize)

include hfirst hindices

theorem decoded_cons :
    (RowCodes.mk (first ++ values) (code :: codes) (indices ++ others)).decoded =
      scaledBlock (blockScale code) first indices ++
        (RowCodes.mk values codes others).decoded := by
  unfold RowCodes.decoded RowCodes.valueScales scaledBlock
  have hlength : indices.length =
      (List.replicate fp4QuantGroupSize (blockScale code)).length := by
    rw [hindices, length_replicate]
  rw [flatMap_cons, zipWith_append hlength, map_append, zipWith_append]
  · congr 1
    refine ext_getElem ?_ fun column _ _ => ?_
    · simp only [length_zipWith, length_map, length_replicate, hindices, hfirst, Nat.min_self]
    · simp only [getElem_zipWith, getElem_replicate, getElem_map]
  · rw [zipWith_length _ hlength, length_replicate, length_map, hfirst]

theorem encoded_cons :
    (RowCodes.mk (first ++ values) (code :: codes) (indices ++ others)).encoded =
      ⟨packPairs (nibblesOf first indices) ++ (RowCodes.mk values codes others).encoded.payload,
        UInt8.ofNat code :: (RowCodes.mk values codes others).encoded.scales⟩ := by
  unfold RowCodes.encoded nibblesOf
  rw [zipWith_append (hfirst.trans hindices.symm), packPairs_append, map_cons]
  rw [zipWith_length _ (hfirst.trans hindices.symm), hindices]
  rfl

end

theorem signed_eq (value magnitude scale : ℚ) :
    signed (decide (value < 0)) magnitude * scale = magnitude * scale * signOf value := by
  unfold signed signOf
  by_cases hnegative : value < 0
  · rw [decide_eq_true hnegative, if_pos rfl, if_pos hnegative]
    ring
  · rw [decide_eq_false hnegative, if_neg Bool.false_ne_true, if_neg hnegative, mul_one]

theorem nibblesOf_lt (h : ∀ index ∈ indices, index < 8) :
    ∀ nibble ∈ nibblesOf values indices, nibble < 16 := by
  intro nibble hnibble
  unfold nibblesOf at hnibble
  obtain ⟨position, hposition, rfl⟩ := getElem_of_mem hnibble
  rw [length_zipWith] at hposition
  rw [getElem_zipWith]
  exact (fp4E2m1Values_nibble ⟨_, h _ (getElem_mem (by omega))⟩ _).1

theorem decodeFp4Block_nibbles
    (hlength : values.length = indices.length) (heven : indices.length % 2 = 0)
    (hlevels : ∀ index ∈ indices, index < 8) (hcode : code ≤ 254) :
    decodeFp4Block ⟨packPairs (nibblesOf values indices), [UInt8.ofNat code]⟩ =
      scaledBlock (blockScale code) values indices := by
  unfold decodeFp4Block
  rw [headD_cons, blockScale_byte hcode, unpackNibbles_packPairs (nibblesOf_lt hlevels)]
  · unfold nibblesOf scaledBlock
    refine ext_getElem ?_ fun column hcolumn hother => ?_
    · rw [length_map, zipWith_length _ hlength, zipWith_length _ hlength.symm, hlength]
    · rw [length_map, zipWith_length _ hlength] at hcolumn
      rw [getElem_map, getElem_zipWith, getElem_zipWith,
        (fp4E2m1Values_nibble ⟨_, hlevels _ (getElem_mem hcolumn)⟩ _).2]
      exact signed_eq _ _ _
  · unfold nibblesOf
    rw [zipWith_length _ hlength]
    exact heven

theorem RowCodes.Valid.decodes {row : RowCodes} (h : row.Valid) :
    decodeFp4Row row.encoded.payload row.encoded.scales = row.decoded := by
  obtain ⟨values, codes, indices⟩ := row
  obtain ⟨hvalues, hindices, hlevels, hcodes⟩ := h
  dsimp only at hvalues hindices hlevels hcodes
  induction codes generalizing values indices with
  | nil =>
    rw [length_nil, Nat.zero_mul, length_eq_zero_iff] at hvalues
    rw [hvalues, length_nil, length_eq_zero_iff] at hindices
    rw [hvalues, hindices]
    rfl
  | cons code codes ih =>
    rw [length_cons, Nat.succ_mul] at hvalues
    have hfirst : (values.take fp4QuantGroupSize).length = fp4QuantGroupSize := by
      rw [length_take]
      omega
    have hlevel : (indices.take fp4QuantGroupSize).length = fp4QuantGroupSize := by
      rw [length_take]
      omega
    have hrest := ih (values.drop fp4QuantGroupSize) (indices.drop fp4QuantGroupSize)
      (by rw [length_drop]; omega) (by rw [length_drop, length_drop]; omega)
      (fun index hindex => hlevels index (mem_of_mem_drop hindex))
      fun other hother => hcodes other (mem_cons_of_mem _ hother)
    have hpacked : (packPairs (nibblesOf (values.take fp4QuantGroupSize)
        (indices.take fp4QuantGroupSize))).length = fp4QuantGroupSize / 2 := by
      unfold nibblesOf
      rw [packPairs_length, zipWith_length _ (hfirst.trans hlevel.symm), hlevel]
    rw [← take_append_drop fp4QuantGroupSize values,
      ← take_append_drop fp4QuantGroupSize indices, encoded_cons hfirst hlevel,
      decoded_cons hfirst hlevel, decodeFp4Row, take_left' hpacked, drop_left' hpacked,
      hrest, decodeFp4Block_nibbles (hfirst.trans hlevel.symm) (by rw [hlevel]; rfl)
        (fun index hindex => hlevels index (mem_of_mem_take hindex))
        (hcodes code mem_cons_self).2]

theorem decoded_blocks {codeOf : Nat → List ℚ → Nat}
    {indicesOf : Nat → List ℚ → List Nat} (hgrids : ∀ grid ∈ grids, grid.length = fp4QuantGroupSize)
    (hindices : ∀ block, ∀ grid ∈ grids, (indicesOf block grid).length = fp4QuantGroupSize) :
    (RowCodes.mk grids.flatten (grids.mapIdx codeOf) (grids.mapIdx indicesOf).flatten).decoded =
      (grids.mapIdx fun block grid =>
        scaledBlock (blockScale (codeOf block grid)) grid (indicesOf block grid)).flatten := by
  induction grids generalizing codeOf indicesOf with
  | nil => rfl
  | cons grid rest ih =>
    have hrest := @ih (fun block => codeOf (block + 1)) (fun block => indicesOf (block + 1))
      (fun other hother => hgrids other (mem_cons_of_mem _ hother))
      fun block other hother => hindices (block + 1) other (mem_cons_of_mem _ hother)
    rw [mapIdx_cons, mapIdx_cons, mapIdx_cons, flatten_cons,
      flatten_cons, flatten_cons, decoded_cons (hgrids grid mem_cons_self)
        (hindices 0 grid mem_cons_self), hrest]

theorem coveringIndices_length (grid : List ℚ) : (coveringIndices grid).length = grid.length := by
  unfold coveringIndices coveringMagnitudes
  rw [length_map, length_map]

theorem candidateIndices_length (grid : List ℚ) :
    (candidateIndices grid).length = grid.length := by
  unfold candidateIndices coveringMagnitudes
  rw [length_map, length_map]

theorem baselineIndices_length (grid : List ℚ) :
    (baselineIndices true grid).length = grid.length := by
  rw [baselineIndices_eq, length_map]

theorem coveringIndices_lt (grid : List ℚ) : ∀ index ∈ coveringIndices grid, index < 8 := by
  intro index hindex
  have hbaseline := baselineIndices_eq false grid
  rw [show baselineIndices false grid = coveringIndices grid from rfl] at hbaseline
  rw [hbaseline] at hindex
  obtain ⟨value, -, rfl⟩ := mem_map.1 hindex
  exact fp4_scanned_lt (quotient_nonneg _ value)

theorem baselineIndices_lt (grid : List ℚ) : ∀ index ∈ baselineIndices true grid, index < 8 := by
  intro index hindex
  rw [baselineIndices_eq] at hindex
  obtain ⟨value, -, rfl⟩ := mem_map.1 hindex
  exact fp4_scanned_lt (quotient_nonneg _ value)

theorem useCandidate_scale (h : useCandidate grid = true) :
    blockScale (coveringCode grid) * (1 / 2) = blockScale (candidateCode grid) := by
  obtain ⟨hone, -⟩ := coveringCode_range grid
  have hne := (of_decide_eq_true h).1
  have hcode : candidateCode grid + 1 = coveringCode grid := by
    unfold candidateCode fp4Ue8m0MinCode at hne ⊢
    omega
  have hscale := blockScale_add (candidateCode grid) 1
  rw [hcode] at hscale
  rw [hscale]
  ring

theorem baselineDecoded_eq (grid : List ℚ) : baselineDecoded grid =
    scaledBlock (blockScale (baselineCode true grid)) grid (baselineIndices true grid) := by
  unfold baselineDecoded baselineCode baselineIndices
  rw [Bool.true_and]
  by_cases huse : useCandidate grid = true
  · rw [if_pos huse, if_pos huse, if_pos huse, ← useCandidate_scale huse]
    rfl
  · rw [if_neg huse, if_neg huse, if_neg huse]
    rfl

/-- A block as it is with and without its return. -/
def blockDecoded (selected : List Nat) (block : Nat) (grid : List ℚ) : List ℚ :=
  if block ∈ selected then coveringDecoded grid else baselineDecoded grid

theorem rowWith_decoded
    (hgrids : ∀ grid ∈ grids, grid.length = fp4QuantGroupSize) (selected : List Nat) :
    (rowWith grids selected).decoded = (grids.mapIdx (blockDecoded selected)).flatten := by
  unfold rowWith
  rw [decoded_blocks hgrids]
  · congr 1
    refine mapIdx_eq_mapIdx_iff.2 fun block hblock => ?_
    unfold blockDecoded
    by_cases hselected : block ∈ selected
    · rw [if_pos hselected, if_pos hselected, if_pos hselected]
      rfl
    · rw [if_neg hselected, if_neg hselected, if_neg hselected, baselineDecoded_eq]
  · intro block grid hgrid
    by_cases hselected : block ∈ selected
    · rw [if_pos hselected, coveringIndices_length, hgrids grid hgrid]
    · rw [if_neg hselected, baselineIndices_length, hgrids grid hgrid]

theorem minus_flatten {decodedOf : Nat → List ℚ → List ℚ}
    (h : ∀ block, ∀ grid ∈ grids, (decodedOf block grid).length = grid.length) :
    minus (grids.mapIdx decodedOf).flatten grids.flatten =
      (grids.mapIdx fun block grid => minus (decodedOf block grid) grid).flatten := by
  induction grids generalizing decodedOf with
  | nil => rfl
  | cons grid rest ih =>
    have hrest := @ih (fun block => decodedOf (block + 1))
      fun block other hother => h (block + 1) other (mem_cons_of_mem _ hother)
    rw [mapIdx_cons, mapIdx_cons, flatten_cons, flatten_cons, flatten_cons, ← hrest]
    exact zipWith_append (h 0 grid mem_cons_self)

theorem scaledBlock_length {scale : ℚ}
    (h : indices.length = grid.length) : (scaledBlock scale grid indices).length = grid.length :=
  zipWith_length _ h

theorem coveringDecoded_length (grid : List ℚ) : (coveringDecoded grid).length = grid.length :=
  scaledBlock_length (coveringIndices_length grid)

theorem candidateDecoded_length (grid : List ℚ) : (candidateDecoded grid).length = grid.length :=
  scaledBlock_length (candidateIndices_length grid)

theorem blockDecoded_length (selected : List Nat) (block : Nat) (grid : List ℚ) :
    (blockDecoded selected block grid).length = grid.length := by
  unfold blockDecoded baselineDecoded
  split_ifs
  · exact coveringDecoded_length grid
  · exact candidateDecoded_length grid
  · exact coveringDecoded_length grid

theorem minus_eq_plus {middle : List ℚ} (hleft : left.length = middle.length)
    (hright : middle.length = right.length) :
    minus left right = plus (minus middle right) (minus left middle) := by
  unfold minus plus
  refine ext_getElem ?_ fun column _ _ => ?_
  · simp only [length_zipWith, hleft, hright, Nat.min_self]
  · simp only [getElem_zipWith]
    ring

theorem blockDelta_length (grid : List ℚ) : (blockDelta grid).length = grid.length := by
  unfold blockDelta minus
  split_ifs
  · rw [zipWith_length _ ((coveringDecoded_length grid).trans (candidateDecoded_length grid).symm),
      candidateDecoded_length]
  · exact length_map _

/-- The errors of the blocks of a row. -/
def blockErrors (grids : List (List ℚ)) (selected : List Nat) : List (List ℚ) :=
  grids.mapIdx fun block grid => minus (blockDecoded selected block grid) grid

theorem rowWith_errors
    (hgrids : ∀ grid ∈ grids, grid.length = fp4QuantGroupSize) (selected : List Nat) :
    minus (rowWith grids selected).decoded (rowWith grids selected).values =
      (blockErrors grids selected).flatten := by
  rw [rowWith_decoded hgrids]
  exact minus_flatten fun block grid _ => blockDecoded_length selected block grid

theorem blockErrors_set {selected : List Nat}
    (hblock : block < grids.length) (hnew : block ∉ selected)
    (huse : useCandidate (grids.getD block []) = true) :
    blockErrors grids (selected ++ [block]) = (blockErrors grids selected).set block
      (plus ((blockErrors grids selected).getD block []) (blockDelta (grids.getD block []))) := by
  have hgrid : grids.getD block [] = grids[block] := by
    rw [getD_eq_getElem?_getD, getElem?_eq_getElem hblock, Option.getD_some]
  rw [hgrid] at huse ⊢
  unfold blockErrors
  refine ext_getElem (by simp only [length_mapIdx, length_set]) ?_
  intro other hother _
  rw [getElem_mapIdx, getElem_set]
  by_cases hsame : block = other
  · subst hsame
    have hbefore : (grids.mapIdx fun block grid =>
        minus (blockDecoded selected block grid) grid).getD block [] =
          minus (candidateDecoded grids[block]) grids[block] := by
      rw [getD_eq_getElem?_getD, getElem?_eq_getElem (by
        rw [length_mapIdx]; exact hblock), Option.getD_some, getElem_mapIdx]
      unfold blockDecoded baselineDecoded
      rw [if_neg hnew, if_pos huse]
    rw [if_pos rfl, hbefore]
    unfold blockDecoded blockDelta
    rw [if_pos (mem_append_right _ mem_cons_self), if_pos huse]
    exact minus_eq_plus ((coveringDecoded_length _).trans (candidateDecoded_length _).symm)
      (candidateDecoded_length _)
  · rw [if_neg hsame, getElem_mapIdx]
    unfold blockDecoded
    have hmem : other ∈ selected ++ [block] ↔ other ∈ selected := by
      rw [mem_append, mem_singleton]
      exact ⟨fun h => h.resolve_right fun heq => hsame heq.symm, .inl⟩
    simp only [hmem]

/-- The residual of a row with some blocks at their covering scale. -/
def coveringResidual (samples grids : List (List ℚ)) (selected : List Nat) : List ℚ :=
  outputsOf samples (minus (rowWith grids selected).decoded (rowWith grids selected).values)

theorem covering_accumulates {samples grids : List (List ℚ)}
    (hgrids : ∀ grid ∈ grids, grid.length = fp4QuantGroupSize) {order : List Nat}
    (horder : ∀ block ∈ order, block < grids.length) :
    Accumulates plus (outputDelta samples grids) (fun block => useCandidate (grids.getD block []))
      order (coveringResidual samples grids) where
  change := fun selected block hmem huse hnew => by
    have hblock := horder block hmem
    have hgrid : (grids.getD block []).length = fp4QuantGroupSize := by
      rw [getD_eq_getElem?_getD, getElem?_eq_getElem hblock, Option.getD_some]
      exact hgrids _ (getElem_mem hblock)
    have hlength : ∀ row ∈ blockErrors grids selected, row.length = fp4QuantGroupSize := by
      intro row hrow
      obtain ⟨position, hposition, rfl⟩ := getElem_of_mem hrow
      unfold blockErrors at hposition ⊢
      rw [length_mapIdx] at hposition
      rw [getElem_mapIdx]
      unfold minus
      rw [zipWith_length _ (blockDecoded_length selected position _)]
      exact hgrids _ (getElem_mem hposition)
    unfold coveringResidual
    rw [rowWith_errors hgrids, rowWith_errors hgrids, blockErrors_set hblock hnew huse]
    rw [outputsOf_congr (dot_set_block hlength (by
      unfold blockErrors; rw [length_mapIdx]; exact hblock) ((blockDelta_length _).trans hgrid))]
    unfold outputDelta blockSamples outputsOf
    rw [map_map]
    rfl

theorem selectCovering_lowers {samples grids : List (List ℚ)}
    (hgrids : ∀ grid ∈ grids, grid.length = fp4QuantGroupSize) :
    selectCovering samples grids = [] ∨
      sumOfSquares (coveringResidual samples grids (selectCovering samples grids)) <
        sumOfSquares (coveringResidual samples grids []) := by
  have hstart : outputsOf samples (grids.flatMap fun grid => minus (baselineDecoded grid) grid) =
      coveringResidual samples grids [] := by
    unfold coveringResidual
    rw [rowWith_errors hgrids, flatMap_def]
    unfold blockErrors
    congr 2
    refine ext_getElem (by rw [length_map, length_mapIdx]) fun block _ _ => ?_
    rw [getElem_map, getElem_mapIdx]
    rfl
  unfold selectCovering
  rw [hstart]
  dsimp only
  generalize hsorted : (List.range grids.length).mergeSort _ = order
  have hperm : order.Perm (List.range grids.length) := by
    rw [← hsorted]
    exact mergeSort_perm _ _
  have htracks := @greedy_tracks Nat (List ℚ) ℚ plus sumOfSquares _ _ _ _ order
    (@covering_accumulates samples grids hgrids order
      fun block hblock => mem_range.1 (hperm.mem_iff.1 hblock))
    (hperm.nodup_iff.2 nodup_range)
  have hlower := htracks.lower
  rw [htracks.error] at hlower
  exact hlower

end QuantumLlm.ExpertPack
