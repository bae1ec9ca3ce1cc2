import Mathlib.Data.List.GetD
import QuantumLlm.ExpertPack.ActivationGain

/-!
# Activation-aware rows

The codes that move to a neighbour, and the rows of a chunk: each decodes to outputs with at most
the error of its baseline, and differs from it only if they have less.
-/

namespace QuantumLlm.ExpertPack

open Nearest Descent List

/-! ## Neighbouring codes -/

variable {samples : List (List ℚ)} {columns : Nat} {row : RowCodes}

theorem RowCodes.Valid.valueScales_length (h : row.Valid) :
    row.valueScales.length = row.values.length := by
  have hall : ∀ codes : List Nat, (codes.flatMap fun code =>
      List.replicate fp4QuantGroupSize (blockScale code)).length =
        codes.length * fp4QuantGroupSize := by
    intro codes
    induction codes with
    | nil => rw [length_nil, Nat.zero_mul]; rfl
    | cons code codes ih =>
      rw [flatMap_cons, length_append, ih, length_replicate, length_cons,
        Nat.succ_mul, Nat.add_comm]
  rw [h.values]
  exact hall row.codes

theorem columnChange_delta (column : Nat) : (row.columnChange samples columns column).delta =
    level fp4E2m1Levels (row.columnChange samples columns column).index *
        row.valueScales.getD column 0 * signOf (row.values.getD column 0) -
      level fp4E2m1Levels (row.indices.getD column 0) * row.valueScales.getD column 0 *
        signOf (row.values.getD column 0) := by
  unfold RowCodes.columnChange
  dsimp only
  split_ifs
  · rfl
  · rfl

theorem columnChange_index_lt (h : row.Valid) (column : Nat) :
    (row.columnChange samples columns column).index < 8 := by
  have hindex : row.indices.getD column 0 < 8 := by
    rw [getD_eq_getElem?_getD]
    cases hlevel : row.indices[column]? with
    | none => exact Nat.succ_pos 7
    | some index => exact h.levels index (mem_of_getElem? hlevel)
  have hlength : fp4E2m1Levels.length = 8 := rfl
  unfold RowCodes.columnChange
  dsimp only
  split_ifs
  · omega
  · omega

variable {column blocks : Nat} {α : Type} {values : List ℚ} {grids : List (List ℚ)}

theorem columnChange_eligible
    (h : (row.columnChange samples columns column).eligible = true) : column < columns := by
  exact (of_decide_eq_true h).2.2

theorem RowCodes.Valid.withColumns (h : row.Valid) (selected : List Nat) :
    (row.withColumns samples columns selected).Valid where
  values := h.values
  indices := by
    unfold RowCodes.withColumns
    rw [length_mapIdx]
    exact h.indices
  levels := fun index hindex => by
    unfold RowCodes.withColumns at hindex
    obtain ⟨column, hcolumn, rfl⟩ := getElem_of_mem hindex
    rw [length_mapIdx] at hcolumn
    rw [getElem_mapIdx]
    split_ifs
    · exact columnChange_index_lt h column
    · exact h.levels _ (getElem_mem hcolumn)
  codes := h.codes

theorem withColumns_nil : row.withColumns samples columns [] = row := by
  unfold RowCodes.withColumns
  congr 1
  refine ext_getElem (length_mapIdx) fun column _ _ => ?_
  rw [getElem_mapIdx, if_neg not_mem_nil]

/-- The errors of a row with some columns at their better neighbours. -/
def columnErrors (samples : List (List ℚ)) (columns : Nat) (row : RowCodes)
    (selected : List Nat) : List ℚ :=
  minus (row.withColumns samples columns selected).decoded row.values

theorem RowCodes.Valid.decoded_length (h : row.Valid) :
    row.decoded.length = row.values.length := by
  have hscales := h.valueScales_length
  unfold RowCodes.decoded
  rw [zipWith_length, length_map]
  rw [zipWith_length _ (h.indices.trans hscales.symm), hscales, length_map]

theorem RowCodes.Valid.columnErrors_length (h : row.Valid) (selected : List Nat) :
    (columnErrors samples columns row selected).length = row.values.length :=
  zipWith_length _ (h.withColumns selected).decoded_length

theorem columnErrors_getElem (selected : List Nat)
    (hcolumn : column < (columnErrors samples columns row selected).length)
    (hindices : column < row.indices.length) (hscales : column < row.valueScales.length)
    (hvalues : column < row.values.length) :
    (columnErrors samples columns row selected)[column] =
      level fp4E2m1Levels (if column ∈ selected then
        (row.columnChange samples columns column).index else row.indices[column]) *
          row.valueScales[column] * signOf row.values[column] - row.values[column] := by
  simp only [columnErrors, minus, RowCodes.decoded, RowCodes.withColumns, getElem_zipWith,
    getElem_map, getElem_mapIdx]
  rfl

theorem columnErrors_set (h : row.Valid) {selected : List Nat}
    (hcolumn : column < row.values.length) (hnew : column ∉ selected) :
    columnErrors samples columns row (selected ++ [column]) =
      (columnErrors samples columns row selected).set column
        ((columnErrors samples columns row selected).getD column 0 +
          (row.columnChange samples columns column).delta) := by
  have hscales := h.valueScales_length
  have hindices := h.indices
  refine ext_getElem (by
    rw [length_set, h.columnErrors_length, h.columnErrors_length]) fun other hother _ => ?_
  rw [h.columnErrors_length] at hother
  rw [columnErrors_getElem _ _ (by omega) (by omega) hother, getElem_set]
  by_cases hsame : column = other
  · subst hsame
    have hbefore : (columnErrors samples columns row selected).getD column 0 =
        level fp4E2m1Levels row.indices[column] * row.valueScales[column] *
          signOf row.values[column] - row.values[column] := by
      rw [getD_eq_getElem _ 0 (by rw [h.columnErrors_length]; exact hcolumn),
        columnErrors_getElem _ _ (by omega) (by omega) hcolumn, if_neg hnew]
    rw [if_pos rfl, if_pos (mem_append_right _ mem_cons_self), hbefore,
      columnChange_delta, getD_eq_getElem row.valueScales 0 (by omega),
      getD_eq_getElem row.values 0 hcolumn, getD_eq_getElem row.indices 0 (by omega)]
    ring
  · have hmem : other ∈ selected ++ [column] ↔ other ∈ selected := by
      rw [mem_append, mem_singleton]
      exact ⟨fun hin => hin.resolve_right fun heq => hsame heq.symm, .inl⟩
    rw [if_neg hsame, columnErrors_getElem _ _ (by omega) (by omega) hother]
    simp only [hmem]

/-- The residual of a row with some columns at their better neighbours. -/
def columnResidual (samples : List (List ℚ)) (columns : Nat) (row : RowCodes)
    (selected : List Nat) : List ℚ :=
  outputsOf samples (columnErrors samples columns row selected)

theorem columns_accumulate (h : row.Valid) {order : List Nat}
    (horder : ∀ column ∈ order, column < row.values.length) :
    Accumulates plus (row.contribution samples columns)
      (fun column => (row.columnChange samples columns column).eligible) order
      (columnResidual samples columns row) where
  change := fun selected column hmem _ hnew => by
    have hcolumn := horder column hmem
    unfold columnResidual
    rw [columnErrors_set h hcolumn hnew]
    refine outputsOf_congr fun sample => ?_
    rw [dot_set _ _ (by rw [h.columnErrors_length]; exact hcolumn)]
    ring

/-- `numpy.argpartition`: the positions in an order in which the one at an index is that of the
sorted keys, with no greater key before it and no smaller one behind. -/
structure IsArgpartition (argpartition : List (WithTop ℚ) → Nat → List Nat) : Prop where
  perm : ∀ (keys : List (WithTop ℚ)) kth, kth < keys.length →
    (argpartition keys kth).Perm (List.range keys.length)
  before : ∀ (keys : List (WithTop ℚ)) kth position, kth < keys.length → position ≤ kth →
    keys.getD ((argpartition keys kth).getD position 0) ⊤ ≤
      keys.getD ((argpartition keys kth).getD kth 0) ⊤
  behind : ∀ (keys : List (WithTop ℚ)) kth position, kth ≤ position → position < keys.length →
    keys.getD ((argpartition keys kth).getD kth 0) ⊤ ≤
      keys.getD ((argpartition keys kth).getD position 0) ⊤

theorem forall_take_of_countP {holds : α → Bool} {items : List α}
    (hitems : items.Pairwise fun left right => holds right = true → holds left = true) {count : Nat}
    (h : count ≤ items.countP holds) : ∀ item ∈ items.take count, holds item = true := by
  induction items generalizing count with
  | nil => exact fun item hitem => by rw [take_nil] at hitem; cases hitem
  | cons first rest ih =>
    obtain ⟨hfirst, hrest⟩ := pairwise_cons.1 hitems
    by_cases hholds : holds first = true
    · cases count with
      | zero => exact fun item hitem => by rw [take_zero] at hitem; cases hitem
      | succ count =>
        rw [countP_cons_of_pos hholds] at h
        intro item hitem
        rcases mem_cons.1 hitem with rfl | hlater
        · exact hholds
        · exact ih hrest (by omega) item hlater
    · have hnone : rest.countP holds = 0 :=
        countP_eq_zero.2 fun item hitem hlater => hholds (hfirst item hitem hlater)
      rw [countP_cons_of_neg hholds, hnone, Nat.le_zero] at h
      rw [h]
      exact fun item hitem => by rw [take_zero] at hitem; cases hitem

variable {argpartition : List (WithTop ℚ) → Nat → List Nat}

theorem candidates_spec (hargpartition : IsArgpartition argpartition) :
    (row.candidates argpartition samples columns).Nodup ∧
      ∀ column ∈ row.candidates argpartition samples columns, column < row.values.length := by
  unfold RowCodes.candidates
  have hsorted := mergeSort_perm ((argpartition ((row.columnChanges samples columns).map
    ColumnChange.key) (min fp4ActivationMaximumCandidates row.values.length - 1)).take
      (min fp4ActivationMaximumCandidates row.values.length)) fun left right =>
    decide (((row.columnChanges samples columns).map ColumnChange.key).getD left ⊤ <
        ((row.columnChanges samples columns).map ColumnChange.key).getD right ⊤ ∨
      (((row.columnChanges samples columns).map ColumnChange.key).getD left ⊤ =
        ((row.columnChanges samples columns).map ColumnChange.key).getD right ⊤ ∧ left ≤ right))
  have hkeys : ((row.columnChanges samples columns).map ColumnChange.key).length =
      row.values.length := by
    unfold RowCodes.columnChanges
    rw [length_map, length_map, length_range]
  rw [hsorted.nodup_iff]
  have hpartition : ((argpartition ((row.columnChanges samples columns).map ColumnChange.key)
      (min fp4ActivationMaximumCandidates row.values.length - 1)).take
        (min fp4ActivationMaximumCandidates row.values.length)).Nodup ∧
      ∀ column ∈ (argpartition ((row.columnChanges samples columns).map ColumnChange.key)
        (min fp4ActivationMaximumCandidates row.values.length - 1)).take
          (min fp4ActivationMaximumCandidates row.values.length), column < row.values.length := by
    rcases Nat.eq_zero_or_pos row.values.length with hnone | hsome
    · rw [hnone, Nat.min_zero, take_zero]
      exact ⟨nodup_nil, nofun⟩
    · have hperm := hargpartition.perm ((row.columnChanges samples columns).map ColumnChange.key)
        (min fp4ActivationMaximumCandidates row.values.length - 1) (by omega)
      rw [hkeys] at hperm
      refine ⟨(hperm.nodup_iff.2 nodup_range).sublist (take_sublist _ _), fun column hcolumn => ?_⟩
      exact mem_range.1 (hperm.mem_iff.1 (mem_of_mem_take hcolumn))
  exact ⟨hpartition.1, fun column hcolumn => hpartition.2 column (hsorted.mem_iff.1 hcolumn)⟩

theorem key_getD (h : column < row.values.length) :
    ((row.columnChanges samples columns).map ColumnChange.key).getD column ⊤ =
      (row.columnChange samples columns column).key := by
  unfold RowCodes.columnChanges
  rw [getD_eq_getElem?_getD, getElem?_map, getElem?_map, getElem?_range h]
  rfl

theorem candidates_eligible (hargpartition : IsArgpartition argpartition) :
    (row.candidates argpartition samples columns).Pairwise fun left right =>
      (row.columnChange samples columns right).eligible = true →
        (row.columnChange samples columns left).eligible = true := by
  have hmem := (@candidates_spec samples columns row argpartition hargpartition).2
  have hsorted : (row.candidates argpartition samples columns).Pairwise fun left right =>
      ((row.columnChanges samples columns).map ColumnChange.key).getD left ⊤ ≤
        ((row.columnChanges samples columns).map ColumnChange.key).getD right ⊤ := by
    unfold RowCodes.candidates
    generalize (row.columnChanges samples columns).map ColumnChange.key = keys
    refine (pairwise_mergeSort ?_ ?_ _).imp fun {left right} hle => ?_
    · intro first second third hfirst hsecond
      simp only [decide_eq_true_eq] at hfirst hsecond ⊢
      rcases hfirst with hlt | ⟨heq, hle⟩
      · rcases hsecond with hlater | ⟨hsame, -⟩
        · exact .inl (lt_trans hlt hlater)
        · exact .inl (hsame ▸ hlt)
      · rcases hsecond with hlater | ⟨hsame, hnext⟩
        · exact .inl (heq ▸ hlater)
        · exact .inr ⟨heq.trans hsame, Nat.le_trans hle hnext⟩
    · intro left right
      simp only [Bool.or_eq_true, decide_eq_true_eq]
      rcases lt_trichotomy (keys.getD left ⊤) (keys.getD right ⊤) with hlt | heq | hgt
      · exact .inl (.inl hlt)
      · rcases Nat.le_total left right with hle | hge
        · exact .inl (.inr ⟨heq, hle⟩)
        · exact .inr (.inr ⟨heq.symm, hge⟩)
      · exact .inr (.inl hgt)
    · rcases of_decide_eq_true hle with hlt | ⟨heq, -⟩
      · exact le_of_lt hlt
      · exact le_of_eq heq
  refine hsorted.imp_of_mem fun {left right} hleft hright hle heligible => ?_
  rw [key_getD (hmem left hleft), key_getD (hmem right hright)] at hle
  unfold ColumnChange.key at hle
  rw [if_pos heligible] at hle
  by_contra hnot
  rw [if_neg hnot, top_le_iff] at hle
  exact WithTop.coe_ne_top hle

theorem selectColumns_lowers (hargpartition : IsArgpartition argpartition) (h : row.Valid) :
    (∀ column ∈ row.selectColumns argpartition samples columns,
      (row.columnChange samples columns column).eligible = true) ∧
    (row.selectColumns argpartition samples columns = [] ∨
      sumOfSquares (columnResidual samples columns row
        (row.selectColumns argpartition samples columns)) <
          sumOfSquares (columnResidual samples columns row [])) := by
  obtain ⟨hnodup, hmem⟩ := @candidates_spec samples columns row argpartition hargpartition
  have hpairs := @candidates_eligible samples columns row argpartition hargpartition
  have hstart : outputsOf samples (minus row.decoded row.values) =
      columnResidual samples columns row [] := by
    unfold columnResidual columnErrors
    rw [withColumns_nil]
  unfold RowCodes.selectColumns
  rw [hstart]
  dsimp only
  generalize row.candidates argpartition samples columns = order at *
  split_ifs with himprove
  · obtain ⟨-, hrank, hlower⟩ := himprove
    have heligible := forall_take_of_countP hpairs (Nat.succ_le_of_lt hrank)
    rw [filter_eq_self.2 heligible]
    refine ⟨heligible, .inr ?_⟩
    generalize hbest : argmin (prefixErrors plus sumOfSquares
      (columnResidual samples columns row []) (order.map (row.contribution samples columns))) =
        rank at *
    have hlength : rank < (prefixErrors plus sumOfSquares (columnResidual samples columns row [])
        (order.map (row.contribution samples columns))).length := by
      unfold prefixErrors
      rw [length_map, cumulativeSums_length, length_map]
      exact Nat.lt_of_lt_of_le hrank countP_le_length
    have herror := getElem?_eq_getElem hlength
    rw [getD_eq_getElem?_getD, herror, Option.getD_some] at hlower
    rw [← prefixErrors_eq (columns_accumulate h hmem) hnodup heligible herror]
    exact hlower
  · exact ⟨fun column hcolumn => absurd hcolumn not_mem_nil, .inl rfl⟩

theorem flatten_slices {size : Nat} (padded : List ℚ) (blocks : Nat) :
    ((List.range blocks).map fun block => (padded.drop (block * size)).take size).flatten =
      padded.take (blocks * size) := by
  induction blocks with
  | zero => rw [Nat.zero_mul, take_zero]; rfl
  | succ blocks ih =>
    rw [range_succ, map_append, flatten_append, ih, map_singleton,
      flatten_singleton, Nat.succ_mul, take_add]

/-- The values of a row with the zeros behind them. -/
def paddedRow (columns blocks : Nat) (values : List ℚ) : List ℚ :=
  values ++ List.replicate (blocks * fp4QuantGroupSize - columns) 0

theorem gridsOf_flatten (hvalues : values.length = columns)
    (hcolumns : columns ≤ blocks * fp4QuantGroupSize) :
    (gridsOf fp4QuantGroupSize columns blocks values).flatten =
      paddedRow columns blocks values := by
  unfold gridsOf paddedRow
  rw [flatten_slices, take_of_length_le]
  rw [length_append, length_replicate]
  omega

theorem flatten_mapIdx_length {part : Nat → List ℚ → List α}
    (h : ∀ block, ∀ grid ∈ grids, (part block grid).length = grid.length) :
    (grids.mapIdx part).flatten.length = grids.flatten.length := by
  induction grids generalizing part with
  | nil => rfl
  | cons grid rest ih =>
    have hrest := @ih (fun block => part (block + 1))
      fun block other hother => h (block + 1) other (mem_cons_of_mem _ hother)
    rw [mapIdx_cons, flatten_cons, flatten_cons, length_append,
      length_append, hrest, h 0 grid mem_cons_self]

theorem flatten_length (hgrids : ∀ grid ∈ grids, grid.length = fp4QuantGroupSize) :
    grids.flatten.length = grids.length * fp4QuantGroupSize := by
  induction grids with
  | nil => rw [length_nil, Nat.zero_mul]; rfl
  | cons grid rest ih =>
    rw [flatten_cons, length_append, hgrids grid mem_cons_self,
      ih fun other hother => hgrids other (mem_cons_of_mem _ hother), length_cons,
      Nat.succ_mul, Nat.add_comm]

theorem baselineCode_range (grid : List ℚ) :
    1 ≤ baselineCode true grid ∧ baselineCode true grid ≤ 254 := by
  have hrange := coveringCode_range grid
  unfold baselineCode candidateCode fp4Ue8m0MinCode
  split_ifs
  · omega
  · exact hrange

theorem rowWith_valid
    (hgrids : ∀ grid ∈ grids, grid.length = fp4QuantGroupSize) (selected : List Nat) :
    (rowWith grids selected).Valid where
  values := by
    unfold rowWith
    rw [length_mapIdx]
    exact flatten_length hgrids
  indices := by
    refine flatten_mapIdx_length fun block grid _ => ?_
    split_ifs
    · exact coveringIndices_length grid
    · exact baselineIndices_length grid
  levels := fun index hindex => by
    obtain ⟨part, hpart, hmem⟩ := mem_flatten.1 hindex
    obtain ⟨block, hblock, rfl⟩ := getElem_of_mem hpart
    rw [getElem_mapIdx] at hmem
    split_ifs at hmem
    · exact coveringIndices_lt _ index hmem
    · exact baselineIndices_lt _ index hmem
  codes := fun code hcode => by
    unfold rowWith at hcode
    obtain ⟨block, hblock, rfl⟩ := getElem_of_mem hcode
    rw [getElem_mapIdx]
    split_ifs
    · exact coveringCode_range _
    · exact baselineCode_range _

theorem numpyFp4Row_baseline (blocks : Nat) (values : List ℚ) :
    numpyFp4Row true columns blocks values =
      (rowWith (gridsOf fp4QuantGroupSize columns blocks values) []).encoded := by
  unfold numpyFp4Row
  generalize gridsOf fp4QuantGroupSize columns blocks values = grids
  have hcodes : (rowWith grids []).codes = grids.map (baselineCode true) := by
    unfold rowWith
    refine ext_getElem (by rw [length_mapIdx, length_map]) fun block _ _ => ?_
    rw [getElem_mapIdx, getElem_map, if_neg not_mem_nil]
  have hindices : (rowWith grids []).indices = grids.flatMap (baselineIndices true) := by
    refine congrArg List.flatten ?_
    refine ext_getElem (by rw [length_mapIdx, length_map]) fun block _ _ => ?_
    rw [getElem_mapIdx, getElem_map, if_neg not_mem_nil]
  have hnibbles : ∀ others : List (List ℚ),
      nibblesOf others.flatten (others.flatMap (baselineIndices true)) =
        others.flatMap fun grid => nibblesOf grid (baselineIndices true grid) := by
    intro others
    induction others with
    | nil => rfl
    | cons grid rest ih =>
      rw [flatten_cons, flatMap_cons, flatMap_cons, ← ih]
      exact zipWith_append (baselineIndices_length grid).symm
  unfold RowCodes.encoded
  rw [hcodes, hindices, map_map]
  change _ = (⟨packPairs (nibblesOf grids.flatten _), _⟩ : Encoded)
  rw [hnibbles]
  rfl

/-! ## No worse than the baseline -/

/-- A row against its baseline on the samples. -/
structure NoWorse (samples : List (List ℚ)) (columns blocks : Nat) (padded : List ℚ)
    (baseline encoded : Encoded) : Prop where
  error_le : residualError samples padded encoded ≤ residualError samples padded baseline
  lower : encoded ≠ baseline → residualError samples padded encoded <
    residualError samples padded baseline
  padding : ∀ column, columns ≤ column →
    (unpackNibbles encoded.payload)[column]? = (unpackNibbles baseline.payload)[column]?
  sized : encoded.Sized (blocks * 16) blocks Ue8m0Code

theorem RowCodes.Valid.residualError (h : row.Valid) :
    residualError samples row.values row.encoded =
      sumOfSquares (outputsOf samples (minus row.decoded row.values)) := by
  unfold QuantumLlm.ExpertPack.residualError
  rw [h.decodes]

theorem RowCodes.Valid.unpacked (h : row.Valid) :
    unpackNibbles row.encoded.payload = nibblesOf row.values row.indices := by
  refine unpackNibbles_packPairs (nibblesOf_lt h.levels) ?_
  unfold nibblesOf
  rw [zipWith_length _ h.indices.symm, h.indices, h.values]
  exact Nat.mod_eq_zero_of_dvd (Dvd.dvd.mul_left (by decide) _)

theorem RowCodes.Valid.sized (h : row.Valid) :
    row.encoded.Sized (row.codes.length * 16) row.codes.length Ue8m0Code where
  payload := by
    unfold RowCodes.encoded nibblesOf
    rw [packPairs_length, zipWith_length _ h.indices.symm, h.indices, h.values]
    rw [show fp4QuantGroupSize = 16 * 2 from rfl, ← Nat.mul_assoc,
      Nat.mul_div_cancel _ Nat.two_pos]
  scales := length_map _
  legal := fun byte hbyte => by
    obtain ⟨code, hcode, rfl⟩ := mem_map.1 hbyte
    obtain ⟨hone, hlast⟩ := h.codes code hcode
    unfold Ue8m0Code fp4Ue8m0MinCode fp4Ue8m0MaxCode
    rw [UInt8.toNat_ofNat', Nat.mod_eq_of_lt (by omega)]
    exact ⟨hone, hlast⟩

theorem flatten_agree {part other : Nat → List ℚ → List Nat}
    (hpart : ∀ block, ∀ grid ∈ grids, (part block grid).length = grid.length)
    (hother : ∀ block, ∀ grid ∈ grids, (other block grid).length = grid.length)
    (hzero : ∀ block grid (position : Nat), grid[position]? = some 0 →
      (part block grid)[position]? = (other block grid)[position]?)
    (h : grids.flatten[column]? = some 0) :
    (grids.mapIdx part).flatten[column]? = (grids.mapIdx other).flatten[column]? := by
  induction grids generalizing part other column with
  | nil => rfl
  | cons grid rest ih =>
    have hfirst := hpart 0 grid mem_cons_self
    have hsecond := hother 0 grid mem_cons_self
    rw [flatten_cons, getElem?_append] at h
    rw [mapIdx_cons, mapIdx_cons, flatten_cons, flatten_cons,
      getElem?_append, getElem?_append, hfirst, hsecond]
    split_ifs at h ⊢ with hcolumn
    · exact hzero 0 grid column h
    · exact ih (fun block later hlater => hpart (block + 1) later
        (mem_cons_of_mem _ hlater)) (fun block later hlater => hother (block + 1) later
          (mem_cons_of_mem _ hlater)) (fun block => hzero (block + 1)) h

theorem zero_index {grid : List ℚ} {position : Nat} (h : grid[position]? = some 0) :
    (coveringIndices grid)[position]? = (baselineIndices true grid)[position]? := by
  have hbaseline := baselineIndices_eq true grid
  have hcovering := baselineIndices_eq false grid
  rw [show baselineIndices false grid = coveringIndices grid from rfl] at hcovering
  rw [hbaseline, hcovering, getElem?_map, getElem?_map, h, Option.map_some,
    Option.map_some, abs_zero, zero_div, zero_div]

theorem rowWith_padding (selected : List Nat) (h : grids.flatten[column]? = some 0) :
    (rowWith grids selected).indices[column]? = (rowWith grids []).indices[column]? := by
  refine flatten_agree (fun block grid _ => ?_) (fun block grid _ => ?_)
    (fun block grid position hzero => ?_) h
  · split_ifs
    · exact coveringIndices_length grid
    · exact baselineIndices_length grid
  · rw [if_neg not_mem_nil]
    exact baselineIndices_length grid
  · rw [if_neg not_mem_nil]
    split_ifs
    · exact zero_index hzero
    · rfl

theorem nibblesOf_getElem? (values : List ℚ) (indices : List Nat) (column : Nat) :
    (nibblesOf values indices)[column]? = (values[column]?).bind fun value =>
      (indices[column]?).map fun index => index ||| (decide (value < 0)).toNat <<< 3 := by
  unfold nibblesOf
  rw [getElem?_zipWith]
  cases values[column]? with
  | none => rfl
  | some value =>
    cases indices[column]? with
    | none => rfl
    | some index => rfl

theorem paddedRow_behind {blocks column : Nat} {values : List ℚ}
    (hvalues : values.length = columns) (h : columns ≤ column) :
    (paddedRow columns blocks values)[column]? = none ∨
      (paddedRow columns blocks values)[column]? = some 0 := by
  unfold paddedRow
  rw [getElem?_append_right (by omega), hvalues, getElem?_replicate]
  split_ifs
  · exact .inr rfl
  · exact .inl rfl

/-- A row as it is chosen, with or without the choice of single codes. -/
def IsChosen (argpartition : List (WithTop ℚ) → Nat → List Nat) (samples : List (List ℚ))
    (columns : Nat) (grids : List (List ℚ)) (row : RowCodes) : Prop :=
  let covered := rowWith grids (selectCovering samples grids)
  row = covered ∨ row = covered.withColumns samples columns
    (covered.selectColumns argpartition samples columns)

section

variable (hargpartition : IsArgpartition argpartition)
  (hgrids : ∀ grid ∈ grids, grid.length = fp4QuantGroupSize)
  (h : IsChosen argpartition samples columns grids row)

include hargpartition hgrids h

theorem isChosen_lowers :
    row = rowWith grids [] ∨ sumOfSquares (outputsOf samples (minus row.decoded row.values)) <
      sumOfSquares (coveringResidual samples grids []) := by
  have hvalid := rowWith_valid hgrids (selectCovering samples grids)
  have hcovering := @selectCovering_lowers samples grids hgrids
  unfold IsChosen at h
  generalize selectCovering samples grids = selected at h hvalid hcovering
  have hcolumns : row = rowWith grids selected ∨
      sumOfSquares (outputsOf samples (minus row.decoded row.values)) <
        sumOfSquares (coveringResidual samples grids selected) := by
    rcases h with rfl | rfl
    · exact .inl rfl
    · rcases (@selectColumns_lowers samples columns _ argpartition hargpartition hvalid).2 with
        hnone | hlower
      · rw [hnone, withColumns_nil]
        exact .inl rfl
      · refine .inr ?_
        have hstart : columnResidual samples columns (rowWith grids selected) [] =
            coveringResidual samples grids selected := by
          unfold columnResidual columnErrors coveringResidual
          rw [withColumns_nil]
        rw [hstart] at hlower
        exact hlower
  rcases hcolumns with rfl | hlower
  · rcases hcovering with hnone | hlower
    · exact .inl (by rw [hnone])
    · exact .inr hlower
  · rcases hcovering with hnone | hbefore
    · rw [hnone] at hlower
      exact .inr hlower
    · exact .inr (lt_trans hlower hbefore)

theorem isChosen_padding (hcolumn : columns ≤ column) (hzero : grids.flatten[column]? = some 0) :
    row.indices[column]? = (rowWith grids []).indices[column]? := by
  have hvalid := rowWith_valid hgrids (selectCovering samples grids)
  have hpadding := rowWith_padding (selectCovering samples grids) hzero
  unfold IsChosen at h
  generalize selectCovering samples grids = selected at h hvalid hpadding
  rcases h with rfl | rfl
  · exact hpadding
  · have hnot : column ∉ (rowWith grids selected).selectColumns argpartition samples columns := by
      intro hmem
      have heligible := (@selectColumns_lowers samples columns _ argpartition hargpartition
        hvalid).1 column hmem
      exact absurd (columnChange_eligible heligible) (Nat.not_lt.2 hcolumn)
    unfold RowCodes.withColumns
    rw [getElem?_mapIdx, ← hpadding]
    cases (rowWith grids selected).indices[column]? with
    | none => rfl
    | some index => rw [Option.map_some, if_neg hnot]

end

theorem isChosen_valid (hgrids : ∀ grid ∈ grids, grid.length = fp4QuantGroupSize)
    (h : IsChosen argpartition samples columns grids row) :
    row.Valid ∧ row.values = grids.flatten ∧ row.codes.length = grids.length := by
  have hvalid := rowWith_valid hgrids (selectCovering samples grids)
  rcases h with rfl | rfl
  · exact ⟨hvalid, rfl, length_mapIdx⟩
  · exact ⟨hvalid.withColumns _, rfl, length_mapIdx⟩

theorem isChosen_noWorse (hargpartition : IsArgpartition argpartition)
    (hvalues : values.length = columns) (hcolumns : columns ≤ blocks * fp4QuantGroupSize)
    (h : IsChosen argpartition samples columns
      (gridsOf fp4QuantGroupSize columns blocks values) row) :
    NoWorse samples columns blocks (paddedRow columns blocks values)
      (numpyFp4Row true columns blocks values) row.encoded := by
  have hgrids : ∀ grid ∈ gridsOf fp4QuantGroupSize columns blocks values,
      grid.length = fp4QuantGroupSize := fun grid hgrid => mem_gridsOf hvalues hcolumns hgrid
  have hflatten := gridsOf_flatten hvalues hcolumns
  have hblocks : (gridsOf fp4QuantGroupSize columns blocks values).length = blocks := by
    unfold gridsOf
    rw [length_map, length_range]
  rw [numpyFp4Row_baseline]
  generalize gridsOf fp4QuantGroupSize columns blocks values = grids at *
  have hbaseline := rowWith_valid hgrids []
  obtain ⟨hvalid, hsame, hcodes⟩ := isChosen_valid hgrids h
  have herror := @RowCodes.Valid.residualError samples row hvalid
  have hbefore := @RowCodes.Valid.residualError samples _ hbaseline
  rw [hsame, hflatten] at herror
  rw [show (rowWith grids []).values = paddedRow columns blocks values from hflatten] at hbefore
  have hlower := isChosen_lowers hargpartition hgrids h
  unfold coveringResidual at hlower
  rw [show (rowWith grids []).values = paddedRow columns blocks values from hflatten, hsame,
    hflatten, ← herror, ← hbefore] at hlower
  refine ⟨?_, fun hne => ?_, fun column hcolumn => ?_, ?_⟩
  · rcases hlower with rfl | hlt
    · exact le_refl _
    · exact le_of_lt hlt
  · rcases hlower with rfl | hlt
    · exact absurd rfl hne
    · exact hlt
  · rw [hvalid.unpacked, hbaseline.unpacked, nibblesOf_getElem?, nibblesOf_getElem?, hsame,
      show (rowWith grids []).values = grids.flatten from rfl]
    rcases @paddedRow_behind columns blocks column values hvalues hcolumn with hnone | hzero
    · rw [hflatten, hnone]
      rfl
    · rw [← hflatten] at hzero
      rw [isChosen_padding hargpartition hgrids h hcolumn hzero]
  · have hsized := hvalid.sized
    rw [hcodes, hblocks] at hsized
    exact hsized

theorem activationFp4Rows_eq_ok {selectPayloadCodes : Bool} {blocks count : Nat}
    {numeric : List ℚ} {result : List Encoded × Nat × Nat} :
    activationFp4Rows argpartition selectPayloadCodes samples columns blocks count numeric =
        .ok result ↔
      (samples ≠ [] ∧ ∀ sample ∈ samples, sample.length = blocks * fp4QuantGroupSize) ∧
        numeric.length = count * columns ∧
        result =
          let grids := (List.range count).map fun row =>
            gridsOf fp4QuantGroupSize columns blocks ((numeric.drop (row * columns)).take columns)
          let selections := grids.map (selectCovering samples)
          let rows := List.zipWith rowWith grids selections
          let chosen := if selectPayloadCodes then
            activationAwarePayloadIndices argpartition samples columns rows else (rows, 0)
          (chosen.1.map RowCodes.encoded, (selections.map List.length).sum, chosen.2) := by
  unfold activationFp4Rows
  simp only [except_bind_eq_ok]
  constructor
  · rintro ⟨⟨⟩, hsamples, ⟨⟩, hnumeric, hresult⟩
    cases hresult
    exact ⟨demand_eq_ok.1 hsamples, demand_eq_ok.1 hnumeric, rfl⟩
  · rintro ⟨hsamples, hnumeric, rfl⟩
    exact ⟨(), demand_eq_ok.2 hsamples, (), demand_eq_ok.2 hnumeric, rfl⟩

/-- Every row of a chunk is no worse than its baseline on the samples, and another than it only
with the smaller error; its padding is the baseline's. -/
theorem activationFp4Rows_no_worse (hargpartition : IsArgpartition argpartition)
    {selectPayloadCodes : Bool} {count changed payloadChanged : Nat} {numeric : List ℚ}
    {rows : List Encoded}
    (h : activationFp4Rows argpartition selectPayloadCodes samples columns
      (rowBlocks fp4QuantGroupSize columns) count numeric = .ok (rows, changed, payloadChanged)) :
    rows.length = count ∧ ∀ row < count, ∃ encoded, rows[row]? = some encoded ∧
      NoWorse samples columns (rowBlocks fp4QuantGroupSize columns)
        (paddedRow columns (rowBlocks fp4QuantGroupSize columns)
          ((numeric.drop (row * columns)).take columns))
        (numpyFp4Row true columns (rowBlocks fp4QuantGroupSize columns)
          ((numeric.drop (row * columns)).take columns)) encoded := by
  obtain ⟨-, hnumeric, hresult⟩ := activationFp4Rows_eq_ok.1 h
  have hrows := congrArg Prod.fst hresult
  dsimp only at hrows
  rw [zipWith_map_right, zipWith_self, map_map] at hrows
  have hchosen : ∃ chosen : List RowCodes, rows = chosen.map RowCodes.encoded ∧
      chosen.length = count ∧ ∀ row < count, ∃ codes, chosen[row]? = some codes ∧
        IsChosen argpartition samples columns (gridsOf fp4QuantGroupSize columns
          (rowBlocks fp4QuantGroupSize columns) ((numeric.drop (row * columns)).take columns))
            codes := by
    refine ⟨_, hrows, ?_⟩
    unfold activationAwarePayloadIndices
    split_ifs
    · refine ⟨by rw [length_map, length_range], fun row hrow => ?_⟩
      rw [getElem?_map, getElem?_range hrow]
      exact ⟨_, rfl, .inl rfl⟩
    · refine ⟨by rw [length_map, length_map, length_range], fun row hrow => ?_⟩
      rw [getElem?_map, getElem?_map, getElem?_range hrow]
      exact ⟨_, rfl, .inr rfl⟩
    · refine ⟨by rw [length_map, length_range], fun row hrow => ?_⟩
      rw [getElem?_map, getElem?_range hrow]
      exact ⟨_, rfl, .inl rfl⟩
  obtain ⟨chosen, rfl, hlength, hall⟩ := hchosen
  refine ⟨by rw [length_map, hlength], fun row hrow => ?_⟩
  obtain ⟨codes, hcodes, hischosen⟩ := hall row hrow
  have hvalues : ((numeric.drop (row * columns)).take columns).length = columns := by
    have hlater := Nat.mul_le_mul_right columns hrow
    rw [Nat.succ_mul] at hlater
    rw [length_take, length_drop, hnumeric]
    omega
  refine ⟨codes.encoded, by rw [getElem?_map, hcodes]; rfl, ?_⟩
  exact isChosen_noWorse hargpartition hvalues (le_rowBlocks (by decide) columns) hischosen

/-- The positions of sorted keys. -/
def sortedPositions (keys : List (WithTop ℚ)) : List Nat :=
  (List.range keys.length).mergeSort fun left right =>
    decide (keys.getD left ⊤ ≤ keys.getD right ⊤)

theorem sortedPositions_isArgpartition :
    IsArgpartition fun keys _ => sortedPositions keys := by
  have hperm : ∀ keys, (sortedPositions keys).Perm (List.range keys.length) :=
    fun keys => mergeSort_perm _ _
  have hsorted : ∀ (keys : List (WithTop ℚ)) (first second : Nat), first ≤ second →
      second < keys.length → keys.getD ((sortedPositions keys).getD first 0) ⊤ ≤
        keys.getD ((sortedPositions keys).getD second 0) ⊤ := by
    intro keys first second hle hsecond
    have hlength := (hperm keys).length_eq
    rw [length_range] at hlength
    rcases Nat.lt_or_eq_of_le hle with hlt | rfl
    · have hpairs : (sortedPositions keys).Pairwise fun left right =>
          keys.getD left ⊤ ≤ keys.getD right ⊤ := by
        refine (pairwise_mergeSort ?_ ?_ _).imp fun {left right} h => of_decide_eq_true h
        · intro a b c hab hbc
          exact decide_eq_true (le_trans (of_decide_eq_true hab) (of_decide_eq_true hbc))
        · intro a b
          rw [Bool.or_eq_true, decide_eq_true_iff, decide_eq_true_iff]
          exact le_total _ _
      have hat := pairwise_iff_getElem.1 hpairs first second (by omega) (by omega) hlt
      rw [getD_eq_getElem (sortedPositions keys) 0 (by omega),
        getD_eq_getElem (sortedPositions keys) 0 (by omega)]
      exact hat
    · exact le_refl _
  exact ⟨fun keys kth _ => hperm keys, fun keys kth position hkth hle => hsorted keys _ _ hle hkth,
    fun keys kth position hle hlt => hsorted keys _ _ hle hlt⟩

/-- One row of one value on one sample. -/
theorem one_row_no_worse : ∃ rows changed payloadChanged,
    activationFp4Rows (fun keys _ => sortedPositions keys) true [List.replicate 32 1] 1
      (rowBlocks fp4QuantGroupSize 1) 1 [7 / 10] = .ok (rows, changed, payloadChanged) ∧
    rows.length = 1 ∧ ∀ row < 1, ∃ encoded, rows[row]? = some encoded ∧
      NoWorse [List.replicate 32 1] 1 (rowBlocks fp4QuantGroupSize 1)
        (paddedRow 1 (rowBlocks fp4QuantGroupSize 1) (([7 / 10].drop (row * 1)).take 1))
        (numpyFp4Row true 1 (rowBlocks fp4QuantGroupSize 1) (([7 / 10].drop (row * 1)).take 1))
        encoded := by
  have hok := (@activationFp4Rows_eq_ok [List.replicate 32 1] 1 (fun keys _ => sortedPositions keys)
    true (rowBlocks fp4QuantGroupSize 1) 1 [7 / 10] _).2
      ⟨⟨cons_ne_nil _ _, fun sample hsample => by
        rw [mem_singleton.1 hsample, length_replicate]
        rfl⟩, rfl, rfl⟩
  exact ⟨_, _, _, hok, activationFp4Rows_no_worse sortedPositions_isArgpartition hok⟩

end QuantumLlm.ExpertPack
