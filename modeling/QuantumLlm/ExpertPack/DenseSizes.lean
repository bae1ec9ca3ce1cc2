import QuantumLlm.ExpertPack.Dense
import QuantumLlm.ExpertPack.Written

/-!
# Sizes of dense sections

Every encoder returns as many bytes as the size of the record is computed from, and scale codes
that the check takes; of INT8 the scales are those of the rows.
-/

namespace QuantumLlm.ExpertPack

open List

open QuantumLlm.Runtime (Sha256Digest finitePositive)

variable {α : Type} {arithmetic : DenseArithmetic α} {options : DenseOptions} {info : DenseTensor}
  {encoded : Encoded}

theorem packGroups_length (codes : List Nat) : (packGroups codes).length = codes.length / 4 * 3 := by
  induction codes using packGroups.induct with
  | case1 c0 c1 c2 c3 rest ih =>
    simp only [packGroups, length_cons, ih]
    omega
  | case2 codes hshort =>
    match codes with
    | [] => rfl
    | [_] => simp [packGroups]
    | [_, _] => simp [packGroups]
    | [_, _, _] => simp [packGroups]
    | c0 :: c1 :: c2 :: c3 :: rest => exact absurd rfl (hshort c0 c1 c2 c3 rest)

/-- The blocks of a row of so many columns. -/
def denseBlocks (shape : List Nat) : Nat :=
  (shape.getLastD 0 + fp4QuantGroupSize - 1) / fp4QuantGroupSize

theorem paddedColumns_eq (shape : List Nat) : paddedColumns shape = denseBlocks shape * 32 := rfl

theorem columns_le (shape : List Nat) :
    shape.getLastD 0 ≤ denseBlocks shape * fp4QuantGroupSize := by
  unfold denseBlocks fp4QuantGroupSize
  omega

theorem fp4Sections (rows blocks : Nat) : rows * (blocks * 32) / 2 = rows * (blocks * 16) ∧
    rows * (blocks * 32) / fp4QuantGroupSize = rows * (blocks * 1) := by
  unfold fp4QuantGroupSize
  rw [← Nat.mul_assoc, ← Nat.mul_assoc, ← Nat.mul_assoc]
  omega

theorem writeFp4Block32Rows_dense {optimizeMse : Bool}
    (h : writeFp4Block32Rows arithmetic.toArithmetic optimizeMse info.tensor = .ok encoded) :
    encoded.Sized (matrixRows info.shape * (denseBlocks info.shape * 16))
      (matrixRows info.shape * (denseBlocks info.shape * 1)) Ue8m0Code := by
  simp only [writeFp4Block32Rows, except_bind_eq_ok] at h
  obtain ⟨⟨⟩, -, ⟨⟩, -, hrows⟩ := h
  exact encodeRows_sized (fun _ _ _ hpart => fp4Row_sized (columns_le info.shape) hpart) hrows

theorem byte_code {code : Nat} (h : 1 ≤ code ∧ code ≤ 254) : Ue8m0Code (UInt8.ofNat code) := by
  unfold Ue8m0Code fp4Ue8m0MinCode fp4Ue8m0MaxCode
  rw [UInt8.toNat_ofNat', Nat.mod_eq_of_lt (by omega)]
  exact h

variable {codes : CalibratedCodes} {selectPayloadCodes : Bool} {row block columns blocks : Nat}
  {chunk values : List α} {nvfp4 : NativeNvfp4Dense}

theorem calibratedBlock_sized (h : chunk.length = fp4QuantGroupSize) :
    (calibratedBlock arithmetic codes selectPayloadCodes row block chunk).Sized 16 1
      Ue8m0Code := by
  unfold calibratedBlock
  refine ⟨?_, rfl, fun code hcode => ?_⟩
  · rw [fp4PackNibbles_length, length_mapIdx, h]
    rfl
  · rw [mem_singleton.1 hcode]
    split_ifs
    · exact byte_code (fp4BlockCode_range chunk)
    · exact byte_code (fp4MinErrorBlockCode_range chunk)

theorem chunk_length {groupSize : Nat} {filler : α}
    (hvalues : values.length = columns) (hcolumns : columns ≤ blocks * groupSize)
    (hblock : block < blocks) :
    (((values ++ List.replicate (blocks * groupSize - columns) filler).drop
      (block * groupSize)).take groupSize).length = groupSize := by
  have hlater := Nat.mul_le_mul_right groupSize hblock
  rw [Nat.succ_mul] at hlater
  rw [length_take, length_drop, length_append, length_replicate, hvalues]
  omega

theorem calibratedRow_sized (hcolumns : columns ≤ blocks * fp4QuantGroupSize)
    (h : calibratedRow arithmetic codes selectPayloadCodes columns blocks row values =
      .ok encoded) : encoded.Sized (blocks * 16) (blocks * 1) Ue8m0Code := by
  simp only [calibratedRow, except_bind_eq_ok] at h
  obtain ⟨⟨⟩, hlength, ⟨⟩, -, hencoded⟩ := h
  rw [demand_eq_ok] at hlength
  refine encodeRows_sized (fun block hblock part hpart => ?_) hencoded
  cases hpart
  exact calibratedBlock_sized (chunk_length hlength hcolumns hblock)

theorem writeFp4Dense_sized (h : writeFp4Dense arithmetic options info = .ok encoded) :
    info.shape ≠ [] ∧ encoded.Sized (matrixRows info.shape * paddedColumns info.shape / 2)
      (matrixRows info.shape * paddedColumns info.shape / fp4QuantGroupSize) Ue8m0Code := by
  obtain ⟨hdata, hscales⟩ := fp4Sections (matrixRows info.shape) (denseBlocks info.shape)
  rw [paddedColumns_eq, hdata, hscales]
  have hplain : ∀ optimizeMse, writeFp4Block32Rows arithmetic.toArithmetic optimizeMse
      info.tensor = .ok encoded → info.shape ≠ [] ∧
        encoded.Sized (matrixRows info.shape * (denseBlocks info.shape * 16))
          (matrixRows info.shape * (denseBlocks info.shape * 1)) Ue8m0Code := by
    intro optimizeMse hwritten
    refine ⟨?_, writeFp4Block32Rows_dense hwritten⟩
    simp only [writeFp4Block32Rows, except_bind_eq_ok] at hwritten
    obtain ⟨⟨⟩, hshape, -⟩ := hwritten
    exact (demand_eq_ok.1 hshape).1
  unfold writeFp4Dense at h
  split at h
  next => exact hplain _ h
  next calibration _ =>
    simp only [except_bind_eq_ok] at h
    obtain ⟨⟨⟩, hshape, ⟨⟩, -, ⟨⟩, -, loaded, -, hloaded⟩ := h
    cases loaded with
    | none => exact hplain _ hloaded
    | some codes =>
      refine ⟨(demand_eq_ok.1 hshape).1, encodeRows_sized (fun row _ part hpart => ?_) hloaded⟩
      exact calibratedRow_sized (columns_le info.shape) hpart

theorem mxfp6DenseCode_range (chunk : List α) :
    1 ≤ mxfp6DenseCode arithmetic chunk ∧ mxfp6DenseCode arithmetic chunk ≤ 254 := by
  unfold mxfp6DenseCode
  cases arithmetic.mxfp6Exponent chunk with
  | none => decide
  | some exponent =>
    dsimp only
    unfold fp4Ue8m0MinCode fp4Ue8m0MaxCode
    omega

theorem mxfp6DenseBlock_sized (hchunk : chunk.length = mxfp6QuantGroupSize)
    (h : mxfp6DenseBlock arithmetic chunk = .ok encoded) : encoded.Sized 24 1 Ue8m0Code := by
  simp only [mxfp6DenseBlock, mxfp6PackCodes, except_bind_eq_ok] at h
  obtain ⟨payload, ⟨⟨⟩, -, hpayload⟩, hencoded⟩ := h
  cases hpayload
  cases hencoded
  refine ⟨?_, rfl, fun code hcode => ?_⟩
  · rw [packGroups_length, length_map, hchunk]
    rfl
  · rw [mem_singleton.1 hcode]
    exact byte_code (mxfp6DenseCode_range chunk)

theorem writeMxfp6Dense_sized (h : writeMxfp6Dense arithmetic info = .ok encoded) :
    info.shape ≠ [] ∧ encoded.Sized (matrixRows info.shape * paddedColumns info.shape * 3 / 4)
      (matrixRows info.shape * paddedColumns info.shape / mxfp6QuantGroupSize) Ue8m0Code := by
  simp only [writeMxfp6Dense, except_bind_eq_ok] at h
  obtain ⟨⟨⟩, hshape, ⟨⟩, -, hrows⟩ := h
  have hsized := encodeRows_sized (fun row _ part hpart => by
    simp only [mxfp6DenseRow, except_bind_eq_ok] at hpart
    obtain ⟨⟨⟩, hlength, ⟨⟩, -, hencoded⟩ := hpart
    rw [demand_eq_ok] at hlength
    exact encodeRows_sized (fun block hblock inner hinner => mxfp6DenseBlock_sized
      (chunk_length hlength (columns_le info.shape) hblock) hinner) hencoded) hrows
  have hdata : matrixRows info.shape * (denseBlocks info.shape * 32) * 3 / 4 =
      matrixRows info.shape * (denseBlocks info.shape * 24) := by
    rw [← Nat.mul_assoc, ← Nat.mul_assoc]
    omega
  rw [paddedColumns_eq, hdata, show mxfp6QuantGroupSize = fp4QuantGroupSize from rfl,
    (fp4Sections _ _).2]
  exact ⟨(demand_eq_ok.1 hshape).1, hsized⟩

theorem float32Bytes_length (values : List α) :
    (float32Bytes arithmetic values).length = values.length * 4 := by
  unfold float32Bytes
  rw [length_flatMap]
  simp only [leBytes_length, map_const', sum_replicate, smul_eq_mul]

theorem decodeFloatRow_length (dtype : Dtype) (raw : Bytes) :
    (decodeFloatRow arithmetic.toArithmetic dtype raw).length = raw.length / dtype.bytes := by
  unfold decodeFloatRow
  rw [length_map, length_range]

theorem dtype_bytes_pos (dtype : Dtype) : 0 < dtype.bytes := by
  cases dtype <;> decide

theorem writeFloat32_length {payload : Bytes}
    (h : writeFloat32 arithmetic info = .ok payload) :
    info.shape ≠ [] ∧ payload.length = elementsOf info.shape * 4 := by
  have hraw := info.tensor.raw_length
  have hpositive := dtype_bytes_pos info.dtype
  unfold writeFloat32 at h
  split_ifs at h with hrank
  · simp only [except_bind_eq_ok] at h
    obtain ⟨⟨⟩, -, hpayload⟩ := h
    cases hpayload
    refine ⟨fun hnil => by rw [hnil] at hrank; exact absurd hrank (by decide), ?_⟩
    rw [float32Bytes_length, decodeFloatRow_length, hraw]
    unfold DenseTensor.dtype at hpositive ⊢
    rw [Nat.mul_div_cancel _ hpositive]
    rfl
  · simp only [except_bind_eq_ok] at h
    obtain ⟨geometry, hgeometry, hpayload⟩ := h
    cases hpayload
    have hshape : info.shape ≠ [] ∧ elementsOf info.shape = geometry.1 * geometry.2 := by
      unfold rowGeometry at hgeometry
      unfold DenseTensor.shape elementsOf
      split at hgeometry
      next columns hcolumns =>
        simp only [except_bind_eq_ok] at hgeometry
        obtain ⟨⟨⟩, -, hpair⟩ := hgeometry
        cases hpair
        rw [hcolumns]
        exact ⟨cons_ne_nil _ _, by simp⟩
      next rows columns hcolumns =>
        simp only [except_bind_eq_ok] at hgeometry
        obtain ⟨⟨⟩, -, hpair⟩ := hgeometry
        cases hpair
        rw [hcolumns]
        exact ⟨cons_ne_nil _ _, by simp⟩
      next => cases hgeometry
    refine ⟨hshape.1, ?_⟩
    have hrow : ∀ row ∈ List.range geometry.1, (float32Bytes arithmetic
        (decodeFloatRow arithmetic.toArithmetic info.dtype (slice info.tensor.raw
          (row * (geometry.2 * info.dtype.bytes)) (geometry.2 * info.dtype.bytes)))).length =
            geometry.2 * 4 := by
      intro row hrow
      have hlater := Nat.mul_le_mul_right (geometry.2 * info.dtype.bytes) (mem_range.1 hrow)
      have htotal : info.tensor.raw.length = geometry.1 * (geometry.2 * info.dtype.bytes) := by
        rw [hraw, ← Nat.mul_assoc, ← hshape.2]
        rfl
      rw [Nat.succ_mul] at hlater
      rw [float32Bytes_length, decodeFloatRow_length, slice, length_take, length_drop,
        Nat.min_eq_left (by omega), Nat.mul_div_cancel _ hpositive]
    rw [length_flatMap, map_congr_left hrow, hshape.2]
    simp only [map_const', sum_replicate, smul_eq_mul, length_range]
    rw [Nat.mul_assoc]

/-- The values of a row of a matrix. -/
def rowValues (arithmetic : Arithmetic α) (info : DenseTensor) (row : Nat) : List α :=
  let rowBytes := info.shape.getLastD 0 * info.dtype.bytes
  decodeFloatRow arithmetic info.dtype (slice info.tensor.raw (row * rowBytes) rowBytes)

theorem floatBits_leBytes (bits : UInt32) : floatBits (leBytes 4 bits.toNat) = [bits] := by
  have hvalue := @leValue_leBytes 4 bits.toNat (by
    have hlt := bits.toNat_lt
    exact hlt)
  change [UInt32.ofNat (leValue (leBytes 4 bits.toNat))] = [bits]
  rw [hvalue, UInt32.ofNat_toNat]

theorem encodeRows_scales {row : Nat → Except String Encoded} {bits : Nat → UInt32} {count : Nat}
    (hrow : ∀ index < count, ∀ part, row index = .ok part →
      part.scales = leBytes 4 (bits index).toNat) (h : encodeRows row count = .ok encoded) :
    floatBits encoded.scales = (List.range count).map bits ∧
      encoded.scales.length = count * 4 := by
  induction count generalizing encoded with
  | zero =>
    cases h
    exact ⟨rfl, rfl⟩
  | succ count ih =>
    simp only [encodeRows, except_bind_eq_ok] at h
    obtain ⟨before, hbefore, last, hlast, hencoded⟩ := h
    cases hencoded
    obtain ⟨hbits, hlength⟩ := ih (fun index hindex => hrow index (by omega)) hbefore
    rw [hrow count (Nat.lt_succ_self count) last hlast]
    refine ⟨?_, ?_⟩
    · rw [floatBits_append (by omega), hbits, floatBits_leBytes, range_succ,
        map_append, map_singleton]
    · rw [length_append, hlength, leBytes_length, Nat.succ_mul]

theorem writeInt8Rows_bits {rows : Nat} (hshape : info.shape = [rows, columns])
    (h : writeInt8Rows arithmetic.toArithmetic info.tensor = .ok encoded) :
    floatBits encoded.scales = (List.range rows).map (fun row =>
        arithmetic.int8Scale (rowValues arithmetic.toArithmetic info row)) ∧
      ∀ row < rows, (rowValues arithmetic.toArithmetic info row).all arithmetic.finite = true := by
  have htensor : info.tensor.shape = [rows, columns] := hshape
  simp only [writeInt8Rows, rowGeometry, htensor, except_bind_eq_ok] at h
  obtain ⟨geometry, ⟨-, -, hgeometry⟩, hrows⟩ := h
  cases hgeometry
  have hvalues : ∀ row, decodeFloatRow arithmetic.toArithmetic info.tensor.dtype
      (slice info.tensor.raw (row * (columns * info.tensor.dtype.bytes))
        (columns * info.tensor.dtype.bytes)) = rowValues arithmetic.toArithmetic info row := by
    intro row
    unfold rowValues
    rw [hshape]
    rfl
  simp only [hvalues] at hrows
  refine ⟨(encodeRows_scales (fun row _ part hpart => ?_) hrows).1, ?_⟩
  · simp only [quantizeInt8Row, except_bind_eq_ok] at hpart
    obtain ⟨⟨⟩, -, ⟨⟩, -, hencoded⟩ := hpart
    cases hencoded
    rfl
  · have hfinite : ∀ count encoded, encodeRows (fun row => quantizeInt8Row arithmetic.toArithmetic
        (rowValues arithmetic.toArithmetic info row) columns) count = .ok encoded →
          ∀ row < count, (rowValues arithmetic.toArithmetic info row).all
            arithmetic.finite = true := by
      intro count
      induction count with
      | zero => exact fun _ _ row hrow => absurd hrow (Nat.not_lt_zero row)
      | succ count ih =>
        intro encoded hencoded row hrow
        simp only [encodeRows, except_bind_eq_ok] at hencoded
        obtain ⟨before, hbefore, last, hlast, -⟩ := hencoded
        rcases Nat.lt_or_eq_of_le (Nat.lt_succ_iff.1 hrow) with hlt | rfl
        · exact ih before hbefore row hlt
        · simp only [quantizeInt8Row, except_bind_eq_ok] at hlast
          obtain ⟨⟨⟩, hall, -⟩ := hlast
          exact demand_eq_ok.1 hall
    exact hfinite rows encoded hrows

/-- The sizes of the sections of a tensor in its encoding. -/
def ImpliedSizes (options : DenseOptions) (info : DenseTensor) (dataBytes scaleBytes : Nat) :
    Prop :=
  match options.nativeNvfp4 with
  | some nvfp4 => dataBytes = nvfp4.logicalShape.1 * nvfp4.logicalShape.2 / 2 ∧
      scaleBytes = nvfp4.logicalShape.1 * nvfp4.logicalShape.2 / nvfp4QuantGroupSize +
        nvfp4.weightGlobalScale.nbytes + nvfp4.inputGlobalScale.nbytes
  | none => denseSectionSizes options info = .ok (dataBytes, scaleBytes)

/-- What a native matrix is made of. -/
structure NativeParts (options : DenseOptions) (info : DenseTensor) (nvfp4 : NativeNvfp4Dense)
    (encoded : Encoded) : Prop where
  quantAbi : options.quantAbi = nvfp4QuantAbiId
  columns : nvfp4.logicalShape.2 % nvfp4QuantGroupSize = 0
  payload : encoded.payload = info.tensor.raw
  payload_length : info.nbytes = nvfp4.logicalShape.1 * nvfp4.logicalShape.2 / 2
  scales : encoded.scales = nvfp4.scale.tensor.raw ++ nvfp4.weightGlobalScale.tensor.raw ++
    nvfp4.inputGlobalScale.tensor.raw
  codes_length : nvfp4.scale.nbytes =
    nvfp4.logicalShape.1 * nvfp4.logicalShape.2 / nvfp4QuantGroupSize
  weight_length : nvfp4.weightGlobalScale.nbytes = 4
  input_length : nvfp4.inputGlobalScale.dtype = .f32 ∧ nvfp4.inputGlobalScale.nbytes = 4 ∨
    nvfp4.inputGlobalScale.dtype = .bf16 ∧ nvfp4.inputGlobalScale.nbytes = 2
  weight_dtype : nvfp4.weightGlobalScale.dtype = .f32

theorem copyNativeDense_parts (h : copyNativeDense options info nvfp4 = .ok encoded) :
    NativeParts options info nvfp4 encoded := by
  simp only [copyNativeDense, except_bind_eq_ok] at h
  obtain ⟨⟨⟩, hdeclared, ⟨⟩, hgeometry, hencoded⟩ := h
  cases hencoded
  obtain ⟨hquantAbi, -⟩ := demand_eq_ok.1 hdeclared
  obtain ⟨hcolumns, hdtype, hshape, hscaleDtype, hscaleShape, hweightDtype, hweightShape,
    hinputDtype, hinputShape⟩ := demand_eq_ok.1 hgeometry
  unfold DenseTensor.dtype DenseTensor.shape at *
  refine ⟨hquantAbi, hcolumns, rfl, ?_, rfl, ?_, ?_, ?_, hweightDtype⟩
  · unfold DenseTensor.nbytes
    have heven : 2 ∣ nvfp4.logicalShape.2 := by
      unfold nvfp4QuantGroupSize at hcolumns
      omega
    rw [info.tensor.raw_length, hshape, hdtype, Nat.mul_div_assoc _ heven]
    simp [Dtype.bytes]
  · unfold DenseTensor.nbytes
    rw [nvfp4.scale.tensor.raw_length, hscaleShape, hscaleDtype,
      Nat.mul_div_assoc _ (Nat.dvd_of_mod_eq_zero hcolumns)]
    simp [Dtype.bytes]
  · unfold DenseTensor.nbytes
    rw [nvfp4.weightGlobalScale.tensor.raw_length, hweightShape, hweightDtype]
    rfl
  · unfold DenseTensor.nbytes
    rw [nvfp4.inputGlobalScale.tensor.raw_length, hinputShape]
    rcases mem_cons.1 hinputDtype with hwide | hnarrow
    · rw [hwide]
      exact .inl ⟨hwide, rfl⟩
    · rw [mem_singleton.1 hnarrow]
      exact .inr ⟨mem_singleton.1 hnarrow, rfl⟩

theorem not_native_of_raw (hint : options.preserveInt64 = true → options.preserveFloat32 = false ∧
      options.preserveBfloat16 = false ∧ options.nativeNvfp4.isNone ∧ info.dtype = .i64)
    (hbfloat : options.preserveBfloat16 = true → options.preserveFloat32 = false ∧
      options.nativeNvfp4.isNone ∧ info.dtype = .bf16)
    (hnative : options.nativeNvfp4 = some nvfp4) :
    options.preserveInt64 = false ∧ options.preserveBfloat16 = false := by
  refine ⟨?_, ?_⟩
  · by_contra hset
    obtain ⟨-, -, hnone, -⟩ := hint (Bool.eq_true_of_not_eq_false hset)
    rw [hnative] at hnone
    cases hnone
  · by_contra hset
    obtain ⟨-, hnone, -⟩ := hbfloat (Bool.eq_true_of_not_eq_false hset)
    rw [hnative] at hnone
    cases hnone

end QuantumLlm.ExpertPack
