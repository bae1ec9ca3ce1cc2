import QuantumLlm.ExpertPack.DenseWritten

/-!
# Accepted dense records

What the predictor of the size and the check of a record find in a record that the writer has
finished: its size, its sections, and of the check only what its scales and its shape decide.
-/

namespace QuantumLlm.ExpertPack

open List

open QuantumLlm.Runtime (Sha256Digest finitePositive)

variable {α : Type} {arithmetic : DenseArithmetic α} {sha256 : Bytes → Sha256Digest}
  {options : DenseOptions} {info : DenseTensor} {packName : String} {start : Nat}
  {record : Bytes} {entry : DenseRecordEntry} {encoded : Encoded}

theorem quantized_not_raw (h : options.quantized info = true) :
    options.preserveInt64 = false ∧ options.preserveBfloat16 = false := by
  unfold DenseOptions.quantized at h
  simp only [Bool.and_eq_true, Bool.not_eq_true'] at h
  exact ⟨h.1.1.1, h.1.1.2⟩

theorem storage_bytes : (if (options.storage info).dtype = .i64 then 8
    else if (options.storage info).dtype = .bf16 then 2 else 4) = rawBytes options := by
  unfold DenseOptions.storage rawBytes
  by_cases hint : options.preserveInt64 = true
  · rw [if_pos hint, if_pos hint]
    rfl
  · by_cases hbfloat : options.preserveBfloat16 = true
    · rw [if_neg hint, if_neg hint, if_pos hbfloat, if_pos hbfloat]
      rfl
    · rw [if_neg hint, if_neg hint, if_neg hbfloat, if_neg hbfloat]
      split_ifs <;> first | rfl | contradiction

theorem storage_rowMajor : (options.storage info).flags &&& flagRowMajor ≠ 0 := by
  have hplain : flagRowMajor &&& flagRowMajor ≠ 0 := by decide
  have hnative : (flagRowMajor ||| flagSymmetric) &&& flagRowMajor ≠ 0 := by decide
  have hblocks : (flagRowMajor ||| (flagSymmetric ||| flagPerRowScales)) &&& flagRowMajor ≠ 0 := by
    decide
  unfold DenseOptions.storage
  split_ifs
  · exact hplain
  · exact hplain
  · exact hnative
  · exact hblocks
  · exact hblocks
  · exact hblocks
  · exact hplain

theorem storage_blocks (hnative : options.nativeNvfp4 = none)
    (h : options.quantized info = true) : (options.storage info).quantAbi = options.quantAbi ∧
      (options.storage info).flags &&& blockFlags = blockFlags := by
  obtain ⟨hint, hbfloat⟩ := quantized_not_raw h
  unfold DenseOptions.storage
  have hflags : (flagRowMajor ||| (flagSymmetric ||| flagPerRowScales)) &&& blockFlags =
      blockFlags := by
    decide
  rw [hint, hbfloat, hnative, h]
  simp only [Bool.false_eq_true, if_false, if_true, Option.isSome_none]
  split_ifs
  · exact ⟨rfl, hflags⟩
  · exact ⟨rfl, hflags⟩
  · exact ⟨rfl, hflags⟩

theorem storage_plain (hnative : options.nativeNvfp4 = none)
    (h : options.quantized info = false) : (options.storage info).quantAbi = 0 ∧
      (options.storage info).dtype ∈ [.f32, .i64, .bf16] := by
  unfold DenseOptions.storage
  rw [hnative, h]
  simp only [Bool.false_eq_true, if_false, Option.isSome_none]
  split_ifs <;> exact ⟨rfl, by decide⟩

theorem logicalShape_plain (hnative : options.nativeNvfp4 = none) :
    options.logicalShape info = info.shape := by
  unfold DenseOptions.logicalShape
  rw [hnative]

variable {nvfp4 : NativeNvfp4Dense}

section

variable (h : DenseFinished arithmetic sha256 info packName options start record entry encoded)

include h

theorem DenseFinished.storage_native
    (hnative : options.nativeNvfp4 = some nvfp4) : rawBytes options = 4 ∧
      (options.storage info).quantAbi = nvfp4QuantAbiId ∧
      (options.storage info).flags &&& flagSymmetric ≠ 0 := by
  obtain ⟨hint, hbfloat⟩ := not_native_of_raw h.int64 h.bfloat16 hnative
  unfold DenseOptions.storage rawBytes
  rw [hint, hbfloat, hnative]
  have hflags : (flagRowMajor ||| flagSymmetric) &&& flagSymmetric ≠ 0 := by decide
  exact ⟨rfl, rfl, hflags⟩

theorem DenseFinished.implied : (dataSection options info encoded).bytes = encoded.payload.length ∧
      ImpliedSizes options info encoded.payload.length encoded.scales.length := by
  unfold dataSection ImpliedSizes denseSectionSizes
  cases h.storedAs with
  | fp4 hnative hquantized hquantAbi hshape hsized =>
    rw [hnative, hquantized, hquantAbi, hsized.payload, hsized.scales]
    refine ⟨rfl, ?_⟩
    exact except_bind_eq_ok.2 ⟨(), demand_eq_ok.2 hshape, rfl⟩
  | mxfp6 hnative hquantized hquantAbi hshape hsized =>
    rw [hnative, hquantized, hquantAbi, hsized.payload, hsized.scales]
    refine ⟨rfl, ?_⟩
    exact except_bind_eq_ok.2 ⟨(), demand_eq_ok.2 hshape, rfl⟩
  | int8 hnative hquantized hquantAbi rows columns hshape hwritten =>
    have hsized := writeInt8Rows_sized hshape hwritten
    have hdtype : info.dtype ∈ supportedFloatDtypes := by
      have htensor : info.tensor.shape = [rows, columns] := hshape
      simp only [writeInt8Rows, rowGeometry, htensor, except_bind_eq_ok] at hwritten
      obtain ⟨geometry, ⟨⟨⟩, hsupported, -⟩, -⟩ := hwritten
      exact demand_eq_ok.1 hsupported
    have hwidth : info.dtype.bytes = if info.dtype ∈ [.f16, .bf16] then 2 else 4 := by
      unfold supportedFloatDtypes at hdtype
      simp only [mem_cons, not_mem_nil, or_false] at hdtype
      rcases hdtype with hdtype | hdtype | hdtype <;> rw [hdtype] <;> rfl
    have hbytes : info.nbytes / (if info.dtype ∈ [.f16, .bf16] then 2 else 4) =
        rows * columns := by
      have hraw := info.tensor.raw_length
      have htensor : info.tensor.shape = [rows, columns] := hshape
      unfold DenseTensor.nbytes
      rw [hraw, htensor, ← hwidth]
      unfold DenseTensor.dtype
      rw [Nat.mul_div_cancel _ (dtype_bytes_pos _)]
      simp
    rw [hnative, hquantized, hquantAbi, hsized.payload, hsized.scales, hbytes, hshape]
    refine ⟨rfl, ?_⟩
    rw [if_pos rfl, if_neg (by decide), if_neg (by decide), if_pos rfl]
    simp [elementsOf]
  | plain hnative hquantized hpayload hscales =>
    rw [hnative, hquantized, hpayload, hscales]
    exact ⟨rfl, rfl⟩
  | nvfp4 nvfp4 hnative hparts =>
    rw [hnative]
    refine ⟨rfl, ?_, ?_⟩
    · rw [hparts.payload]
      exact hparts.payload_length
    · rw [hparts.scales, length_append, length_append, ← hparts.codes_length]
      rfl

end

theorem denseContent_length (encoded : Encoded) : (denseContent encoded).length =
    if encoded.scales.length ≠ 0 then
      alignUp (headerBytes + encoded.payload.length) sectionAlignment + encoded.scales.length
    else headerBytes + encoded.payload.length := by
  unfold denseContent
  by_cases hscales : encoded.scales ≠ []
  · rw [if_pos hscales, if_pos (by rwa [Ne, length_eq_zero_iff]), length_append,
      Layout.padded_length (by decide), length_append, length_replicate]
  · rw [if_neg hscales, if_neg (by rwa [Ne, length_eq_zero_iff]), length_append, length_replicate]

theorem DenseFinished.size (h : DenseFinished arithmetic sha256 info packName options start
    record entry encoded) : denseRecordSize info options = .ok record.length := by
  obtain ⟨-, himplied⟩ := h.implied
  obtain ⟨-, -, -, hlength, -⟩ := h.ends
  have halignment : checkAlignment options.alignment = .ok () := by
    rw [checkAlignment, demand_eq_ok]
    exact h.power
  rw [hlength, denseBody, Layout.padded_length h.power.1, denseContent_length]
  unfold denseRecordSize
  unfold ImpliedSizes at himplied
  cases hnative : options.nativeNvfp4 with
  | none =>
    rw [hnative] at himplied
    simp only [except_bind_eq_ok]
    refine ⟨(), demand_eq_ok.2 fun hint => ?_, (), demand_eq_ok.2 fun hbfloat => ?_, (),
      demand_eq_ok.2 ?_, _, himplied, (), halignment, rfl⟩
    · obtain ⟨-, -, -, hdtype⟩ := h.int64 hint
      exact hdtype
    · obtain ⟨-, -, hdtype⟩ := h.bfloat16 hbfloat
      exact hdtype
    · rintro ⟨hint, hbfloat⟩
      obtain ⟨-, hfalse, -⟩ := h.int64 hint
      rw [hbfloat] at hfalse
      cases hfalse
  | some nvfp4 =>
    rw [hnative] at himplied
    obtain ⟨hdata, hscales⟩ := himplied
    have hparts : NativeParts options info nvfp4 encoded := by
      cases h.storedAs with
      | fp4 hnone => rw [hnative] at hnone; cases hnone
      | mxfp6 hnone => rw [hnative] at hnone; cases hnone
      | int8 hnone => rw [hnative] at hnone; cases hnone
      | plain hnone => rw [hnative] at hnone; cases hnone
      | nvfp4 other hother hparts =>
        rw [hnative] at hother
        cases hother
        exact hparts
    have hsome : encoded.scales.length ≠ 0 := by
      rw [hscales, hparts.weight_length, Nat.add_right_comm]
      exact Nat.succ_ne_zero _
    simp only [except_bind_eq_ok]
    refine ⟨(), halignment, ?_⟩
    rw [if_pos hsome, hdata, hscales]

theorem dimensions_eq {shape : List Nat} (h : shape.length ≤ 5) :
    ([shape.getD 0 0, shape.getD 1 0, shape.getD 2 0, shape.getD 3 0, shape.getD 4 0].take
      shape.length) = shape := by
  match shape, h with
  | [], _ => rfl
  | [_], _ => rfl
  | [_, _], _ => rfl
  | [_, _, _], _ => rfl
  | [_, _, _, _], _ => rfl
  | [_, _, _, _, _], _ => rfl

theorem denseHeaderOf_dimensions (h : (options.logicalShape info).length ≤ 5) :
    (denseHeaderOf sha256 options info encoded).dimensions = options.logicalShape info :=
  dimensions_eq h

theorem checkDensePolicies_ok : checkDensePolicies
    (denseEntryOf sha256 options info packName start encoded) = .ok () := by
  unfold checkDensePolicies denseEntryOf
  simp only [check_bind_eq_ok, demand_eq_ok]
  constructor
  · split_ifs <;> simp
  · split_ifs <;> simp

section

variable (h : DenseFinished arithmetic sha256 info packName options start record entry encoded)

include h

theorem DenseFinished.checkIdentity_iff :
    checkDenseIdentity sha256 (denseHeaderOf sha256 options info encoded)
        (denseEntryOf sha256 options info packName start encoded) = .ok () ↔
      (options.calibrated info = true → (options.storage info).quantAbi = fp4QuantAbiId) ∧
        options.logicalShape info ≠ [] := by
  have hrank := h.rank
  have hdata : headerBytes + (dataSection options info encoded).bytes ≤
      (denseBody options.alignment encoded).length := by
    rw [h.implied.1]
    have hcontent := (denseContent_ge encoded).1
    have hbody := denseBody_ge h.power.1 encoded
    omega
  have hpadding : (options.logicalShape info).length < 5 →
      (options.logicalShape info).getD 4 0 = 0 := by
    intro hshort
    rw [getD_eq_getElem?_getD, getElem?_eq_none (by omega)]
    rfl
  have hpositive : 1 ≤ (options.logicalShape info).length ↔ options.logicalShape info ≠ [] :=
    length_pos_iff
  unfold checkDenseIdentity
  simp only [check_bind_eq_ok, demand_eq_ok, denseHeaderOf_dimensions hrank]
  constructor
  · rintro ⟨hscale, -, -, -, -, -, hlength, -⟩
    refine ⟨fun hcalibrated => ?_, hpositive.1 hlength.1⟩
    rcases hscale with hnone | hquantAbi
    · change (if options.calibrated info = true then some scalePolicy else none) = none at hnone
      rw [if_pos hcalibrated] at hnone
      cases hnone
    · exact hquantAbi
  · rintro ⟨hcalibrated, hshape⟩
    refine ⟨?_, ?_, ⟨rfl, rfl⟩, rfl, rfl, storage_rowMajor, ⟨hpositive.2 hshape, hrank⟩, hpadding,
      rfl, rfl, rfl, rfl, le_rfl, hdata⟩
    · by_cases hset : options.calibrated info = true
      · exact .inr (hcalibrated hset)
      · exact .inl (if_neg hset)
    · by_cases hset : options.calibrated info = true
      · exact .inr ⟨hcalibrated hset, if_pos hset⟩
      · refine .inl (if_neg ?_)
        rw [Bool.and_eq_true]
        exact fun hboth => hset hboth.1

theorem DenseFinished.checkBytes_ok :
    checkDenseBytes (denseHeaderOf sha256 options info encoded)
      (denseEntryOf sha256 options info packName start encoded) = .ok () := by
  have hdata := h.implied.1
  unfold checkDenseBytes
  simp only [check_bind_eq_ok, demand_eq_ok, denseHeaderOf_dimensions h.rank]
  refine ⟨?_, ?_⟩
  · change options.sourceBytes info = if (options.storage info).quantAbi = nvfp4QuantAbiId then
      (dataSection options info encoded).bytes + encoded.scales.length
      else elementsOf (options.logicalShape info) * info.dtype.bytes
    rw [hdata]
    have hplain : options.nativeNvfp4 = none → (options.storage info).quantAbi ≠ nvfp4QuantAbiId →
        options.sourceBytes info = if (options.storage info).quantAbi = nvfp4QuantAbiId then
          encoded.payload.length + encoded.scales.length
          else elementsOf (options.logicalShape info) * info.dtype.bytes := by
      intro hnative hquantAbi
      rw [if_neg hquantAbi]
      unfold DenseOptions.sourceBytes
      rw [hnative, logicalShape_plain hnative]
      exact info.tensor.raw_length
    cases h.storedAs with
    | fp4 hnative hquantized hquantAbi hshape hsized =>
      refine hplain hnative ?_
      rw [(storage_blocks hnative hquantized).1, hquantAbi]
      decide
    | mxfp6 hnative hquantized hquantAbi hshape hsized =>
      refine hplain hnative ?_
      rw [(storage_blocks hnative hquantized).1, hquantAbi]
      decide
    | int8 hnative hquantized hquantAbi rows columns hshape hwritten =>
      refine hplain hnative ?_
      rw [(storage_blocks hnative hquantized).1, hquantAbi]
      decide
    | plain hnative hquantized hpayload hscales =>
      refine hplain hnative ?_
      rw [(storage_plain hnative hquantized).1]
      decide
    | nvfp4 nvfp4 hnative hparts =>
      rw [if_pos (h.storage_native hnative).2.1, hparts.payload, hparts.scales]
      unfold DenseOptions.sourceBytes DenseTensor.nbytes
      rw [hnative, length_append, length_append]
      dsimp only
      omega
  · change elementsOf (options.logicalShape info) * rawBytes options =
      elementsOf (options.logicalShape info) * _
    exact congrArg _ storage_bytes.symm

end

/-- The bits of a global scale as binary32. -/
def globalScale (tensor : DenseTensor) : UInt32 :=
  if tensor.dtype = .bf16 then UInt32.ofNat (leValue tensor.tensor.raw * 2 ^ 16)
  else UInt32.ofNat (leValue tensor.tensor.raw)

/-- Scales of a native matrix that are numbers. -/
structure NativeNvfp4Dense.ScalesValid (nvfp4 : NativeNvfp4Dense) : Prop where
  codes : ∀ code ∈ nvfp4.scale.tensor.raw, code &&& 0x7f ≠ 0x7f
  weight : finitePositive (globalScale nvfp4.weightGlobalScale) = true
  input : finitePositive (globalScale nvfp4.inputGlobalScale) = true

theorem scaleSection_aligned (encoded : Encoded) :
    (scaleSection encoded).offset % sectionAlignment = 0 := by
  unfold scaleSection
  split_ifs
  · exact alignUp_mod _ _
  · rfl

variable {bytes : Bytes}

section

variable (h : DenseFinished arithmetic sha256 info packName options start record entry encoded)

include h

section

variable (hscales : slice bytes (start + (scaleSection encoded).offset) encoded.scales.length =
  encoded.scales)

include hscales

theorem DenseFinished.checkInt8_iff {rows columns : Nat} (hnative : options.nativeNvfp4 = none)
    (hquantized : options.quantized info = true) (hshape : info.shape = [rows, columns])
    (hwritten : writeInt8Rows arithmetic.toArithmetic info.tensor = .ok encoded) :
    checkInt8Dense bytes start (denseHeaderOf sha256 options info encoded) = .ok () ↔
      ∀ row < rows, finitePositive
        (arithmetic.int8Scale (rowValues arithmetic.toArithmetic info row)) = true := by
  obtain ⟨-, hflags⟩ := storage_blocks hnative hquantized
  obtain ⟨hdata, himplied⟩ := h.implied
  obtain ⟨hbits, -⟩ := writeInt8Rows_bits hshape hwritten
  have hlogical := (logicalShape_plain hnative).trans hshape
  have hsized := writeInt8Rows_sized hshape hwritten
  have hall : (floatBits encoded.scales).all finitePositive = true ↔ ∀ row < rows,
      finitePositive (arithmetic.int8Scale (rowValues arithmetic.toArithmetic info row)) =
        true := by
    rw [hbits]
    simp only [all_eq_true, forall_mem_map, mem_range]
  rw [← hall]
  unfold checkInt8Dense validateScales
  simp only [check_bind_eq_ok, demand_eq_ok, denseHeaderOf_dimensions h.rank]
  change _ ∧ (options.logicalShape info).length = 2 ∧ (scaleSection encoded).offset % _ = 0 ∧
    encoded.scales.length = _ ∧ (dataSection options info encoded).bytes = _ ∧
    encoded.scales.length % 4 = 0 ∧ (slice bytes (start + (scaleSection encoded).offset)
      encoded.scales.length).length = encoded.scales.length ∧
    (floatBits (slice bytes (start + (scaleSection encoded).offset)
      encoded.scales.length)).all finitePositive = true ↔ _
  rw [hscales, hdata, hlogical, hsized.payload, hsized.scales]
  constructor
  · rintro ⟨-, -, -, -, -, -, -, hpositive⟩
    exact hpositive
  · intro hpositive
    refine ⟨hflags, rfl, scaleSection_aligned encoded, rfl, ?_, ?_, rfl, hpositive⟩
    · simp [elementsOf]
    · omega

theorem DenseFinished.checkBlocks_ok {dataBytes scaleBytes : Nat}
    (hsized : encoded.Sized dataBytes scaleBytes Ue8m0Code)
    (label : String) :
    (denseHeaderOf sha256 options info encoded).data.bytes = dataBytes ∧
      (denseHeaderOf sha256 options info encoded).scales.bytes = scaleBytes ∧
      validateUe8m0Scales bytes (start + (scaleSection encoded).offset) encoded.scales.length
        label = .ok () := by
  refine ⟨h.implied.1.trans hsized.payload, hsized.scales, ?_⟩
  unfold validateUe8m0Scales
  simp only [check_bind_eq_ok, demand_eq_ok, hscales]
  exact ⟨trivial, hsized.legal⟩

theorem DenseFinished.checkFp4_ok (hnative : options.nativeNvfp4 = none)
    (hquantized : options.quantized info = true)
    (hsized : encoded.Sized (matrixRows info.shape * paddedColumns info.shape / 2)
      (matrixRows info.shape * paddedColumns info.shape / fp4QuantGroupSize) Ue8m0Code) :
    checkFp4Dense bytes start (denseHeaderOf sha256 options info encoded) = .ok () := by
  obtain ⟨hdata, hbytes, hcodes⟩ := h.checkBlocks_ok hscales hsized "dense"
  have hlogical := @logicalShape_plain options info hnative
  unfold checkFp4Dense
  simp only [check_bind_eq_ok, demand_eq_ok, denseHeaderOf_dimensions h.rank, hlogical]
  exact ⟨(storage_blocks hnative hquantized).2, scaleSection_aligned encoded, hdata, hbytes, hcodes⟩

theorem DenseFinished.checkMxfp6_ok (hnative : options.nativeNvfp4 = none)
    (hquantized : options.quantized info = true)
    (hsized : encoded.Sized (matrixRows info.shape * paddedColumns info.shape * 3 / 4)
      (matrixRows info.shape * paddedColumns info.shape / mxfp6QuantGroupSize) Ue8m0Code) :
    checkMxfp6Dense bytes start (denseHeaderOf sha256 options info encoded) = .ok () := by
  obtain ⟨hdata, hbytes, hcodes⟩ := h.checkBlocks_ok hscales hsized "MXFP6 dense"
  have hlogical := @logicalShape_plain options info hnative
  unfold checkMxfp6Dense
  simp only [check_bind_eq_ok, demand_eq_ok, denseHeaderOf_dimensions h.rank, hlogical]
  exact ⟨(storage_blocks hnative hquantized).2, scaleSection_aligned encoded, hdata, hbytes, hcodes⟩

end

theorem DenseFinished.checkRaw_ok (hnative : options.nativeNvfp4 = none)
    (hquantized : options.quantized info = false)
    (hpayload : encoded.payload.length = elementsOf info.shape * rawBytes options)
    (hscales : encoded.scales = []) :
    checkRawDense (denseHeaderOf sha256 options info encoded)
      (denseEntryOf sha256 options info packName start encoded) = .ok () := by
  obtain ⟨hquantAbi, hdtype⟩ := storage_plain hnative hquantized
  have hlogical := @logicalShape_plain options info hnative
  have hplace : (scaleSection encoded).offset = 0 := by
    unfold scaleSection
    rw [if_neg (not_not.2 hscales)]
  have hnone : (scaleSection encoded).bytes = 0 := by
    unfold scaleSection
    rw [hscales]
    rfl
  unfold checkRawDense
  simp only [check_bind_eq_ok, demand_eq_ok, denseHeaderOf_dimensions h.rank, hlogical]
  refine ⟨⟨hquantAbi, hplace, hnone⟩, hdtype, ?_⟩
  change (dataSection options info encoded).bytes = elementsOf info.shape *
    (if (options.storage info).dtype = .i64 then 8
      else if (options.storage info).dtype = .bf16 then 2 else 4)
  rw [h.implied.1, storage_bytes, hpayload]

end

theorem validateGlobalScale_iff {offset : Nat} {wide : Bool} {label : String} {tensor : DenseTensor}
    (hread : slice bytes offset tensor.nbytes = tensor.tensor.raw)
    (hwide : wide = true ∧ tensor.dtype = .f32 ∧ tensor.nbytes = 4 ∨
      wide = false ∧ tensor.dtype = .bf16 ∧ tensor.nbytes = 2) :
    validateGlobalScale bytes offset wide label = .ok () ↔
      finitePositive (globalScale tensor) = true := by
  have hlength : tensor.tensor.raw.length = tensor.nbytes := rfl
  unfold validateGlobalScale globalScale
  rcases hwide with ⟨rfl, hdtype, hbytes⟩ | ⟨rfl, hdtype, hbytes⟩
  · rw [hbytes] at hread hlength
    simp only [if_true, check_bind_eq_ok, demand_eq_ok, hread, hlength, hdtype, true_and]
    rw [if_neg (by decide)]
  · rw [hbytes] at hread hlength
    simp only [Bool.false_eq_true, if_false, check_bind_eq_ok, demand_eq_ok, hread, hlength,
      hdtype, true_and, if_true]

theorem NativeParts.regions (h : NativeParts options info nvfp4 encoded) :
    slice encoded.scales 0 nvfp4.scale.nbytes = nvfp4.scale.tensor.raw ∧
    slice encoded.scales nvfp4.scale.nbytes nvfp4.weightGlobalScale.nbytes =
      nvfp4.weightGlobalScale.tensor.raw ∧
    slice encoded.scales (nvfp4.scale.nbytes + 4) nvfp4.inputGlobalScale.nbytes =
      nvfp4.inputGlobalScale.tensor.raw := by
  have hcodes : nvfp4.scale.tensor.raw.length = nvfp4.scale.nbytes := rfl
  have hbefore : (nvfp4.scale.tensor.raw ++ nvfp4.weightGlobalScale.tensor.raw).length =
      nvfp4.scale.nbytes + 4 := by
    rw [length_append, hcodes, ← h.weight_length]
    rfl
  rw [h.scales]
  refine ⟨?_, ?_, ?_⟩
  · rw [append_assoc, slice_append_left (by omega), slice_all hcodes]
  · rw [append_assoc, slice_append_right hcodes.le, hcodes, Nat.sub_self,
      slice_append_left (by rw [Nat.zero_add]; exact le_rfl)]
    exact slice_all rfl
  · rw [slice_append_right hbefore.le, hbefore, Nat.sub_self]
    exact slice_all rfl

theorem DenseFinished.checkNvfp4_iff (h : DenseFinished arithmetic sha256 info packName options
      start record entry encoded)
    (hnative : options.nativeNvfp4 = some nvfp4) (hparts : NativeParts options info nvfp4 encoded)
    (hscales : slice bytes (start + (scaleSection encoded).offset) encoded.scales.length =
      encoded.scales) :
    checkNvfp4Dense bytes start (denseHeaderOf sha256 options info encoded)
      (denseEntryOf sha256 options info packName start encoded) = .ok () ↔
        nvfp4.ScalesValid := by
  obtain ⟨-, -, hflags⟩ := h.storage_native hnative
  obtain ⟨hdata, himplied⟩ := h.implied
  unfold ImpliedSizes at himplied
  rw [hnative] at himplied
  obtain ⟨hpayload, hlength⟩ := himplied
  have hlogical : options.logicalShape info =
      [nvfp4.logicalShape.1, nvfp4.logicalShape.2] := by
    unfold DenseOptions.logicalShape
    rw [hnative]
  have hsources : options.sourceTensors info = some
      [("scale", nvfp4.scale.name), ("weight_global_scale", nvfp4.weightGlobalScale.name),
        ("input_global_scale", nvfp4.inputGlobalScale.name), ("weight", info.name)] := by
    unfold DenseOptions.sourceTensors
    rw [hnative]
    rfl
  have hroles : (denseEntryOf sha256 options info packName start encoded).sourceTensors.any
      hasNvfp4Roles = true := by
    change (options.sourceTensors info).any hasNvfp4Roles = true
    rw [hsources]
    rfl
  have hcodes := hparts.codes_length
  have hweight := hparts.weight_length
  have hread : ∀ offset count, offset + count ≤ encoded.scales.length →
      slice bytes (start + (scaleSection encoded).offset + offset) count =
        slice encoded.scales offset count := by
    intro offset count hle
    rw [← slice_slice hle, hscales]
  obtain ⟨hfirst, hsecond, hthird⟩ := hparts.regions
  have hcodeLength : nvfp4.scale.tensor.raw.length = nvfp4.scale.nbytes := rfl
  have hwideIff : encoded.scales.length = nvfp4.scale.nbytes + 8 ↔
      nvfp4.inputGlobalScale.nbytes = 4 := by
    omega
  have hwide : decide (encoded.scales.length = nvfp4.scale.nbytes + 8) = true ∧
        nvfp4.inputGlobalScale.dtype = .f32 ∧ nvfp4.inputGlobalScale.nbytes = 4 ∨
      decide (encoded.scales.length = nvfp4.scale.nbytes + 8) = false ∧
        nvfp4.inputGlobalScale.dtype = .bf16 ∧ nvfp4.inputGlobalScale.nbytes = 2 := by
    rcases hparts.input_length with ⟨hdtype, hbytes⟩ | ⟨hdtype, hbytes⟩
    · exact .inl ⟨decide_eq_true (hwideIff.2 hbytes), hdtype, hbytes⟩
    · have hnarrow : ¬ encoded.scales.length = nvfp4.scale.nbytes + 8 := by omega
      exact .inr ⟨decide_eq_false hnarrow, hdtype, hbytes⟩
  have hweightIff := @validateGlobalScale_iff bytes
    (start + (scaleSection encoded).offset + nvfp4.scale.nbytes) true "weight"
    nvfp4.weightGlobalScale (by rw [hread _ _ (by omega), hsecond])
    (.inl ⟨rfl, hparts.weight_dtype, hweight⟩)
  have hinputIff := @validateGlobalScale_iff bytes
    (start + (scaleSection encoded).offset + nvfp4.scale.nbytes + 4)
    (decide (encoded.scales.length = nvfp4.scale.nbytes + 8)) "input" nvfp4.inputGlobalScale
    (by rw [Nat.add_assoc (start + _), hread _ _ (by omega), hthird]) hwide
  have hcodesRead : slice bytes (start + (scaleSection encoded).offset) nvfp4.scale.nbytes =
      nvfp4.scale.tensor.raw := by
    have hzero := hread 0 nvfp4.scale.nbytes (by omega)
    rwa [Nat.add_zero, hfirst] at hzero
  unfold checkNvfp4Dense validateE4m3fnScaleBytes
  simp only [check_bind_eq_ok, demand_eq_ok, denseHeaderOf_dimensions h.rank, hlogical,
    getD_cons_zero, getD_cons_succ, ← hcodes]
  change _ ∧ (options.logicalShape info).length = 2 ∧ _ ∧ _ ∧
    (dataSection options info encoded).bytes = _ ∧ (scaleSection encoded).offset % _ = 0 ∧
    encoded.scales.length ∈ _ ∧ (_ ∧ _) ∧
    validateGlobalScale bytes (start + (scaleSection encoded).offset + nvfp4.scale.nbytes) true
      "weight" = .ok () ∧
    validateGlobalScale bytes (start + (scaleSection encoded).offset + nvfp4.scale.nbytes + 4)
      (decide (encoded.scales.length = nvfp4.scale.nbytes + 8)) "input" = .ok () ↔ _
  rw [hweightIff, hinputIff, hlogical, hdata]
  change _ ∧ _ ∧ _ ∧ _ ∧ _ ∧ _ ∧ _ ∧
    ((slice bytes (start + (scaleSection encoded).offset) nvfp4.scale.nbytes).length =
        nvfp4.scale.nbytes ∧
      ∀ code ∈ slice bytes (start + (scaleSection encoded).offset) nvfp4.scale.nbytes,
        code &&& 0x7f ≠ 0x7f) ∧ _ ↔ _
  rw [hcodesRead]
  constructor
  · rintro ⟨-, -, -, -, -, -, -, ⟨-, hnumbers⟩, hweightValid, hinputValid⟩
    exact ⟨hnumbers, hweightValid, hinputValid⟩
  · rintro ⟨hnumbers, hweightValid, hinputValid⟩
    refine ⟨hflags, rfl, hparts.columns, hroles, hpayload, scaleSection_aligned encoded, ?_,
      ⟨hcodeLength, hnumbers⟩, hweightValid, hinputValid⟩
    simp only [mem_cons, not_mem_nil, or_false]
    omega

/-- What the check asks of the scales: of INT8 a positive number for each row, of a native matrix
numbers throughout. -/
structure ScalesTaken (arithmetic : DenseArithmetic α) (options : DenseOptions)
    (info : DenseTensor) : Prop where
  int8 : (options.storage info).quantAbi = quantAbiId → ∀ row < info.shape.headD 0,
    finitePositive (arithmetic.int8Scale (rowValues arithmetic.toArithmetic info row)) = true
  nvfp4 : ∀ nvfp4, options.nativeNvfp4 = some nvfp4 → nvfp4.ScalesValid

section

variable (h : DenseFinished arithmetic sha256 info packName options start record entry encoded)

include h

theorem DenseFinished.checkSections_iff
    (hscales : slice bytes (start + (scaleSection encoded).offset) encoded.scales.length =
      encoded.scales) :
    checkDenseSections bytes start (denseHeaderOf sha256 options info encoded)
        (denseEntryOf sha256 options info packName start encoded) = .ok () ↔
      ScalesTaken arithmetic options info := by
  have hother : options.nativeNvfp4 = none → (options.storage info).quantAbi ≠ quantAbiId →
      ScalesTaken arithmetic options info := by
    refine fun hnone hquantAbi => ⟨fun heq => absurd heq hquantAbi, fun nvfp4 hsome => ?_⟩
    rw [hnone] at hsome
    cases hsome
  change (if (options.storage info).quantAbi = quantAbiId then _ else
    if (options.storage info).quantAbi = fp4QuantAbiId then _ else
    if (options.storage info).quantAbi = mxfp6QuantAbiId then _ else
    if (options.storage info).quantAbi = nvfp4QuantAbiId then _ else _) = _ ↔ _
  cases h.storedAs with
  | fp4 hnative hquantized hquantAbi hshape hsized =>
    have hstored := (storage_blocks hnative hquantized).1.trans hquantAbi
    have hne : (options.storage info).quantAbi ≠ quantAbiId := by
      rw [hstored]
      decide
    rw [if_neg hne, if_pos hstored]
    exact iff_of_true (h.checkFp4_ok hscales hnative hquantized hsized) (hother hnative hne)
  | mxfp6 hnative hquantized hquantAbi hshape hsized =>
    have hstored := (storage_blocks hnative hquantized).1.trans hquantAbi
    have hne : (options.storage info).quantAbi ≠ quantAbiId := by
      rw [hstored]
      decide
    rw [if_neg hne, if_neg (by rw [hstored]; decide), if_pos hstored]
    exact iff_of_true (h.checkMxfp6_ok hscales hnative hquantized hsized) (hother hnative hne)
  | int8 hnative hquantized hquantAbi rows columns hshape hwritten =>
    have hstored := (storage_blocks hnative hquantized).1.trans hquantAbi
    rw [if_pos hstored, h.checkInt8_iff hscales hnative hquantized hshape hwritten]
    constructor
    · intro hrows
      refine ⟨fun _ row hrow => hrows row ?_, fun nvfp4 hsome => ?_⟩
      · rwa [hshape] at hrow
      · rw [hnative] at hsome
        cases hsome
    · intro htaken row hrow
      refine htaken.int8 hstored row ?_
      rwa [hshape]
  | plain hnative hquantized hpayload hnone =>
    have hstored := (storage_plain hnative hquantized).1
    have hne : (options.storage info).quantAbi ≠ quantAbiId := by
      rw [hstored]
      decide
    rw [if_neg hne, if_neg (by rw [hstored]; decide), if_neg (by rw [hstored]; decide),
      if_neg (by rw [hstored]; decide)]
    exact iff_of_true (h.checkRaw_ok hnative hquantized hpayload hnone) (hother hnative hne)
  | nvfp4 nvfp4 hnative hparts =>
    obtain ⟨-, hstored, -⟩ := h.storage_native hnative
    have hne : (options.storage info).quantAbi ≠ quantAbiId := by
      rw [hstored]
      decide
    rw [if_neg hne, if_neg (by rw [hstored]; decide), if_neg (by rw [hstored]; decide),
      if_pos hstored, h.checkNvfp4_iff hnative hparts hscales]
    constructor
    · intro hvalid
      refine ⟨fun heq => absurd heq hne, fun other hother => ?_⟩
      rw [hnative] at hother
      cases hother
      exact hvalid
    · intro htaken
      exact htaken.nvfp4 nvfp4 hnative

theorem DenseFinished.validate_iff (hbytes : slice bytes start record.length = record) :
    validateDenseRecord sha256 bytes entry options.alignment = .ok () ↔
      (options.calibrated info = true → (options.storage info).quantAbi = fp4QuantAbiId) ∧
        options.logicalShape info ≠ [] ∧ ScalesTaken arithmetic options info := by
  obtain ⟨hheader, hfirst, hpadding, hlength, hrest⟩ := h.ends
  have hcontent := (denseContent_ge encoded).1
  have hscalesEnd := (denseContent_ge encoded).2
  have hbody := denseBody_ge h.power.1 encoded
  have hread : ∀ offset count, offset + count ≤ record.length →
      slice bytes (start + offset) count = slice record offset count := by
    intro offset count hle
    rw [← slice_slice hle, hbytes]
  have hstart : slice bytes start headerBytes = slice record 0 headerBytes :=
    hread 0 headerBytes (by omega)
  have hscales : slice bytes (start + (scaleSection encoded).offset) encoded.scales.length =
      encoded.scales := by
    by_cases hnone : encoded.scales = []
    · rw [hnone]
      rfl
    · have hplace : headerBytes ≤ (scaleSection encoded).offset := by
        have hge := le_alignUp (show 0 < sectionAlignment by decide)
          (headerBytes + encoded.payload.length)
        unfold scaleSection
        rw [if_pos hnone]
        dsimp only
        omega
      rw [hread _ _ (by omega), hrest _ _ hplace, denseBody_scales]
  have hpayload : payloadHash sha256 bytes (start + headerBytes) (record.length - headerBytes) =
      .ok (sha256 ((denseBody options.alignment encoded).drop headerBytes)) := by
    have hslice : slice bytes (start + headerBytes) (record.length - headerBytes) =
        (denseBody options.alignment encoded).drop headerBytes := by
      rw [hread _ _ (by omega), hrest _ _ le_rfl, slice, take_of_length_le]
      rw [length_drop]
      omega
    rw [payloadHash, hslice, if_pos]
    rw [length_drop]
    omega
  have haligned : record.length % options.alignment = 0 := by
    rw [hlength, denseBody, Layout.padded_length h.power.1]
    exact alignUp_mod _ _
  rw [h.entry_eq]
  unfold validateDenseRecord
  simp only [check_bind_eq_ok, demand_eq_ok]
  change checkDensePolicies _ = _ ∧ headerBytes ≤ (denseBody options.alignment encoded).length ∧
    (start % _ = 0 ∧ (denseBody options.alignment encoded).length % _ = 0) ∧
    (slice bytes start headerBytes).length = headerBytes ∧
    (∀ value ∈ (slice bytes start headerBytes).drop denseHeaderSize, value = 0) ∧
    checkDenseIdentity sha256 (unpackDenseHeader (slice bytes start headerBytes)) _ = _ ∧
    checkDenseSections bytes start (unpackDenseHeader (slice bytes start headerBytes)) _ = _ ∧
    checkDenseBytes (unpackDenseHeader (slice bytes start headerBytes)) _ = _ ∧ _ ↔ _
  rw [hstart, hheader, ← hlength, h.checkIdentity_iff, h.checkSections_iff hscales]
  constructor
  · rintro ⟨-, -, -, -, -, ⟨hcalibrated, hshape⟩, htaken, -⟩
    exact ⟨hcalibrated, hshape, htaken⟩
  · rintro ⟨hcalibrated, hshape, htaken⟩
    refine ⟨checkDensePolicies_ok, by omega, ⟨h.aligned, haligned⟩, hfirst, hpadding,
      ⟨hcalibrated, hshape⟩, htaken, h.checkBytes_ok, ?_⟩
    have hraw : unpackDenseHeader (slice bytes
        (denseEntryOf sha256 options info packName start encoded).offset headerBytes) =
          denseHeaderOf sha256 options info encoded :=
      (congrArg unpackDenseHeader hstart).trans hheader
    have hrecord : (denseHeaderOf sha256 options info encoded).recordBytes = record.length :=
      hlength.symm
    rw [hraw, hrecord]
    exact except_bind_eq_ok.2 ⟨_, hpayload, check_bind_eq_ok.2
      ⟨demand_eq_ok.2 rfl, demand_eq_ok.2 rfl⟩⟩

end

end QuantumLlm.ExpertPack
