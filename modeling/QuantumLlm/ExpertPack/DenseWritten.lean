import QuantumLlm.ExpertPack.DenseSizes

/-!
# Written dense records

The record that the writer finishes, by what its encoder returned: its header, its sections and
its padding.
-/

namespace QuantumLlm.ExpertPack

open List

open QuantumLlm.Runtime (Sha256Digest finitePositive)

section

variable {header : DenseHeader} {raw : Bytes} (h : header.pack = .ok raw)
  (hmagic : header.magic.length = 8) (hname : header.nameHash.length = 32)
  (hhash : header.payloadHash.length = 32)

include h hmagic hname hhash

theorem denseHeader_pack_length : raw.length = denseHeaderSize := by
  rw [DenseHeader.pack] at h
  split at h
  next =>
    cases h
    rw [length_append, length_append, length_append, length_flatMap, hmagic, hname, hhash]
    simp [DenseHeader.fields, denseHeaderSize]
  next => cases h

theorem unpackDenseHeader_pack {behind : Bytes} : unpackDenseHeader (raw ++ behind) = header := by
  rw [DenseHeader.pack] at h
  split at h
  next hfields =>
    cases h
    have hnumbers : (header.magic ++ header.fields.flatMap fun field =>
        leBytes field.1 field.2).length = 84 := by
      rw [length_append, length_flatMap, hmagic]
      simp [DenseHeader.fields]
    rw [← append_assoc, append_assoc, append_assoc header.nameHash]
    have hread := @leValue_field header.fields [2, 2, 4, 4, 4, 4, 4, 4, 4, 4, 8, 8, 8, 8, 8]
      header.magic (header.nameHash ++ (header.payloadHash ++ behind)) hmagic hfields rfl
    generalize hraw : (header.magic ++ header.fields.flatMap fun field =>
      leBytes field.1 field.2) ++ (header.nameHash ++ (header.payloadHash ++ behind)) = raw at hread ⊢
    have hmagicRead : slice raw 0 8 = header.magic := by
      rw [← hraw, append_assoc, slice_append_left hmagic.ge, slice_all hmagic]
    have hnameRead : slice raw 84 32 = header.nameHash := by
      rw [← hraw, slice_append_right hnumbers.le, hnumbers, slice_append_left hname.ge,
        slice_all hname]
    have hhashRead : slice raw 116 32 = header.payloadHash := by
      rw [← hraw, slice_append_right (by omega), hnumbers, slice_append_right (by omega), hname,
        slice_append_left hhash.ge, slice_all hhash]
    rw [unpackDenseHeader, hmagicRead, hnameRead, hhashRead, hread 0 8 rfl rfl,
      hread 1 10 rfl rfl, hread 2 12 rfl rfl, hread 3 16 rfl rfl, hread 4 20 rfl rfl,
      hread 5 24 rfl rfl, hread 6 28 rfl rfl, hread 7 32 rfl rfl, hread 8 36 rfl rfl,
      hread 9 40 rfl rfl, hread 10 44 rfl rfl]
    simp only [unpackSection]
    rw [hread 11 52 rfl rfl, hread 12 60 rfl rfl, hread 13 68 rfl rfl, hread 14 76 rfl rfl]
  next => cases h

end

/-- What stands behind the start, without the padding at the end. -/
def denseContent (encoded : Encoded) : Bytes :=
  if encoded.scales ≠ [] then
    Layout.padded 0 sectionAlignment (List.replicate headerBytes 0 ++ encoded.payload) ++
      encoded.scales
  else List.replicate headerBytes 0 ++ encoded.payload

def denseBody (alignment : Nat) (encoded : Encoded) : Bytes :=
  Layout.padded 0 alignment (denseContent encoded)

def dataSection (options : DenseOptions) (info : DenseTensor) (encoded : Encoded) : Section :=
  ⟨headerBytes, if options.nativeNvfp4.isNone && options.quantized info &&
      options.quantAbi = quantAbiId then
    info.nbytes / (if info.dtype ∈ [.f16, .bf16] then 2 else 4) else encoded.payload.length⟩

def scaleSection (encoded : Encoded) : Section :=
  ⟨if encoded.scales ≠ [] then alignUp (headerBytes + encoded.payload.length) sectionAlignment
    else 0, encoded.scales.length⟩

def denseHeaderOf (sha256 : Bytes → Sha256Digest) (options : DenseOptions) (info : DenseTensor)
    (encoded : Encoded) : DenseHeader where
  magic := denseMagic
  version := formatVersion
  headerBytes := headerBytes
  flags := (options.storage info).flags
  quantAbi := (options.storage info).quantAbi
  rank := (options.logicalShape info).length
  dim0 := (options.logicalShape info).getD 0 0
  dim1 := (options.logicalShape info).getD 1 0
  dim2 := (options.logicalShape info).getD 2 0
  dim3 := (options.logicalShape info).getD 3 0
  dim4 := (options.logicalShape info).getD 4 0
  recordBytes := (denseBody options.alignment encoded).length
  data := dataSection options info encoded
  scales := scaleSection encoded
  nameHash := (sha256 (nameBytes info.name)).bytes
  payloadHash := (sha256 ((denseBody options.alignment encoded).drop headerBytes)).bytes

def denseEntryOf (sha256 : Bytes → Sha256Digest) (options : DenseOptions) (info : DenseTensor)
    (packName : String) (start : Nat) (encoded : Encoded) : DenseRecordEntry where
  name := info.name
  pack := packName
  offset := start
  storedBytes := (denseBody options.alignment encoded).length
  sourceBytes := options.sourceBytes info
  decodedBytes := elementsOf (options.logicalShape info) * rawBytes options
  sourceDtype := info.dtype
  sourceShape := options.logicalShape info
  storedDtype := (options.storage info).dtype
  layout := (options.storage info).layout
  quantAbi := (options.storage info).quantAbi
  payloadSha256 := sha256 ((denseBody options.alignment encoded).drop headerBytes)
  data := dataSection options info encoded
  scales := scaleSection encoded
  sourceTensors := options.sourceTensors info
  fp4ScalePolicy := if options.calibrated info then some scalePolicy else none
  fp4PayloadPolicy := if options.calibrated info && options.selectsPayloadCodes info then
    some payloadPolicy else none

variable {α : Type} {arithmetic : DenseArithmetic α} {sha256 : Bytes → Sha256Digest}
  {options : DenseOptions} {info : DenseTensor} {packName : String} {start : Nat}
  {record : Bytes} {entry : DenseRecordEntry} {encoded : Encoded}

/-- A record that the writer has finished, by what its encoder returned. -/
structure DenseFinished (arithmetic : DenseArithmetic α) (sha256 : Bytes → Sha256Digest)
    (info : DenseTensor) (packName : String) (options : DenseOptions) (start : Nat)
    (record : Bytes) (entry : DenseRecordEntry) (encoded : Encoded) : Prop where
  aligned : start % options.alignment = 0
  int64 : options.preserveInt64 = true → options.preserveFloat32 = false ∧
    options.preserveBfloat16 = false ∧ options.nativeNvfp4.isNone ∧ info.dtype = .i64
  bfloat16 : options.preserveBfloat16 = true → options.preserveFloat32 = false ∧
    options.nativeNvfp4.isNone ∧ info.dtype = .bf16
  encode : encodeDense arithmetic options info = .ok encoded
  power : 0 < options.alignment ∧ options.alignment &&& (options.alignment - 1) = 0
  rank : (options.logicalShape info).length ≤ 5
  entry_eq : entry = denseEntryOf sha256 options info packName start encoded
  record_eq : ∃ raw, (denseHeaderOf sha256 options info encoded).pack = .ok raw ∧
    record = raw ++ List.replicate (headerBytes - raw.length) 0 ++
      (denseBody options.alignment encoded).drop headerBytes

theorem shape5_eq_ok {shape dimensions : List Nat} (h : shape5 shape = .ok dimensions) :
    shape.length ≤ 5 ∧ ∀ index, dimensions.getD index 0 = shape.getD index 0 := by
  simp only [shape5, except_bind_eq_ok] at h
  obtain ⟨⟨⟩, hrank, hdimensions⟩ := h
  cases hdimensions
  refine ⟨demand_eq_ok.1 hrank, fun index => ?_⟩
  rw [getD_eq_getElem?_getD, getD_eq_getElem?_getD, getElem?_append]
  split_ifs with hindex
  · rfl
  · rw [getElem?_eq_none (Nat.not_lt.1 hindex), getElem?_replicate]
    split_ifs <;> rfl

/-- The writer behind the data and the scales. -/
def denseWriter (encoded : Encoded) : RecordWriter :=
  if encoded.scales ≠ [] then
    ((({} : RecordWriter).put encoded.payload).align sectionAlignment).put encoded.scales
  else ({} : RecordWriter).put encoded.payload

theorem denseWriter_written (encoded : Encoded) :
    (denseWriter encoded).written = denseContent encoded := by
  unfold denseWriter denseContent
  split_ifs <;> rfl

theorem denseWriter_hashed (encoded : Encoded) : (denseWriter encoded).Hashed := by
  have hstart : ({} : RecordWriter).Hashed := (append_nil _).symm
  unfold denseWriter
  split_ifs
  · exact ((hstart.put _).put _).put _
  · exact hstart.put _

theorem writeDenseRecord_finished
    (h : writeDenseRecord arithmetic sha256 info packName options start = .ok (record, entry)) :
    ∃ encoded, DenseFinished arithmetic sha256 info packName options start record entry
      encoded := by
  simp only [writeDenseRecord, except_bind_eq_ok] at h
  obtain ⟨⟨⟩, hstart, ⟨⟩, hint, ⟨⟩, hbfloat, encoded, hencoded, first, hfirst, ⟨⟩, halignment,
    last, hlast, dimensions, hdimensions, raw, hraw, hresult⟩ := h
  rw [demand_eq_ok] at hstart hint hbfloat
  rw [checkAlignment, demand_eq_ok] at halignment
  have hsection : 0 < sectionAlignment := by decide
  have hwriter : first.put encoded.scales = denseWriter encoded := by
    unfold denseWriter
    split_ifs at hfirst ⊢ with hscales
    · rw [RecordWriter.padTo_alignUp hsection, Except.ok.injEq] at hfirst
      rw [← hfirst]
    · cases hfirst
      rw [not_not] at hscales
      rw [hscales]
      simp [RecordWriter.put]
  rw [hwriter] at hlast hraw hresult
  rw [RecordWriter.padTo_alignUp halignment.1, Except.ok.injEq] at hlast
  subst hlast
  have hbody : ((denseWriter encoded).align options.alignment).written =
      denseBody options.alignment encoded := by
    rw [RecordWriter.align_written, denseWriter_written]
    rfl
  have hhashed : ((denseWriter encoded).align options.alignment).hashed =
      (denseBody options.alignment encoded).drop headerBytes := by
    rw [← hbody]
    exact ((denseWriter_hashed encoded).put _).drop
  have hlength : alignUp (denseWriter encoded).written.length options.alignment =
      (denseBody options.alignment encoded).length := by
    rw [denseWriter_written, denseBody, Layout.padded_length halignment.1]
  obtain ⟨hrank, hdims⟩ := shape5_eq_ok hdimensions
  have hpayload : (({} : RecordWriter).put encoded.payload).written.length =
      headerBytes + encoded.payload.length := by
    rw [RecordWriter.put_length, length_replicate]
  rw [hhashed, hlength, hdims 0, hdims 1, hdims 2, hdims 3, hdims 4, hpayload] at hraw
  rw [hhashed, hlength, hbody, hpayload] at hresult
  obtain ⟨hrecord, hentry⟩ := Prod.mk.inj (Except.ok.inj hresult)
  exact ⟨encoded, hstart, hint, hbfloat, hencoded, halignment, hrank, hentry.symm, raw, hraw,
    hrecord.symm⟩

theorem denseContent_ge (encoded : Encoded) :
    headerBytes + encoded.payload.length + encoded.scales.length ≤ (denseContent encoded).length ∧
      (scaleSection encoded).offset + encoded.scales.length ≤ (denseContent encoded).length := by
  have hge := le_alignUp (show 0 < sectionAlignment by decide)
    (headerBytes + encoded.payload.length)
  unfold denseContent scaleSection
  by_cases hscales : encoded.scales ≠ []
  · simp only [if_pos hscales]
    rw [length_append, Layout.padded_length (by decide), length_append, length_replicate]
    omega
  · simp only [if_neg hscales]
    rw [not_not] at hscales
    rw [hscales, length_append, length_replicate, length_nil]
    omega

theorem denseBody_ge {alignment : Nat} (h : 0 < alignment) (encoded : Encoded) :
    (denseContent encoded).length ≤ (denseBody alignment encoded).length := by
  rw [denseBody, Layout.padded_length h]
  exact le_alignUp h _

theorem denseBody_eq (alignment : Nat) (encoded : Encoded) :
    denseBody alignment encoded = denseContent encoded ++ List.replicate
      (alignUp (denseContent encoded).length alignment - (denseContent encoded).length) 0 := rfl

theorem denseBody_scales (alignment : Nat) (encoded : Encoded) :
    slice (denseBody alignment encoded) (scaleSection encoded).offset encoded.scales.length =
      encoded.scales := by
  unfold scaleSection
  by_cases hscales : encoded.scales ≠ []
  · have hplace : (Layout.padded 0 sectionAlignment
        (List.replicate headerBytes 0 ++ encoded.payload)).length =
          alignUp (headerBytes + encoded.payload.length) sectionAlignment := by
      rw [Layout.padded_length (by decide), length_append, length_replicate]
    rw [denseBody_eq]
    unfold denseContent
    rw [if_pos hscales, if_pos hscales, append_assoc, slice_append_right hplace.le, hplace,
      Nat.sub_self, slice_append_left (by omega), slice_all rfl]
  · rw [not_not] at hscales
    rw [hscales]
    rfl

theorem denseBody_padding (alignment : Nat) (encoded : Encoded) {position : Nat}
    (hdata : headerBytes + encoded.payload.length ≤ position)
    (hscales : position < (scaleSection encoded).offset ∨
      (scaleSection encoded).offset + encoded.scales.length ≤ position)
    (hposition : position < (denseBody alignment encoded).length) :
    (denseBody alignment encoded)[position]? = some 0 := by
  have hzero : ∀ {count index : Nat}, index < count →
      (List.replicate count (0 : UInt8))[index]? = some 0 := by
    intro count index hindex
    rw [getElem?_replicate, if_pos hindex]
  rw [denseBody_eq] at hposition ⊢
  rw [length_append, length_replicate] at hposition
  by_cases hcontent : position < (denseContent encoded).length
  · rw [getElem?_append_left hcontent]
    unfold denseContent at hcontent ⊢
    unfold scaleSection at hscales
    by_cases hsome : encoded.scales ≠ []
    · rw [if_pos hsome] at hcontent ⊢
      rw [if_pos hsome] at hscales
      have hplace : (Layout.padded 0 sectionAlignment
          (List.replicate headerBytes 0 ++ encoded.payload)).length =
            alignUp (headerBytes + encoded.payload.length) sectionAlignment := by
        rw [Layout.padded_length (by decide), length_append, length_replicate]
      rw [length_append, hplace] at hcontent
      dsimp only at hscales
      have hbefore : position < alignUp (headerBytes + encoded.payload.length)
          sectionAlignment := by omega
      rw [getElem?_append_left (hplace ▸ hbefore)]
      unfold Layout.padded
      have hlength : (List.replicate headerBytes (0 : UInt8) ++ encoded.payload).length =
          headerBytes + encoded.payload.length := by
        rw [length_append, length_replicate]
      rw [getElem?_append_right (by omega), hlength]
      exact hzero (by omega)
    · rw [if_neg hsome] at hcontent
      rw [length_append, length_replicate] at hcontent
      omega
  · rw [getElem?_append_right (by omega)]
    exact hzero (by omega)

theorem DenseFinished.ends (h : DenseFinished arithmetic sha256 info packName options start record
      entry encoded) :
    unpackDenseHeader (slice record 0 headerBytes) = denseHeaderOf sha256 options info encoded ∧
    (slice record 0 headerBytes).length = headerBytes ∧
    (∀ value ∈ (slice record 0 headerBytes).drop denseHeaderSize, value = 0) ∧
    record.length = (denseBody options.alignment encoded).length ∧
    ∀ offset count, headerBytes ≤ offset →
      slice record offset count = slice (denseBody options.alignment encoded) offset count := by
  obtain ⟨raw, hraw, hrecord⟩ := h.record_eq
  have hge := denseBody_ge h.power.1 encoded
  have hcontent := (denseContent_ge encoded).1
  obtain ⟨⟨behind, hslice⟩, hrest⟩ := ends_of_eq (denseHeader_pack_length hraw rfl
    (Sha256Digest.length_eq _) (Sha256Digest.length_eq _)) (by decide) (by omega) hrecord
  refine ⟨?_, hrest⟩
  rw [hslice]
  exact unpackDenseHeader_pack hraw rfl (Sha256Digest.length_eq _) (Sha256Digest.length_eq _)

/-- How a tensor is stored: in blocks with UE8M0 codes, in rows with binary32 scales, as it is,
or as its source has it. -/
inductive StoredAs (arithmetic : DenseArithmetic α) (options : DenseOptions) (info : DenseTensor)
    (encoded : Encoded) : Prop
  | fp4 (hnative : options.nativeNvfp4 = none) (hquantized : options.quantized info = true)
      (hquantAbi : options.quantAbi = fp4QuantAbiId) (hshape : info.shape ≠ [])
      (hsized : encoded.Sized (matrixRows info.shape * paddedColumns info.shape / 2)
        (matrixRows info.shape * paddedColumns info.shape / fp4QuantGroupSize) Ue8m0Code)
  | mxfp6 (hnative : options.nativeNvfp4 = none) (hquantized : options.quantized info = true)
      (hquantAbi : options.quantAbi = mxfp6QuantAbiId) (hshape : info.shape ≠ [])
      (hsized : encoded.Sized (matrixRows info.shape * paddedColumns info.shape * 3 / 4)
        (matrixRows info.shape * paddedColumns info.shape / mxfp6QuantGroupSize) Ue8m0Code)
  | int8 (hnative : options.nativeNvfp4 = none) (hquantized : options.quantized info = true)
      (hquantAbi : options.quantAbi = quantAbiId) (rows columns : Nat)
      (hshape : info.shape = [rows, columns])
      (hwritten : writeInt8Rows arithmetic.toArithmetic info.tensor = .ok encoded)
  | plain (hnative : options.nativeNvfp4 = none) (hquantized : options.quantized info = false)
      (hpayload : encoded.payload.length = elementsOf info.shape * rawBytes options)
      (hscales : encoded.scales = [])
  | nvfp4 (matrix : NativeNvfp4Dense) (hnative : options.nativeNvfp4 = some matrix)
      (hparts : NativeParts options info matrix encoded)

theorem DenseFinished.storedAs (h : DenseFinished arithmetic sha256 info packName options start
    record entry encoded) : StoredAs arithmetic options info encoded := by
  have hencode := h.encode
  unfold encodeDense at hencode
  split at hencode
  next nvfp4 hnative => exact .nvfp4 nvfp4 hnative (copyNativeDense_parts hencode)
  next hnative =>
    split_ifs at hencode with hquantized hfp4 hmxfp6 hint8 hraw
    · obtain ⟨hshape, hsized⟩ := writeFp4Dense_sized hencode
      exact .fp4 hnative hquantized hfp4 hshape hsized
    · obtain ⟨hshape, hsized⟩ := writeMxfp6Dense_sized hencode
      exact .mxfp6 hnative hquantized hmxfp6 hshape hsized
    · have hrank : info.shape.length = 2 := by
        unfold DenseOptions.quantized denseIsQuantized at hquantized
        rw [hint8] at hquantized
        simp only [Bool.and_eq_true, Bool.or_eq_true, decide_eq_true_eq] at hquantized
        rcases hquantized.2 with hlisted | hmatrix
        · exact absurd hlisted (by decide)
        · exact hmatrix.1
      obtain ⟨rows, columns, hshape⟩ := length_eq_two.1 hrank
      exact .int8 hnative hquantized hint8 rows columns hshape hencode
    · cases hencode
      refine .plain hnative (Bool.eq_false_of_not_eq_true hquantized) ?_ rfl
      have hlength := info.tensor.raw_length
      unfold rawBytes
      rcases hraw with hint | hbfloat
      · obtain ⟨-, -, -, hdtype⟩ := h.int64 hint
        unfold DenseTensor.dtype at hdtype
        rw [if_pos hint]
        rw [hdtype] at hlength
        exact hlength
      · obtain ⟨-, -, hdtype⟩ := h.bfloat16 hbfloat
        have hnot : options.preserveInt64 ≠ true := fun hint => by
          obtain ⟨-, hfalse, -⟩ := h.int64 hint
          rw [hbfloat] at hfalse
          cases hfalse
        unfold DenseTensor.dtype at hdtype
        rw [if_neg hnot, if_pos hbfloat]
        rw [hdtype] at hlength
        exact hlength
    · simp only [except_bind_eq_ok] at hencode
      obtain ⟨payload, hpayload, hencoded⟩ := hencode
      cases hencoded
      refine .plain hnative (Bool.eq_false_of_not_eq_true hquantized) ?_ rfl
      rw [not_or] at hraw
      unfold rawBytes
      rw [if_neg hraw.1, if_neg hraw.2]
      exact (writeFloat32_length hpayload).2

end QuantumLlm.ExpertPack
