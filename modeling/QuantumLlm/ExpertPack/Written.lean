import QuantumLlm.ExpertPack.Writer
import QuantumLlm.ExpertPack.Agreement

/-!
# Written expert records

The record that the writer finishes, by what its encoders returned: its header, its
size, what stands in its sections, and that the compiler's own validation accepts it.
-/

namespace QuantumLlm.ExpertPack

open List

open QuantumLlm.Runtime (Sha256Digest ByteSpan ExpertKey PayloadRecord)

variable {left right raw : Bytes} {offset count rows columns : Nat} {header : ExpertHeader}
  {encoded : Encoded}

theorem slice_append_left
    (h : offset + count ≤ left.length) : slice (left ++ right) offset count = slice left offset count := by
  rw [slice, slice, drop_append_of_le_length (by omega),
    take_append_of_le_length (by rw [length_drop]; omega)]

theorem slice_append_right (h : left.length ≤ offset) :
    slice (left ++ right) offset count = slice right (offset - left.length) count := by
  rw [slice, slice, drop_append, drop_eq_nil_of_le h, nil_append]

theorem slice_all (h : bytes.length = count) :
    slice bytes 0 count = bytes := by
  rw [slice, drop_zero, take_of_length_le h.le]

theorem slice_fields {before after : List (Nat × Nat)} {field : Nat × Nat} {first behind : Bytes}
    {offset : Nat} (hoffset : first.length + (before.map (·.1)).sum = offset) :
    slice (first ++ (((before ++ field :: after).flatMap fun field => leBytes field.1 field.2) ++
      behind)) offset field.1 = leBytes field.1 field.2 := by
  have hlength : (before.flatMap fun field => leBytes field.1 field.2).length =
      (before.map (·.1)).sum := by
    rw [length_flatMap]
    simp only [leBytes_length]
  rw [slice_append_right (by omega), flatMap_append, flatMap_cons, append_assoc,
    slice_append_right (by omega), append_assoc, slice_append_left (by simp; omega)]
  rw [show offset - first.length - (before.flatMap fun field => leBytes field.1 field.2).length = 0
    by omega]
  exact slice_all (leBytes_length _ _)

theorem signed32_unsigned32 {value : Int} (h : -2 ^ 31 ≤ value ∧ value < 2 ^ 31) :
    signed32 (unsigned32 value) = value := by
  rw [signed32, unsigned32]
  split <;> omega

/-- A field of a packed header is read back from its place. -/
theorem leValue_field {fields : List (Nat × Nat)} {widths : List Nat} {magic behind : Bytes}
    (hmagic : magic.length = 8) (hfits : ∀ field ∈ fields, field.2 < 256 ^ field.1)
    (hwidths : fields.map (·.1) = widths) (index offset : Nat) {count value : Nat}
    (hfield : fields[index]? = some (count, value))
    (hoffset : 8 + (widths.take index).sum = offset) :
    leValue (slice ((magic ++ fields.flatMap fun field => leBytes field.1 field.2) ++ behind)
      offset count) = value := by
  rw [← hwidths, ← List.map_take] at hoffset
  obtain ⟨hindex, hvalue⟩ := List.getElem?_eq_some_iff.1 hfield
  have hslice := @slice_fields (fields.take index) (fields.drop (index + 1)) (count, value) magic
    behind offset (by omega)
  rw [← hvalue, ← List.drop_eq_getElem_cons hindex, List.take_append_drop, hvalue,
    ← List.append_assoc] at hslice
  rw [hslice, leValue_leBytes (hfits (count, value) (List.mem_of_getElem? hfield))]

section

variable (h : header.pack = .ok raw) (hmagic : header.magic.length = 8)
  (hhash : header.payloadHash.length = 32)

include h hmagic hhash

theorem pack_length : raw.length = 148 := by
  rw [ExpertHeader.pack] at h
  split at h
  next =>
    cases h
    rw [length_append, length_append, length_flatMap, hmagic, hhash]
    simp [ExpertHeader.fields]
  next => cases h

theorem unpack_pack {behind : Bytes} : unpackExpertHeader (raw ++ behind) = header := by
  rw [ExpertHeader.pack] at h
  split at h
  next hpackable =>
    cases h
    obtain ⟨hfields, hlayer, hexpert⟩ := hpackable
    have hnumbers : (header.magic ++ header.fields.flatMap fun field =>
        leBytes field.1 field.2).length = 116 := by
      rw [length_append, length_flatMap, hmagic]
      simp [ExpertHeader.fields]
    rw [← append_assoc, append_assoc]
    have hread := @leValue_field header.fields
      [2, 2, 4, 4, 4, 4, 4, 4, 4, 4, 8, 8, 8, 8, 8, 8, 8, 8, 8] header.magic
      (header.payloadHash ++ behind) hmagic hfields rfl
    generalize hraw : (header.magic ++ header.fields.flatMap fun field =>
      leBytes field.1 field.2) ++ (header.payloadHash ++ behind) = raw at hread ⊢
    have hmagicRead : slice raw 0 8 = header.magic := by
      rw [← hraw, append_assoc, slice_append_left hmagic.ge, slice_all hmagic]
    have hhashRead : slice raw 116 32 = header.payloadHash := by
      rw [← hraw, slice_append_right hnumbers.le, hnumbers, slice_append_left hhash.ge,
        slice_all hhash]
    rw [unpackExpertHeader, hmagicRead, hhashRead, hread 0 8 rfl rfl, hread 1 10 rfl rfl,
      hread 2 12 rfl rfl, hread 3 16 rfl rfl, hread 4 20 rfl rfl, hread 5 24 rfl rfl,
      hread 6 28 rfl rfl, hread 7 32 rfl rfl, hread 8 36 rfl rfl, hread 9 40 rfl rfl,
      hread 10 44 rfl rfl, signed32_unsigned32 hlayer, signed32_unsigned32 hexpert]
    simp only [unpackSection]
    rw [hread 11 52 rfl rfl, hread 12 60 rfl rfl, hread 13 68 rfl rfl, hread 14 76 rfl rfl,
      hread 15 84 rfl rfl, hread 16 92 rfl rfl, hread 17 100 rfl rfl, hread 18 108 rfl rfl]
  next => cases h

end

/-! ## What the writer has done -/

namespace RecordWriter

/-- What `_pad_to` leaves at the next multiple of an alignment. -/
def align (writer : RecordWriter) (alignment : Nat) : RecordWriter :=
  writer.put (List.replicate (alignUp writer.written.length alignment - writer.written.length) 0)

variable {writer : RecordWriter}

theorem padTo_alignUp (h : 0 < alignment) :
    writer.padTo (alignUp writer.written.length alignment) = .ok (writer.align alignment) := by
  rw [padTo, if_neg (Nat.not_lt.2 (le_alignUp h _)), align]

@[simp] theorem put_length (writer : RecordWriter) (bytes : Bytes) :
    (writer.put bytes).written.length = writer.written.length + bytes.length :=
  length_append

@[simp] theorem align_written (writer : RecordWriter) (alignment : Nat) :
    (writer.align alignment).written = Layout.padded 0 alignment writer.written := rfl

/-- The digest has seen everything behind the header's place. -/
def Hashed (writer : RecordWriter) : Prop :=
  writer.written = List.replicate headerBytes 0 ++ writer.hashed

theorem Hashed.put (h : writer.Hashed) (bytes : Bytes) :
    (writer.put bytes).Hashed := by
  rw [Hashed, RecordWriter.put, h, append_assoc]

theorem Hashed.drop (h : writer.Hashed) :
    writer.hashed = writer.written.drop headerBytes := by
  rw [h, drop_left' (length_replicate ..)]

end RecordWriter

/-- The bytes behind the header's place, and the end of the record. -/
def recordBody (alignment : Nat) (gate up down : Encoded) : Bytes :=
  Layout.padded 0 alignment (Layout.place 0 sectionAlignment (List.replicate headerBytes 0)
    [gate.payload ++ up.payload, gate.scales ++ up.scales, down.payload, down.scales])

/-- The writer behind a whole record. -/
def finalWriter (alignment : Nat) (gate up down : Encoded) : RecordWriter :=
  let writer : RecordWriter := {}
  let writer := ((writer.put gate.payload).put up.payload).align sectionAlignment
  let writer := (writer.put (gate.scales ++ up.scales)).align sectionAlignment
  ((writer.put down.payload).align sectionAlignment |>.put down.scales).align alignment

theorem finalWriter_written (alignment : Nat) (gate up down : Encoded) :
    (finalWriter alignment gate up down).written = recordBody alignment gate up down := by
  have hempty : Layout.padded 0 sectionAlignment (List.replicate headerBytes (0 : UInt8)) =
      List.replicate headerBytes 0 := by
    rw [Layout.padded, length_replicate]
    exact append_nil _
  rw [recordBody, Layout.place, hempty, ← append_assoc]
  rfl

theorem finalWriter_hashed (alignment : Nat) (gate up down : Encoded) :
    (finalWriter alignment gate up down).hashed =
      (recordBody alignment gate up down).drop headerBytes := by
  have hstart : ({} : RecordWriter).Hashed := (append_nil _).symm
  rw [← finalWriter_written]
  exact (((((((((hstart.put _).put _).put _).put _).put _).put _).put _).put _).put _).drop

/-- The section table that the writer puts into the header. -/
def sectionTable (quantAbi hidden intermediate : Nat) (gated : Bool) (gate up down : Encoded) :
    ExpertSectionIndex :=
  let fp4 := quantAbi ∈ [fp4QuantAbiId, fp4Relu2ExpertAbiId, nvfp4QuantAbiId]
  let gateUpScales := alignUp (headerBytes + gate.payload.length + up.payload.length)
    sectionAlignment
  let downQ := alignUp (gateUpScales + (gate.scales ++ up.scales).length) sectionAlignment
  let downScales := alignUp (downQ + down.payload.length) sectionAlignment
  { gateUpQ := ⟨headerBytes, if fp4 then (if gated then 2 else 1) * intermediate * hidden / 2
      else 2 * intermediate * hidden⟩
    gateUpScales := ⟨gateUpScales, (gate.scales ++ up.scales).length⟩
    downQ := ⟨downQ, if fp4 then hidden * intermediate / 2 else hidden * intermediate⟩
    downScales := ⟨downScales, down.scales.length⟩ }

variable {α : Type} {arithmetic : Arithmetic α} {sha256 : Bytes → Sha256Digest}
  {expert : ExpertSource} {pack hidden intermediate alignment quantAbi start : Nat}
  {optimizeFp4Mse : Bool} {record : Bytes} {entry : ExpertEntry ExpertFields}
  {gate up down : Encoded}

/-- The header of a finished record. -/
def writtenHeader (sha256 : Bytes → Sha256Digest) (expert : ExpertSource)
    (hidden intermediate alignment quantAbi : Nat) (gate up down : Encoded) : ExpertHeader :=
  expert.header quantAbi hidden intermediate (recordBody alignment gate up down).length
    (sectionTable quantAbi hidden intermediate expert.gated gate up down)
    (sha256 ((recordBody alignment gate up down).drop headerBytes))

/-- A record that the writer has finished, by what its encoders returned. -/
structure Written (arithmetic : Arithmetic α) (sha256 : Bytes → Sha256Digest)
    (expert : ExpertSource) (pack hidden intermediate alignment quantAbi : Nat)
    (optimizeFp4Mse : Bool) (start : Nat) (record : Bytes) (entry : ExpertEntry ExpertFields)
    (gate up down : Encoded) : Prop where
  kind : decide (quantAbi = fp4Relu2ExpertAbiId) ≠ expert.gated
  supported : quantAbi ∈ [quantAbiId, fp4QuantAbiId, fp4Relu2ExpertAbiId, nvfp4QuantAbiId]
  blocks : quantAbi ≠ quantAbiId → hidden % 32 = 0 ∧ intermediate % 32 = 0
  aligned : start % alignment = 0
  writeGate : expert.writeGate arithmetic quantAbi optimizeFp4Mse = .ok gate
  writeUp : expert.writeUp arithmetic quantAbi optimizeFp4Mse = .ok up
  writeDown : expert.writeDown arithmetic quantAbi optimizeFp4Mse = .ok down
  power : 0 < alignment ∧ alignment &&& (alignment - 1) = 0
  entry_eq : entry = expert.entry pack quantAbi hidden intermediate start
    (recordBody alignment gate up down).length
    (sectionTable quantAbi hidden intermediate expert.gated gate up down)
    (sha256 ((recordBody alignment gate up down).drop headerBytes))
  record_eq : ∃ raw,
    (writtenHeader sha256 expert hidden intermediate alignment quantAbi gate up down).pack = .ok raw ∧
    record = raw ++ List.replicate (headerBytes - raw.length) 0 ++
      (recordBody alignment gate up down).drop headerBytes

theorem writeExpertRecord_written (h : writeExpertRecord arithmetic sha256 expert pack hidden
    intermediate alignment quantAbi optimizeFp4Mse start = .ok (record, entry)) :
    ∃ gate up down, Written arithmetic sha256 expert pack hidden intermediate alignment quantAbi
      optimizeFp4Mse start record entry gate up down := by
  simp only [writeExpertRecord, except_bind_eq_ok] at h
  obtain ⟨⟨⟩, hkind, ⟨⟩, hsupported, ⟨⟩, hblocks, ⟨⟩, hstart, gate, hgate, up, hup, first, hfirst,
    second, hsecond, down, hdown, third, hthird, ⟨⟩, halignment, last, hlast, raw, hraw, hresult⟩ := h
  rw [demand_eq_ok] at hkind hsupported hstart
  rw [checkAlignment, demand_eq_ok] at halignment
  have hsection : 0 < sectionAlignment := by decide
  rw [RecordWriter.padTo_alignUp hsection, Except.ok.injEq] at hfirst
  subst hfirst
  rw [RecordWriter.padTo_alignUp hsection, Except.ok.injEq] at hsecond
  subst hsecond
  rw [RecordWriter.padTo_alignUp hsection, Except.ok.injEq] at hthird
  subst hthird
  rw [RecordWriter.padTo_alignUp halignment.1, Except.ok.injEq] at hlast
  subst hlast
  have hbody := finalWriter_written alignment gate up down
  have hhashed := finalWriter_hashed alignment gate up down
  simp only [finalWriter] at hbody hhashed
  have hlength := congrArg List.length hbody
  rw [RecordWriter.align_written, Layout.padded_length halignment.1] at hlength
  rw [hhashed, hlength] at hraw
  rw [hhashed, hlength, hbody] at hresult
  simp only [RecordWriter.put_length, RecordWriter.align_written,
    Layout.padded_length hsection, length_replicate] at hraw hresult
  obtain ⟨hrecord, hentry⟩ := Prod.mk.inj (Except.ok.inj hresult)
  refine ⟨gate, up, down, hkind, ?_, ?_, hstart, hgate, hup, hdown, halignment, ?_, ?_⟩
  · simp only [mem_cons, not_mem_nil, or_false] at hsupported ⊢
    tauto
  · intro hne
    rw [if_pos (hsupported.resolve_right hne), checkFp4Geometry, demand_eq_ok] at hblocks
    exact hblocks
  · exact hentry.symm
  · exact ⟨raw, hraw, hrecord.symm⟩

/-! ## Sizes -/

/-- The shapes that every adapter asks of an expert. -/
structure ExpertSource.Shaped (expert : ExpertSource) (quantAbi hidden intermediate : Nat) :
    Prop where
  gate : quantAbi ≠ nvfp4QuantAbiId → ∀ gate, expert.gate = some gate →
    gate.shape = [intermediate, hidden]
  up : quantAbi ≠ nvfp4QuantAbiId → expert.up.shape = [intermediate, hidden]
  down : quantAbi ≠ nvfp4QuantAbiId → expert.down.shape = [hidden, intermediate]
  nvfp4Gate : ∀ matrix, expert.nvfp4Gate = some matrix → matrix.logicalShape = (intermediate, hidden)
  nvfp4Up : ∀ matrix, expert.nvfp4Up = some matrix → matrix.logicalShape = (intermediate, hidden)
  nvfp4Down : ∀ matrix, expert.nvfp4Down = some matrix →
    matrix.logicalShape = (hidden, intermediate)

def payloadBytes (quantAbi elements : Nat) : Nat :=
  if quantAbi = quantAbiId then elements else elements / 2

def scaleBytes (quantAbi rows elements : Nat) : Nat :=
  if quantAbi = quantAbiId then rows * 4
  else if quantAbi = nvfp4QuantAbiId then elements / nvfp4QuantGroupSize + 8
  else elements / fp4QuantGroupSize

/-- The scale bytes that the compiler itself chooses. -/
def LegalScale (quantAbi : Nat) (code : UInt8) : Prop :=
  quantAbi ∈ [fp4QuantAbiId, fp4Relu2ExpertAbiId] → Ue8m0Code code

theorem encodeMatrix_sized {tensor : Tensor}
    (hsupported : quantAbi ∈ [quantAbiId, fp4QuantAbiId, fp4Relu2ExpertAbiId])
    (hshape : tensor.shape = [rows, columns]) (hcolumns : quantAbi ≠ quantAbiId → columns % 32 = 0)
    (h : encodeMatrix arithmetic quantAbi optimizeFp4Mse tensor = .ok encoded) :
    encoded.Sized (payloadBytes quantAbi (rows * columns))
      (scaleBytes quantAbi rows (rows * columns)) (LegalScale quantAbi) := by
  rw [encodeMatrix] at h
  by_cases hfp4 : quantAbi ∈ [fp4QuantAbiId, fp4Relu2ExpertAbiId]
  · have hne : quantAbi ≠ quantAbiId ∧ quantAbi ≠ nvfp4QuantAbiId := by
      rcases mem_pair.1 hfp4 with rfl | rfl <;> decide
    rw [if_pos hfp4] at h
    rw [payloadBytes, scaleBytes, if_neg hne.1, if_neg hne.1, if_neg hne.2]
    have hsized := writeFp4Block32Rows_sized hshape (hcolumns hne.1) h
    exact ⟨hsized.payload, hsized.scales, fun code hcode _ => hsized.legal code hcode⟩
  · have heq : quantAbi = quantAbiId := (mem_cons.1 hsupported).resolve_right hfp4
    rw [if_neg hfp4] at h
    rw [payloadBytes, scaleBytes, if_pos heq, if_pos heq]
    have hsized := writeInt8Rows_sized hshape h
    exact ⟨hsized.payload, hsized.scales, fun _ _ hcode => absurd hcode hfp4⟩

theorem copyNative_sized {source : Option NativeNvfp4MatrixSource}
    (hshape : ∀ matrix, source = some matrix → matrix.logicalShape = (rows, columns))
    (h : copyNative source = .ok encoded) :
    encoded.Sized (payloadBytes nvfp4QuantAbiId (rows * columns))
      (scaleBytes nvfp4QuantAbiId rows (rows * columns)) (LegalScale nvfp4QuantAbiId) := by
  cases source with
  | none => cases h
  | some matrix =>
    simp only [copyNative, except_bind_eq_ok, hshape matrix rfl] at h
    obtain ⟨⟨⟩, hgeometry, hencoded⟩ := h
    cases hencoded
    rw [demand_eq_ok] at hgeometry
    obtain ⟨hcolumns, hweight, hweightShape, hscale, hscaleShape, hglobal, hglobalShape, hinput,
      hinputShape⟩ := hgeometry
    have hbytes := matrix.weight.raw_length
    have hscaleBytes := matrix.scale.raw_length
    have hglobalBytes := matrix.weightGlobalScale.raw_length
    have hinputBytes := matrix.inputGlobalScale.raw_length
    rw [hweight, hweightShape] at hbytes
    rw [hscale, hscaleShape] at hscaleBytes
    rw [hglobal, hglobalShape] at hglobalBytes
    rw [hinput, hinputShape] at hinputBytes
    obtain ⟨groups, rfl⟩ : ∃ groups, columns = groups * 16 :=
      ⟨columns / 16, by rw [nvfp4QuantGroupSize] at hcolumns; omega⟩
    rw [nvfp4QuantGroupSize, Nat.mul_div_cancel _ (by omega)] at hscaleBytes
    simp only [prod_cons, prod_nil, Nat.mul_one, Nat.one_mul, Dtype.bytes]
      at hbytes hscaleBytes hglobalBytes hinputBytes
    refine ⟨?_, ?_, fun _ _ hfp4 => absurd hfp4 (by decide)⟩
    · rw [hbytes]
      change rows * (groups * 16 / 2) = rows * (groups * 16) / 2
      rw [← Nat.mul_div_assoc _ (by omega)]
    · rw [length_append, length_append, hscaleBytes, hglobalBytes, hinputBytes]
      change rows * groups + 4 + 4 = rows * (groups * 16) / 16 + 8
      rw [← Nat.mul_assoc, Nat.mul_div_cancel _ (by omega)]

section

variable
  (h : Written arithmetic sha256 expert pack hidden intermediate alignment quantAbi optimizeFp4Mse start record entry gate up down)

include h

theorem Written.gated_of_native :
    expert.gated = decide (quantAbi ≠ fp4Relu2ExpertAbiId) := by
  have hkind := h.kind
  cases hg : expert.gated <;> rw [hg] at hkind <;> simp at hkind ⊢ <;> assumption

theorem Written.sized (hshape : expert.Shaped quantAbi hidden intermediate) :
    (if quantAbi = fp4Relu2ExpertAbiId then gate = ⟨[], []⟩
      else gate.Sized (payloadBytes quantAbi (hidden * intermediate))
        (scaleBytes quantAbi intermediate (hidden * intermediate)) (LegalScale quantAbi)) ∧
    up.Sized (payloadBytes quantAbi (hidden * intermediate))
      (scaleBytes quantAbi intermediate (hidden * intermediate)) (LegalScale quantAbi) ∧
    down.Sized (payloadBytes quantAbi (hidden * intermediate))
      (scaleBytes quantAbi hidden (hidden * intermediate)) (LegalScale quantAbi) := by
  have hgate := h.writeGate
  have hup := h.writeUp
  have hdown := h.writeDown
  have hgated := h.gated_of_native
  rw [ExpertSource.writeGate] at hgate
  rw [ExpertSource.writeUp] at hup
  rw [ExpertSource.writeDown] at hdown
  rw [Nat.mul_comm hidden]
  by_cases hnative : quantAbi = nvfp4QuantAbiId
  · rw [if_pos hnative] at hgate hup hdown
    subst hnative
    rw [if_neg (by decide)]
    refine ⟨copyNative_sized hshape.nvfp4Gate hgate, copyNative_sized hshape.nvfp4Up hup, ?_⟩
    rw [Nat.mul_comm]
    exact copyNative_sized hshape.nvfp4Down hdown
  · rw [if_neg hnative] at hgate hup hdown
    have hsupported : quantAbi ∈ [quantAbiId, fp4QuantAbiId, fp4Relu2ExpertAbiId] := by
      have := h.supported
      simp only [mem_cons, not_mem_nil, or_false] at this ⊢
      tauto
    refine ⟨?_, encodeMatrix_sized hsupported (hshape.up hnative) (fun hne => (h.blocks hne).1) hup,
      ?_⟩
    · cases hsource : expert.gate with
      | none =>
        rw [hsource, Except.ok.injEq] at hgate
        rw [ExpertSource.gated, hsource] at hgated
        have hrelu2 : quantAbi = fp4Relu2ExpertAbiId := by simpa using hgated
        rw [if_pos hrelu2, ← hgate]
      | some tensor =>
        rw [hsource] at hgate
        rw [ExpertSource.gated, hsource] at hgated
        have hrelu2 : quantAbi ≠ fp4Relu2ExpertAbiId := by simpa using hgated
        rw [if_neg hrelu2]
        exact encodeMatrix_sized hsupported (hshape.gate hnative tensor hsource)
          (fun hne => (h.blocks hne).1) hgate
    · rw [Nat.mul_comm]
      exact encodeMatrix_sized hsupported (hshape.down hnative) (fun hne => (h.blocks hne).2) hdown

end

/-- The sections of a record, which is gated in all but one kind. -/
structure Counts (quantAbi hidden intermediate : Nat) (gated : Bool) (gate up down : Encoded) :
    Prop where
  gateUpQ : gate.payload.length + up.payload.length =
    (if gated then 2 else 1) * payloadBytes quantAbi (hidden * intermediate)
  gateUpScales : gate.scales.length + up.scales.length =
    (if gated then 2 else 1) * scaleBytes quantAbi intermediate (hidden * intermediate)
  downQ : down.payload.length = payloadBytes quantAbi (hidden * intermediate)
  downScales : down.scales.length = scaleBytes quantAbi hidden (hidden * intermediate)

section

variable (h : Written arithmetic sha256 expert pack hidden intermediate alignment quantAbi
  optimizeFp4Mse start record entry gate up down)
  (hshape : expert.Shaped quantAbi hidden intermediate)

include h hshape

theorem Written.counts : Counts quantAbi hidden intermediate expert.gated gate up down := by
  obtain ⟨hgate, hup, hdown⟩ := h.sized hshape
  have hgated := h.gated_of_native
  by_cases hrelu2 : quantAbi = fp4Relu2ExpertAbiId
  · rw [if_pos hrelu2] at hgate
    rw [hgated, decide_eq_false (not_not.2 hrelu2), hgate]
    refine ⟨?_, ?_, hdown.payload, hdown.scales⟩
    · simp [hup.payload]
    · simp [hup.scales]
  · rw [if_neg hrelu2] at hgate
    rw [hgated, decide_eq_true hrelu2]
    refine ⟨?_, ?_, hdown.payload, hdown.scales⟩
    · rw [hgate.payload, hup.payload, if_pos rfl, Nat.two_mul]
    · rw [hgate.scales, hup.scales, if_pos rfl, Nat.two_mul]

omit h hshape in
theorem not_fp4 (hint8 : quantAbi = quantAbiId) : quantAbi ≠ nvfp4QuantAbiId ∧
    quantAbi ≠ fp4Relu2ExpertAbiId ∧ quantAbi ∉ [fp4QuantAbiId, fp4Relu2ExpertAbiId] ∧
    quantAbi ∉ [fp4QuantAbiId, fp4Relu2ExpertAbiId, nvfp4QuantAbiId] := by
  subst hint8
  decide

omit hshape in
theorem Written.gated_of (hne : quantAbi ≠ fp4Relu2ExpertAbiId) : expert.gated = true := by
  rw [h.gated_of_native, decide_eq_true hne]

omit hshape in
theorem Written.elements_mod (hne : quantAbi ≠ quantAbiId) : hidden * intermediate % 32 = 0 := by
  rw [Nat.mul_mod, (h.blocks hne).1, Nat.zero_mul]

theorem Written.table_bytes :
    (sectionTable quantAbi hidden intermediate expert.gated gate up down).gateUpQ.bytes =
      (gate.payload ++ up.payload).length ∧
    (sectionTable quantAbi hidden intermediate expert.gated gate up down).downQ.bytes =
      down.payload.length := by
  have hcounts := h.counts hshape
  rw [length_append, hcounts.gateUpQ, hcounts.downQ, payloadBytes]
  simp only [sectionTable]
  by_cases hint8 : quantAbi = quantAbiId
  · obtain ⟨-, hrelu2, -, hnot⟩ := not_fp4 hint8
    rw [if_neg hnot, if_neg hnot, if_pos hint8, h.gated_of hrelu2, Nat.mul_assoc,
      Nat.mul_comm intermediate]
    exact ⟨rfl, rfl⟩
  · have hfp4 := (mem_cons.1 h.supported).resolve_left hint8
    have helements := h.elements_mod hint8
    have hfp4' : quantAbi ∈ [fp4QuantAbiId, fp4Relu2ExpertAbiId, nvfp4QuantAbiId] := hfp4
    rw [if_pos hfp4', if_pos hfp4', if_neg hint8, Nat.mul_assoc, Nat.mul_comm intermediate]
    refine ⟨?_, rfl⟩
    cases expert.gated with
    | false => simp
    | true =>
      simp only [if_true]
      omega

omit hshape in
theorem recordBody_length : (recordBody alignment gate up down).length =
    alignUp ((sectionTable quantAbi hidden intermediate expert.gated gate up down).downScales.offset +
      down.scales.length) alignment := by
  have hsection : 0 < sectionAlignment := by decide
  rw [recordBody, Layout.padded_length h.power.1, Layout.place_length hsection]
  simp only [map_cons, map_nil, Layout.finish, length_replicate, sectionTable, length_append]
  have hheader : alignUp headerBytes sectionAlignment = headerBytes := rfl
  rw [hheader, ← Nat.add_assoc headerBytes]

omit hshape in
theorem Written.sizeOfSections_eq : sizeOfSections alignment
    (gate.payload.length + up.payload.length) (gate.scales.length + up.scales.length)
    down.payload.length down.scales.length = .ok (recordBody alignment gate up down).length := by
  have hpower : checkAlignment alignment = .ok () := demand_eq_ok.2 h.power
  rw [recordBody_length h, sizeOfSections, hpower]
  simp only [sectionTable, length_append, ← Nat.add_assoc]
  rfl

theorem Written.size : expertRecordSize hidden intermediate alignment quantAbi expert.gated =
    .ok (recordBody alignment gate up down).length := by
  have hcounts := h.counts hshape
  have hsize := h.sizeOfSections_eq
  rw [hcounts.gateUpQ, hcounts.gateUpScales, hcounts.downQ, hcounts.downScales] at hsize
  rw [← hsize, expertRecordSize, payloadBytes, scaleBytes, scaleBytes]
  by_cases hint8 : quantAbi = quantAbiId
  · obtain ⟨hnative, hrelu2, hfp4, -⟩ := not_fp4 hint8
    rw [if_neg hnative, if_neg hfp4, if_neg (not_not.2 hint8), if_pos hint8, if_pos hint8,
      if_pos hint8, h.gated_of hrelu2, if_pos rfl, Nat.mul_assoc 2, Nat.mul_assoc 2, Nat.mul_comm intermediate]
  · have helements := h.elements_mod hint8
    have hgeometry : checkFp4Geometry hidden intermediate = .ok () :=
      demand_eq_ok.2 (h.blocks hint8)
    rw [if_neg hint8, if_neg hint8, if_neg hint8, hgeometry]
    by_cases hnative : quantAbi = nvfp4QuantAbiId
    · have htrue := h.gated_of (hnative ▸ by decide)
      have hhalves : 2 * (hidden * intermediate / 2) = hidden * intermediate := by omega
      rw [if_pos hnative, if_pos hnative, htrue, if_pos rfl, hhalves]
      rfl
    · have hfp4 : quantAbi ∈ [fp4QuantAbiId, fp4Relu2ExpertAbiId] := by
        have := h.supported
        simp only [mem_cons, not_mem_nil, or_false] at this ⊢
        tauto
      have hkind : demand (decide (quantAbi = fp4Relu2ExpertAbiId) ≠ expert.gated)
          "expert record ABI disagrees with expert mathematics" = .ok () := demand_eq_ok.2 h.kind
      have hrows : (if expert.gated then 2 else 1) * intermediate * hidden =
          (if expert.gated then 2 else 1) * (hidden * intermediate) := by
        rw [Nat.mul_assoc, Nat.mul_comm intermediate]
      have htwo : 2 ∣ hidden * intermediate := by omega
      have hgroup : fp4QuantGroupSize ∣ hidden * intermediate := by
        rw [fp4QuantGroupSize]
        omega
      rw [if_neg hnative, if_pos hfp4, if_neg hnative, hkind, hrows, Nat.mul_div_assoc _ htwo,
        Nat.mul_div_assoc _ hgroup]
      rfl

end

/-! ## Reading the sections -/

theorem slice_sub {bytes part before middle behind : Bytes} {offset : Nat}
    (h : slice bytes offset part.length = part) (hpart : part = before ++ (middle ++ behind)) :
    slice bytes (offset + before.length) middle.length = middle := by
  have hlength : before.length + middle.length ≤ part.length := by
    rw [hpart, length_append, length_append]
    omega
  rw [← slice_slice hlength, h, hpart, slice_append_right le_rfl, Nat.sub_self,
    slice_append_left (by omega), slice_all rfl]

/-- A record as its readers find it. -/
structure Placed (record : Bytes) (table : ExpertSectionIndex) (gate up down : Encoded) : Prop where
  gateUpQ : slice record table.gateUpQ.offset (gate.payload ++ up.payload).length =
    gate.payload ++ up.payload
  gateUpScales : slice record table.gateUpScales.offset (gate.scales ++ up.scales).length =
    gate.scales ++ up.scales
  downQ : slice record table.downQ.offset down.payload.length = down.payload
  downScales : slice record table.downScales.offset down.scales.length = down.scales

namespace Placed

variable {table : ExpertSectionIndex} (h : Placed record table gate up down)

include h

theorem gatePayload : slice record table.gateUpQ.offset gate.payload.length = gate.payload :=
  @slice_sub _ _ [] _ _ _ h.gateUpQ rfl

theorem upPayload : slice record (table.gateUpQ.offset + gate.payload.length) up.payload.length =
    up.payload :=
  @slice_sub _ _ _ _ [] _ h.gateUpQ (by rw [append_nil])

theorem gateScales : slice record table.gateUpScales.offset gate.scales.length = gate.scales :=
  @slice_sub _ _ [] _ _ _ h.gateUpScales rfl

theorem upScales : slice record (table.gateUpScales.offset + gate.scales.length) up.scales.length =
    up.scales :=
  @slice_sub _ _ _ _ [] _ h.gateUpScales (by rw [append_nil])

end Placed

theorem recordBody_placed (gated : Bool) : Placed (recordBody alignment gate up down)
    (sectionTable quantAbi hidden intermediate gated gate up down) gate up down := by
  have hsection : 0 < sectionAlignment := by decide
  have hheader : alignUp headerBytes sectionAlignment = headerBytes := rfl
  have hread := @Layout.place_read _ (0 : UInt8) sectionAlignment (List.replicate headerBytes 0)
    [gate.payload ++ up.payload, gate.scales ++ up.scales, down.payload, down.scales] hsection
  simp only [map_cons, map_nil, Layout.offsets, length_replicate, hheader,
    forall₂_cons, forall₂_nil_left_iff, and_true] at hread
  obtain ⟨behind, hbody⟩ : ∃ behind, recordBody alignment gate up down =
      Layout.place 0 sectionAlignment (List.replicate headerBytes 0) [gate.payload ++ up.payload,
        gate.scales ++ up.scales, down.payload, down.scales] ++ behind := ⟨_, rfl⟩
  have hlength : headerBytes + (gate.payload ++ up.payload).length =
      headerBytes + gate.payload.length + up.payload.length := by
    rw [length_append, Nat.add_assoc]
  obtain ⟨hgateUpQ, hgateUpScales, hdownQ, hdownScales⟩ := hread behind
  rw [hlength] at hgateUpScales hdownQ hdownScales
  rw [hbody]
  exact ⟨hgateUpQ, hgateUpScales, hdownQ, hdownScales⟩

theorem sectionTable_offsets {gated : Bool} :
    headerBytes ≤ (sectionTable quantAbi hidden intermediate gated gate up down).gateUpScales.offset ∧
    headerBytes ≤ (sectionTable quantAbi hidden intermediate gated gate up down).downQ.offset ∧
    headerBytes ≤
      (sectionTable quantAbi hidden intermediate gated gate up down).downScales.offset := by
  have hsection : 0 < sectionAlignment := by decide
  simp only [sectionTable]
  have hfirst := le_alignUp hsection (headerBytes + gate.payload.length + up.payload.length)
  have hsecond := le_alignUp hsection (alignUp (headerBytes + gate.payload.length +
    up.payload.length) sectionAlignment + (gate.scales ++ up.scales).length)
  have hthird := le_alignUp hsection (alignUp (alignUp (headerBytes + gate.payload.length +
    up.payload.length) sectionAlignment + (gate.scales ++ up.scales).length) sectionAlignment +
      down.payload.length)
  omega

theorem recordBody_ge : headerBytes ≤ (recordBody alignment gate up down).length := by
  obtain ⟨behind, hbehind⟩ := @Layout.place_eq_append _ (0 : UInt8) sectionAlignment
    (List.replicate headerBytes 0)
    [gate.payload ++ up.payload, gate.scales ++ up.scales, down.payload, down.scales]
  rw [recordBody, Layout.padded, hbehind, length_append, length_append, length_replicate]
  omega

/-- A record from its two ends: the packed header in its place, and the rest of the body. -/
theorem ends_of_eq {record raw body : Bytes} {size : Nat} (hlength : raw.length = size)
    (hsize : size ≤ headerBytes) (hbody : headerBytes ≤ body.length)
    (hrecord : record = (raw ++ List.replicate (headerBytes - raw.length) 0) ++
      body.drop headerBytes) :
    (∃ behind, slice record 0 headerBytes = raw ++ behind) ∧
    (slice record 0 headerBytes).length = headerBytes ∧
    (∀ value ∈ (slice record 0 headerBytes).drop size, value = 0) ∧
    record.length = body.length ∧
    ∀ offset count, headerBytes ≤ offset → slice record offset count = slice body offset count := by
  have hfirst : (raw ++ List.replicate (headerBytes - raw.length) (0 : UInt8)).length =
      headerBytes := by
    rw [length_append, length_replicate]
    omega
  have hslice : slice record 0 headerBytes =
      raw ++ List.replicate (headerBytes - raw.length) (0 : UInt8) := by
    rw [hrecord, slice_append_left (by omega), slice_all hfirst]
  refine ⟨⟨_, hslice⟩, by rw [hslice, hfirst], fun value hvalue => ?_, ?_, fun offset count hoffset => ?_⟩
  · rw [hslice, drop_left' hlength] at hvalue
    exact eq_of_mem_replicate hvalue
  · rw [hrecord, length_append, hfirst, length_drop]
    omega
  · rw [hrecord, slice_append_right (by omega), hfirst, slice, slice, drop_drop,
      Nat.add_sub_of_le hoffset]

theorem Written.ends (h : Written arithmetic sha256 expert pack hidden intermediate alignment
    quantAbi optimizeFp4Mse start record entry gate up down) :
    unpackExpertHeader (slice record 0 headerBytes) =
      writtenHeader sha256 expert hidden intermediate alignment quantAbi gate up down ∧
    (slice record 0 headerBytes).length = headerBytes ∧
    (∀ value ∈ (slice record 0 headerBytes).drop expertHeaderSize, value = 0) ∧
    record.length = (recordBody alignment gate up down).length ∧
    ∀ offset count, headerBytes ≤ offset →
      slice record offset count = slice (recordBody alignment gate up down) offset count := by
  obtain ⟨raw, hraw, hrecord⟩ := h.record_eq
  obtain ⟨⟨behind, hslice⟩, hrest⟩ := ends_of_eq (pack_length hraw rfl (Sha256Digest.length_eq _))
    (by decide) recordBody_ge hrecord
  refine ⟨?_, hrest⟩
  rw [hslice]
  exact unpack_pack hraw rfl (Sha256Digest.length_eq _)

/-! ## What the compiler's validation finds -/

/-- Scales that both validators take: for INT8 positive binary32 values, for NVFP4
what the source tensors have to hold. -/
def ValidScales (quantAbi : Nat) (encoded : Encoded) : Prop :=
  (quantAbi = quantAbiId → (floatBits encoded.scales).all Runtime.finitePositive = true) ∧
  (quantAbi = nvfp4QuantAbiId →
    (∀ code ∈ encoded.scales.take (encoded.scales.length - 8),
      code &&& 0x80 = 0 ∧ code &&& 0x7f ≠ 0x7f) ∧
    Runtime.finitePositive (UInt32.ofNat (leValue
      (slice encoded.scales (encoded.scales.length - 8) 4))) = true ∧
    Runtime.finitePositive (UInt32.ofNat (leValue
      (slice encoded.scales (encoded.scales.length - 4) 4))) = true)

theorem floatBits_append (h : left.length % 4 = 0) :
    floatBits (left ++ right) = floatBits left ++ floatBits right := by
  induction left using floatBits.induct with
  | case1 b0 b1 b2 b3 rest ih =>
    simp only [length_cons] at h
    simp only [cons_append, floatBits, ih (by omega)]
  | case2 bytes hshort =>
    rcases bytes with _ | ⟨b0, _ | ⟨b1, _ | ⟨b2, _ | ⟨b3, rest⟩⟩⟩⟩
    · rfl
    · simp at h
    · simp at h
    · simp at h
    · exact absurd rfl (hshort b0 b1 b2 b3 rest)

variable {bytes : Bytes}

theorem checkNvfp4Block_ok {matrixLocal : Nat} {block : Nat × String}
    (hread : slice bytes (offset + block.1) encoded.scales.length = encoded.scales)
    (hlength : encoded.scales.length = matrixLocal + 8)
    (hvalid : ValidScales nvfp4QuantAbiId encoded) :
    checkNvfp4Block bytes offset matrixLocal block = .ok () := by
  obtain ⟨hcodes, hweight, hinput⟩ := hvalid.2 rfl
  have hslice : ∀ start count, start + count ≤ matrixLocal + 8 →
      slice bytes (offset + block.1 + start) count = slice encoded.scales start count := by
    intro start count hle
    rw [← slice_slice (hle.trans hlength.ge), hread]
  have hfirst : slice bytes (offset + block.1) matrixLocal = encoded.scales.take matrixLocal := by
    exact hslice 0 matrixLocal (by omega)
  have hlengthOf : ∀ start count, start + count ≤ matrixLocal + 8 →
      (slice encoded.scales start count).length = count := by
    intro start count hle
    rw [slice, length_take, length_drop]
    omega
  have height : encoded.scales.length - 8 = matrixLocal := by omega
  have hfour : encoded.scales.length - 4 = matrixLocal + 4 := by omega
  rw [height] at hcodes hweight
  rw [hfour] at hinput
  simp only [checkNvfp4Block, validateE4m3fnScaleBytes, validatePositiveScalar, check_bind_eq_ok,
    demand_eq_ok]
  rw [hfirst, hslice matrixLocal 4 (by omega), Nat.add_assoc (offset + block.1),
    hslice (matrixLocal + 4) 4 (by omega)]
  refine ⟨⟨?_, fun code hcode => (hcodes code hcode).2⟩, ⟨hlengthOf _ _ (by omega), hweight⟩,
    hlengthOf _ _ (by omega), hinput⟩
  rw [length_take]
  omega

section

variable (h : Written arithmetic sha256 expert pack hidden intermediate packAlignment quantAbi
  optimizeFp4Mse start record entry gate up down)
  (hshape : expert.Shaped quantAbi hidden intermediate)

include h

theorem Written.checkIdentity_ok : checkIdentity (writtenHeader sha256 expert hidden intermediate
    packAlignment quantAbi gate up down) entry = .ok () := by
  have hgated := h.gated_of_native
  have hknown := h.supported
  simp only [checkIdentity, check_bind_eq_ok, demand_eq_ok, h.entry_eq, writtenHeader,
    ExpertSource.header, ExpertSource.entry, ExpertHeader.requiredFlags, ExpertHeader.nativeNvfp4, ExpertHeader.relu2,
    ExpertHeader.firstRows, hgated, decide_eq_true_eq, true_and, and_true]
  refine ⟨?_, hknown, ?_⟩
  · by_cases hrelu2 : quantAbi = fp4Relu2ExpertAbiId
    · rw [if_neg (not_not.2 hrelu2), if_pos hrelu2]
    · rw [if_pos hrelu2, if_neg hrelu2]
  · by_cases hrelu2 : quantAbi = fp4Relu2ExpertAbiId
    · rw [if_neg (not_not.2 hrelu2), if_pos hrelu2]
    · rw [if_pos hrelu2, if_neg hrelu2]

include hshape

theorem Written.checkSections_ok : checkSections (recordBody packAlignment gate up down).length
    headerBytes (namedSections (sectionTable quantAbi hidden intermediate expert.gated gate up down))
    = .ok () := by
  obtain ⟨hgateUp, hdown⟩ := h.table_bytes hshape
  have hsection : 0 < sectionAlignment := by decide
  have hlength := recordBody_length h
  have hend := le_alignUp h.power.1 ((sectionTable quantAbi hidden intermediate expert.gated gate up
    down).downScales.offset + down.scales.length)
  rw [← hlength] at hend
  rw [length_append] at hgateUp
  simp only [checkSections, namedSections, check_bind_eq_ok, demand_eq_ok, hgateUp, hdown]
  simp only [sectionTable, length_append] at hend ⊢
  have hfirst := le_alignUp hsection (headerBytes + gate.payload.length + up.payload.length)
  generalize hgateUpScales : alignUp (headerBytes + gate.payload.length + up.payload.length)
    sectionAlignment = gateUpScales at *
  have hsecond := le_alignUp hsection (gateUpScales + (gate.scales.length + up.scales.length))
  generalize hdownQ : alignUp (gateUpScales + (gate.scales.length + up.scales.length))
    sectionAlignment = downQ at *
  have hthird := le_alignUp hsection (downQ + down.payload.length)
  generalize hdownScales : alignUp (downQ + down.payload.length) sectionAlignment =
    downScales at *
  have haligned : gateUpScales % sectionAlignment = 0 ∧ downQ % sectionAlignment = 0 ∧
      downScales % sectionAlignment = 0 := by
    rw [← hgateUpScales, ← hdownQ, ← hdownScales]
    exact ⟨alignUp_mod _ _, alignUp_mod _ _, alignUp_mod _ _⟩
  refine ⟨rfl, le_rfl, by omega, haligned.1, by omega, by omega, haligned.2.1, by omega, by omega,
    haligned.2.2, by omega, by omega, trivial⟩

variable {header : ExpertHeader} {offset : Nat}

theorem Written.checkByteCounts_ok (hquantAbi : header.quantAbi = quantAbi)
    (hhidden : header.hidden = hidden) (hintermediate : header.intermediate = intermediate)
    (hsections : header.sections =
      sectionTable quantAbi hidden intermediate expert.gated gate up down) :
    checkByteCounts header = .ok () := by
  obtain ⟨hq, hs, hdq, hds⟩ := h.counts hshape
  obtain ⟨hgateUp, hdown⟩ := h.table_bytes hshape
  have hgated := h.gated_of_native
  rw [length_append, hq, payloadBytes, ← hsections] at hgateUp
  rw [hdq, payloadBytes, ← hsections] at hdown
  have hscales : header.sections.gateUpScales.bytes = (if expert.gated then 2 else 1) *
      scaleBytes quantAbi intermediate (hidden * intermediate) := by
    rw [hsections]
    exact length_append.trans hs
  have hdownScales : header.sections.downScales.bytes =
      scaleBytes quantAbi hidden (hidden * intermediate) := by
    rw [hsections]
    exact hds
  rw [scaleBytes] at hscales hdownScales
  have hnativeEq : header.nativeNvfp4 = decide (quantAbi = nvfp4QuantAbiId) := by
    rw [ExpertHeader.nativeNvfp4, hquantAbi]
  have hfp4Eq : header.fp4 =
      decide (quantAbi ∈ [fp4QuantAbiId, fp4Relu2ExpertAbiId, nvfp4QuantAbiId]) := by
    rw [ExpertHeader.fp4, hquantAbi]
  have hrows : header.firstRows * hidden =
      (if expert.gated then 2 else 1) * (hidden * intermediate) := by
    rw [ExpertHeader.firstRows, ExpertHeader.relu2, hquantAbi, hintermediate, hgated,
      Nat.mul_assoc, Nat.mul_comm intermediate]
    by_cases hrelu2 : quantAbi = fp4Relu2ExpertAbiId
    · rw [decide_eq_true hrelu2, decide_eq_false (not_not.2 hrelu2)]
      rfl
    · rw [decide_eq_false hrelu2, decide_eq_true hrelu2]
      rfl
  simp only [checkByteCounts, hhidden, hintermediate, hgateUp, hdown, hscales, hdownScales, hnativeEq,
    hfp4Eq, hrows]
  rw [Nat.mul_assoc 2, Nat.mul_assoc 2, Nat.mul_comm intermediate hidden]
  by_cases hint8 : quantAbi = quantAbiId
  · obtain ⟨hnative, hrelu2, -, hfp4⟩ := not_fp4 hint8
    rw [decide_eq_false hnative, decide_eq_false hfp4]
    simp only [Bool.false_eq_true, if_false, if_pos hint8, h.gated_of hrelu2, if_true, check_bind_eq_ok,
      demand_eq_ok, and_self]
  · have helements := h.elements_mod hint8
    obtain ⟨hhiddenMod, hintermediateMod⟩ := h.blocks hint8
    have hfp4 : quantAbi ∈ [fp4QuantAbiId, fp4Relu2ExpertAbiId, nvfp4QuantAbiId] :=
      (mem_cons.1 h.supported).resolve_left hint8
    by_cases hnative : quantAbi = nvfp4QuantAbiId
    · have htrue := h.gated_of (hnative ▸ by decide)
      rw [decide_eq_true hnative]
      simp only [if_pos hnative, if_neg hint8, htrue, if_true, check_bind_eq_ok, demand_eq_ok]
      rw [nvfp4QuantGroupSize]
      exact ⟨⟨by omega, by omega⟩, by omega, trivial, trivial, trivial⟩
    · have htwo : 2 ∣ hidden * intermediate := by omega
      have hgroup : fp4QuantGroupSize ∣ hidden * intermediate := by
        rw [fp4QuantGroupSize]
        omega
      rw [decide_eq_false hnative, decide_eq_true hfp4]
      simp only [if_neg hnative, if_neg hint8, Bool.false_eq_true, if_false, if_true,
        check_bind_eq_ok, demand_eq_ok, Nat.mul_div_assoc _ htwo, Nat.mul_div_assoc _ hgroup]
      exact ⟨⟨hhiddenMod, hintermediateMod⟩, trivial, trivial, trivial, trivial⟩

theorem Written.nvfp4Blocks_read (hnative : quantAbi = nvfp4QuantAbiId)
    (hread : ∀ start count, headerBytes ≤ start → start + count ≤
      (recordBody packAlignment gate up down).length → slice bytes (offset + start) count =
        slice (recordBody packAlignment gate up down) start count)
    (hgate : ValidScales quantAbi gate) (hup : ValidScales quantAbi up)
    (hdown : ValidScales quantAbi down) :
    ∀ block ∈ nvfp4Blocks (sectionTable quantAbi hidden intermediate expert.gated gate up down)
        (hidden * intermediate / nvfp4QuantGroupSize),
      ∃ encoded : Encoded,
        slice bytes (offset + block.1) encoded.scales.length = encoded.scales ∧
        encoded.scales.length = hidden * intermediate / nvfp4QuantGroupSize + 8 ∧
        ValidScales nvfp4QuantAbiId encoded := by
  have hplaced := @recordBody_placed hidden intermediate packAlignment quantAbi gate up down
    expert.gated
  obtain ⟨hgateSized, hupSized, hdownSized⟩ := h.sized hshape
  have hends := checkSections_le (h.checkSections_ok hshape)
  have hoffsets := @sectionTable_offsets hidden intermediate quantAbi gate up down expert.gated
  have hscaleBytes : (sectionTable quantAbi hidden intermediate expert.gated gate up
      down).gateUpScales.bytes = gate.scales.length + up.scales.length := length_append
  have hdownBytes : (sectionTable quantAbi hidden intermediate expert.gated gate up
      down).downScales.bytes = down.scales.length := rfl
  generalize sectionTable quantAbi hidden intermediate expert.gated gate up down = table at *
  simp only [namedSections, forall_mem_cons, hscaleBytes, hdownBytes] at hends
  obtain ⟨-, hgateUpEnd, -, hdownEnd, -⟩ := hends
  subst hnative
  rw [if_neg (by decide)] at hgateSized
  have hgateLength := hgateSized.scales
  have hupLength := hupSized.scales
  have hdownLength := hdownSized.scales
  rw [scaleBytes, if_neg (by decide), if_pos rfl] at hgateLength hupLength hdownLength
  have hupPlace := hplaced.upScales
  rw [hgateLength, ← Nat.add_assoc] at hupPlace
  simp only [nvfp4Blocks, forall_mem_cons]
  refine ⟨⟨gate, ?_, hgateLength, hgate⟩, ⟨up, ?_, hupLength, hup⟩, ⟨down, ?_, hdownLength, hdown⟩,
    by simp⟩
  · rw [hread _ _ hoffsets.1 (by omega), hplaced.gateScales]
  · rw [hread _ _ (by omega) (by omega), hupPlace]
  · rw [hread _ _ hoffsets.2.2 (by omega), hplaced.downScales]

theorem Written.checkScales_ok
    (hquantAbi : header.quantAbi = quantAbi) (hhidden : header.hidden = hidden)
    (hintermediate : header.intermediate = intermediate) (hsections : header.sections =
      sectionTable quantAbi hidden intermediate expert.gated gate up down)
    (hread : ∀ start count, headerBytes ≤ start → start + count ≤
      (recordBody packAlignment gate up down).length → slice bytes (offset + start) count =
        slice (recordBody packAlignment gate up down) start count)
    (hgate : ValidScales quantAbi gate) (hup : ValidScales quantAbi up)
    (hdown : ValidScales quantAbi down) : checkScales bytes offset header = .ok () := by
  have hplaced := @recordBody_placed hidden intermediate packAlignment quantAbi gate up down
    expert.gated
  obtain ⟨hgateSized, hupSized, hdownSized⟩ := h.sized hshape
  have hsectionsOk := h.checkSections_ok hshape
  have hends := checkSections_le hsectionsOk
  rw [← hsections] at hplaced hends
  simp only [namedSections, forall_mem_cons] at hends
  obtain ⟨-, hgateUpEnd, -, hdownEnd, -⟩ := hends
  have hnativeEq : header.nativeNvfp4 = decide (quantAbi = nvfp4QuantAbiId) := by
    rw [ExpertHeader.nativeNvfp4, hquantAbi]
  have hfp4Eq : header.fp4 =
      decide (quantAbi ∈ [fp4QuantAbiId, fp4Relu2ExpertAbiId, nvfp4QuantAbiId]) := by
    rw [ExpertHeader.fp4, hquantAbi]
  have hscaleBytes : header.sections.gateUpScales.bytes = (gate.scales ++ up.scales).length := by
    rw [hsections]
    rfl
  have hdownBytes : header.sections.downScales.bytes = down.scales.length := by
    rw [hsections]
    rfl
  have hfirst : headerBytes ≤ header.sections.gateUpScales.offset ∧
      headerBytes ≤ header.sections.downScales.offset := by
    rw [hsections]
    exact ⟨sectionTable_offsets.1, sectionTable_offsets.2.2⟩
  have hgateUpRead : slice bytes (offset + header.sections.gateUpScales.offset)
      (gate.scales ++ up.scales).length = gate.scales ++ up.scales := by
    rw [hread _ _ hfirst.1 (hscaleBytes ▸ hgateUpEnd), hplaced.gateUpScales]
  have hdownRead : slice bytes (offset + header.sections.downScales.offset) down.scales.length =
      down.scales := by
    rw [hread _ _ hfirst.2 (hdownBytes ▸ hdownEnd), hplaced.downScales]
  rw [checkScales, hnativeEq, hfp4Eq, hscaleBytes, hdownBytes]
  by_cases hint8 : quantAbi = quantAbiId
  · obtain ⟨hnative, hrelu2, -, hfp4⟩ := not_fp4 hint8
    rw [if_neg hrelu2] at hgateSized
    have hgateLength := hgateSized.scales
    have hupLength := hupSized.scales
    have hdownLength := hdownSized.scales
    rw [scaleBytes, if_pos hint8] at hgateLength hupLength hdownLength
    rw [decide_eq_false hnative, decide_eq_false hfp4]
    simp only [Bool.false_eq_true, if_false, validateScales, check_bind_eq_ok, demand_eq_ok,
      hgateUpRead, hdownRead]
    refine ⟨⟨?_, trivial, ?_⟩, ?_, trivial, hdown.1 hint8⟩
    · rw [length_append]
      omega
    · rw [floatBits_append (by omega), all_append, hgate.1 hint8, hup.1 hint8]
      rfl
    · omega
  · have hfp4 : quantAbi ∈ [fp4QuantAbiId, fp4Relu2ExpertAbiId, nvfp4QuantAbiId] :=
      (mem_cons.1 h.supported).resolve_left hint8
    by_cases hnative : quantAbi = nvfp4QuantAbiId
    · have hblocks := h.nvfp4Blocks_read hshape hnative hread hgate hup hdown
      rw [decide_eq_true hnative, if_pos rfl, hhidden, hintermediate, hsections, checkNvfp4Blocks_ok]
      intro block hblock
      obtain ⟨encoded, hblockRead, hlength, hvalid⟩ := hblocks block hblock
      exact checkNvfp4Block_ok hblockRead hlength hvalid
    · have hchosen : quantAbi ∈ [fp4QuantAbiId, fp4Relu2ExpertAbiId] := by
        simp only [mem_cons, not_mem_nil, or_false] at hfp4 ⊢
        tauto
      rw [decide_eq_false hnative, decide_eq_true hfp4]
      simp only [Bool.false_eq_true, if_false, if_true, validateUe8m0Scales, check_bind_eq_ok,
        demand_eq_ok, hgateUpRead, hdownRead]
      refine ⟨⟨trivial, ?_⟩, trivial, fun code hcode => hdownSized.legal code hcode hchosen⟩
      intro code hcode
      rcases mem_append.1 hcode with hcode | hcode
      · by_cases hrelu2 : quantAbi = fp4Relu2ExpertAbiId
        · rw [if_pos hrelu2] at hgateSized
          rw [hgateSized] at hcode
          cases hcode
        · rw [if_neg hrelu2] at hgateSized
          exact hgateSized.legal code hcode hchosen
      · exact hupSized.legal code hcode hchosen

omit hshape in
theorem Written.read_in_pack (hbytes : slice bytes entry.offset entry.storedBytes = record) :
    ∀ start count, start + count ≤ (recordBody packAlignment gate up down).length →
      slice bytes (entry.offset + start) count = slice record start count := by
  intro start count hle
  have hstored : entry.storedBytes = (recordBody packAlignment gate up down).length := by
    rw [h.entry_eq]
    rfl
  rw [← hbytes, slice_slice (by omega)]

omit hshape in
theorem Written.body_in_pack (hbytes : slice bytes entry.offset entry.storedBytes = record) :
    ∀ start count, headerBytes ≤ start → start + count ≤
      (recordBody packAlignment gate up down).length → slice bytes (entry.offset + start) count =
        slice (recordBody packAlignment gate up down) start count := by
  intro start count hstart hle
  obtain ⟨-, -, -, -, hrest⟩ := h.ends
  rw [h.read_in_pack hbytes start count hle, hrest start count hstart]

theorem Written.validated (hbytes : slice bytes entry.offset entry.storedBytes = record)
    (hgate : ValidScales quantAbi gate) (hup : ValidScales quantAbi up)
    (hdown : ValidScales quantAbi down) :
    validateExpertRecord sha256 bytes entry packAlignment = .ok () ∧
    recordHeader bytes entry =
      writtenHeader sha256 expert hidden intermediate packAlignment quantAbi gate up down := by
  obtain ⟨hheader, hfirst, hpadding, hlength, hrest⟩ := h.ends
  have hpack := h.read_in_pack hbytes
  have hge := @recordBody_ge packAlignment gate up down
  have hstart : slice bytes entry.offset headerBytes = slice record 0 headerBytes :=
    hpack 0 headerBytes (by omega)
  have hbody := h.body_in_pack hbytes
  have hidentity := h.checkIdentity_ok
  have hcounts : checkByteCounts (writtenHeader sha256 expert hidden intermediate packAlignment
      quantAbi gate up down) = .ok () := h.checkByteCounts_ok hshape rfl rfl rfl rfl
  have hsections := h.checkSections_ok hshape
  have hscales : checkScales bytes entry.offset (writtenHeader sha256 expert hidden intermediate
      packAlignment quantAbi gate up down) = .ok () :=
    h.checkScales_ok hshape rfl rfl rfl rfl hbody hgate hup hdown
  refine ⟨?_, by rw [recordHeader, hstart, hheader]⟩
  have haligned := alignUp_mod ((sectionTable quantAbi hidden intermediate expert.gated gate up
    down).downScales.offset + down.scales.length) packAlignment
  rw [← recordBody_length h] at haligned
  have hentry := h.entry_eq
  have hstored : entry.storedBytes = (recordBody packAlignment gate up down).length := by
    rw [hentry]
    rfl
  have hoffset : entry.offset = start := by
    rw [hentry]
    rfl
  have hfields : entry.fields.decodedBytes = (if expert.gated then 3 else 2) * hidden *
      intermediate * 4 ∧ entry.fields.sections = (sectionTable quantAbi hidden intermediate
        expert.gated gate up down) ∧ entry.fields.payloadSha256 =
          sha256 ((recordBody packAlignment gate up down).drop headerBytes) := by
    rw [hentry]
    exact ⟨rfl, rfl, rfl⟩
  rw [validateExpertRecord]
  simp only [check_bind_eq_ok, demand_eq_ok, hstart, hheader]
  refine ⟨hstored ▸ hge, ⟨hoffset ▸ h.aligned, hstored ▸ haligned⟩, hfirst, hpadding, hidentity,
    hcounts, hfields.2.1, hsections, hscales, ?_, ?_⟩
  · have hrelu2 : (writtenHeader sha256 expert hidden intermediate packAlignment quantAbi gate up
        down).relu2 = !expert.gated := by
      rw [h.gated_of_native, decide_not, Bool.not_not]
      rfl
    rw [hfields.1, hrelu2]
    cases expert.gated <;> rfl
  · have hpayload : slice bytes (entry.offset + headerBytes)
        ((recordBody packAlignment gate up down).length - headerBytes) =
          (recordBody packAlignment gate up down).drop headerBytes := by
      rw [hbody headerBytes _ le_rfl (by omega), slice, take_of_length_le]
      rw [length_drop]
    have hdigest : payloadHash sha256 bytes (entry.offset + headerBytes)
        ((recordBody packAlignment gate up down).length - headerBytes) =
          .ok (sha256 ((recordBody packAlignment gate up down).drop headerBytes)) := by
      rw [payloadHash, hpayload, if_pos (length_drop ..)]
    rw [checkPayload]
    simp only [except_bind_eq_ok, demand_eq_ok]
    exact ⟨_, hdigest, (), demand_eq_ok.2 rfl, hfields.2.2.symm⟩

theorem Written.nonnegative (hbytes : slice bytes entry.offset entry.storedBytes = record)
    (hnative : quantAbi = nvfp4QuantAbiId) (hgate : ValidScales quantAbi gate)
    (hup : ValidScales quantAbi up) (hdown : ValidScales quantAbi down) :
    NonnegativeScales bytes entry.offset
      (writtenHeader sha256 expert hidden intermediate packAlignment quantAbi gate up down) := by
  have hblocks := h.nvfp4Blocks_read hshape hnative (h.body_in_pack hbytes) hgate hup hdown
  intro block hblock code hcode
  obtain ⟨encoded, hread, hlength, hvalid⟩ := hblocks block hblock
  have hcodes := (hvalid.2 rfl).1
  rw [hlength, Nat.add_sub_cancel] at hcodes
  have hfirst : slice bytes (entry.offset + block.1) (hidden * intermediate / nvfp4QuantGroupSize) =
      encoded.scales.take (hidden * intermediate / nvfp4QuantGroupSize) := by
    rw [← hread, hlength, slice, slice, take_take, Nat.min_eq_left (Nat.le_add_right ..)]
  refine (hcodes code ?_).1
  rw [← hfirst]
  exact hcode

end

end QuantumLlm.ExpertPack
