import QuantumLlm.ExpertPack.Written

/-!
# Expert records are read back

What the writer has written is what the compiler's validation accepts and what
the runtime admits, and every matrix and its scales stand where the runtime's
slices are.
-/

namespace QuantumLlm.ExpertPack

open QuantumLlm.Runtime (Sha256Digest ByteSpan ExpertKey PayloadRecord)

variable {α : Type} {arithmetic : Arithmetic α} {sha256 : Bytes → Sha256Digest}
  {expert : ExpertSource} {pack hidden intermediate quantAbi start : Nat} {optimizeFp4Mse : Bool}
  {record : Bytes} {entry : ExpertEntry ExpertFields} {gate up down : Encoded}

/-- The runtime's slice table, by what stands in the record there. -/
structure SplitContents (span : ByteSpan) (split : Runtime.SplitExpertSections)
    (gated : Bool) (gate up down : Encoded) : Prop where
  w1Weight : span.subspan split.w1WeightOffset.toNat split.w1WeightBytes.toNat =
    if gated then gate.payload else up.payload
  w1Scale : span.subspan split.w1ScaleOffset.toNat split.w1ScaleBytes.toNat =
    if gated then gate.scales else up.scales
  w3Weight : span.subspan split.w3WeightOffset.toNat split.w3WeightBytes.toNat =
    if gated then up.payload else []
  w3Scale : span.subspan split.w3ScaleOffset.toNat split.w3ScaleBytes.toNat =
    if gated then up.scales else []
  w2Weight : span.subspan split.w2WeightOffset.toNat split.w2WeightBytes.toNat = down.payload
  w2Scale : span.subspan split.w2ScaleOffset.toNat split.w2ScaleBytes.toNat = down.scales

/-- The same table in both widths of numbers. -/
structure SameTable (table : ExpertSectionIndex) (sections : Runtime.ExpertSections) : Prop where
  gateUpQ : SameSection table.gateUpQ sections.gateUpQOffset sections.gateUpQBytes
  gateUpScales : SameSection table.gateUpScales sections.gateUpScaleOffset
    sections.gateUpScaleBytes
  downQ : SameSection table.downQ sections.downQOffset sections.downQBytes
  downScales : SameSection table.downScales sections.downScaleOffset sections.downScaleBytes

/-- What the writer's readers make of its record. -/
structure ReadBack (sha256 : Bytes → Sha256Digest) (bytes record : Bytes)
    (entry : ExpertEntry ExpertFields) (span : ByteSpan) (key : ExpertKey)
    (expected : PayloadRecord) (hidden intermediate quantAbi : Nat) (gated : Bool)
    (gate up down : Encoded) (admitted : Runtime.ExpertAdmission) : Prop where
  size : expertRecordSize hidden intermediate packAlignment quantAbi gated = .ok record.length
  compiler : validateExpertRecord sha256 bytes entry packAlignment = .ok ()
  header : (recordHeader bytes entry).hidden = hidden ∧
    (recordHeader bytes entry).intermediate = intermediate ∧
    (recordHeader bytes entry).sections = entry.fields.sections
  runtime : Runtime.validateExpertRecord sha256 span key expected = .ok admitted.target
  admission : Runtime.validateExpertAdmission sha256 span key expected = .ok admitted
  geometry : admitted.target.hidden.toNat = hidden ∧ admitted.target.intermediate.toNat = intermediate
  table : SameTable entry.fields.sections admitted.target
  sections : Placed record entry.fields.sections gate up down
  split : quantAbi ≠ quantAbiId → SplitContents span admitted.compact gated gate up down
  unsplit : quantAbi = quantAbiId → admitted.compact = {}

variable {bytes : Bytes} {span : ByteSpan} {key : ExpertKey} {expected : PayloadRecord}

section

variable {table : ExpertSectionIndex} {sections : Runtime.ExpertSections}
  {matrixBytes matrixScales : UInt64}

theorem gatedSplit_contents (hplaced : Placed span.bytes table gate up down)
    (htable : SameTable table sections)
    (hweights : gate.payload.length = matrixBytes.toNat ∧ up.payload.length = matrixBytes.toNat ∧
      down.payload.length = matrixBytes.toNat)
    (hscales : gate.scales.length = matrixScales.toNat ∧ up.scales.length = matrixScales.toNat ∧
      down.scales.length = matrixScales.toNat)
    (hend : table.gateUpQ.offset + gate.payload.length ≤ span.bytes.length ∧
      table.gateUpScales.offset + gate.scales.length ≤ span.bytes.length) :
    SplitContents span (Runtime.gatedSplit sections matrixBytes matrixScales) true gate up down := by
  have hlt := span.length_lt
  have hread : ∀ offset count, span.subspan offset count = slice span.bytes offset count :=
    fun _ _ => rfl
  have hup : (sections.gateUpQOffset + matrixBytes).toNat =
      table.gateUpQ.offset + gate.payload.length := by
    rw [UInt64.toNat_add, htable.gateUpQ.1, ← hweights.1, Nat.mod_eq_of_lt (by omega)]
  have hupScales : (sections.gateUpScaleOffset + matrixScales).toNat =
      table.gateUpScales.offset + gate.scales.length := by
    rw [UInt64.toNat_add, htable.gateUpScales.1, ← hscales.1, Nat.mod_eq_of_lt (by omega)]
  refine ⟨?_, ?_, ?_, ?_, ?_, ?_⟩ <;> simp only [Runtime.gatedSplit, hread, if_true]
  · rw [htable.gateUpQ.1, ← hweights.1, hplaced.gatePayload]
  · rw [htable.gateUpScales.1, ← hscales.1, hplaced.gateScales]
  · rw [hup, ← hweights.2.1, hplaced.upPayload]
  · rw [hupScales, ← hscales.2.1, hplaced.upScales]
  · rw [htable.downQ.1, ← hweights.2.2, hplaced.downQ]
  · rw [htable.downScales.1, ← hscales.2.2, hplaced.downScales]

theorem ungatedSplit_contents (hplaced : Placed span.bytes table ⟨[], []⟩ up down)
    (htable : SameTable table sections)
    (hweights : up.payload.length = matrixBytes.toNat ∧ down.payload.length = matrixBytes.toNat)
    (hscales : up.scales.length = matrixScales.toNat ∧ down.scales.length = matrixScales.toNat) :
    SplitContents span (Runtime.ungatedSplit sections matrixBytes matrixScales) false ⟨[], []⟩ up
      down := by
  have hread : ∀ offset count, span.subspan offset count = slice span.bytes offset count :=
    fun _ _ => rfl
  refine ⟨?_, ?_, rfl, rfl, ?_, ?_⟩ <;>
    simp only [Runtime.ungatedSplit, hread, Bool.false_eq_true, if_false]
  · rw [htable.gateUpQ.1, ← hweights.1]
    exact hplaced.upPayload
  · rw [htable.gateUpScales.1, ← hscales.1]
    exact hplaced.upScales
  · rw [htable.downQ.1, ← hweights.2, hplaced.downQ]
  · rw [htable.downScales.1, ← hscales.2, hplaced.downScales]

variable (h : Written arithmetic sha256 expert pack hidden intermediate packAlignment quantAbi
  optimizeFp4Mse start record entry gate up down)
  (hshape : expert.Shaped quantAbi hidden intermediate)

include h

theorem Written.placed :
    Placed record (sectionTable quantAbi hidden intermediate expert.gated gate up down) gate up
      down := by
  obtain ⟨-, -, -, -, hrest⟩ := h.ends
  have hplaced := @recordBody_placed hidden intermediate packAlignment quantAbi gate up down
    expert.gated
  have hoffsets := @sectionTable_offsets hidden intermediate quantAbi gate up down expert.gated
  refine ⟨?_, ?_, ?_, ?_⟩
  · exact (hrest _ _ le_rfl).trans hplaced.gateUpQ
  · rw [hrest _ _ hoffsets.1, hplaced.gateUpScales]
  · rw [hrest _ _ hoffsets.2.1, hplaced.downQ]
  · rw [hrest _ _ hoffsets.2.2, hplaced.downScales]

include hshape

theorem Written.split_contents (hbytes : span.bytes = record)
    (htable : SameTable (sectionTable quantAbi hidden intermediate expert.gated gate up down) sections)
    (hhidden : sections.hidden.toNat = hidden)
    (hintermediate : sections.intermediate.toNat = intermediate)
    (hloaded : Loaded bytes entry span key expected) (hne : quantAbi ≠ quantAbiId) :
    SplitContents span (Runtime.splitSections key expected sections) expert.gated gate up down := by
  have hplaced := h.placed
  obtain ⟨hgateUpQ, -⟩ := h.table_bytes hshape
  obtain ⟨hgateSized, hupSized, hdownSized⟩ := h.sized hshape
  have hends := checkSections_le (h.checkSections_ok hshape)
  obtain ⟨-, -, -, hlength, -⟩ := h.ends
  have hgated := h.gated_of_native
  have hscaleBytes : (sectionTable quantAbi hidden intermediate expert.gated gate up
      down).gateUpScales.bytes = gate.scales.length + up.scales.length := List.length_append
  have habi : expected.recordAbi.toNat = quantAbi ∧ key.encodingAbi =
      if quantAbi = nvfp4QuantAbiId then Runtime.kExpertEncodingAbiNvfp4Block16W4A4
      else if quantAbi = quantAbiId then Runtime.kExpertEncodingAbiInt8PerRow
      else Runtime.kExpertEncodingAbiFp4Block32 := by
    have hquantAbi : entry.fields.quantAbi = quantAbi := by
      rw [h.entry_eq]
      rfl
    rw [hloaded.recordAbi, hloaded.encoding, hquantAbi]
    exact ⟨rfl, rfl⟩
  rw [← hlength, ← hbytes] at hends
  rw [List.length_append] at hgateUpQ
  simp only [namedSections, List.forall_mem_cons, hgateUpQ, hscaleBytes] at hends
  rw [← hbytes] at hplaced
  have hproduct : (sections.hidden.toUInt64 * sections.intermediate.toUInt64).toNat =
      hidden * intermediate := by
    have hlt : sections.hidden.toUInt64.toNat * sections.intermediate.toUInt64.toNat < 2 ^ 64 := by
      exact (Nat.mul_lt_mul_of_lt_of_lt sections.hidden.toNat_lt
        sections.intermediate.toNat_lt).trans_eq (by norm_num)
    rw [(multiply_of_lt hlt).2, UInt32.toNat_toUInt64, UInt32.toNat_toUInt64, hhidden, hintermediate]
  generalize hvalue : sections.hidden.toUInt64 * sections.intermediate.toUInt64 = product at hproduct
  have hlt := product.toNat_lt
  have hhalf : (product / 2).toNat = hidden * intermediate / 2 := by
    rw [UInt64.toNat_div, hproduct]
    rfl
  have hrecordAbi : expected.recordAbi = Runtime.kExpertRecordAbiFp4Relu2Block32 ↔
      quantAbi = fp4Relu2ExpertAbiId := by
    rw [← UInt32.toNat_inj, habi.1]
    rfl
  have hweights : payloadBytes quantAbi (hidden * intermediate) = (product / 2).toNat := by
    rw [payloadBytes, if_neg hne, hhalf]
  by_cases hnative : quantAbi = nvfp4QuantAbiId
  · have hrelu2 : quantAbi ≠ fp4Relu2ExpertAbiId := by
      rw [hnative]
      decide
    have hscales : ∀ rows, scaleBytes quantAbi rows (hidden * intermediate) =
        (product / 16 + 8).toNat := by
      intro rows
      have hconst : (16 : UInt64).toNat = 16 ∧ (8 : UInt64).toNat = 8 := ⟨rfl, rfl⟩
      rw [scaleBytes, if_neg hne, if_pos hnative, UInt64.toNat_add, UInt64.toNat_div, hproduct,
        hconst.1, hconst.2, Nat.mod_eq_of_lt (by omega), nvfp4QuantGroupSize]
    rw [if_neg hrelu2] at hgateSized
    rw [Runtime.splitSections_nvfp4 (by rw [habi.2, if_pos hnative]), hvalue,
      if_neg (fun hrecord => hrelu2 (hrecordAbi.1 hrecord)), hgated, decide_eq_true hrelu2]
    exact gatedSplit_contents hplaced htable
      ⟨hgateSized.payload.trans hweights, hupSized.payload.trans hweights,
        hdownSized.payload.trans hweights⟩
      ⟨hgateSized.scales.trans (hscales _), hupSized.scales.trans (hscales _),
        hdownSized.scales.trans (hscales _)⟩ ⟨by omega, by omega⟩
  · have hscales : ∀ rows, scaleBytes quantAbi rows (hidden * intermediate) =
        (product / 32).toNat := by
      intro rows
      have hconst : (32 : UInt64).toNat = 32 := rfl
      rw [scaleBytes, if_neg hne, if_neg hnative, UInt64.toNat_div, hproduct, hconst,
        fp4QuantGroupSize]
    rw [Runtime.splitSections_fp4 (by rw [habi.2, if_neg hnative, if_neg hne]), hvalue, hgated]
    by_cases hrelu2 : quantAbi = fp4Relu2ExpertAbiId
    · rw [if_pos hrelu2] at hgateSized
      rw [hgateSized] at hplaced htable ⊢
      rw [if_pos (hrecordAbi.2 hrelu2), decide_eq_false (not_not.2 hrelu2)]
      exact ungatedSplit_contents hplaced htable
        ⟨hupSized.payload.trans hweights, hdownSized.payload.trans hweights⟩
        ⟨hupSized.scales.trans (hscales _), hdownSized.scales.trans (hscales _)⟩
    · rw [if_neg hrelu2] at hgateSized
      rw [if_neg (fun hrecord => hrelu2 (hrecordAbi.1 hrecord)), decide_eq_true hrelu2]
      exact gatedSplit_contents hplaced htable
        ⟨hgateSized.payload.trans hweights, hupSized.payload.trans hweights,
          hdownSized.payload.trans hweights⟩
        ⟨hgateSized.scales.trans (hscales _), hupSized.scales.trans (hscales _),
          hdownSized.scales.trans (hscales _)⟩ ⟨by omega, by omega⟩

end

/-- The scales of every matrix that the writer has written. -/
def ExpertSource.ScalesValid (expert : ExpertSource) (arithmetic : Arithmetic α) (quantAbi : Nat)
    (optimizeFp4Mse : Bool) : Prop :=
  ∀ encoded, .ok encoded ∈ [expert.writeGate arithmetic quantAbi optimizeFp4Mse,
      expert.writeUp arithmetic quantAbi optimizeFp4Mse,
      expert.writeDown arithmetic quantAbi optimizeFp4Mse] →
    ValidScales quantAbi encoded

/-- Every record that the writer finishes with valid scales is read back. -/
theorem written_record_reads_back
    (hwrite : writeExpertRecord arithmetic sha256 expert pack hidden intermediate packAlignment
      quantAbi optimizeFp4Mse start = .ok (record, entry))
    (hshape : expert.Shaped quantAbi hidden intermediate)
    (hhidden : 1 ≤ hidden) (hintermediate : 1 ≤ intermediate)
    (hscales : expert.ScalesValid arithmetic quantAbi optimizeFp4Mse)
    (hbytes : slice bytes entry.offset entry.storedBytes = record)
    (hloaded : Loaded bytes entry span key expected) :
    ∃ gate up down admitted,
      expert.writeGate arithmetic quantAbi optimizeFp4Mse = .ok gate ∧
      expert.writeUp arithmetic quantAbi optimizeFp4Mse = .ok up ∧
      expert.writeDown arithmetic quantAbi optimizeFp4Mse = .ok down ∧
      ReadBack sha256 bytes record entry span key expected hidden intermediate quantAbi expert.gated
        gate up down admitted := by
  obtain ⟨gate, up, down, h⟩ := writeExpertRecord_written hwrite
  have hfields : entry.fields.quantAbi = quantAbi ∧ entry.fields.sections =
      sectionTable quantAbi hidden intermediate expert.gated gate up down := by
    rw [h.entry_eq]
    exact ⟨rfl, rfl⟩
  obtain ⟨-, -, -, hlength, -⟩ := h.ends
  have hgate : ValidScales quantAbi gate := hscales gate (by simp [h.writeGate])
  have hup : ValidScales quantAbi up := hscales up (by simp [h.writeUp])
  have hdown : ValidScales quantAbi down := hscales down (by simp [h.writeDown])
  obtain ⟨hvalidated, hheader⟩ := h.validated hshape hbytes hgate hup hdown
  have hspan : span.bytes = record := hloaded.bytes.trans hbytes
  have hread := (validateExpertRecord_checked hvalidated).sameHeader hloaded
  have haccepted := (runtime_accepts_iff hvalidated (by rw [hheader]; exact hhidden)
    (by rw [hheader]; exact hintermediate) hloaded).2
  have hruntime : Runtime.validateExpertRecord sha256 span key expected =
      .ok (Runtime.readSections span) := by
    refine haccepted ⟨by rw [hheader, hfields.1]; rfl, fun hnative => ?_⟩
    rw [hheader] at hnative ⊢
    exact h.nonnegative hshape hbytes (of_decide_eq_true hnative) hgate hup hdown
  rw [hheader] at hread
  have hadmission : Runtime.validateExpertAdmission sha256 span key expected =
      .ok ⟨Runtime.readSections span,
        Runtime.splitSections key expected (Runtime.readSections span)⟩ := by
    rw [Runtime.validateExpertAdmission, hruntime, if_pos]
    refine ⟨?_, hloaded.sourceAbi⟩
    rw [hloaded.encoding]
    split
    next => exact .inr (.inr rfl)
    next =>
      split
      next => exact .inl rfl
      next => exact .inr (.inl rfl)
  have htable : SameTable (sectionTable quantAbi hidden intermediate expert.gated gate up down)
      (Runtime.readSections span) :=
    ⟨hread.gateUpQ, hread.gateUpScales, hread.downQ, hread.downScales⟩
  refine ⟨gate, up, down, ⟨Runtime.readSections span,
    Runtime.splitSections key expected (Runtime.readSections span)⟩, h.writeGate, h.writeUp,
    h.writeDown, ?_⟩
  exact {
    size := by rw [hlength, h.size hshape]
    compiler := hvalidated
    header := by
      rw [hheader, hfields.2]
      exact ⟨rfl, rfl, rfl⟩
    runtime := hruntime
    admission := hadmission
    geometry := ⟨hread.hidden, hread.intermediate⟩
    table := hfields.2 ▸ htable
    sections := hfields.2 ▸ h.placed
    split := fun hne => h.split_contents hshape hspan htable hread.hidden hread.intermediate hloaded
      hne
    unsplit := by
      intro hint8
      have hkey : key.encodingAbi = Runtime.kExpertEncodingAbiInt8PerRow := by
        rw [hloaded.encoding, hfields.1, hint8]
        rfl
      rw [Runtime.splitSections, hkey, if_neg (by decide)] }

/-- Arithmetic that native records never use. -/
def zeroArithmetic : Arithmetic Unit where
  zero := ()
  decode _ _ := ()
  finite _ := true
  int8Scale _ := 0x3f800000
  int8Code _ _ := 0
  exponent _ := none
  lowerError _ _ _ := false
  nearestIndex _ _ := ⟨0, by decide⟩
  negative _ _ := false

/-- A 32 × 32 NVFP4 matrix of zeros, by its scale code. -/
def codeMatrix (code : UInt8) : NativeNvfp4MatrixSource where
  weight := ⟨.u8, [32, 16], List.replicate 512 0, List.length_replicate ..⟩
  scale := ⟨.f8E4m3, [32, 2], List.replicate 64 code, List.length_replicate ..⟩
  weightGlobalScale := ⟨.f32, [1], [0x00, 0x00, 0x80, 0x3f], rfl⟩
  inputGlobalScale := ⟨.f32, [1], [0x00, 0x00, 0x80, 0x3f], rfl⟩
  logicalShape := (32, 32)

def codeExpert (code : UInt8) : ExpertSource where
  layer := 0
  expert := 0
  gate := some (codeMatrix code).weight
  up := (codeMatrix code).weight
  down := (codeMatrix code).weight
  nvfp4Gate := some (codeMatrix code)
  nvfp4Up := some (codeMatrix code)
  nvfp4Down := some (codeMatrix code)

theorem codeExpert_shaped (code : UInt8) : (codeExpert code).Shaped nvfp4QuantAbiId 32 32 where
  gate hne := absurd rfl hne
  up hne := absurd rfl hne
  down hne := absurd rfl hne
  nvfp4Gate _ hmatrix := by cases hmatrix; rfl
  nvfp4Up _ hmatrix := by cases hmatrix; rfl
  nvfp4Down _ hmatrix := by cases hmatrix; rfl

/-- The bytes of a record that has been written. -/
def writtenBytes (result : Except String (Bytes × ExpertEntry ExpertFields)) : Bytes :=
  match result with
  | .ok written => written.1
  | .error _ => []

theorem eq_ok_of_entry {result : Except String (Bytes × ExpertEntry ExpertFields)}
    {entry : ExpertEntry ExpertFields} (h : result.map Prod.snd = .ok entry) :
    result = .ok (writtenBytes result, entry) := by
  cases result with
  | error message => cases h
  | ok written =>
    cases h
    rfl

def codePack (code : UInt8) : Bytes :=
  writtenBytes (writeExpertRecord zeroArithmetic (fun _ => Runtime.zeroDigest) (codeExpert code) 0
    32 32 packAlignment nvfp4QuantAbiId false 0)

def codeEntry : ExpertEntry ExpertFields where
  layer := 0
  expert := 0
  pack := 0
  offset := 0
  storedBytes := 4096
  fields :=
    { decodedBytes := 12288
      quantAbi := nvfp4QuantAbiId
      payloadSha256 := Runtime.zeroDigest
      sections := ⟨⟨256, 1024⟩, ⟨1280, 144⟩, ⟨1536, 512⟩, ⟨2048, 72⟩⟩ }

theorem codeExpert_entry : ∀ code ∈ [(0x38 : UInt8), 0x7f],
    (writeExpertRecord zeroArithmetic (fun _ => Runtime.zeroDigest) (codeExpert code) 0 32 32
      packAlignment nvfp4QuantAbiId false 0).map Prod.snd = .ok codeEntry ∧
      (codePack code).length = 4096 := by
  decide +kernel

/-- The writer copies the codes of a source tensor as they are, and validation refuses
the one that is not a number. -/
theorem nan_scales_refused :
    writeExpertRecord zeroArithmetic (fun _ => Runtime.zeroDigest) (codeExpert 0x7f) 0 32 32
      packAlignment nvfp4QuantAbiId false 0 = .ok (codePack 0x7f, codeEntry) ∧
    (codeExpert 0x7f).Shaped nvfp4QuantAbiId 32 32 ∧
    validateExpertRecord (fun _ => Runtime.zeroDigest) (codePack 0x7f) codeEntry packAlignment =
      .error "non-finite gate E4M3FN scale" :=
  ⟨eq_ok_of_entry (codeExpert_entry 0x7f (by decide)).1, codeExpert_shaped 0x7f, by decide +kernel⟩

theorem codePack_written : writeExpertRecord zeroArithmetic (fun _ => Runtime.zeroDigest)
    (codeExpert 0x38) 0 32 32 packAlignment nvfp4QuantAbiId false 0 =
      .ok (codePack 0x38, codeEntry) :=
  eq_ok_of_entry (codeExpert_entry 0x38 (by decide)).1

theorem codePack_length : (codePack 0x38).length = 4096 :=
  (codeExpert_entry 0x38 (by decide)).2

theorem codePack_slice : slice (codePack 0x38) codeEntry.offset codeEntry.storedBytes =
    codePack 0x38 :=
  List.take_of_length_le codePack_length.le

def codeSpan : ByteSpan where
  bytes := codePack 0x38
  length_lt := by rw [codePack_length]; norm_num

def codeManifest : PayloadRecord :=
  { storedBytes := 4096
    decodedBytes := 12288
    recordAbi := Runtime.kExpertRecordAbiNvfp4Block16W4A4 }

theorem codePack_loaded : Loaded (codePack 0x38) codeEntry codeSpan nvfp4Key codeManifest where
  bytes := by rw [codePack_slice, codeSpan]
  layer := rfl
  expert := rfl
  recordOffset := rfl
  storedBytes := rfl
  decodedBytes := rfl
  recordAbi := rfl
  supported := by decide
  sourceAbi := rfl
  headerBytes := rfl
  alignment := rfl
  payloadSha256 := by decide
  encoding := rfl

theorem codeExpert_scalesValid :
    (codeExpert 0x38).ScalesValid zeroArithmetic nvfp4QuantAbiId false := by
  have hcopy : copyNative (some (codeMatrix 0x38)) = .ok ⟨List.replicate 512 0,
      List.replicate 64 0x38 ++ [0x00, 0x00, 0x80, 0x3f] ++ [0x00, 0x00, 0x80, 0x3f]⟩ := rfl
  intro encoded hencoded
  have hmember : .ok encoded = copyNative (some (codeMatrix 0x38)) := by
    simpa [ExpertSource.writeGate, ExpertSource.writeUp, ExpertSource.writeDown, codeExpert] using
      hencoded
  obtain rfl := Except.ok.inj (hmember.trans hcopy)
  exact ⟨fun habi => absurd habi (by decide), fun _ => by decide +kernel⟩

theorem codePack_reads_back : ∃ gate up down admitted,
    (codeExpert 0x38).writeGate zeroArithmetic nvfp4QuantAbiId false = .ok gate ∧
    (codeExpert 0x38).writeUp zeroArithmetic nvfp4QuantAbiId false = .ok up ∧
    (codeExpert 0x38).writeDown zeroArithmetic nvfp4QuantAbiId false = .ok down ∧
    ReadBack (fun _ => Runtime.zeroDigest) (codePack 0x38) (codePack 0x38) codeEntry codeSpan
      nvfp4Key codeManifest 32 32 nvfp4QuantAbiId (codeExpert 0x38).gated gate up down admitted :=
  written_record_reads_back codePack_written (codeExpert_shaped 0x38) (by decide) (by decide)
    codeExpert_scalesValid codePack_slice codePack_loaded

end QuantumLlm.ExpertPack
