import QuantumLlm.ExpertPack.Blocks
import QuantumLlm.ExpertPack.Writer

/-!
# Dense records

The size of a dense record by its tensor, the record that the writer appends, and the
compiler's own check of it. The floating-point operations are parameters, also those that
choose the codes of a calibrated matrix.
-/

namespace QuantumLlm.ExpertPack

open QuantumLlm.Runtime (Sha256Digest finitePositive)

-- A check of every byte goes over the bytes, not over all values a byte can have.
local instance (priority := 2000) everyDenseByteDecidable (holds : UInt8 → Prop)
    [DecidablePred holds] (bytes : Bytes) : Decidable (∀ byte ∈ bytes, holds byte) :=
  List.decidableBAll holds bytes

deriving instance DecidableEq for Tensor

def mxfp6QuantAbiId : Nat := 6

/-- `b"EPDENS01"`. -/
def denseMagic : Bytes := [0x45, 0x50, 0x44, 0x45, 0x4e, 0x53, 0x30, 0x31]

/-- The size of `DENSE_HEADER_STRUCT`. -/
def denseHeaderSize : Nat := 148

/-- A tensor with its name. -/
structure DenseTensor where
  name : String
  tensor : Tensor
  deriving DecidableEq

namespace DenseTensor

variable (info : DenseTensor)

def shape : List Nat := info.tensor.shape
def dtype : Dtype := info.tensor.dtype
def nbytes : Nat := info.tensor.raw.length

end DenseTensor

structure NativeNvfp4Dense where
  weight : DenseTensor
  scale : DenseTensor
  weightGlobalScale : DenseTensor
  inputGlobalScale : DenseTensor
  logicalShape : Nat × Nat

/-- The codes that the sums over the samples choose for one matrix. -/
structure CalibratedCodes where
  /-- Whether a block of a row returns to its covering scale. -/
  covering : Nat → Nat → Bool
  /-- The level index of a column of a row, from the one that is nearest. -/
  payload : Nat → Nat → Fin 8 → Fin 8

structure ActivationCalibration where
  contains : String → Bool
  selectsPayloadCodes : String → Bool
  /-- `load` of a name, its columns and its padded columns. -/
  load : String → Nat → Nat → Except String (Option CalibratedCodes)

/-- The further operations of the dense encoders. -/
structure DenseArithmetic (α : Type) extends Arithmetic α where
  /-- `floor(log2(maximum)) - 4` of a block; none when the maximum is zero. -/
  mxfp6Exponent : List α → Option Int
  /-- `_mxfp6_nearest_index` of a value's quotient by the scale of a code. -/
  mxfp6NearestIndex : Nat → α → Fin 32
  /-- The bits of a value as binary32. -/
  float32 : α → UInt32

structure DenseOptions where
  alignment : Nat := packAlignment
  preserveFloat32 : Bool := false
  quantAbi : Nat := quantAbiId
  preserveInt64 : Bool := false
  preserveBfloat16 : Bool := false
  nativeNvfp4 : Option NativeNvfp4Dense := none
  optimizeFp4Mse : Bool := false
  activationCalibration : Option ActivationCalibration := none

/-- `dense_is_quantized`. -/
def denseIsQuantized (info : DenseTensor) (preserveFloat32 : Bool) : Bool :=
  info.shape.length = 2 && !preserveFloat32

/-- `quantized` of `dense_record_size` and of `write_dense_record`. -/
def DenseOptions.quantized (options : DenseOptions) (info : DenseTensor) : Bool :=
  !options.preserveInt64 && !options.preserveBfloat16 && !options.preserveFloat32 &&
    (options.quantAbi ∈ [fp4QuantAbiId, mxfp6QuantAbiId] ||
      denseIsQuantized info options.preserveFloat32)

def elementsOf (shape : List Nat) : Nat := shape.prod

/-- Rows and columns of a tensor as the block encoders take it. -/
def matrixRows (shape : List Nat) : Nat := shape.dropLast.prod

def paddedColumns (shape : List Nat) : Nat := alignUp (shape.getLastD 0) fp4QuantGroupSize

def rawBytes (options : DenseOptions) : Nat :=
  if options.preserveInt64 then 8 else if options.preserveBfloat16 then 2 else 4

/-- The data and the scales of a tensor that is not native. -/
def denseSectionSizes (options : DenseOptions) (info : DenseTensor) : Except String (Nat × Nat) :=
  if options.quantized info then
    if options.quantAbi = fp4QuantAbiId then do
      demand (info.shape ≠ []) "tuple index out of range"
      .ok (matrixRows info.shape * paddedColumns info.shape / 2,
        matrixRows info.shape * paddedColumns info.shape / fp4QuantGroupSize)
    else if options.quantAbi = mxfp6QuantAbiId then do
      demand (info.shape ≠ []) "tuple index out of range"
      .ok (matrixRows info.shape * paddedColumns info.shape * 3 / 4,
        matrixRows info.shape * paddedColumns info.shape / mxfp6QuantGroupSize)
    else if options.quantAbi = quantAbiId then
      .ok (elementsOf info.shape, info.shape.headD 0 * 4)
    else .error "unsupported dense quant ABI"
  else .ok (elementsOf info.shape * rawBytes options, 0)

/-- `dense_record_size`. -/
def denseRecordSize (info : DenseTensor) (options : DenseOptions) : Except String Nat :=
  match options.nativeNvfp4 with
  | some nvfp4 => do
    let elements := nvfp4.logicalShape.1 * nvfp4.logicalShape.2
    let scaleBytes := elements / nvfp4QuantGroupSize + nvfp4.weightGlobalScale.nbytes +
      nvfp4.inputGlobalScale.nbytes
    checkAlignment options.alignment
    .ok (alignUp (alignUp (headerBytes + elements / 2) sectionAlignment + scaleBytes)
      options.alignment)
  | none => do
    demand (options.preserveInt64 = true → info.dtype = .i64)
      "raw I64 storage requires an I64 source"
    demand (options.preserveBfloat16 = true → info.dtype = .bf16)
      "raw BF16 storage requires a BF16 source"
    demand (¬ (options.preserveInt64 = true ∧ options.preserveBfloat16 = true))
      "dense tensor cannot preserve two raw encodings"
    let sizes ← denseSectionSizes options info
    let cursor := headerBytes + sizes.1
    let cursor := if sizes.2 ≠ 0 then alignUp cursor sectionAlignment + sizes.2 else cursor
    checkAlignment options.alignment
    .ok (alignUp cursor options.alignment)

section

variable {α : Type} (arithmetic : DenseArithmetic α)

/-- A block of a calibrated row. -/
def calibratedBlock (codes : CalibratedCodes) (selectPayloadCodes : Bool) (row block : Nat)
    (chunk : List α) : Encoded :=
  let minimum := fp4MinErrorBlockCode arithmetic.toArithmetic chunk
  let code := if codes.covering row block then fp4BlockCode arithmetic.toArithmetic chunk
    else minimum
  ⟨fp4PackNibbles (chunk.mapIdx fun position value =>
      let nearest := arithmetic.nearestIndex code value
      (if selectPayloadCodes then
        codes.payload row (block * fp4QuantGroupSize + position) nearest else nearest,
        arithmetic.negative code value)), [UInt8.ofNat code]⟩

def calibratedRow (codes : CalibratedCodes) (selectPayloadCodes : Bool) (columns blocks row : Nat)
    (values : List α) : Except String Encoded := do
  demand (values.length = columns) "short decoded rows"
  demand (values.all arithmetic.finite) "non-finite weight"
  let padded := values ++ List.replicate (blocks * fp4QuantGroupSize - columns) arithmetic.zero
  encodeRows (fun block => .ok (calibratedBlock arithmetic codes selectPayloadCodes row block
    ((padded.drop (block * fp4QuantGroupSize)).take fp4QuantGroupSize))) blocks

/-- `write_fp4_block32_rows`, with the calibration where there is one. -/
def writeFp4Dense (options : DenseOptions) (info : DenseTensor) : Except String Encoded :=
  match options.activationCalibration with
  | none => writeFp4Block32Rows arithmetic.toArithmetic options.optimizeFp4Mse info.tensor
  | some calibration => do
    demand (info.shape ≠ [] ∧ info.shape.length ≤ 5) "FP4 dense storage accepts rank 1-5 tensors"
    demand (info.dtype ∈ supportedFloatDtypes) "FP4 dense storage accepts BF16/F16/F32"
    demand options.optimizeFp4Mse "activation-aware FP4 selection requires the MSE-v2 baseline"
    let columns := info.shape.getLastD 0
    let loaded ← calibration.load info.name columns (paddedColumns info.shape)
    match loaded with
    | none => writeFp4Block32Rows arithmetic.toArithmetic true info.tensor
    | some codes =>
      let blocks := (columns + fp4QuantGroupSize - 1) / fp4QuantGroupSize
      let rowBytes := columns * info.dtype.bytes
      encodeRows (fun row => calibratedRow arithmetic codes
        (calibration.selectsPayloadCodes info.name) columns blocks row
        (decodeFloatRow arithmetic.toArithmetic info.dtype
          (slice info.tensor.raw (row * rowBytes) rowBytes))) (matrixRows info.shape)

/-- `_mxfp6_block_code`. -/
def mxfp6DenseCode (chunk : List α) : Nat :=
  match arithmetic.mxfp6Exponent chunk with
  | none => 127
  | some exponent => (min (fp4Ue8m0MaxCode : Int) (max fp4Ue8m0MinCode (exponent + 127))).toNat

def mxfp6DenseBlock (chunk : List α) : Except String Encoded := do
  let scaleCode := mxfp6DenseCode arithmetic chunk
  let payload ← mxfp6PackCodes (chunk.map fun value =>
    (arithmetic.mxfp6NearestIndex scaleCode value).val |||
      if arithmetic.negative scaleCode value then 0x20 else 0)
  .ok ⟨payload, [UInt8.ofNat scaleCode]⟩

def mxfp6DenseRow (columns blocks : Nat) (values : List α) : Except String Encoded := do
  demand (values.length = columns) "short decoded row"
  demand (values.all arithmetic.finite) "non-finite weight"
  let padded := values ++ List.replicate (blocks * mxfp6QuantGroupSize - columns) arithmetic.zero
  encodeRows (fun block => mxfp6DenseBlock arithmetic
    ((padded.drop (block * mxfp6QuantGroupSize)).take mxfp6QuantGroupSize)) blocks

/-- `write_mxfp6_e3m2_block32_rows`. -/
def writeMxfp6Dense (info : DenseTensor) : Except String Encoded := do
  demand (info.shape ≠ [] ∧ info.shape.length ≤ 5) "MXFP6 dense storage accepts rank 1-5 tensors"
  demand (info.dtype ∈ supportedFloatDtypes) "MXFP6 dense storage accepts BF16/F16/F32"
  let columns := info.shape.getLastD 0
  let blocks := (columns + mxfp6QuantGroupSize - 1) / mxfp6QuantGroupSize
  let rowBytes := columns * info.dtype.bytes
  encodeRows (fun row => mxfp6DenseRow arithmetic columns blocks
    (decodeFloatRow arithmetic.toArithmetic info.dtype
      (slice info.tensor.raw (row * rowBytes) rowBytes))) (matrixRows info.shape)

def float32Bytes (values : List α) : Bytes :=
  values.flatMap fun value => leBytes 4 (arithmetic.float32 value).toNat

/-- `write_float32`. -/
def writeFloat32 (info : DenseTensor) : Except String Bytes :=
  if 2 < info.shape.length then do
    demand (info.shape.length ≤ 4 ∧ info.dtype ∈ supportedFloatDtypes)
      "float32 storage accepts rank <=4 BF16/F16/F32"
    .ok (float32Bytes arithmetic (decodeFloatRow arithmetic.toArithmetic info.dtype
      info.tensor.raw))
  else do
    let geometry ← rowGeometry info.tensor
    let rowBytes := geometry.2 * info.dtype.bytes
    .ok ((List.range geometry.1).flatMap fun row =>
      float32Bytes arithmetic (decodeFloatRow arithmetic.toArithmetic info.dtype
        (slice info.tensor.raw (row * rowBytes) rowBytes)))

/-- A native matrix: its payload, its scale codes and its two global scales. -/
def copyNativeDense (options : DenseOptions) (info : DenseTensor) (nvfp4 : NativeNvfp4Dense) :
    Except String Encoded := do
  demand (options.quantAbi = nvfp4QuantAbiId ∧ nvfp4.weight = info)
    "invalid native NVFP4 declaration"
  let rows := nvfp4.logicalShape.1
  let columns := nvfp4.logicalShape.2
  demand (columns % nvfp4QuantGroupSize = 0 ∧ info.dtype = .u8 ∧ info.shape = [rows, columns / 2] ∧
      nvfp4.scale.dtype = .f8E4m3 ∧ nvfp4.scale.shape = [rows, columns / nvfp4QuantGroupSize] ∧
      nvfp4.weightGlobalScale.dtype = .f32 ∧ nvfp4.weightGlobalScale.shape = [1] ∧
      nvfp4.inputGlobalScale.dtype ∈ [.f32, .bf16] ∧ nvfp4.inputGlobalScale.shape = [1])
    "native NVFP4 source geometry is invalid"
  .ok ⟨info.tensor.raw, nvfp4.scale.tensor.raw ++ nvfp4.weightGlobalScale.tensor.raw ++
    nvfp4.inputGlobalScale.tensor.raw⟩

/-- The data of a tensor and its scales. -/
def encodeDense (options : DenseOptions) (info : DenseTensor) : Except String Encoded :=
  match options.nativeNvfp4 with
  | some nvfp4 => copyNativeDense options info nvfp4
  | none =>
    if options.quantized info then
      if options.quantAbi = fp4QuantAbiId then writeFp4Dense arithmetic options info
      else if options.quantAbi = mxfp6QuantAbiId then writeMxfp6Dense arithmetic info
      else if options.quantAbi = quantAbiId then writeInt8Rows arithmetic.toArithmetic info.tensor
      else .error "unsupported dense quant ABI"
    else if options.preserveInt64 ∨ options.preserveBfloat16 then .ok ⟨info.tensor.raw, []⟩
    else do
      let payload ← writeFloat32 arithmetic info
      .ok ⟨payload, []⟩

end

structure DenseHeader where
  magic : Bytes
  version : Nat
  headerBytes : Nat
  flags : Nat
  quantAbi : Nat
  rank : Nat
  dim0 : Nat
  dim1 : Nat
  dim2 : Nat
  dim3 : Nat
  dim4 : Nat
  recordBytes : Nat
  data : Section
  scales : Section
  nameHash : Bytes
  payloadHash : Bytes

namespace DenseHeader

variable (header : DenseHeader)

/-- The numbers of `DENSE_HEADER_STRUCT` with their widths. -/
def fields : List (Nat × Nat) :=
  [(2, header.version), (2, header.headerBytes), (4, header.flags), (4, header.quantAbi),
    (4, header.rank), (4, header.dim0), (4, header.dim1), (4, header.dim2), (4, header.dim3),
    (4, header.dim4), (8, header.recordBytes), (8, header.data.offset), (8, header.data.bytes),
    (8, header.scales.offset), (8, header.scales.bytes)]

/-- `DENSE_HEADER_STRUCT.pack`; it refuses a number that its format does not hold. -/
def pack : Except String Bytes :=
  if ∀ field ∈ header.fields, field.2 < 256 ^ field.1 then
    .ok (header.magic ++ ((header.fields.flatMap fun field => leBytes field.1 field.2) ++
      (header.nameHash ++ header.payloadHash)))
  else .error "format requires a number in range"

def dimensions : List Nat :=
  [header.dim0, header.dim1, header.dim2, header.dim3, header.dim4].take header.rank

end DenseHeader

/-- `DENSE_HEADER_STRUCT.unpack`. -/
def unpackDenseHeader (raw : Bytes) : DenseHeader where
  magic := slice raw 0 8
  version := leValue (slice raw 8 2)
  headerBytes := leValue (slice raw 10 2)
  flags := leValue (slice raw 12 4)
  quantAbi := leValue (slice raw 16 4)
  rank := leValue (slice raw 20 4)
  dim0 := leValue (slice raw 24 4)
  dim1 := leValue (slice raw 28 4)
  dim2 := leValue (slice raw 32 4)
  dim3 := leValue (slice raw 36 4)
  dim4 := leValue (slice raw 40 4)
  recordBytes := leValue (slice raw 44 8)
  data := unpackSection raw 52
  scales := unpackSection raw 68
  nameHash := slice raw 84 32
  payloadHash := slice raw 116 32

/-! ## The record -/

inductive StoredDtype
  | f32 | i64 | bf16 | fp4E2m1 | mxfp6E3m2 | i8
  deriving DecidableEq

structure DenseRecordEntry where
  name : String
  pack : String
  offset : Nat
  storedBytes : Nat
  sourceBytes : Nat
  decodedBytes : Nat
  sourceDtype : Dtype
  sourceShape : List Nat
  storedDtype : StoredDtype
  layout : String
  quantAbi : Nat
  payloadSha256 : Sha256Digest
  data : Section
  scales : Section
  sourceTensors : Option (List (String × String)) := none
  fp4ScalePolicy : Option String := none
  fp4PayloadPolicy : Option String := none

def scalePolicy : String := "activation-aware-complete-output-residual-v1"

def payloadPolicy : String :=
  "activation-aware-adjacent-code-top64-complete-output-residual-v1"

/-- What a header and an entry say of the stored values. -/
structure Storage where
  flags : Nat
  quantAbi : Nat
  dtype : StoredDtype
  layout : String

namespace DenseOptions

variable (options : DenseOptions) (info : DenseTensor)

def storage : Storage :=
  if options.preserveInt64 then ⟨flagRowMajor, 0, .i64, "row-major-i64-le"⟩
  else if options.preserveBfloat16 then ⟨flagRowMajor, 0, .bf16, "row-major-bfloat16-le"⟩
  else if options.nativeNvfp4.isSome then
    ⟨flagRowMajor ||| flagSymmetric, nvfp4QuantAbiId, .fp4E2m1,
      "row-major-nvfp4-e2m1-e4m3fn-block16-w4a4"⟩
  else if options.quantized info then
    if options.quantAbi = fp4QuantAbiId then
      ⟨flagRowMajor ||| (flagSymmetric ||| flagPerRowScales), options.quantAbi, .fp4E2m1,
        "row-major-fp4-e2m1-ue8m0-block32-padded"⟩
    else if options.quantAbi = mxfp6QuantAbiId then
      ⟨flagRowMajor ||| (flagSymmetric ||| flagPerRowScales), options.quantAbi, .mxfp6E3m2,
        "row-major-mxfp6-e3m2-ue8m0-block32-padded"⟩
    else ⟨flagRowMajor ||| (flagSymmetric ||| flagPerRowScales), options.quantAbi, .i8,
      "output-major-row-contiguous-int8"⟩
  else ⟨flagRowMajor, 0, .f32, "row-major-f32"⟩

def logicalShape : List Nat :=
  match options.nativeNvfp4 with
  | some nvfp4 => [nvfp4.logicalShape.1, nvfp4.logicalShape.2]
  | none => info.shape

/-- The bytes of the source tensors. -/
def sourceBytes : Nat :=
  match options.nativeNvfp4 with
  | some nvfp4 => info.nbytes + nvfp4.scale.nbytes + nvfp4.weightGlobalScale.nbytes +
      nvfp4.inputGlobalScale.nbytes
  | none => info.nbytes

def sourceTensors : Option (List (String × String)) :=
  options.nativeNvfp4.map fun nvfp4 =>
    [("scale", nvfp4.scale.name), ("weight_global_scale", nvfp4.weightGlobalScale.name),
      ("input_global_scale", nvfp4.inputGlobalScale.name), ("weight", info.name)]

/-- Whether the calibration of an FP4 profile has the tensor. -/
def calibrated : Bool :=
  options.quantAbi = fp4QuantAbiId &&
    options.activationCalibration.any fun calibration => calibration.contains info.name

def selectsPayloadCodes : Bool :=
  options.activationCalibration.any fun calibration => calibration.selectsPayloadCodes info.name

end DenseOptions

/-- `_shape5`, with the check of the rank. -/
def shape5 (shape : List Nat) : Except String (List Nat) := do
  demand (shape.length ≤ 5) "tensor rank exceeds dense header capacity"
  .ok (shape ++ List.replicate (5 - shape.length) 0)

def nameBytes (name : String) : Bytes := name.toUTF8.data.toList

section

variable {α : Type} (arithmetic : DenseArithmetic α)

/-- `write_dense_record`: the bytes of the record, and its entry. -/
def writeDenseRecord (sha256 : Bytes → Sha256Digest) (info : DenseTensor) (packName : String)
    (options : DenseOptions) (start : Nat) : Except String (Bytes × DenseRecordEntry) := do
  demand (start % options.alignment = 0) "dense record start is not pack-aligned"
  demand (options.preserveInt64 = true → options.preserveFloat32 = false ∧
      options.preserveBfloat16 = false ∧ options.nativeNvfp4.isNone ∧ info.dtype = .i64)
    "invalid raw I64 storage declaration"
  demand (options.preserveBfloat16 = true → options.preserveFloat32 = false ∧
      options.nativeNvfp4.isNone ∧ info.dtype = .bf16)
    "invalid raw BF16 storage declaration"
  let encoded ← encodeDense arithmetic options info
  let writer : RecordWriter := {}
  let writer := writer.put encoded.payload
  let dataBytes := if options.nativeNvfp4.isNone && options.quantized info &&
      options.quantAbi = quantAbiId then
    info.nbytes / (if info.dtype ∈ [.f16, .bf16] then 2 else 4) else encoded.payload.length
  let scaleOffset := if encoded.scales ≠ [] then alignUp writer.written.length sectionAlignment
    else 0
  let writer ← (if encoded.scales ≠ [] then writer.padTo scaleOffset else .ok writer)
  let writer := writer.put encoded.scales
  checkAlignment options.alignment
  let recordBytes := alignUp writer.written.length options.alignment
  let writer ← writer.padTo recordBytes
  let payloadHash := sha256 writer.hashed
  let storage := options.storage info
  let shape := options.logicalShape info
  let dimensions ← shape5 shape
  let data : Section := ⟨headerBytes, dataBytes⟩
  let scales : Section := ⟨scaleOffset, encoded.scales.length⟩
  let header : DenseHeader :=
    { magic := denseMagic
      version := formatVersion
      headerBytes := headerBytes
      flags := storage.flags
      quantAbi := storage.quantAbi
      rank := shape.length
      dim0 := dimensions.getD 0 0
      dim1 := dimensions.getD 1 0
      dim2 := dimensions.getD 2 0
      dim3 := dimensions.getD 3 0
      dim4 := dimensions.getD 4 0
      recordBytes := recordBytes
      data := data
      scales := scales
      nameHash := (sha256 (nameBytes info.name)).bytes
      payloadHash := payloadHash.bytes }
  let raw ← header.pack
  let written := raw ++ List.replicate (headerBytes - raw.length) 0 ++
    writer.written.drop headerBytes
  .ok (written,
    { name := info.name
      pack := packName
      offset := start
      storedBytes := recordBytes
      sourceBytes := options.sourceBytes info
      decodedBytes := elementsOf shape * rawBytes options
      sourceDtype := info.dtype
      sourceShape := shape
      storedDtype := storage.dtype
      layout := storage.layout
      quantAbi := storage.quantAbi
      payloadSha256 := payloadHash
      data := data
      scales := scales
      sourceTensors := options.sourceTensors info
      fp4ScalePolicy := if options.calibrated info then some scalePolicy else none
      fp4PayloadPolicy := if options.calibrated info && options.selectsPayloadCodes info then
        some payloadPolicy else none })

end

/-! ## The check of a record -/

/-- `_validate_positive_scalar`; a BF16 is the upper half of a binary32. -/
def validateGlobalScale (pack : Bytes) (absoluteOffset : Nat) (wide : Bool) (label : String) :
    Check := do
  let raw := slice pack absoluteOffset (if wide then 4 else 2)
  demand (raw.length = if wide then 4 else 2) s!"short {label} global scale"
  demand (finitePositive (if wide then UInt32.ofNat (leValue raw)
    else UInt32.ofNat (leValue raw * 2 ^ 16))) s!"invalid {label} global scale"

def checkDensePolicies (entry : DenseRecordEntry) : Check := do
  demand (entry.fp4ScalePolicy ∈ [none, some scalePolicy]) "unknown dense FP4 scale policy"
  demand (entry.fp4PayloadPolicy ∈ [none, some payloadPolicy]) "unknown dense FP4 payload policy"

def checkDenseIdentity (sha256 : Bytes → Sha256Digest) (header : DenseHeader)
    (entry : DenseRecordEntry) : Check := do
  demand (entry.fp4ScalePolicy = none ∨ header.quantAbi = fp4QuantAbiId)
    "activation-aware scale policy requires dense FP4"
  demand (entry.fp4PayloadPolicy = none ∨
      (header.quantAbi = fp4QuantAbiId ∧ entry.fp4ScalePolicy = some scalePolicy))
    "activation-aware payload policy requires calibrated dense FP4"
  demand (header.magic = denseMagic ∧ header.version = formatVersion) "unknown dense record ABI"
  demand (header.headerBytes = headerBytes) "invalid dense header fields"
  demand (header.recordBytes = entry.storedBytes) "dense record/manifest size mismatch"
  demand (header.flags &&& flagRowMajor ≠ 0) "dense record is not row-major"
  demand (1 ≤ header.rank ∧ header.rank ≤ 5) "invalid dense rank"
  demand (header.rank < 5 → header.dim4 = 0) "invalid dense rank padding"
  demand (header.dimensions = entry.sourceShape) "dense shape mismatch"
  demand ((sha256 (nameBytes entry.name)).bytes = header.nameHash) "dense name hash mismatch"
  demand (entry.data = header.data) "dense data section mismatch"
  demand (entry.scales = header.scales) "dense scale section mismatch"
  demand (headerBytes ≤ header.data.offset ∧
      header.data.offset + header.data.bytes ≤ header.recordBytes) "bad dense data span"

def blockFlags : Nat := flagSymmetric ||| flagPerRowScales

def checkInt8Dense (pack : Bytes) (offset : Nat) (header : DenseHeader) : Check := do
  demand (header.flags &&& blockFlags = blockFlags) "INT8 dense flags are incomplete"
  demand (header.rank = 2) "INT8 dense storage requires a matrix"
  demand (header.scales.offset % sectionAlignment = 0) "unaligned dense scales"
  demand (header.scales.bytes = header.dimensions.headD 0 * 4) "dense scale count mismatch"
  demand (header.data.bytes = elementsOf header.dimensions) "INT8 dense data byte count mismatch"
  validateScales pack (offset + header.scales.offset) header.scales.bytes "dense"

def checkFp4Dense (pack : Bytes) (offset : Nat) (header : DenseHeader) : Check := do
  demand (header.flags &&& blockFlags = blockFlags) "FP4 dense flags are incomplete"
  let elements := matrixRows header.dimensions * paddedColumns header.dimensions
  demand (header.scales.offset % sectionAlignment = 0) "unaligned dense scales"
  demand (header.data.bytes = elements / 2) "FP4 dense data byte count mismatch"
  demand (header.scales.bytes = elements / fp4QuantGroupSize) "FP4 dense scale count mismatch"
  validateUe8m0Scales pack (offset + header.scales.offset) header.scales.bytes "dense"

def checkMxfp6Dense (pack : Bytes) (offset : Nat) (header : DenseHeader) : Check := do
  demand (header.flags &&& blockFlags = blockFlags) "MXFP6 dense flags are incomplete"
  let elements := matrixRows header.dimensions * paddedColumns header.dimensions
  demand (header.scales.offset % sectionAlignment = 0) "unaligned MXFP6 dense scales"
  demand (header.data.bytes = elements * 3 / 4) "MXFP6 dense data byte count mismatch"
  demand (header.scales.bytes = elements / mxfp6QuantGroupSize) "MXFP6 dense scale count mismatch"
  validateUe8m0Scales pack (offset + header.scales.offset) header.scales.bytes "MXFP6 dense"

def nvfp4Roles : List String := ["weight", "scale", "weight_global_scale", "input_global_scale"]

/-- Whether a map has exactly the roles of a native matrix. -/
def hasNvfp4Roles (sourceTensors : List (String × String)) : Bool :=
  nvfp4Roles.all (fun role => role ∈ sourceTensors.map (·.1)) &&
    (sourceTensors.map (·.1)).all (fun role => role ∈ nvfp4Roles)

def checkNvfp4Dense (pack : Bytes) (offset : Nat) (header : DenseHeader)
    (entry : DenseRecordEntry) : Check := do
  demand (header.flags &&& flagSymmetric ≠ 0) "NVFP4 dense flags are incomplete"
  demand (header.rank = 2) "NVFP4 dense storage requires a matrix"
  let rows := header.dimensions.getD 0 0
  let columns := header.dimensions.getD 1 0
  demand (columns % nvfp4QuantGroupSize = 0) "NVFP4 dense columns are not block-aligned"
  let localBytes := rows * columns / nvfp4QuantGroupSize
  demand (entry.sourceTensors.any hasNvfp4Roles) "NVFP4 dense source map is invalid"
  demand (header.data.bytes = rows * columns / 2) "NVFP4 dense data byte count mismatch"
  demand (header.scales.offset % sectionAlignment = 0) "unaligned NVFP4 dense scales"
  demand (header.scales.bytes ∈ [localBytes + 6, localBytes + 8])
    "NVFP4 dense scale byte count mismatch"
  validateE4m3fnScaleBytes pack (offset + header.scales.offset) localBytes "dense"
  validateGlobalScale pack (offset + header.scales.offset + localBytes) true "weight"
  validateGlobalScale pack (offset + header.scales.offset + localBytes + 4)
    (decide (header.scales.bytes = localBytes + 8)) "input"

def checkRawDense (header : DenseHeader) (entry : DenseRecordEntry) : Check := do
  demand (header.quantAbi = 0 ∧ header.scales.offset = 0 ∧ header.scales.bytes = 0)
    "unknown dense quant ABI"
  demand (entry.storedDtype ∈ [.f32, .i64, .bf16]) "unknown raw dense dtype"
  demand (header.data.bytes = elementsOf header.dimensions *
      (if entry.storedDtype = .i64 then 8 else if entry.storedDtype = .bf16 then 2 else 4))
    "raw dense data byte count mismatch"

def checkDenseSections (pack : Bytes) (offset : Nat) (header : DenseHeader)
    (entry : DenseRecordEntry) : Check :=
  if header.quantAbi = quantAbiId then checkInt8Dense pack offset header
  else if header.quantAbi = fp4QuantAbiId then checkFp4Dense pack offset header
  else if header.quantAbi = mxfp6QuantAbiId then checkMxfp6Dense pack offset header
  else if header.quantAbi = nvfp4QuantAbiId then checkNvfp4Dense pack offset header entry
  else checkRawDense header entry

def checkDenseBytes (header : DenseHeader) (entry : DenseRecordEntry) : Check := do
  demand (entry.sourceBytes = if header.quantAbi = nvfp4QuantAbiId then
      header.data.bytes + header.scales.bytes
    else elementsOf header.dimensions * entry.sourceDtype.bytes) "dense source byte mismatch"
  demand (entry.decodedBytes = elementsOf header.dimensions *
      (if entry.storedDtype = .i64 then 8 else if entry.storedDtype = .bf16 then 2 else 4))
    "dense decoded byte mismatch"

/-- `validate_dense_record`. -/
def validateDenseRecord (sha256 : Bytes → Sha256Digest) (pack : Bytes)
    (entry : DenseRecordEntry) (alignment : Nat) : Check := do
  checkDensePolicies entry
  demand (headerBytes ≤ entry.storedBytes) "invalid dense size"
  demand (entry.offset % alignment = 0 ∧ entry.storedBytes % alignment = 0)
    "unaligned dense record"
  let raw := slice pack entry.offset headerBytes
  demand (raw.length = headerBytes) "short dense header"
  demand (∀ value ∈ raw.drop denseHeaderSize, value = 0) "dense header padding is nonzero"
  let header := unpackDenseHeader raw
  checkDenseIdentity sha256 header entry
  checkDenseSections pack entry.offset header entry
  checkDenseBytes header entry
  let actualHash ← payloadHash sha256 pack (entry.offset + headerBytes)
    (header.recordBytes - headerBytes)
  demand (actualHash.bytes = header.payloadHash) "dense payload/header checksum mismatch"
  demand (actualHash = entry.payloadSha256) "dense payload/manifest checksum mismatch"

end QuantumLlm.ExpertPack
