import QuantumLlm.ExpertPack.Quant
import QuantumLlm.Lib.Layout

/-!
# Writing an expert record

The size of a record by its geometry, and the record itself: the matrices as the
encoders leave them, each section at the next section boundary, and the header
that is written over the start at the end.
-/

namespace QuantumLlm.ExpertPack

open QuantumLlm.Runtime (Sha256Digest)

structure NativeNvfp4MatrixSource where
  weight : Tensor
  scale : Tensor
  weightGlobalScale : Tensor
  inputGlobalScale : Tensor
  logicalShape : Nat × Nat

structure ExpertSource where
  layer : Nat
  expert : Nat
  gate : Option Tensor
  up : Tensor
  down : Tensor
  nvfp4Gate : Option NativeNvfp4MatrixSource := none
  nvfp4Up : Option NativeNvfp4MatrixSource := none
  nvfp4Down : Option NativeNvfp4MatrixSource := none

/-- The check of `align_up`. -/
def checkAlignment (alignment : Nat) : Check :=
  demand (0 < alignment ∧ alignment &&& (alignment - 1) = 0)
    "alignment must be a positive power of two"

/-- `_check_fp4_geometry`. -/
def checkFp4Geometry (hidden intermediate : Nat) : Check :=
  demand (hidden % fp4QuantGroupSize = 0 ∧ intermediate % fp4QuantGroupSize = 0)
    "FP4 block-32 requires hidden/intermediate multiples of 32"

/-- The cursor behind four sections of these sizes, at the record's end. -/
def sizeOfSections (alignment gateUpQ gateUpScales downQ downScales : Nat) : Except String Nat := do
  let cursor := headerBytes + gateUpQ
  let cursor := alignUp cursor sectionAlignment + gateUpScales
  let cursor := alignUp cursor sectionAlignment + downQ
  let cursor := alignUp cursor sectionAlignment + downScales
  checkAlignment alignment
  .ok (alignUp cursor alignment)

/-- `expert_record_size`. -/
def expertRecordSize (hidden intermediate alignment quantAbi : Nat) (gated : Bool) :
    Except String Nat :=
  if quantAbi = nvfp4QuantAbiId then do
    demand gated "native NVFP4 expert ABI requires SwiGLU"
    checkFp4Geometry hidden intermediate
    let elements := hidden * intermediate
    sizeOfSections alignment elements (2 * (elements / nvfp4QuantGroupSize + 8)) (elements / 2)
      (elements / nvfp4QuantGroupSize + 8)
  else if quantAbi ∈ [fp4QuantAbiId, fp4Relu2ExpertAbiId] then do
    demand (decide (quantAbi = fp4Relu2ExpertAbiId) ≠ gated)
      "expert record ABI disagrees with expert mathematics"
    checkFp4Geometry hidden intermediate
    sizeOfSections alignment ((if gated then 2 else 1) * intermediate * hidden / 2)
      ((if gated then 2 else 1) * intermediate * hidden / fp4QuantGroupSize)
      (hidden * intermediate / 2) (hidden * intermediate / fp4QuantGroupSize)
  else if quantAbi ≠ quantAbiId then .error "unsupported expert quant ABI"
  else sizeOfSections alignment (2 * intermediate * hidden) (2 * intermediate * 4)
    (hidden * intermediate) (hidden * 4)

/-- What stands behind the start of the record, and what went into the digest. -/
structure RecordWriter where
  written : Bytes := List.replicate headerBytes 0
  hashed : Bytes := []

namespace RecordWriter

/-- `write_all` followed by the digest's update. -/
def put (writer : RecordWriter) (bytes : Bytes) : RecordWriter :=
  ⟨writer.written ++ bytes, writer.hashed ++ bytes⟩

/-- `_pad_to`, from the record's start. -/
def padTo (writer : RecordWriter) (target : Nat) : Except String RecordWriter :=
  if target < writer.written.length then .error "writer passed target offset"
  else .ok (writer.put (List.replicate (target - writer.written.length) 0))

end RecordWriter

/-- The number that `<i` writes. -/
def unsigned32 (value : Int) : Nat := (value % 2 ^ 32).toNat

namespace ExpertHeader

variable (header : ExpertHeader)

/-- The numbers of `EXPERT_HEADER_STRUCT` with their widths. -/
def fields : List (Nat × Nat) :=
  [(2, header.version), (2, header.headerBytes), (4, header.flags), (4, header.quantAbi),
    (4, unsigned32 header.layer), (4, unsigned32 header.expert), (4, header.hidden),
    (4, header.intermediate), (4, header.fusedRows), (4, header.reserved), (8, header.recordBytes),
    (8, header.sections.gateUpQ.offset), (8, header.sections.gateUpQ.bytes),
    (8, header.sections.gateUpScales.offset), (8, header.sections.gateUpScales.bytes),
    (8, header.sections.downQ.offset), (8, header.sections.downQ.bytes),
    (8, header.sections.downScales.offset), (8, header.sections.downScales.bytes)]

/-- `struct` refuses a number that its format does not hold. -/
def Packable : Prop :=
  (∀ field ∈ header.fields, field.2 < 256 ^ field.1) ∧
    (-2 ^ 31 ≤ header.layer ∧ header.layer < 2 ^ 31) ∧
    (-2 ^ 31 ≤ header.expert ∧ header.expert < 2 ^ 31)

instance : Decidable header.Packable := by
  unfold Packable
  infer_instance

/-- `EXPERT_HEADER_STRUCT.pack`. -/
def pack : Except String Bytes :=
  if header.Packable then
    .ok (header.magic ++ ((header.fields.flatMap fun field => leBytes field.1 field.2) ++
      header.payloadHash))
  else .error "format requires a number in range"

end ExpertHeader

section

variable {α : Type} (arithmetic : Arithmetic α)

/-- `encode` of the writer. -/
def encodeMatrix (quantAbi : Nat) (optimizeFp4Mse : Bool) (tensor : Tensor) :
    Except String Encoded :=
  if quantAbi ∈ [fp4QuantAbiId, fp4Relu2ExpertAbiId] then
    writeFp4Block32Rows arithmetic optimizeFp4Mse tensor
  else writeInt8Rows arithmetic tensor

/-- `copy_native`: the payload and its three sidecars. -/
def copyNative : Option NativeNvfp4MatrixSource → Except String Encoded
  | none => .error "native NVFP4 expert sidecar is absent"
  | some matrix => do
    let rows := matrix.logicalShape.1
    let columns := matrix.logicalShape.2
    demand (columns % nvfp4QuantGroupSize = 0 ∧ matrix.weight.dtype = .u8 ∧
        matrix.weight.shape = [rows, columns / 2] ∧ matrix.scale.dtype = .f8E4m3 ∧
        matrix.scale.shape = [rows, columns / nvfp4QuantGroupSize] ∧
        matrix.weightGlobalScale.dtype = .f32 ∧ matrix.weightGlobalScale.shape = [1] ∧
        matrix.inputGlobalScale.dtype = .f32 ∧ matrix.inputGlobalScale.shape = [1])
      "native NVFP4 expert geometry is invalid"
    .ok ⟨matrix.weight.raw,
      matrix.scale.raw ++ matrix.weightGlobalScale.raw ++ matrix.inputGlobalScale.raw⟩

namespace ExpertSource

variable (expert : ExpertSource) (quantAbi : Nat) (optimizeFp4Mse : Bool)

/-- The gate as it is written; nothing where the expert has none. -/
def writeGate : Except String Encoded :=
  if quantAbi = nvfp4QuantAbiId then copyNative expert.nvfp4Gate
  else match expert.gate with
    | none => .ok ⟨[], []⟩
    | some gate => encodeMatrix arithmetic quantAbi optimizeFp4Mse gate

def writeUp : Except String Encoded :=
  if quantAbi = nvfp4QuantAbiId then copyNative expert.nvfp4Up
  else encodeMatrix arithmetic quantAbi optimizeFp4Mse expert.up

def writeDown : Except String Encoded :=
  if quantAbi = nvfp4QuantAbiId then copyNative expert.nvfp4Down
  else encodeMatrix arithmetic quantAbi optimizeFp4Mse expert.down

def gated : Bool := expert.gate.isSome

/-- The fields of the header, in record order. -/
def header (hidden intermediate recordBytes : Nat) (sections : ExpertSectionIndex)
    (payloadHash : Sha256Digest) : ExpertHeader where
  magic := expertMagic
  version := formatVersion
  headerBytes := headerBytes
  flags := flagRowMajor ||| flagSymmetric |||
    (if quantAbi = nvfp4QuantAbiId then 0 else flagPerRowScales) |||
    (if expert.gated then flagGateUpFused else 0)
  quantAbi := quantAbi
  layer := expert.layer
  expert := expert.expert
  hidden := hidden
  intermediate := intermediate
  fusedRows := (if expert.gated then 2 else 1) * intermediate
  reserved := 0
  recordBytes := recordBytes
  sections := sections
  payloadHash := payloadHash.bytes

def entry (pack quantAbi hidden intermediate start recordBytes : Nat)
    (sections : ExpertSectionIndex) (payloadHash : Sha256Digest) : ExpertEntry ExpertFields where
  layer := expert.layer
  expert := expert.expert
  pack := pack
  offset := start
  storedBytes := recordBytes
  fields :=
    { decodedBytes := (if expert.gated then 3 else 2) * hidden * intermediate * 4
      quantAbi := quantAbi
      payloadSha256 := payloadHash
      sections := sections }

end ExpertSource

/-- `write_expert_record`: the bytes of the record, and its entry. -/
def writeExpertRecord (sha256 : Bytes → Sha256Digest) (expert : ExpertSource)
    (pack hidden intermediate alignment quantAbi : Nat) (optimizeFp4Mse : Bool) (start : Nat) :
    Except String (Bytes × ExpertEntry ExpertFields) := do
  let fp4 := quantAbi ∈ [fp4QuantAbiId, fp4Relu2ExpertAbiId, nvfp4QuantAbiId]
  let gated := expert.gated
  demand (decide (quantAbi = fp4Relu2ExpertAbiId) ≠ gated)
    "expert record ABI disagrees with expert mathematics"
  demand (fp4 ∨ quantAbi = quantAbiId) "unsupported expert quant ABI"
  (if fp4 then checkFp4Geometry hidden intermediate else .ok ())
  demand (start % alignment = 0) "expert record start is not pack-aligned"
  let writer : RecordWriter := {}
  let gate ← expert.writeGate arithmetic quantAbi optimizeFp4Mse
  let writer := writer.put gate.payload
  let up ← expert.writeUp arithmetic quantAbi optimizeFp4Mse
  let writer := writer.put up.payload
  let gateUpQBytes := if fp4 then (if gated then 2 else 1) * intermediate * hidden / 2
    else 2 * intermediate * hidden
  let gateUpScaleOffset := alignUp writer.written.length sectionAlignment
  let writer ← writer.padTo gateUpScaleOffset
  let writer := writer.put (gate.scales ++ up.scales)
  let downQOffset := alignUp writer.written.length sectionAlignment
  let writer ← writer.padTo downQOffset
  let down ← expert.writeDown arithmetic quantAbi optimizeFp4Mse
  let writer := writer.put down.payload
  let downQBytes := if fp4 then hidden * intermediate / 2 else hidden * intermediate
  let downScaleOffset := alignUp writer.written.length sectionAlignment
  let writer ← writer.padTo downScaleOffset
  let writer := writer.put down.scales
  checkAlignment alignment
  let recordBytes := alignUp writer.written.length alignment
  let writer ← writer.padTo recordBytes
  let payloadHash := sha256 writer.hashed
  let sections : ExpertSectionIndex :=
    { gateUpQ := ⟨headerBytes, gateUpQBytes⟩
      gateUpScales := ⟨gateUpScaleOffset, (gate.scales ++ up.scales).length⟩
      downQ := ⟨downQOffset, downQBytes⟩
      downScales := ⟨downScaleOffset, down.scales.length⟩ }
  let raw ← (expert.header quantAbi hidden intermediate recordBytes sections payloadHash).pack
  let written := raw ++ List.replicate (headerBytes - raw.length) 0 ++
    writer.written.drop headerBytes
  .ok (written, expert.entry pack quantAbi hidden intermediate start recordBytes sections payloadHash)

end

end QuantumLlm.ExpertPack
