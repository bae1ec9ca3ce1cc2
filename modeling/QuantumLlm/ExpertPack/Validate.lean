import QuantumLlm.ExpertPack.Container
import QuantumLlm.Lib.Wire
import QuantumLlm.Runtime.Record.Validation

/-!
# Validating an expert record

The compiler's own check of one expert record in a pack against its entry in the
index. All arithmetic is in natural numbers, as in the source. SHA-256 is a
parameter.
-/

namespace QuantumLlm.ExpertPack

open QuantumLlm.Runtime (Sha256Digest finitePositive)

-- A check of every byte goes over the bytes, not over all values a byte can have.
local instance (priority := 2000) everyByteDecidable (holds : UInt8 → Prop) [DecidablePred holds]
    (bytes : Bytes) : Decidable (∀ byte ∈ bytes, holds byte) :=
  List.decidableBAll holds bytes

def packAlignment : Nat := 4096
def sectionAlignment : Nat := 256
def headerBytes : Nat := 256
def formatVersion : Nat := 1
def quantAbiId : Nat := 1
def fp4QuantAbiId : Nat := 3
def fp4Relu2ExpertAbiId : Nat := 4
def nvfp4QuantAbiId : Nat := 5
def nvfp4QuantGroupSize : Nat := 16
def fp4Ue8m0MinCode : Nat := 1
def fp4Ue8m0MaxCode : Nat := 254

def flagRowMajor : Nat := 1
def flagGateUpFused : Nat := 2
def flagSymmetric : Nat := 4
def flagPerRowScales : Nat := 8

/-- `b"EPEXPR01"`. -/
def expertMagic : Bytes := [0x45, 0x50, 0x45, 0x58, 0x50, 0x52, 0x30, 0x31]

/-- The size of `EXPERT_HEADER_STRUCT`. -/
def expertHeaderSize : Nat := 148

/-- A section's offset in its record, and its bytes. -/
structure Section where
  offset : Nat
  bytes : Nat
  deriving DecidableEq

structure ExpertSectionIndex where
  gateUpQ : Section
  gateUpScales : Section
  downQ : Section
  downScales : Section
  deriving DecidableEq

/-- The fields of an index entry that the check reads, besides key and place. -/
structure ExpertFields where
  decodedBytes : Nat
  quantAbi : Nat
  payloadSha256 : Sha256Digest
  sections : ExpertSectionIndex
  deriving DecidableEq

/-! ## The header -/

/-- The bytes from an offset on; fewer at the end of the file. -/
def slice (bytes : Bytes) (offset count : Nat) : Bytes := (bytes.drop offset).take count

structure ExpertHeader where
  magic : Bytes
  version : Nat
  headerBytes : Nat
  flags : Nat
  quantAbi : Nat
  layer : Int
  expert : Int
  hidden : Nat
  intermediate : Nat
  fusedRows : Nat
  reserved : Nat
  recordBytes : Nat
  sections : ExpertSectionIndex
  payloadHash : Bytes

/-- `<i` of `struct`. -/
def signed32 (value : Nat) : Int := if value < 2 ^ 31 then value else value - 2 ^ 32

def unpackSection (raw : Bytes) (offset : Nat) : Section where
  offset := leValue (slice raw offset 8)
  bytes := leValue (slice raw (offset + 8) 8)

/-- `EXPERT_HEADER_STRUCT.unpack`. -/
def unpackExpertHeader (raw : Bytes) : ExpertHeader where
  magic := slice raw 0 8
  version := leValue (slice raw 8 2)
  headerBytes := leValue (slice raw 10 2)
  flags := leValue (slice raw 12 4)
  quantAbi := leValue (slice raw 16 4)
  layer := signed32 (leValue (slice raw 20 4))
  expert := signed32 (leValue (slice raw 24 4))
  hidden := leValue (slice raw 28 4)
  intermediate := leValue (slice raw 32 4)
  fusedRows := leValue (slice raw 36 4)
  reserved := leValue (slice raw 40 4)
  recordBytes := leValue (slice raw 44 8)
  sections :=
    { gateUpQ := unpackSection raw 52
      gateUpScales := unpackSection raw 68
      downQ := unpackSection raw 84
      downScales := unpackSection raw 100 }
  payloadHash := slice raw 116 32

namespace ExpertHeader

variable (header : ExpertHeader)

def relu2 : Bool := header.quantAbi = fp4Relu2ExpertAbiId

def nativeNvfp4 : Bool := header.quantAbi = nvfp4QuantAbiId

def fp4 : Bool := header.quantAbi ∈ [fp4QuantAbiId, fp4Relu2ExpertAbiId, nvfp4QuantAbiId]

def requiredFlags : Nat :=
  flagRowMajor ||| flagSymmetric ||| (if header.nativeNvfp4 then 0 else flagPerRowScales) |||
    (if header.relu2 then 0 else flagGateUpFused)

def firstRows : Nat := (if header.relu2 then 1 else 2) * header.intermediate

end ExpertHeader

/-! ## The checks -/

abbrev Check := Except String Unit

/-- `_require`. -/
def demand (condition : Prop) [Decidable condition] (message : String) : Check :=
  if condition then .ok () else .error message

@[simp] theorem demand_eq_ok {condition : Prop} [Decidable condition] {message : String} :
    demand condition message = .ok () ↔ condition := by
  rw [demand]
  split
  next h => simp [h]
  next h => simp [h]

@[simp] theorem check_bind_eq_ok {check : Check} {next : Unit → Check} :
    (check >>= next) = .ok () ↔ check = .ok () ∧ next () = .ok () := by
  cases check with
  | error message => simp [bind, Except.bind]
  | ok value => simp [bind, Except.bind]

/-- The binary32 values of a run of bytes, by their bits. -/
def floatBits : Bytes → List UInt32
  | b0 :: b1 :: b2 :: b3 :: rest => UInt32.ofNat (leValue [b0, b1, b2, b3]) :: floatBits rest
  | _ => []

def validateScales (pack : Bytes) (absoluteOffset byteCount : Nat) (label : String) : Check := do
  demand (byteCount % 4 = 0) s!"{label} scale bytes are not FP32-aligned"
  let raw := slice pack absoluteOffset byteCount
  demand (raw.length = byteCount) s!"short {label} scale read"
  demand ((floatBits raw).all finitePositive) s!"invalid {label} scale"

def validateUe8m0Scales (pack : Bytes) (absoluteOffset byteCount : Nat) (label : String) :
    Check := do
  let raw := slice pack absoluteOffset byteCount
  demand (raw.length = byteCount) s!"short {label} scale read"
  demand (∀ code ∈ raw, fp4Ue8m0MinCode ≤ code.toNat ∧ code.toNat ≤ fp4Ue8m0MaxCode)
    s!"invalid {label} UE8M0 scale code"

def validateE4m3fnScaleBytes (pack : Bytes) (absoluteOffset byteCount : Nat) (label : String) :
    Check := do
  let raw := slice pack absoluteOffset byteCount
  demand (raw.length = byteCount) s!"short {label} E4M3FN scale read"
  demand (∀ code ∈ raw, code &&& 0x7f ≠ 0x7f) s!"non-finite {label} E4M3FN scale"

/-- `_validate_positive_scalar` of an F32. -/
def validatePositiveScalar (pack : Bytes) (absoluteOffset : Nat) (label : String) : Check := do
  let raw := slice pack absoluteOffset 4
  demand (raw.length = 4) s!"short {label} global scale"
  demand (finitePositive (UInt32.ofNat (leValue raw))) s!"invalid {label} global scale"

def checkIdentity (header : ExpertHeader) (entry : ExpertEntry ExpertFields) : Check := do
  demand (header.magic = expertMagic ∧ header.version = formatVersion)
    "unknown expert record ABI"
  demand (header.headerBytes = headerBytes ∧ header.reserved = 0) "invalid expert header fields"
  demand (header.flags = header.requiredFlags) "unknown expert quant/layout ABI"
  demand (header.quantAbi ∈ [quantAbiId, fp4QuantAbiId, fp4Relu2ExpertAbiId, nvfp4QuantAbiId])
    "unknown expert quant/layout ABI"
  demand (header.layer = entry.layer ∧ header.expert = entry.expert) "expert identity mismatch"
  demand (header.recordBytes = entry.storedBytes) "expert record/manifest size mismatch"
  demand (header.fusedRows = header.firstRows) "expert first-section row count mismatch"

def checkByteCounts (header : ExpertHeader) : Check :=
  let hidden := header.hidden
  let intermediate := header.intermediate
  let sections := header.sections
  let matrixElements := hidden * intermediate
  if header.nativeNvfp4 then do
    demand (hidden % nvfp4QuantGroupSize = 0 ∧ intermediate % nvfp4QuantGroupSize = 0)
      "NVFP4 expert geometry is not block-aligned"
    demand (sections.gateUpQ.bytes = matrixElements) "NVFP4 gate+up byte count mismatch"
    demand (sections.gateUpScales.bytes = 2 * (matrixElements / nvfp4QuantGroupSize + 8))
      "NVFP4 gate+up scale byte count mismatch"
    demand (sections.downQ.bytes = matrixElements / 2) "NVFP4 down byte count mismatch"
    demand (sections.downScales.bytes = matrixElements / nvfp4QuantGroupSize + 8)
      "NVFP4 down scale byte count mismatch"
  else if header.fp4 then do
    demand (hidden % fp4QuantGroupSize = 0 ∧ intermediate % fp4QuantGroupSize = 0)
      "FP4 expert geometry is not block-aligned"
    demand (sections.gateUpQ.bytes = header.firstRows * hidden / 2)
      "expert first-section byte count mismatch"
    demand (sections.gateUpScales.bytes = header.firstRows * hidden / fp4QuantGroupSize)
      "expert first-section scale count mismatch"
    demand (sections.downQ.bytes = hidden * intermediate / 2) "down byte count mismatch"
    demand (sections.downScales.bytes = hidden * intermediate / fp4QuantGroupSize)
      "down scale count mismatch"
  else do
    demand (sections.gateUpQ.bytes = 2 * intermediate * hidden) "gate+up byte count mismatch"
    demand (sections.gateUpScales.bytes = 2 * intermediate * 4) "gate+up scale count mismatch"
    demand (sections.downQ.bytes = hidden * intermediate) "down byte count mismatch"
    demand (sections.downScales.bytes = hidden * 4) "down scale count mismatch"

/-- The loop over the sections, which carries `previous_end`. -/
def checkSections (recordBytes : Nat) : Nat → List (String × Section) → Check
  | _, [] => .ok ()
  | previousEnd, (name, part) :: rest => do
    demand (part.offset % sectionAlignment = 0) s!"unaligned expert section {name}"
    demand (previousEnd ≤ part.offset) s!"overlapping expert section {name}"
    demand (part.offset + part.bytes ≤ recordBytes) s!"expert section exceeds record: {name}"
    checkSections recordBytes (part.offset + part.bytes) rest

def namedSections (sections : ExpertSectionIndex) : List (String × Section) :=
  [("gate_up_q", sections.gateUpQ), ("gate_up_scales", sections.gateUpScales),
    ("down_q", sections.downQ), ("down_scales", sections.downScales)]

/-- The scale codes of one NVFP4 matrix, and its two divisors behind them. -/
def checkNvfp4Block (pack : Bytes) (offset matrixLocal : Nat) (block : Nat × String) : Check := do
  validateE4m3fnScaleBytes pack (offset + block.1) matrixLocal block.2
  validatePositiveScalar pack (offset + block.1 + matrixLocal) (block.2 ++ " weight")
  validatePositiveScalar pack (offset + block.1 + matrixLocal + 4) (block.2 ++ " input")

def checkNvfp4Blocks (pack : Bytes) (offset matrixLocal : Nat) : List (Nat × String) → Check
  | [] => .ok ()
  | block :: rest => do
    checkNvfp4Block pack offset matrixLocal block
    checkNvfp4Blocks pack offset matrixLocal rest

def nvfp4Blocks (sections : ExpertSectionIndex) (matrixLocal : Nat) : List (Nat × String) :=
  [(sections.gateUpScales.offset, "gate"),
    (sections.gateUpScales.offset + matrixLocal + 8, "up"), (sections.downScales.offset, "down")]

def checkScales (pack : Bytes) (offset : Nat) (header : ExpertHeader) : Check :=
  let gateUp := header.sections.gateUpScales
  let down := header.sections.downScales
  if header.nativeNvfp4 then
    let matrixLocal := header.hidden * header.intermediate / nvfp4QuantGroupSize
    checkNvfp4Blocks pack offset matrixLocal (nvfp4Blocks header.sections matrixLocal)
  else if header.fp4 then do
    validateUe8m0Scales pack (offset + gateUp.offset) gateUp.bytes
      (if header.relu2 then "up" else "gate+up")
    validateUe8m0Scales pack (offset + down.offset) down.bytes "down"
  else do
    validateScales pack (offset + gateUp.offset) gateUp.bytes "gate+up"
    validateScales pack (offset + down.offset) down.bytes "down"

/-- `_payload_hash`: the hash of a run of the file that is there in full. -/
def payloadHash (sha256 : Bytes → Sha256Digest) (pack : Bytes) (start size : Nat) :
    Except String Sha256Digest :=
  let payload := slice pack start size
  if payload.length = size then .ok (sha256 payload) else .error "short record read"

def checkPayload (sha256 : Bytes → Sha256Digest) (pack : Bytes) (header : ExpertHeader)
    (entry : ExpertEntry ExpertFields) : Check := do
  let actualHash ← payloadHash sha256 pack (entry.offset + headerBytes)
    (header.recordBytes - headerBytes)
  demand (actualHash.bytes = header.payloadHash) "expert payload/header checksum mismatch"
  demand (actualHash = entry.fields.payloadSha256) "expert payload/manifest checksum mismatch"

/-- `validate_expert_record`. -/
def validateExpertRecord (sha256 : Bytes → Sha256Digest) (pack : Bytes)
    (entry : ExpertEntry ExpertFields) (alignment : Nat) : Check := do
  demand (headerBytes ≤ entry.storedBytes) "invalid expert size"
  demand (entry.offset % alignment = 0 ∧ entry.storedBytes % alignment = 0)
    "unaligned expert record"
  let raw := slice pack entry.offset headerBytes
  demand (raw.length = headerBytes) "short expert header"
  demand (∀ value ∈ raw.drop expertHeaderSize, value = 0) "expert header padding is nonzero"
  let header := unpackExpertHeader raw
  checkIdentity header entry
  checkByteCounts header
  demand (entry.fields.sections = header.sections) "expert section index mismatch"
  checkSections header.recordBytes headerBytes (namedSections header.sections)
  checkScales pack entry.offset header
  demand (entry.fields.decodedBytes =
      (if header.relu2 then 2 else 3) * header.hidden * header.intermediate * 4)
    "expert decoded byte mismatch"
  checkPayload sha256 pack header entry

end QuantumLlm.ExpertPack
