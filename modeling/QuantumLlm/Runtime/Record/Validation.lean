import QuantumLlm.Runtime.Storage

/-!
# Expert Pack v1 record validation

The admission gate every expert record passes before a compute kernel indexes
it: the manifest geometry, the 256-byte header, the four sections, the scale
codes and the payload digest. All arithmetic is fixed width, as in the source.
SHA-256 is a parameter.
-/

namespace QuantumLlm.Runtime

def kExpertPackVersion : UInt16 := 1
def kExpertHeaderBytes : UInt32 := 256
def kExpertPackAlignment : UInt32 := 4096
def kExpertEncodingAbiInt8PerRow : UInt32 := 1
def kExpertEncodingAbiFp4Block32 : UInt32 := 2
def kExpertEncodingAbiNvfp4Block16W4A4 : UInt32 := 3
def kExpertRecordAbiInt8PerRow : UInt32 := 1
def kExpertRecordAbiFp4Block32 : UInt32 := 3
def kExpertRecordAbiFp4Relu2Block32 : UInt32 := 4
def kExpertRecordAbiNvfp4Block16W4A4 : UInt32 := 5
def kExpertFp4BlockSize : UInt32 := 32
def kExpertNvfp4BlockSize : UInt32 := 16
def kExpertSourceAbiExpertPackV1 : UInt32 := 1

def kRequiredFlags : UInt32 := 0x0f
def kRelu2RequiredFlags : UInt32 := 0x0d
def kNvfp4RequiredFlags : UInt32 := 0x07
def kStructuredHeaderBytes : Nat := 148
def kSectionAlignment : UInt64 := 256

/-- `"EPEXPR01"`. -/
def kMagic : List UInt8 := [0x45, 0x50, 0x45, 0x58, 0x50, 0x52, 0x30, 0x31]

/-- A byte span over one object. No C++ object is larger than `PTRDIFF_MAX`
bytes, so a span never has `2 ^ 63` bytes or more. -/
structure ByteSpan where
  bytes : List UInt8
  length_lt : bytes.length < 2 ^ 63

namespace ByteSpan

def size (span : ByteSpan) : UInt64 := UInt64.ofNat span.bytes.length

theorem size_toNat (span : ByteSpan) : span.size.toNat = span.bytes.length := by
  have h := span.length_lt
  simp only [size, UInt64.toNat_ofNat']
  omega

def byteAt (span : ByteSpan) (offset : Nat) : UInt8 := span.bytes.getD offset 0

/-- Little-endian value of `count` bytes, the loop of `read_le`. -/
def readLe (span : ByteSpan) (offset : Nat) : Nat → Nat
  | 0 => 0
  | count + 1 => (span.byteAt offset).toNat + 256 * span.readLe (offset + 1) count

def readLe16 (span : ByteSpan) (offset : Nat) : UInt16 := UInt16.ofNat (span.readLe offset 2)
def readLe32 (span : ByteSpan) (offset : Nat) : UInt32 := UInt32.ofNat (span.readLe offset 4)
def readLe64 (span : ByteSpan) (offset : Nat) : UInt64 := UInt64.ofNat (span.readLe offset 8)

def subspan (span : ByteSpan) (offset count : Nat) : List UInt8 :=
  (span.bytes.drop offset).take count

end ByteSpan

structure ExpertSections where
  hidden : UInt32 := 0
  intermediate : UInt32 := 0
  gateUpQOffset : UInt64 := 0
  gateUpQBytes : UInt64 := 0
  gateUpScaleOffset : UInt64 := 0
  gateUpScaleBytes : UInt64 := 0
  downQOffset : UInt64 := 0
  downQBytes : UInt64 := 0
  downScaleOffset : UInt64 := 0
  downScaleBytes : UInt64 := 0
  deriving DecidableEq, Repr

structure SplitExpertSections where
  w1WeightOffset : UInt64 := 0
  w1WeightBytes : UInt64 := 0
  w1ScaleOffset : UInt64 := 0
  w1ScaleBytes : UInt64 := 0
  w3WeightOffset : UInt64 := 0
  w3WeightBytes : UInt64 := 0
  w3ScaleOffset : UInt64 := 0
  w3ScaleBytes : UInt64 := 0
  w2WeightOffset : UInt64 := 0
  w2WeightBytes : UInt64 := 0
  w2ScaleOffset : UInt64 := 0
  w2ScaleBytes : UInt64 := 0
  deriving DecidableEq, Repr

/-- Fields of the structured header, in record order. -/
structure ExpertHeader where
  version : UInt16
  headerBytes : UInt16
  flags : UInt32
  recordAbi : UInt32
  layer : Int32
  expert : Int32
  hidden : UInt32
  intermediate : UInt32
  fusedRows : UInt32
  reserved : UInt32
  recordBytes : UInt64

def readHeader (span : ByteSpan) : ExpertHeader where
  version := span.readLe16 8
  headerBytes := span.readLe16 10
  flags := span.readLe32 12
  recordAbi := span.readLe32 16
  layer := (span.readLe32 20).toInt32
  expert := (span.readLe32 24).toInt32
  hidden := span.readLe32 28
  intermediate := span.readLe32 32
  fusedRows := span.readLe32 36
  reserved := span.readLe32 40
  recordBytes := span.readLe64 44

def readSections (span : ByteSpan) : ExpertSections where
  hidden := (readHeader span).hidden
  intermediate := (readHeader span).intermediate
  gateUpQOffset := span.readLe64 52
  gateUpQBytes := span.readLe64 60
  gateUpScaleOffset := span.readLe64 68
  gateUpScaleBytes := span.readLe64 76
  downQOffset := span.readLe64 84
  downQBytes := span.readLe64 92
  downScaleOffset := span.readLe64 100
  downScaleBytes := span.readLe64 108

/-- The digest stored at offset 116 of the header. -/
def readDigest (span : ByteSpan) : Sha256Digest :=
  ⟨(List.range 32).map fun index => span.byteAt (116 + index), by simp⟩

namespace ExpertHeader

def relu2 (header : ExpertHeader) : Bool := header.recordAbi = kExpertRecordAbiFp4Relu2Block32

def nativeNvfp4 (header : ExpertHeader) : Bool :=
  header.recordAbi = kExpertRecordAbiNvfp4Block16W4A4

def fp4 (header : ExpertHeader) : Bool :=
  header.recordAbi = kExpertRecordAbiFp4Block32 || header.relu2

def encodingAbi (header : ExpertHeader) : UInt32 :=
  if header.nativeNvfp4 then kExpertEncodingAbiNvfp4Block16W4A4
  else if header.fp4 then kExpertEncodingAbiFp4Block32
  else kExpertEncodingAbiInt8PerRow

/-- The header/manifest agreement test, field by field. -/
def Matches (header : ExpertHeader) (key : ExpertKey) (expected : PayloadRecord) : Prop :=
  header.version = kExpertPackVersion ∧ header.headerBytes.toUInt32 = kExpertHeaderBytes ∧
  header.flags = (if header.nativeNvfp4 then kNvfp4RequiredFlags
    else if header.relu2 then kRelu2RequiredFlags else kRequiredFlags) ∧
  (header.recordAbi = kExpertRecordAbiInt8PerRow ∨
    header.recordAbi = kExpertRecordAbiFp4Block32 ∨
    header.recordAbi = kExpertRecordAbiFp4Relu2Block32 ∨
    header.recordAbi = kExpertRecordAbiNvfp4Block16W4A4) ∧
  (expected.recordAbi = 0 ∨ header.recordAbi = expected.recordAbi) ∧
  header.encodingAbi = key.encodingAbi ∧
  header.reserved = 0 ∧ 0 ≤ header.layer ∧ 0 ≤ header.expert ∧
  header.layer.toUInt32 = key.layer ∧ header.expert.toUInt32 = key.expert ∧
  header.recordBytes = expected.storedBytes ∧ header.hidden ≠ 0 ∧ header.intermediate ≠ 0 ∧
  header.fusedRows = (if header.relu2 then header.intermediate else 2 * header.intermediate)

instance (header : ExpertHeader) (key : ExpertKey) (expected : PayloadRecord) :
    Decidable (header.Matches key expected) := by
  unfold Matches
  infer_instance

end ExpertHeader

/-- Overflow-checked product. -/
def multiply (left right : UInt64) : Option UInt64 :=
  if left ≠ 0 ∧ right > 0xffffffffffffffff / left then none else some (left * right)

def validSection (offset bytes previousEnd recordBytes : UInt64) : Bool :=
  offset ≥ previousEnd && offset % kSectionAlignment = 0 &&
    bytes ≤ recordBytes && offset ≤ recordBytes - bytes

/-- The loop over the section spans, carrying `previous_end`. -/
def validSections (recordBytes : UInt64) : UInt64 → List (UInt64 × UInt64) → Bool
  | _, [] => true
  | previousEnd, (offset, length) :: rest =>
    validSection offset length previousEnd recordBytes &&
      validSections recordBytes (offset + length) rest

def ExpertSections.spans (sections : ExpertSections) : List (UInt64 × UInt64) :=
  [(sections.gateUpQOffset, sections.gateUpQBytes),
    (sections.gateUpScaleOffset, sections.gateUpScaleBytes),
    (sections.downQOffset, sections.downQBytes),
    (sections.downScaleOffset, sections.downScaleBytes)]

/-- `expected` describes an aligned Expert Pack v1 record of exactly the span's size. -/
def ManifestGeometry (span : ByteSpan) (expected : PayloadRecord) : Prop :=
  expected.headerBytes = kExpertHeaderBytes ∧ expected.alignment = kExpertPackAlignment ∧
  expected.recordOffset % kExpertPackAlignment.toUInt64 = 0 ∧
  expected.storedBytes ≥ kExpertHeaderBytes.toUInt64 ∧
  expected.storedBytes % kExpertPackAlignment.toUInt64 = 0 ∧
  expected.storedBytes = span.size

instance (span : ByteSpan) (expected : PayloadRecord) :
    Decidable (ManifestGeometry span expected) := by
  unfold ManifestGeometry
  infer_instance

/-- Geometry alignment of the block formats; `none` when it holds. -/
def blockAlignmentError (header : ExpertHeader) : Option String :=
  if header.nativeNvfp4 ∧ (header.hidden % kExpertNvfp4BlockSize ≠ 0 ∨
      header.intermediate % kExpertNvfp4BlockSize ≠ 0) then
    some "NVFP4 expert geometry is not block-aligned"
  else if header.fp4 ∧ (header.hidden % kExpertFp4BlockSize ≠ 0 ∨
      header.intermediate % kExpertFp4BlockSize ≠ 0) then
    some "FP4 expert geometry is not block-aligned"
  else none

/-- The section byte counts the header's own ABI asks for. -/
def SectionDimensions (header : ExpertHeader) (sections : ExpertSections)
    (hiddenIntermediate : UInt64) : Prop :=
  if header.nativeNvfp4 then
    sections.gateUpQBytes = hiddenIntermediate ∧
    sections.gateUpScaleBytes =
      2 * (hiddenIntermediate / kExpertNvfp4BlockSize.toUInt64 + 2 * 4) ∧
    sections.downQBytes = hiddenIntermediate / 2 ∧
    sections.downScaleBytes = hiddenIntermediate / kExpertNvfp4BlockSize.toUInt64 + 2 * 4
  else if header.fp4 then
    sections.gateUpQBytes =
      (if header.relu2 then hiddenIntermediate / 2 else hiddenIntermediate) ∧
    sections.gateUpScaleBytes =
      (if header.relu2 then hiddenIntermediate else 2 * hiddenIntermediate) /
        kExpertFp4BlockSize.toUInt64 ∧
    sections.downQBytes = hiddenIntermediate / 2 ∧
    sections.downScaleBytes = hiddenIntermediate / kExpertFp4BlockSize.toUInt64
  else
    sections.gateUpQBytes = 2 * hiddenIntermediate ∧
    sections.gateUpScaleBytes = 2 * header.intermediate.toUInt64 * 4 ∧
    sections.downQBytes = hiddenIntermediate ∧
    sections.downScaleBytes = header.hidden.toUInt64 * 4

instance (header : ExpertHeader) (sections : ExpertSections) (hiddenIntermediate : UInt64) :
    Decidable (SectionDimensions header sections hiddenIntermediate) := by
  unfold SectionDimensions
  infer_instance

/-- A finite, strictly positive binary32, by its bit pattern. -/
def finitePositive (bits : UInt32) : Bool := 0 < bits && bits < 0x7f800000

/-- NVFP4 scale blocks: `blockCount` E4M3FN codes, then the weight and input divisors. -/
def nvfp4ScaleError (span : ByteSpan) (blockCount : Nat) : List Nat → Option String
  | [] => none
  | offset :: rest =>
    if (span.subspan offset blockCount).any fun code =>
        code &&& 0x80 ≠ 0 || code &&& 0x7f = 0x7f then
      some "NVFP4 expert contains an invalid E4M3FN scale"
    else if !finitePositive (span.readLe32 (offset + blockCount)) ||
        !finitePositive (span.readLe32 (offset + blockCount + 4)) then
      some "NVFP4 expert contains an invalid global divisor"
    else nvfp4ScaleError span blockCount rest

/-- UE8M0 codes `0x00` and `0xff` are rejected. -/
def fp4ScaleError (span : ByteSpan) : List (Nat × Nat) → Option String
  | [] => none
  | (offset, length) :: rest =>
    if (span.subspan offset length).any fun code => code = 0x00 || code = 0xff then
      some "FP4 expert contains an invalid UE8M0 scale code"
    else fp4ScaleError span rest

def scaleError (span : ByteSpan) (header : ExpertHeader) (sections : ExpertSections)
    (hiddenIntermediate : UInt64) : Option String :=
  if header.nativeNvfp4 then
    let blockCount := hiddenIntermediate / kExpertNvfp4BlockSize.toUInt64
    nvfp4ScaleError span blockCount.toNat
      [sections.gateUpScaleOffset.toNat,
        (sections.gateUpScaleOffset + blockCount + 2 * 4).toNat,
        sections.downScaleOffset.toNat]
  else if header.fp4 then
    fp4ScaleError span
      [(sections.gateUpScaleOffset.toNat, sections.gateUpScaleBytes.toNat),
        (sections.downScaleOffset.toNat, sections.downScaleBytes.toNat)]
  else none

def expectedDecoded (header : ExpertHeader) (hiddenIntermediate : UInt64) : UInt64 :=
  (if header.relu2 then 2 else 3) * hiddenIntermediate * 4

def failure {α : Type} (code : ErrorCode) (message : String) : Except Status α :=
  .error ⟨code, message⟩

/-- `validate_expert_record`. The returned spans of the source are views of
`span` itself, so only the sections are returned here. -/
def validateExpertRecord (sha256 : List UInt8 → Sha256Digest) (span : ByteSpan)
    (key : ExpertKey) (expected : PayloadRecord) : Except Status ExpertSections :=
  if ¬ ManifestGeometry span expected then
    failure .invalidArgument "manifest record geometry violates Expert Pack v1"
  else if span.subspan 0 8 ≠ kMagic then
    failure .checksumMismatch "expert record magic mismatch"
  else
    let header := readHeader span
    if ¬ header.Matches key expected then
      failure .checksumMismatch "expert header/manifest ABI mismatch"
    else match blockAlignmentError header with
    | some message => failure .checksumMismatch message
    | none =>
      if (span.subspan kStructuredHeaderBytes
          (kExpertHeaderBytes.toNat - kStructuredHeaderBytes)).any (· ≠ 0) then
        failure .checksumMismatch "expert header padding is non-zero"
      else
        let sections := readSections span
        match multiply header.hidden.toUInt64 header.intermediate.toUInt64 with
        | none => failure .checksumMismatch "expert section dimensions are inconsistent"
        | some hiddenIntermediate =>
          if ¬ SectionDimensions header sections hiddenIntermediate then
            failure .checksumMismatch
              (if header.nativeNvfp4 then "NVFP4 expert section dimensions are inconsistent"
                else "expert section dimensions are inconsistent")
          else if !validSections header.recordBytes kExpertHeaderBytes.toUInt64 sections.spans then
            failure .checksumMismatch
              "expert section is unaligned, overlapping, or out of range"
          else match scaleError span header sections hiddenIntermediate with
          | some message => failure .checksumMismatch message
          | none =>
            if expected.decodedBytes ≠ 0 ∧
                expected.decodedBytes ≠ expectedDecoded header hiddenIntermediate then
              failure .checksumMismatch "expert decoded byte count mismatch"
            else if !constantTimeEqual (readDigest span) expected.payloadSha256 then
              failure .checksumMismatch "header and manifest payload digests disagree"
            else if !constantTimeEqual
                (sha256 (span.bytes.drop kExpertHeaderBytes.toNat)) (readDigest span) then
              failure .checksumMismatch "expert payload SHA-256 mismatch"
            else .ok sections

/-- What a successful admission hands to the cache. -/
structure ExpertAdmission where
  target : ExpertSections
  compact : SplitExpertSections
  deriving DecidableEq

/-- The slice table with a gate matrix: `w1` then `w3` inside gate/up. -/
def gatedSplit (sections : ExpertSections) (matrixBytes scaleBytes : UInt64) :
    SplitExpertSections where
  w1WeightOffset := sections.gateUpQOffset
  w1WeightBytes := matrixBytes
  w1ScaleOffset := sections.gateUpScaleOffset
  w1ScaleBytes := scaleBytes
  w3WeightOffset := sections.gateUpQOffset + matrixBytes
  w3WeightBytes := matrixBytes
  w3ScaleOffset := sections.gateUpScaleOffset + scaleBytes
  w3ScaleBytes := scaleBytes
  w2WeightOffset := sections.downQOffset
  w2WeightBytes := matrixBytes
  w2ScaleOffset := sections.downScaleOffset
  w2ScaleBytes := scaleBytes

/-- The slice table without a gate matrix: `w3` is left empty. -/
def ungatedSplit (sections : ExpertSections) (matrixBytes scaleBytes : UInt64) :
    SplitExpertSections where
  w1WeightOffset := sections.gateUpQOffset
  w1WeightBytes := matrixBytes
  w1ScaleOffset := sections.gateUpScaleOffset
  w1ScaleBytes := scaleBytes
  w2WeightOffset := sections.downQOffset
  w2WeightBytes := matrixBytes
  w2ScaleOffset := sections.downScaleOffset
  w2ScaleBytes := scaleBytes

/-- The slice table of `validate_expert_admission`; the manifest's record ABI
chooses between the gated and the ungated layout. -/
def splitSections (key : ExpertKey) (expected : PayloadRecord) (sections : ExpertSections) :
    SplitExpertSections :=
  if key.encodingAbi = kExpertEncodingAbiFp4Block32 ∨
      key.encodingAbi = kExpertEncodingAbiNvfp4Block16W4A4 then
    let matrixBytes := sections.hidden.toUInt64 * sections.intermediate.toUInt64 / 2
    let native := key.encodingAbi = kExpertEncodingAbiNvfp4Block16W4A4
    let scaleBytes := sections.hidden.toUInt64 * sections.intermediate.toUInt64 /
        (if native then kExpertNvfp4BlockSize else kExpertFp4BlockSize).toUInt64 +
      (if native then 2 * 4 else 0)
    if expected.recordAbi = kExpertRecordAbiFp4Relu2Block32 then
      ungatedSplit sections matrixBytes scaleBytes
    else gatedSplit sections matrixBytes scaleBytes
  else {}

/-- `validate_expert_admission`. Its `verify_payload_sha256` argument is unused
by the source, which always checks the digest. -/
def validateExpertAdmission (sha256 : List UInt8 → Sha256Digest) (span : ByteSpan)
    (key : ExpertKey) (expected : PayloadRecord) : Except Status ExpertAdmission :=
  if (key.encodingAbi = kExpertEncodingAbiInt8PerRow ∨
      key.encodingAbi = kExpertEncodingAbiFp4Block32 ∨
      key.encodingAbi = kExpertEncodingAbiNvfp4Block16W4A4) ∧
      expected.sourceAbi = kExpertSourceAbiExpertPackV1 then
    match validateExpertRecord sha256 span key expected with
    | .error status => .error status
    | .ok sections => .ok ⟨sections, splitSections key expected sections⟩
  else failure .invalidArgument "unsupported source/target expert ABI pair"

/-- The code of a rejected record. -/
def Status.Rejects (status : Status) : Prop :=
  status.code = .invalidArgument ∨ status.code = .checksumMismatch

variable {α : Type} {message : String} {status : Status} {sha256 : List UInt8 → Sha256Digest}
  {span : ByteSpan} {key : ExpertKey} {expected : PayloadRecord}

theorem rejects_of_check {failed : Prop} [Decidable failed] {code : ErrorCode}
    {next : Except Status α} (hcode : code = .invalidArgument ∨ code = .checksumMismatch)
    (h : (if failed then failure code message else next) = .error status)
    (hnext : next = .error status → status.Rejects) : status.Rejects := by
  by_cases hf : failed
  · rw [if_pos hf] at h
    cases h
    exact hcode
  · rw [if_neg hf] at h
    exact hnext h

theorem rejects_of_failure
    (h : (failure .checksumMismatch message : Except Status α) = .error status) :
    status.Rejects := by
  cases h
  exact Or.inr rfl

theorem validateExpertRecord_error
    (h : validateExpertRecord sha256 span key expected = .error status) : status.Rejects := by
  refine rejects_of_check (Or.inl rfl) h fun h => rejects_of_check (Or.inr rfl) h fun h =>
    rejects_of_check (Or.inr rfl) h fun h => ?_
  split at h
  next => exact rejects_of_failure h
  next =>
    refine rejects_of_check (Or.inr rfl) h fun h => ?_
    split at h
    next => exact rejects_of_failure h
    next =>
      refine rejects_of_check (Or.inr rfl) h fun h => rejects_of_check (Or.inr rfl) h fun h => ?_
      split at h
      next => exact rejects_of_failure h
      next =>
        exact rejects_of_check (Or.inr rfl) h fun h => rejects_of_check (Or.inr rfl) h fun h =>
          rejects_of_check (Or.inr rfl) h nofun

/-- Every error of an admission is an error: its code is neither success nor a
cancellation. -/
theorem validateExpertAdmission_error
    (h : validateExpertAdmission sha256 span key expected = .error status) : status.Rejects := by
  unfold validateExpertAdmission at h
  split at h
  next =>
    split at h
    next hrecord =>
      cases h
      exact validateExpertRecord_error hrecord
    next => cases h
  next =>
    cases h
    exact Or.inl rfl

end QuantumLlm.Runtime
