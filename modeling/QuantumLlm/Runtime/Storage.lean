import Mathlib.Data.UInt
import Mathlib.Order.Basic
import Mathlib.Data.Prod.Lex

/-!
# Expert keys, statuses and payload records

The value types shared by the record validator and the expert cache: error
codes, the expert identity with its container order, and the immutable payload
record an expert is read from.
-/

namespace QuantumLlm.Runtime

inductive ErrorCode where
  | ok
  | cancelled
  | deadlineExceeded
  | backpressure
  | invalidArgument
  | openFailed
  | ioFailed
  | shortRead
  | checksumMismatch
  | uploadFailed
  | internal
  deriving DecidableEq, Repr

structure Status where
  code : ErrorCode := .ok
  message : String := ""
  deriving DecidableEq, Repr

def Status.success : Status := {}

def Status.ok (status : Status) : Bool := status.code = .ok

@[simp] theorem Status.success_ok : Status.success.ok = true := rfl

@[simp] theorem Status.success_code : Status.success.code = .ok := rfl

/-- Identifies one immutable expert weight set. The field order is the
comparison order of the ordered containers that hold keys. -/
structure ExpertKey where
  modelId : UInt64 := 0
  layer : UInt32 := 0
  expert : UInt32 := 0
  encodingAbi : UInt32 := 0
  deriving DecidableEq, Repr

/-- The defaulted three-way comparison is lexicographic over the fields. -/
def ExpertKey.fields (key : ExpertKey) : ℕ ×ₗ ℕ ×ₗ ℕ ×ₗ ℕ :=
  toLex (key.modelId.toNat,
    toLex (key.layer.toNat, toLex (key.expert.toNat, key.encodingAbi.toNat)))

theorem ExpertKey.fields_injective : Function.Injective ExpertKey.fields := by
  intro left right h
  cases left
  cases right
  simpa [ExpertKey.fields, UInt64.toNat_inj, UInt32.toNat_inj] using h

instance : LinearOrder ExpertKey :=
  LinearOrder.lift' ExpertKey.fields ExpertKey.fields_injective

structure Sha256Digest where
  bytes : List UInt8
  length_eq : bytes.length = 32
  deriving DecidableEq

theorem zeroBytes_length : (List.replicate 32 (0 : UInt8)).length = 32 := rfl

theorem oneBytes_length : (List.replicate 32 (1 : UInt8)).length = 32 := rfl

/-- `constant_time_equal` on two digests. -/
def constantTimeEqual (left right : Sha256Digest) : Bool := left = right

/-- One immutable source range gathered into a logical payload. -/
structure PayloadExtent where
  path : String
  sourceOffset : UInt64 := 0
  destinationOffset : UInt64 := 0
  bytes : UInt64 := 0
  deriving DecidableEq, Repr

structure PayloadRecord where
  path : String := ""
  extents : List PayloadExtent := []
  recordOffset : UInt64 := 0
  storedBytes : UInt64 := 0
  decodedBytes : UInt64 := 0
  deviceBytes : UInt64 := 0
  hidden : UInt32 := 0
  intermediate : UInt32 := 0
  quantBlockSize : UInt32 := 0
  sourceAbi : UInt32 := 1
  recordAbi : UInt32 := 0
  headerBytes : UInt32 := 256
  alignment : UInt32 := 4096
  payloadSha256 : Sha256Digest := ⟨List.replicate 32 0, zeroBytes_length⟩
  deriving DecidableEq

abbrev OperationId := UInt64

/-- A destination; `data` is its address, `none` the null pointer. -/
structure MutableBuffer where
  data : Option UInt64 := none
  capacity : UInt64 := 0
  deriving DecidableEq

structure ReadRequest where
  record : PayloadRecord
  destination : MutableBuffer
  direct : Bool := true
  deriving DecidableEq

structure ReadResult where
  status : Status
  requestedBytes : UInt64
  readBytes : UInt64
  deriving DecidableEq

end QuantumLlm.Runtime
