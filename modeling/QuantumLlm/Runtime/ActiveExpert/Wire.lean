import QuantumLlm.Runtime.Sha256

/-!
# Active-expert wire frames

Requests and responses of remote expert execution, and the frames they travel
as: the writer and the reader of each, with the checks each one makes.
-/

namespace QuantumLlm.Runtime.ActiveExpert

/-- The bytes of a string. -/
abbrev Text := Bytes

def ascii (text : String) : Text := text.toList.map fun character => UInt8.ofNat character.toNat

/-- A status with the bytes of its message. -/
structure Status where
  code : ErrorCode := .ok
  message : Text := []
  deriving DecidableEq

def Status.ok (status : Status) : Bool := status.code = .ok

def kWireMagic : Bytes := ascii "QMOEAX01"

def kWireVersion : UInt16 := 1

def kRequestFrame : UInt16 := 1

def kResponseFrame : UInt16 := 2

def kMaximumFrameBytes : Nat := 64 * 2 ^ 20

def kMaximumStringBytes : UInt32 := 4096

/-! ## Data -/

/-- Host memory; `data` is what the address spans, `none` the null pointer. -/
structure ActiveExpertBuffer where
  abi : Text := []
  memoryDomain : String := ""
  owner : Bool := false
  data : Option Bytes := none
  bytes : UInt64 := 0
  spans : ∀ memory, data = some memory → memory.length = bytes.toNat := by simp
  deriving DecidableEq

def ActiveExpertBuffer.valid (buffer : ActiveExpertBuffer) : Bool :=
  buffer.abi ≠ [] && buffer.memoryDomain ≠ "" && buffer.owner && buffer.data.isSome &&
    buffer.bytes ≠ 0

def ActiveExpertBuffer.content (buffer : ActiveExpertBuffer) : Bytes := buffer.data.getD []

/-- A vector that was read off the wire; none is as long as the address space. -/
def hostWire (abi : Text) (content : Bytes) : ActiveExpertBuffer :=
  if hlong : content.length < 2 ^ 64 then
    { abi, memoryDomain := "host.wire", owner := true, data := some content
      bytes := UInt64.ofNat content.length
      spans := by
        rintro memory ⟨⟩
        rw [UInt64.toNat_ofNat', Nat.mod_eq_of_lt hlong] }
  else { abi, memoryDomain := "host.wire", owner := true }

structure ActiveExpertIdentity where
  modelContentHash : Sha256Digest
  key : ExpertKey
  capability : Text
  executionAbi : UInt32
  sourceAbi : UInt32
  deriving DecidableEq

/-- Ticks of `steady_clock::time_point::max()`. -/
def deadlineMax : Int := 2 ^ 63 - 1

structure ActiveExpertInvocation where
  requestId : UInt64
  invocationId : UInt64
  selectionIndex : UInt32
  routeWidth : UInt32
  deadline : Int := deadlineMax
  input : ActiveExpertBuffer
  outputAbi : Text
  outputBytes : UInt64
  deriving DecidableEq

structure ActiveExpertExecutionRequest where
  identity : ActiveExpertIdentity
  invocation : ActiveExpertInvocation
  deriving DecidableEq

structure ActiveExpertExecutionEvidence where
  activationInputBytes : UInt64 := 0
  activationOutputBytes : UInt64 := 0
  wireRequestBytes : UInt64 := 0
  wireResponseBytes : UInt64 := 0
  weightTransportBytes : UInt64 := 0
  ownerWeightReadBytes : UInt64 := 0
  ownerStorageReadBytes : UInt64 := 0
  ownerRamReadBytes : UInt64 := 0
  ownerVramReadBytes : UInt64 := 0
  ownerExecutionNs : UInt64 := 0
  transportWaitNs : UInt64 := 0
  deriving DecidableEq

structure ActiveExpertExecutionResult where
  status : Status
  identity : ActiveExpertIdentity
  requestId : UInt64
  invocationId : UInt64
  selectionIndex : UInt32
  requestSha256 : Sha256Digest
  output : ActiveExpertBuffer := {}
  evidence : ActiveExpertExecutionEvidence := {}
  deriving DecidableEq

def validateIdentity (identity : ActiveExpertIdentity) : Status :=
  if nonzeroDigest identity.modelContentHash = false ∨ identity.key.modelId = 0 ∨
      identity.key.encodingAbi = 0 ∨ identity.capability = [] ∨ identity.executionAbi = 0 ∨
      identity.sourceAbi = 0 then
    ⟨.invalidArgument, ascii "active-expert identity is incomplete"⟩
  else {}

def validateInvocation (now : Int) (invocation : ActiveExpertInvocation) : Status :=
  if invocation.requestId = 0 ∨ invocation.invocationId = 0 ∨ invocation.routeWidth = 0 ∨
      invocation.selectionIndex ≥ invocation.routeWidth ∨ invocation.input.valid = false ∨
      invocation.outputAbi = [] ∨ invocation.outputBytes = 0 then
    ⟨.invalidArgument, ascii "active-expert invocation is incomplete"⟩
  else if invocation.deadline ≠ deadlineMax ∧ invocation.deadline ≤ now then
    ⟨.deadlineExceeded, ascii "active-expert invocation deadline expired"⟩
  else {}

def writeText (value : Text) : Bytes := putU32 (UInt32.ofNat value.length) ++ value

/-- The characters a C string literal passes to a callee. -/
def cString (literal : Text) : Text := literal.takeWhile (· ≠ 0)

def findFirstOf (value literal : Text) : Option Nat := value.findIdx? (· ∈ cString literal)

def controlLiteral : Text := [0, 13, 10]

def readText : Reader Text := do
  let bytes ← takeU32
  require (¬ bytes > kMaximumStringBytes)
  let value ← takeBytes bytes.toNat
  require (findFirstOf value controlLiteral = none)
  pure value

def writeHeader (kind : UInt16) : Bytes := kWireMagic ++ putU16 kWireVersion ++ putU16 kind

def readHeader (expectedKind : UInt16) : Reader Unit := do
  let magic ← takeBytes kWireMagic.length
  require (magic = kWireMagic)
  let version ← takeU16
  require (version = kWireVersion)
  let kind ← takeU16
  require (kind = expectedKind)

def writeIdentity (identity : ActiveExpertIdentity) : Bytes :=
  identity.modelContentHash.bytes ++ putU64 identity.key.modelId ++ putU32 identity.key.layer ++
    putU32 identity.key.expert ++ putU32 identity.key.encodingAbi ++ putU32 identity.executionAbi ++
    putU32 identity.sourceAbi ++ writeText identity.capability

def readIdentity : Reader ActiveExpertIdentity := do
  let modelContentHash ← takeDigest
  let modelId ← takeU64
  let layer ← takeU32
  let expert ← takeU32
  let encodingAbi ← takeU32
  let executionAbi ← takeU32
  let sourceAbi ← takeU32
  let capability ← readText
  pure ⟨modelContentHash, ⟨modelId, layer, expert, encodingAbi⟩, capability, executionAbi, sourceAbi⟩

def unlimitedBudget : UInt64 := 0xffffffffffffffff

def deadlineBudget (now deadline : Int) : UInt64 :=
  if deadline = deadlineMax then unlimitedBudget
  else if deadline ≤ now then 0
  else UInt64.ofNat (deadline - now).toNat

/-- The sum of the clock and a budget wraps as the clock's ticks do. -/
def decodeDeadline (now : Int) (budget : UInt64) : Int :=
  if budget = unlimitedBudget then deadlineMax
  else (now + min (budget.toNat : Int) (2 ^ 63 - 1)).bmod (2 ^ 64)

variable (sha256 : Bytes → Sha256Digest)

/-- What the writer makes of a request and its deadline's budget. -/
def requestPayload (budget : UInt64) (request : ActiveExpertExecutionRequest) : Bytes :=
  writeHeader kRequestFrame ++ putU64 request.invocation.requestId ++
    putU64 request.invocation.invocationId ++ putU32 request.invocation.selectionIndex ++
    putU32 request.invocation.routeWidth ++ putU64 budget ++ writeIdentity request.identity ++
    writeText request.invocation.input.abi ++ writeText request.invocation.outputAbi ++
    putU64 request.invocation.outputBytes ++ putU64 request.invocation.input.bytes ++
    request.invocation.input.content

/-- `validatedAt` and `budgetedAt` are the clock where it is read. -/
def encodeActiveExpertRequest (validatedAt budgetedAt : Int)
    (request : ActiveExpertExecutionRequest) : Except Status (Bytes × Sha256Digest) :=
  let identityStatus := validateIdentity request.identity
  if !identityStatus.ok then .error identityStatus else
  let invocationStatus := validateInvocation validatedAt request.invocation
  if !invocationStatus.ok then .error invocationStatus else
  if request.invocation.input.memoryDomain ≠ "host" ∧
      request.invocation.input.memoryDomain ≠ "host.pinned" ∧
      request.invocation.input.memoryDomain ≠ "host.wire" then
    .error ⟨.invalidArgument, ascii "remote active-expert input is not host accessible"⟩
  else if request.identity.capability.length > kMaximumStringBytes.toNat ∨
      request.invocation.input.abi.length > kMaximumStringBytes.toNat ∨
      request.invocation.outputAbi.length > kMaximumStringBytes.toNat ∨
      request.invocation.input.bytes.toNat > kMaximumFrameBytes ∨
      request.invocation.outputBytes.toNat > kMaximumFrameBytes then
    .error ⟨.invalidArgument, ascii "active-expert request metadata or activation is too large"⟩
  else
    let budget := deadlineBudget budgetedAt request.invocation.deadline
    if budget = 0 then
      .error ⟨.deadlineExceeded, ascii "active-expert request deadline expired"⟩
    else
      let payload := requestPayload budget request
      let frame := sealed sha256 payload
      if frame.length > kMaximumFrameBytes then
        .error ⟨.invalidArgument, ascii "active-expert request frame is too large"⟩
      else .ok (frame, sha256 payload)

/-- The fields of a request in front of its input. -/
structure RequestFields where
  requestId : UInt64
  invocationId : UInt64
  selectionIndex : UInt32
  routeWidth : UInt32
  budget : UInt64
  identity : ActiveExpertIdentity
  inputAbi : Text
  outputAbi : Text
  outputBytes : UInt64
  inputBytes : UInt64

def readRequestFields : Reader RequestFields := do
  readHeader kRequestFrame
  let requestId ← takeU64
  let invocationId ← takeU64
  let selectionIndex ← takeU32
  let routeWidth ← takeU32
  require ((← remaining) ≠ 0)
  let budget ← takeU64
  let identity ← readIdentity
  let inputAbi ← readText
  let outputAbi ← readText
  let outputBytes ← takeU64
  let inputBytes ← takeU64
  require (inputBytes ≠ 0)
  require (¬ inputBytes.toNat > (← remaining))
  pure ⟨requestId, invocationId, selectionIndex, routeWidth, budget, identity, inputAbi, outputAbi,
    outputBytes, inputBytes⟩

def RequestFields.request (fields : RequestFields) (deadline : Int) (input : Bytes) :
    ActiveExpertExecutionRequest where
  identity := fields.identity
  invocation :=
    { requestId := fields.requestId
      invocationId := fields.invocationId
      selectionIndex := fields.selectionIndex
      routeWidth := fields.routeWidth
      deadline
      input := hostWire fields.inputAbi input
      outputAbi := fields.outputAbi
      outputBytes := fields.outputBytes }

/-- `decodedAt` and `validatedAt` are the clock where it is read. -/
def decodeActiveExpertRequest (decodedAt validatedAt : Int) (frame : Bytes) :
    Except Status (ActiveExpertExecutionRequest × Sha256Digest) :=
  if frame.length ≤ kWireMagic.length + 4 + 32 ∨ frame.length > kMaximumFrameBytes then
    .error ⟨.invalidArgument, ascii "active-expert request frame size is invalid"⟩
  else if ¬ Authentic sha256 frame then
    .error ⟨.checksumMismatch, ascii "active-expert request checksum mismatch"⟩
  else
    match readRequestFields.run (payloadOf frame) with
    | none => .error ⟨.invalidArgument, ascii "active-expert request frame is malformed"⟩
    | some (fields, rest) =>
      let input := rest.take fields.inputBytes.toNat
      if rest.drop fields.inputBytes.toNat ≠ [] ∨ fields.budget = 0 then
        .error (if fields.budget = 0 then
          ⟨.deadlineExceeded, ascii "active-expert request deadline expired"⟩
        else ⟨.invalidArgument, ascii "active-expert request has trailing data"⟩)
      else
        let request := fields.request (decodeDeadline decodedAt fields.budget) input
        let identityStatus := validateIdentity request.identity
        let invocationStatus := validateInvocation validatedAt request.invocation
        if !identityStatus.ok then .error identityStatus
        else if !invocationStatus.ok then .error invocationStatus
        else .ok (request, claimedOf frame)

/-! ## Responses -/

def ErrorCode.value : ErrorCode → UInt8
  | .ok => 0
  | .cancelled => 1
  | .deadlineExceeded => 2
  | .backpressure => 3
  | .invalidArgument => 4
  | .openFailed => 5
  | .ioFailed => 6
  | .shortRead => 7
  | .checksumMismatch => 8
  | .uploadFailed => 9
  | .internal => 10

def ErrorCode.all : List ErrorCode :=
  [.ok, .cancelled, .deadlineExceeded, .backpressure, .invalidArgument, .openFailed, .ioFailed,
    .shortRead, .checksumMismatch, .uploadFailed, .internal]

/-- The cast of a code that is not above the last one. -/
def readCode : Reader ErrorCode := do
  let code ← takeU8
  match ErrorCode.all.find? fun known => ErrorCode.value known = code with
  | some known => pure known
  | none => Alternative.failure

def writeEvidence (evidence : ActiveExpertExecutionEvidence) : Bytes :=
  putU64 evidence.activationInputBytes ++ putU64 evidence.activationOutputBytes ++
    putU64 evidence.wireRequestBytes ++ putU64 evidence.wireResponseBytes ++
    putU64 evidence.weightTransportBytes ++ putU64 evidence.ownerWeightReadBytes ++
    putU64 evidence.ownerStorageReadBytes ++ putU64 evidence.ownerRamReadBytes ++
    putU64 evidence.ownerVramReadBytes ++ putU64 evidence.ownerExecutionNs ++
    putU64 evidence.transportWaitNs

def readEvidence : Reader ActiveExpertExecutionEvidence := do
  let activationInputBytes ← takeU64
  let activationOutputBytes ← takeU64
  let wireRequestBytes ← takeU64
  let wireResponseBytes ← takeU64
  let weightTransportBytes ← takeU64
  let ownerWeightReadBytes ← takeU64
  let ownerStorageReadBytes ← takeU64
  let ownerRamReadBytes ← takeU64
  let ownerVramReadBytes ← takeU64
  let ownerExecutionNs ← takeU64
  let transportWaitNs ← takeU64
  pure ⟨activationInputBytes, activationOutputBytes, wireRequestBytes, wireResponseBytes,
    weightTransportBytes, ownerWeightReadBytes, ownerStorageReadBytes, ownerRamReadBytes,
    ownerVramReadBytes, ownerExecutionNs, transportWaitNs⟩

/-- The fields of a response in front of its output. -/
structure ResponseFields where
  requestId : UInt64
  invocationId : UInt64
  selectionIndex : UInt32
  identity : ActiveExpertIdentity
  requestSha256 : Sha256Digest
  code : ErrorCode
  message : Text
  outputAbi : Text
  outputBytes : UInt64
  evidence : ActiveExpertExecutionEvidence

def writeResponseFields (fields : ResponseFields) : Bytes :=
  writeHeader kResponseFrame ++ putU64 fields.requestId ++ putU64 fields.invocationId ++
    putU32 fields.selectionIndex ++ writeIdentity fields.identity ++ fields.requestSha256.bytes ++
    putU8 (ErrorCode.value fields.code) ++ writeText fields.message ++ writeText fields.outputAbi ++
    putU64 fields.outputBytes ++ writeEvidence fields.evidence

def ActiveExpertExecutionResult.fields (result : ActiveExpertExecutionResult) : ResponseFields where
  requestId := result.requestId
  invocationId := result.invocationId
  selectionIndex := result.selectionIndex
  identity := result.identity
  requestSha256 := result.requestSha256
  code := result.status.code
  message := result.status.message
  outputAbi := if result.status.ok then result.output.abi else []
  outputBytes := if result.status.ok then result.output.bytes else 0
  evidence := result.evidence

def encodeResponseOnce (result : ActiveExpertExecutionResult) : Bytes :=
  sealed sha256 (writeResponseFields result.fields ++
    if result.status.ok then result.output.content else [])

/-- The status, the result with the size of its frame as evidence, and the frame. -/
def encodeResponse (result : ActiveExpertExecutionResult) :
    Status × ActiveExpertExecutionResult × Bytes :=
  if !(validateIdentity result.identity).ok ∨ result.requestId = 0 ∨ result.invocationId = 0 ∨
      nonzeroDigest result.requestSha256 = false ∨ result.evidence.weightTransportBytes ≠ 0 then
    (⟨.invalidArgument, ascii "active-expert response identity or evidence is invalid"⟩, result, [])
  else if result.status.ok ∧
      (result.output.valid = false ∨ result.output.memoryDomain ≠ "host") then
    (⟨.invalidArgument, ascii "active-expert wire response is not host accessible"⟩, result, [])
  else if result.status.message.length > kMaximumStringBytes.toNat ∨
      (result.status.ok ∧ result.output.abi.length > kMaximumStringBytes.toNat) then
    (⟨.invalidArgument, ascii "active-expert response metadata is too large"⟩, result, [])
  else
    let size := UInt64.ofNat (encodeResponseOnce sha256 result).length
    let measured := { result with evidence := { result.evidence with wireResponseBytes := size } }
    let frame := encodeResponseOnce sha256 measured
    if frame.length > kMaximumFrameBytes then
      (⟨.invalidArgument, ascii "active-expert response frame is too large"⟩, measured, frame)
    else ({}, measured, frame)

def readResponseFields : Reader ResponseFields := do
  readHeader kResponseFrame
  let requestId ← takeU64
  let invocationId ← takeU64
  let selectionIndex ← takeU32
  let identity ← readIdentity
  let requestSha256 ← takeDigest
  let code ← readCode
  let message ← readText
  let outputAbi ← readText
  let outputBytes ← takeU64
  let evidence ← readEvidence
  pure ⟨requestId, invocationId, selectionIndex, identity, requestSha256, code, message, outputAbi,
    outputBytes, evidence⟩

def ResponseFields.result (fields : ResponseFields) (output : ActiveExpertBuffer) :
    ActiveExpertExecutionResult where
  status := ⟨fields.code, fields.message⟩
  identity := fields.identity
  requestId := fields.requestId
  invocationId := fields.invocationId
  selectionIndex := fields.selectionIndex
  requestSha256 := fields.requestSha256
  output := output
  evidence := fields.evidence

/-- The output and what is left behind it; a failed response has no output. -/
def ResponseFields.takeOutput (fields : ResponseFields) (rest : Bytes) : ActiveExpertBuffer × Bytes :=
  if fields.code = .ok then
    (hostWire fields.outputAbi (rest.take fields.outputBytes.toNat),
      rest.drop fields.outputBytes.toNat)
  else ({}, rest)

def decodeResponse (frame : Bytes) : Except Status ActiveExpertExecutionResult :=
  if frame.length ≤ kWireMagic.length + 4 + 32 ∨ frame.length > kMaximumFrameBytes then
    .error ⟨.invalidArgument, ascii "active-expert response frame size is invalid"⟩
  else if ¬ Authentic sha256 frame then
    .error ⟨.checksumMismatch, ascii "active-expert response checksum mismatch"⟩
  else
    match readResponseFields.run (payloadOf frame) with
    | none => .error ⟨.invalidArgument, ascii "active-expert response frame is malformed"⟩
    | some (fields, rest) =>
      if fields.evidence.wireResponseBytes.toNat ≠ frame.length ∨
          fields.evidence.weightTransportBytes ≠ 0 then
        .error ⟨.invalidArgument, ascii "active-expert response transfer evidence is invalid"⟩
      else if fields.code = .ok ∧ (fields.outputAbi = [] ∨ fields.outputBytes = 0 ∨
          fields.outputBytes.toNat > rest.length) then
        .error ⟨.invalidArgument, ascii "active-expert response output is malformed"⟩
      else if fields.code ≠ .ok ∧ (fields.outputAbi ≠ [] ∨ fields.outputBytes ≠ 0) then
        .error ⟨.invalidArgument, ascii "failed active-expert response contains an output"⟩
      else
        let (output, remaining) := fields.takeOutput rest
        if remaining ≠ [] ∨ !(validateIdentity fields.identity).ok ∨ fields.requestId = 0 ∨
            fields.invocationId = 0 ∨ nonzeroDigest fields.requestSha256 = false then
          .error ⟨.invalidArgument, ascii "active-expert response correlation is invalid"⟩
        else .ok (fields.result output)

def failedResult (request : ActiveExpertExecutionRequest) (digest : Sha256Digest)
    (status : Status) : ActiveExpertExecutionResult where
  status := status
  identity := request.identity
  requestId := request.invocation.requestId
  invocationId := request.invocation.invocationId
  selectionIndex := request.invocation.selectionIndex
  requestSha256 := digest
  evidence := { activationInputBytes := request.invocation.input.bytes }

end QuantumLlm.Runtime.ActiveExpert
