import QuantumLlm.Lib.Run
import QuantumLlm.Runtime.ActiveExpert.Wire

/-!
# Remote expert execution

Requesters, a transport that may do anything with the frames, and the endpoints
that execute them. Each step is one call of `execute`, `submit`, `poll` or
`cancel`; the clock, the local executors and what the transport delivers are
inputs of the steps.
-/

namespace QuantumLlm.Runtime.ActiveExpert

/-- What a wire handle yields. -/
structure WireResult where
  status : Status
  frame : Bytes
  deriving DecidableEq

/-- A response that was encoded for a request frame. -/
structure Production where
  requestFrame : Bytes
  result : ActiveExpertExecutionResult
  frame : Bytes

variable (sha256 : Bytes → Sha256Digest)

/-- A response and, when it was encoded, the record of it. -/
def respond (requestFrame : Bytes) (result : ActiveExpertExecutionResult) :
    WireResult × List Production :=
  let encoded := encodeResponse sha256 result
  (⟨encoded.1, encoded.2.2⟩,
    if encoded.1.ok then [⟨requestFrame, encoded.2.1, encoded.2.2⟩] else [])

inductive OwnerPhase where
  /-- The answer was ready when the frame was submitted. -/
  | answered (wire : WireResult)
  | executing (request : ActiveExpertExecutionRequest) (requestSha256 : Sha256Digest)
  | terminal

/-- An invocation at an endpoint. -/
structure Owner where
  requestFrame : Bytes
  phase : OwnerPhase

def withWireBytes (result : ActiveExpertExecutionResult) (requestFrame : Bytes) :
    ActiveExpertExecutionResult :=
  { result with evidence :=
    { result.evidence with wireRequestBytes := UInt64.ofNat requestFrame.length } }

/-- `selected` is the status of the registry's selection. -/
def Owner.submit (decodedAt validatedAt : Int) (selected : Status) (requestFrame : Bytes) :
    Owner × List Production :=
  match decodeActiveExpertRequest sha256 decodedAt validatedAt requestFrame with
  | .error status => (⟨requestFrame, .answered ⟨status, []⟩⟩, [])
  | .ok (request, requestSha256) =>
    if !selected.ok then
      let answer := respond sha256 requestFrame
        (withWireBytes (failedResult request requestSha256 selected) requestFrame)
      (⟨requestFrame, .answered answer.1⟩, answer.2)
    else (⟨requestFrame, .executing request requestSha256⟩, [])

/-- The owner's result, checked and stamped with the request it belongs to. -/
def ownerResult (request : ActiveExpertExecutionRequest) (requestSha256 : Sha256Digest)
    (requestFrame : Bytes) (elapsed : UInt64) (completed : ActiveExpertExecutionResult) :
    ActiveExpertExecutionResult :=
  let correlated := completed.identity = request.identity ∧
    completed.requestId = request.invocation.requestId ∧
    completed.invocationId = request.invocation.invocationId ∧
    completed.selectionIndex = request.invocation.selectionIndex
  let stamped := if correlated then { completed with requestSha256 := requestSha256 }
    else failedResult request requestSha256
      ⟨.internal, ascii "active-expert owner result correlation mismatch"⟩
  let measured := { stamped with evidence := { stamped.evidence with
    activationInputBytes := request.invocation.input.bytes
    wireRequestBytes := UInt64.ofNat requestFrame.length
    ownerExecutionNs := if stamped.evidence.ownerExecutionNs = 0 then elapsed
      else stamped.evidence.ownerExecutionNs } }
  if measured.status.ok then
    if measured.output.valid = false ∨ measured.output.abi ≠ request.invocation.outputAbi ∨
        measured.output.bytes ≠ request.invocation.outputBytes ∨
        measured.output.memoryDomain ≠ "host" ∨ measured.evidence.weightTransportBytes ≠ 0 then
      withWireBytes (failedResult request requestSha256
        ⟨.internal, ascii "active-expert owner violated the output/weight contract"⟩) requestFrame
    else { measured with evidence :=
      { measured.evidence with activationOutputBytes := measured.output.bytes } }
  else measured

/-- `valid` and `completed` are what the local executor's handle says. -/
def Owner.poll (now : Int) (valid : Bool) (completed : Option ActiveExpertExecutionResult)
    (elapsed : UInt64) (owner : Owner) : Owner × Option WireResult × List Production :=
  match owner.phase with
  | .terminal => (owner, none, [])
  | .answered wire => ({ owner with phase := .terminal }, some wire, [])
  | .executing request requestSha256 =>
    if request.invocation.deadline ≠ deadlineMax ∧ request.invocation.deadline ≤ now then
      let answer := respond sha256 owner.requestFrame (withWireBytes
        (failedResult request requestSha256
          ⟨.deadlineExceeded, ascii "active-expert owner execution deadline expired"⟩)
        owner.requestFrame)
      ({ owner with phase := .terminal }, some answer.1, answer.2)
    else if !valid then
      let answer := respond sha256 owner.requestFrame (withWireBytes
        (failedResult request requestSha256
          ⟨.internal, ascii "active-expert owner returned no execution handle"⟩)
        owner.requestFrame)
      ({ owner with phase := .terminal }, some answer.1, answer.2)
    else
      match completed with
      | none => (owner, none, [])
      | some completed =>
        let answer := respond sha256 owner.requestFrame
          (ownerResult request requestSha256 owner.requestFrame elapsed completed)
        if !answer.1.status.ok then
          ({ owner with phase := .terminal }, some ⟨answer.1.status, []⟩, answer.2)
        else ({ owner with phase := .terminal }, some answer.1, answer.2)

inductive RemotePhase where
  | completed (result : ActiveExpertExecutionResult)
  | waiting
  | terminal

/-- A handle of the remote executor. Its flag and the one behind its callbacks are
set together. -/
structure RemoteHandle where
  request : ActiveExpertExecutionRequest
  frame : Bytes
  requestSha256 : Sha256Digest
  phase : RemotePhase
  /-- The results it has yielded, each with the frame it was polled from. -/
  yielded : List (ActiveExpertExecutionResult × Option Bytes) := []

def zeroDigest : Sha256Digest := ⟨List.replicate 32 0, zeroBytes_length⟩

/-- An executor with an owner and a transport; `accepted` says that the transport's
handle is valid. -/
def RemoteHandle.execute (validatedAt budgetedAt : Int) (accepted : Bool)
    (request : ActiveExpertExecutionRequest) : RemoteHandle :=
  match encodeActiveExpertRequest sha256 validatedAt budgetedAt request with
  | .error status =>
    { request, frame := [], requestSha256 := zeroDigest
      phase := .completed (failedResult request zeroDigest status) }
  | .ok (frame, requestSha256) =>
    if !accepted then
      { request, frame, requestSha256
        phase := .completed (failedResult request requestSha256
          ⟨.backpressure, ascii "active-expert transport rejected the invocation"⟩) }
    else { request, frame, requestSha256, phase := .waiting }

def RemoteHandle.yields (handle : RemoteHandle) (result : ActiveExpertExecutionResult)
    (polled : Option Bytes) : RemoteHandle :=
  { handle with phase := .terminal, yielded := handle.yielded ++ [(result, polled)] }

/-- What a requester makes of a frame. -/
def remoteResult (handle : RemoteHandle) (waited : UInt64) (wire : WireResult) :
    ActiveExpertExecutionResult :=
  if !wire.status.ok then failedResult handle.request handle.requestSha256 wire.status
  else match decodeResponse sha256 wire.frame with
    | .error status => failedResult handle.request handle.requestSha256 status
    | .ok result =>
      if result.identity ≠ handle.request.identity ∨
          result.requestId ≠ handle.request.invocation.requestId ∨
          result.invocationId ≠ handle.request.invocation.invocationId ∨
          result.selectionIndex ≠ handle.request.invocation.selectionIndex ∨
          constantTimeEqual result.requestSha256 handle.requestSha256 = false ∨
          result.evidence.weightTransportBytes ≠ 0 ∨
          (result.status.ok ∧ (result.output.abi ≠ handle.request.invocation.outputAbi ∨
            result.output.bytes ≠ handle.request.invocation.outputBytes)) then
        failedResult handle.request handle.requestSha256
          ⟨.checksumMismatch, ascii "remote active-expert response correlation mismatch"⟩
      else { result with evidence := { result.evidence with
        wireRequestBytes := UInt64.ofNat handle.frame.length
        wireResponseBytes := UInt64.ofNat wire.frame.length
        transportWaitNs := waited } }

/-- `wire` is what the transport's handle yields. -/
def RemoteHandle.poll (now : Int) (waited : UInt64) (wire : Option WireResult)
    (handle : RemoteHandle) : RemoteHandle :=
  match handle.phase with
  | .terminal => handle
  | .completed result => handle.yields result none
  | .waiting =>
    if handle.request.invocation.deadline ≠ deadlineMax ∧
        handle.request.invocation.deadline ≤ now then
      handle.yields (failedResult handle.request handle.requestSha256
        ⟨.deadlineExceeded, ascii "remote active-expert deadline expired"⟩) none
    else
      match wire with
      | none => handle
      | some wire => handle.yields (remoteResult sha256 handle waited wire) (some wire.frame)

structure Exchange where
  handles : List RemoteHandle := []
  owners : List Owner := []
  /-- Every response that was encoded. -/
  produced : List Production := []

inductive Action where
  | execute (validatedAt budgetedAt : Int) (accepted : Bool)
      (request : ActiveExpertExecutionRequest)
  | submit (decodedAt validatedAt : Int) (selected : Status) (requestFrame : Bytes)
  | pollOwner (owner : Nat) (now : Int) (valid : Bool)
      (completed : Option ActiveExpertExecutionResult) (elapsed : UInt64)
  | cancelOwner (owner : Nat)
  | poll (handle : Nat) (now : Int) (waited : UInt64) (wire : Option WireResult)
  | cancel (handle : Nat)

namespace Exchange

def step (exchange : Exchange) : Action → Option Exchange
  | .execute validatedAt budgetedAt accepted request =>
    some { exchange with handles := exchange.handles ++
      [RemoteHandle.execute sha256 validatedAt budgetedAt accepted request] }
  | .submit decodedAt validatedAt selected requestFrame =>
    let submitted := Owner.submit sha256 decodedAt validatedAt selected requestFrame
    some { exchange with
      owners := exchange.owners ++ [submitted.1]
      produced := exchange.produced ++ submitted.2 }
  | .pollOwner index now valid completed elapsed =>
    match exchange.owners[index]? with
    | none => none
    | some owner =>
      let polled := owner.poll sha256 now valid completed elapsed
      some { exchange with
        owners := exchange.owners.set index polled.1
        produced := exchange.produced ++ polled.2.2 }
  | .cancelOwner index =>
    match exchange.owners[index]? with
    | none => none
    | some owner =>
      some { exchange with
        owners := exchange.owners.set index { owner with phase := .terminal } }
  | .poll index now waited wire =>
    match exchange.handles[index]? with
    | none => none
    | some handle =>
      some { exchange with
        handles := exchange.handles.set index (handle.poll sha256 now waited wire) }
  | .cancel index =>
    match exchange.handles[index]? with
    | none => none
    | some handle =>
      some { exchange with
        handles := exchange.handles.set index { handle with phase := .terminal } }

/-- The transport computes no digests: a frame it delivers with the digest of its
payload is one that an endpoint produced. -/
def Unforged (exchange : Exchange) : Action → Prop
  | .poll _ _ _ (some wire) =>
    Authentic sha256 wire.frame → ∃ production ∈ exchange.produced, production.frame = wire.frame
  | _ => True

instance (exchange : Exchange) (action : Action) : Decidable (exchange.Unforged sha256 action) :=
  match action with
  | .poll _ _ _ (some _) => inferInstanceAs (Decidable (_ → ∃ _ ∈ _, _))
  | .poll _ _ _ none | .execute .. | .submit .. | .pollOwner .. | .cancelOwner _ | .cancel _ =>
    inferInstanceAs (Decidable True)

/-- The request payloads that were hashed. -/
def requestPayloads (exchange : Exchange) : List Bytes :=
  (exchange.handles.map fun handle => payloadOf handle.frame) ++
    exchange.owners.map fun owner => payloadOf owner.requestFrame

/-- No two of the request payloads collide. -/
def CollisionFree (exchange : Exchange) : Prop :=
  ∀ left ∈ exchange.requestPayloads, ∀ right ∈ exchange.requestPayloads,
    sha256 left = sha256 right → left = right

instance (exchange : Exchange) : Decidable (exchange.CollisionFree sha256) :=
  inferInstanceAs (Decidable (∀ _ ∈ _, ∀ _ ∈ _, _))

end Exchange

end QuantumLlm.Runtime.ActiveExpert
