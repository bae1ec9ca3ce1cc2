import Mathlib.Algebra.Group.Nat.Defs
import Mathlib.Data.List.Basic
import QuantumLlm.Lib.Fallible

/-!
# Feeding a prompt

The worker feeds a prompt to its session in one program sequence or chunk by chunk. Both
ways execute the tokens, synchronise the exact decode program and checkpoint the position
that is retained. A session is what its calls answer; its model is a function from the text
to the next token.
-/

namespace QuantumLlm.Runtime.Worker

open Fallible

def maxU32 : Nat := 2 ^ 32 - 1

/-- The conversion to `std::uint32_t`. -/
def u32 (value : Nat) : Nat := value % 2 ^ 32

theorem u32_eq {value : Nat} (h : value < 2 ^ 32) : u32 value = value := Nat.mod_eq_of_lt h

inductive SessionCall
  | execute (tokens positions : List Nat) (multimodal : List UInt8)
  | executeProgramSequence (tokens positions : List Nat) (multimodal : List UInt8)
  | synchronizeExactDecodeBatch (nextTokens : List Nat) (firstTargetPosition : Nat)
      (produceFinalDraft : Bool)
  | checkpointRetention (nextPosition : Nat)
  deriving DecidableEq

structure ProgramExecutionSession where
  vocabSize : Nat
  /-- `retention_checkpoint_position` of the request; absent where it is zero. -/
  retentionCheckpointPosition : Nat
  /-- `reserved_context_tokens` of the request. -/
  reservedContextTokens : Nat
  programSequenceAvailable : Bool
  exactDecodeAvailable : Bool
  /-- The tokens before the prompt. -/
  history : List Nat
  /-- The model: the next token of a text. -/
  next : List Nat → Nat
  next_lt : ∀ text, next text < vocabSize
  /-- Whether a batch behind a text is answered with the prediction of each of its rows. -/
  everyRow : List Nat → List Nat → Bool
  /-- How a call behind earlier ones fails; a prefill also when it is cancelled. -/
  refusal : List SessionCall → SessionCall → Option String

namespace SessionCall

/-- The tokens that a call executes. -/
def tokens : SessionCall → List Nat
  | execute tokens _ _ => tokens
  | executeProgramSequence tokens _ _ => tokens
  | _ => []

/-- The tokens that a call executes, with their positions. -/
def submitted : SessionCall → List (Nat × Nat)
  | execute tokens positions _ => tokens.zip positions
  | executeProgramSequence tokens positions _ => tokens.zip positions
  | _ => []

/-- The successors that a call synchronises, with their target positions. -/
def synchronized : SessionCall → List (Nat × Nat)
  | synchronizeExactDecodeBatch nextTokens first _ => nextTokens.zipIdx first
  | _ => []

def checkpointed : SessionCall → List Nat
  | checkpointRetention nextPosition => [nextPosition]
  | _ => []

end SessionCall

namespace ProgramExecutionSession

variable (session : ProgramExecutionSession)

def call (calls : List SessionCall) (call : SessionCall) : Except String (List SessionCall) :=
  match session.refusal calls call with
  | some message => .error message
  | none => .ok (calls ++ [call])

/-- The text behind the calls. -/
def text (calls : List SessionCall) : List Nat :=
  session.history ++ calls.flatMap SessionCall.tokens

/-- What a batch publishes: the prediction of each row, or of the last. -/
def batchPredictions (text tokens : List Nat) : List Nat :=
  if session.everyRow text tokens then
    (List.range tokens.length).map fun row => session.next (text ++ tokens.take (row + 1))
  else [session.next (text ++ tokens)]

/-- What a program sequence publishes: the prediction of the retained row inside it, if any, and
of the last. -/
def sequencePredictions (text tokens : List Nat) (firstPosition : Nat) : List Nat :=
  let retention := session.retentionCheckpointPosition
  if firstPosition < retention ∧ retention ≤ u32 (firstPosition + u32 (tokens.length - 1)) then
    [session.next (text ++ tokens.take (retention - firstPosition)), session.next (text ++ tokens)]
  else [session.next (text ++ tokens)]

/-- `synchronize_exact`. -/
def synchronizeExactDecodeBatch (calls : List SessionCall) (nextTokens : List Nat)
    (firstTargetPosition : Nat) (produceFinalDraft : Bool) : Except String (List SessionCall) := do
  ensure (session.exactDecodeAvailable = true ∧ nextTokens ≠ [] ∧ nextTokens.length ≤ maxU32 ∧
      firstTargetPosition ≤ maxU32 - u32 (nextTokens.length - 1) ∧
      ∀ token ∈ nextTokens, token < session.vocabSize)
    "exact decode synchronization is unavailable or invalid"
  session.call calls (.synchronizeExactDecodeBatch nextTokens firstTargetPosition
    (produceFinalDraft &&
      decide (firstTargetPosition + nextTokens.length + 1 < session.reservedContextTokens)))

end ProgramExecutionSession

structure SamplingSettings where
  temperaturePpm : Nat := 0
  topK : Nat := 0

def SamplingSettings.enabled (sampling : SamplingSettings) : Bool := sampling.temperaturePpm ≠ 0

structure ActiveRequest where
  predicted : Nat := 0
  retentionPredicted : Nat := 0
  nextPosition : Nat := 0
  retentionPosition : Nat := 0
  retentionPredictionValid : Bool := false
  sampling : SamplingSettings := {}
  multimodal : List UInt8 := []

/-- The last prediction is also that of the retained position. -/
def ActiveRequest.retainPredicted (request : ActiveRequest) : ActiveRequest :=
  { request with retentionPredicted := request.predicted, retentionPredictionValid := true }

/-- What the worker knows of its module and of its model. -/
structure Service where
  prefillChunkTokens : Nat
  sessionRetention : Bool
  /-- The ABI of the exact decode program, where the model has one. -/
  exactDecodeAbi : Option Nat

def Service.exactEligible (service : Service) (sampling : SamplingSettings) : Bool :=
  match service.exactDecodeAbi with
  | none => false
  | some abi =>
    if sampling.enabled then 2 ≤ abi && sampling.topK ≠ 0 && sampling.topK ≤ 64 else true

def Service.chunkTokens (service : Service) : Nat := max 1 service.prefillChunkTokens

def positionsFrom (firstPosition count : Nat) : List Nat :=
  (List.range count).map fun index => u32 (firstPosition + index)

def checkTokens (tokens : List Nat) (firstPosition : Nat) (what : String) : Except String Unit :=
  ensure (tokens ≠ [] ∧ tokens.length ≤ maxU32 ∧
    firstPosition ≤ maxU32 - u32 (tokens.length - 1)) what

/-- `start_prefill_batch` and `complete_prefill`. -/
def prefillBatch (session : ProgramExecutionSession) (calls : List SessionCall) (tokens : List Nat)
    (firstPosition : Nat) : Except String (List SessionCall × List Nat) := do
  checkTokens tokens firstPosition "invalid prefill batch"
  let published := session.batchPredictions (session.text calls) tokens
  let calls ← session.call calls (.execute tokens (positionsFrom firstPosition tokens.length) [])
  pure (calls, published)

/-- `start_prefill_sequence` and `complete_prefill`. -/
def prefillSequence (session : ProgramExecutionSession) (calls : List SessionCall)
    (tokens : List Nat) (firstPosition : Nat) (multimodal : List UInt8) :
    Except String (List SessionCall × List Nat) := do
  checkTokens tokens firstPosition "invalid prefill program-sequence"
  ensure (session.retentionCheckpointPosition ≤
      u32 (firstPosition + u32 (tokens.length - 1)) + 1)
    "program-sequence retention checkpoint is outside its positions"
  let published := session.sequencePredictions (session.text calls) tokens firstPosition
  let calls ← session.call calls
    (.executeProgramSequence tokens (positionsFrom firstPosition tokens.length) multimodal)
  pure (calls, published)

/-- The successors of some of the rows. -/
def successors (tokens : List Nat) (predicted offset count : Nat) : List Nat :=
  (List.range count).map fun row =>
    if offset + row + 1 = tokens.length then predicted else tokens.getD (offset + row + 1) 0

/-- What the ways have changed before they end alike. -/
structure Feeding where
  calls : List SessionCall
  request : ActiveRequest
  retentionCheckpointed : Bool

section

variable (service : Service) (session : ProgramExecutionSession) (tokens : List Nat)
  (firstPosition : Nat)

/-- The rounds of the loop that synchronises a program sequence. -/
def synchronizeSequence (predicted : Nat) :
    Nat → Nat → List SessionCall → Except String (List SessionCall)
  | 0, _, _ => .error "the rounds do not end"
  | rounds + 1, offset, calls =>
    if offset < tokens.length then do
      let count := min service.chunkTokens (tokens.length - offset)
      let calls ← session.synchronizeExactDecodeBatch calls
        (successors tokens predicted offset count) (u32 (firstPosition + u32 offset))
        (decide (offset + count = tokens.length))
      synchronizeSequence predicted rounds (offset + count) calls
    else pure calls

/-- The program-sequence path of `feed`. -/
def feedSequence (request : ActiveRequest) : Except String Feeding := do
  let finalPosition := u32 (firstPosition + u32 tokens.length)
  let interiorRetention : Bool :=
    firstPosition < request.retentionPosition ∧ request.retentionPosition < finalPosition
  let (calls, predictions) ← prefillSequence session [] tokens firstPosition request.multimodal
  ensure (predictions.length = if interiorRetention then 2 else 1)
    "program-sequence returned an invalid prediction width"
  let request := if interiorRetention then
    { request with retentionPredicted := predictions.headD 0, retentionPredictionValid := true }
    else request
  let request := { request with predicted := predictions.getLastD 0 }
  let calls ← (if service.exactEligible request.sampling && session.exactDecodeAvailable then
    synchronizeSequence service session tokens firstPosition request.predicted
      (tokens.length + 1) 0 calls
    else pure calls)
  let calls ← (if interiorRetention then
    session.call calls (.checkpointRetention request.retentionPosition)
    else pure calls)
  pure ⟨calls, { request with multimodal := [] }, interiorRetention⟩

/-- The tokens of the next chunk, which ends at the retained position where that lies in it. -/
def chunkCount (retentionPosition offset : Nat) : Nat :=
  let count := min service.chunkTokens (tokens.length - offset)
  let chunkFirst := u32 (firstPosition + u32 offset)
  let chunkEnd := u32 (chunkFirst + u32 count)
  if chunkFirst < retentionPosition ∧ retentionPosition < chunkEnd then
    retentionPosition - chunkFirst
  else count

/-- The prediction of the retained row, where it is one of the chunk. -/
def retainRow (predictions : List Nat) (offset count : Nat) (request : ActiveRequest) :
    Except String ActiveRequest :=
  if u32 (firstPosition + u32 offset) < request.retentionPosition ∧
      request.retentionPosition ≤ u32 (firstPosition + u32 (offset + count)) then do
    let checkpointRow := request.retentionPosition - firstPosition - u32 offset - 1
    if predictions.length = 1 then do
      ensure (checkpointRow + 1 = count) "prefill did not expose the retained boundary prediction"
      pure { request with
        retentionPredicted := predictions.headD 0, retentionPredictionValid := true }
    else do
      ensure (checkpointRow < predictions.length)
        "prefill did not return the retained boundary prediction"
      pure { request with
        retentionPredicted := predictions.getD checkpointRow 0, retentionPredictionValid := true }
  else pure request

/-- One round of the chunked path. -/
def feedChunk (offset : Nat) (feeding : Feeding) : Except String (Nat × Feeding) := do
  let count := chunkCount service tokens firstPosition feeding.request.retentionPosition offset
  let batch := (tokens.drop offset).take count
  let (calls, predictions) ← prefillBatch session feeding.calls batch
    (u32 (firstPosition + u32 offset))
  ensure (predictions.length = 1 ∨ predictions.length = count)
    "provider returned an invalid prefill prediction width"
  let request ← retainRow firstPosition predictions offset count
    { feeding.request with predicted := predictions.getLastD 0 }
  let calls ← (if service.exactEligible request.sampling && session.exactDecodeAvailable then
    session.synchronizeExactDecodeBatch calls (successors tokens request.predicted offset count)
      (u32 (firstPosition + u32 offset)) (decide (offset + count = tokens.length))
    else pure calls)
  let nextPosition := u32 (firstPosition + u32 (offset + count))
  if service.sessionRetention = true ∧ request.retentionPosition ≠ 0 ∧
      nextPosition = request.retentionPosition then do
    let calls ← session.call calls (.checkpointRetention nextPosition)
    pure (offset + count, ⟨calls, request, true⟩)
  else pure (offset + count, ⟨calls, request, feeding.retentionCheckpointed⟩)

/-- The rounds of the chunked path of `feed`. -/
def feedChunks : Nat → Nat → Feeding → Except String Feeding
  | 0, _, _ => .error "the rounds do not end"
  | rounds + 1, offset, feeding =>
    if offset < tokens.length then do
      let (offset, feeding) ← feedChunk service session tokens firstPosition offset feeding
      feedChunks rounds offset feeding
    else pure feeding

/-- The end of both paths. -/
def finishFeeding (feeding : Feeding) : Except String (List SessionCall × ActiveRequest) := do
  let request := { feeding.request with nextPosition := u32 (firstPosition + u32 tokens.length) }
  let request := if request.nextPosition = request.retentionPosition then request.retainPredicted
    else request
  if service.sessionRetention then do
    let retentionPosition := if request.retentionPosition = 0 then request.nextPosition
      else request.retentionPosition
    let calls ← (if feeding.retentionCheckpointed then pure feeding.calls
      else session.call feeding.calls (.checkpointRetention retentionPosition))
    let request := { request with retentionPosition }
    pure (calls, if retentionPosition = request.nextPosition then request.retainPredicted
      else request)
  else pure (feeding.calls, request)

def feed (request : ActiveRequest) : Except String (List SessionCall × ActiveRequest) := do
  let feeding ← (if 1 < tokens.length ∧ session.programSequenceAvailable = true then
    feedSequence service session tokens firstPosition request
    else
      feedChunks service session tokens firstPosition (tokens.length + 1) 0 ⟨[], request, false⟩)
  finishFeeding service session tokens firstPosition feeding

end

end QuantumLlm.Runtime.Worker
