import Mathlib.Logic.Function.Basic
import QuantumLlm.Runtime.Mtp.Logits

/-!
# The request state of exact decode

The kernels of a target and of its draft are functions of what they read: a row of
the target sees its recurrent state and the keys and values of the positions before
it, a row of the draft those of the draft cache. Buffers keep what was written to
them last, so rows that were only speculated stay behind.
-/

namespace QuantumLlm.Runtime.Mtp

open SpeculativeSampling

/-- The arguments of `counter_uniform` behind the seed. -/
structure Counter where
  position : Nat
  stream : Nat
  index : Nat := 0
  deriving DecidableEq

/-- `counter_uniform`. -/
structure Uniforms (α : Type) [Field α] [LinearOrder α] where
  draw : Nat → Counter → α
  nonneg : ∀ seed counter, 0 ≤ draw seed counter
  lt_one : ∀ seed counter, draw seed counter < 1

/-- A target with its exact-decode program, as the provider accepts it. -/
structure Program (α R K H : Type) [Field α] [LinearOrder α] where
  exactDecodeAbi : Nat
  draftDepth : Nat
  vocabularySize : Nat
  draftVocabularySize : Nat
  maxContext : Nat
  workspaceRows : Nat
  exponential : Exponential α
  /-- Before the first token. -/
  initial : R
  targetRow : R → List K → UInt32 → R × K × H
  head : H → List α
  mtpRow : List K → UInt32 → H → Nat → K × H
  mtpHead : H → List α
  abi : exactDecodeAbi = 1 ∧ draftDepth = 1 ∨ exactDecodeAbi = 2 ∧ 3 ≤ draftDepth ∧ draftDepth ≤ 4
  draftVocabulary : 0 < draftVocabularySize ∧ draftVocabularySize ≤ vocabularySize
  vocabulary : vocabularySize ≤ UInt32.size
  rows : 5 ≤ workspaceRows
  head_length : ∀ hidden, (head hidden).length = vocabularySize
  mtpHead_length : ∀ hidden, (mtpHead hidden).length = draftVocabularySize

structure MtpPrediction (α : Type) where
  token : UInt32
  distribution : SamplingDistribution α

/-- The request state, with the buffers of its slot. -/
structure RequestState (α R K H : Type) where
  recurrent : R
  /-- Behind the first row of a batch of two. -/
  recurrentCheckpoint : R
  /-- Behind each row of a speculative batch. -/
  speculativeCheckpoint : Nat → R
  keyValues : Nat → K
  mtpKeyValues : Nat → K
  lastHidden : H
  mtpLastHidden : H
  samplingPresence : Finset UInt32 := ∅
  currentPosition : Nat := 0
  synchronizationFirst : Nat := 0
  synchronizationRows : Nat := 0
  synchronizationConsumed : Nat := 0
  /-- The hidden rows that wait for their synchronization. -/
  targetHidden : List H := []
  mtpLength : Nat := 0
  synchronizedToken : UInt32 := 0
  draftToken : UInt32 := 0
  draftPredictions : List (MtpPrediction α) := []
  draftValid : Bool := false
  retentionPosition : Nat := 0
  retentionValid : Bool := false
  retained : R × H
  exactDecodeEnabled : Bool := false

inductive RecurrentCheckpointMode where
  | afterFirst
  | everyRow
  deriving DecidableEq

namespace RequestState

variable {α R K H : Type}

def restoreRecurrentCheckpoint (state : RequestState α R K H) : RequestState α R K H :=
  { state with recurrent := state.recurrentCheckpoint }

def restoreSpeculativeRecurrentCheckpoint (state : RequestState α R K H) (row : Nat) :
    Except SamplingError (RequestState α R K H) :=
  if 5 ≤ row then .error (.runtimeError "invalid speculative recurrent checkpoint")
  else .ok { state with recurrent := state.speculativeCheckpoint row }

end RequestState

variable {α R K H : Type} [Field α] [LinearOrder α]

namespace Program

-- A check of every token goes over the tokens, not over all that a token can be.
local instance (priority := 2000) everyTokenDecidable (holds : UInt32 → Prop)
    [DecidablePred holds] (tokens : List UInt32) : Decidable (∀ token ∈ tokens, holds token) :=
  List.decidableBAll holds tokens

variable (program : Program α R K H)

/-- The rows of a batch; what is behind each of them is its recurrent state. -/
def targetRows : R → (Nat → K) → List (UInt32 × Nat) → R × (Nat → K) × List H × List R
  | recurrent, keyValues, [] => (recurrent, keyValues, [], [])
  | recurrent, keyValues, (token, position) :: rest =>
    let row := program.targetRow recurrent ((List.range position).map keyValues) token
    let batch := targetRows row.1 (Function.update keyValues position row.2.1) rest
    (batch.1, batch.2.1, row.2.2 :: batch.2.2.1, row.1 :: batch.2.2.2)

/-- `run_target`, with the hidden rows that it leaves; the logits are their heads. -/
def runTarget (state : RequestState α R K H) (tokens : List UInt32) (positions : List Nat)
    (mode : RecurrentCheckpointMode) : Except SamplingError (RequestState α R K H × List H) :=
  if tokens = [] ∨ program.workspaceRows < tokens.length ∨ tokens.length ≠ positions.length then
    .error (.runtimeError "invalid target-model microbatch")
  else if ¬ ∀ token ∈ tokens, token.toNat < program.vocabularySize then
    .error (.runtimeError "target token exceeds vocabulary")
  else
    let batch := program.targetRows state.recurrent state.keyValues (tokens.zip positions)
    let state := { state with recurrent := batch.1, keyValues := batch.2.1 }
    match mode with
    | .afterFirst =>
      .ok ({ state with recurrentCheckpoint := batch.2.2.2.headD state.recurrentCheckpoint },
        batch.2.2.1)
    | .everyRow =>
      .ok ({ state with
        speculativeCheckpoint := fun row =>
          (batch.2.2.2[row]?).getD (state.speculativeCheckpoint row) }, batch.2.2.1)

def mtpRows : (Nat → K) → Nat → List (UInt32 × H × Nat) → (Nat → K) × List H
  | keyValues, _, [] => (keyValues, [])
  | keyValues, position, (token, hidden, rotary) :: rest =>
    let row := program.mtpRow ((List.range position).map keyValues) token hidden rotary
    let batch := mtpRows (Function.update keyValues position row.1) (position + 1) rest
    (batch.1, row.2 :: batch.2)

/-- The prediction behind the last row. Without a request it is greedy. -/
def mtpPrediction (uniforms : Uniforms α) (hidden : H)
    (request : Option (RequestContext × Finset UInt32)) (counter : Counter) :
    Except SamplingError (MtpPrediction α) :=
  match request with
  | none => .ok ⟨argmax (program.mtpHead hidden), ⟨[⟨argmax (program.mtpHead hidden), 1⟩]⟩⟩
  | some (request, presence) => do
    let distribution ← distributionFromLogits program.exponential program.vocabularySize
      (program.mtpHead hidden) request presence
    let token ← sampleDistribution distribution (uniforms.draw request.samplingSeed counter)
    return ⟨token, distribution⟩

def runMtp (uniforms : Uniforms α) (state : RequestState α R K H) (tokens : List UInt32)
    (previousHidden : List H) (rotaryPositions : List Nat) (produceLogits : Bool)
    (request : Option (RequestContext × Finset UInt32)) (counter : Counter) :
    Except SamplingError (RequestState α R K H × Option (MtpPrediction α)) :=
  if tokens = [] ∨ program.workspaceRows < tokens.length ∨
      tokens.length ≠ rotaryPositions.length ∨
      program.maxContext < state.mtpLength + tokens.length then
    .error (.runtimeError "invalid MTP microbatch")
  else if ¬ (∀ token ∈ tokens, token.toNat < program.vocabularySize) ∨
      rotaryPositions ≠ List.range' (state.mtpLength + 1) tokens.length then
    .error (.runtimeError "MTP token/position stream is not contiguous")
  else
    let batch := program.mtpRows state.mtpKeyValues state.mtpLength
      (tokens.zip (previousHidden.zip rotaryPositions))
    let state := { state with
      mtpKeyValues := batch.1, mtpLength := state.mtpLength + tokens.length }
    if ¬ produceLogits then .ok (state, none)
    else
      let hidden := batch.2.getLastD state.mtpLastHidden
      do
        let prediction ← program.mtpPrediction uniforms hidden request counter
        return ({ state with mtpLastHidden := hidden }, some prediction)

/-- The loop of `extend_mtp_rollout`, for as many proposals as the depth still allows. -/
def rollout (uniforms : Uniforms α) (request : RequestContext) (contextLimit : Nat) :
    Nat → RequestState α R K H → Finset UInt32 → Except SamplingError (RequestState α R K H)
  | 0, state, _ => .ok state
  | remaining + 1, state, presence =>
    if state.mtpLength + 2 < contextLimit then do
      let last := (state.draftPredictions.getLast?.map MtpPrediction.token).getD 0
      let (state, prediction) ← program.runMtp uniforms state [last] [state.mtpLastHidden]
        [state.mtpLength + 1] true (some (request, presence))
        ⟨state.mtpLength, 1 + state.draftPredictions.length, 0⟩
      match prediction with
      | none => .error (.runtimeError "MTP rollout produced no proposal")
      | some prediction =>
        rollout uniforms request contextLimit remaining
          { state with draftPredictions := state.draftPredictions ++ [prediction] }
          (insert prediction.token presence)
    else .ok state

def extendMtpRollout (uniforms : Uniforms α) (state : RequestState α R K H)
    (request : RequestContext) (first : MtpPrediction α) (presence : Finset UInt32)
    (contextLimit : Nat) : Except SamplingError (RequestState α R K H) :=
  if program.exactDecodeAbi < 2 ∨ program.draftDepth = 0 ∨ program.maxContext < contextLimit ∨
      contextLimit ≤ state.mtpLength ∨ ¬ 0 < first.distribution.probability first.token then
    .error (.runtimeError "invalid MTP rollout root")
  else if contextLimit ≤ state.mtpLength + 1 then
    .error (.runtimeError "MTP rollout root exceeds context")
  else do
    let committedLength := state.mtpLength
    let state ← program.rollout uniforms request contextLimit (program.draftDepth - 1)
      { state with draftPredictions := [first] } (insert first.token presence)
    return { state with
      draftToken := first.token, draftValid := !state.draftPredictions.isEmpty,
      mtpLength := committedLength }

end Program

end QuantumLlm.Runtime.Mtp
