import QuantumLlm.Runtime.Mtp.State

/-!
# Exact decode

`execute_exact_decode`: the target runs over the guaranteed token and the drafts, a
prefix of the drafts is accepted, the state goes back to the row behind it, and the
draft continues from there.
-/

namespace QuantumLlm.Runtime.Mtp

open SpeculativeSampling

structure ExactDecodeInvocation where
  request : RequestContext
  guaranteedToken : UInt32
  position : Nat
  contextLimit : Nat

structure ExactDecodeExecutionResult where
  emittedTokens : List UInt32
  nextToken : UInt32
  positionsAdvanced : Nat
  deriving DecidableEq

/-- How the proposals fared. -/
structure Verification where
  accepted : Nat
  nextToken : UInt32
  rejected : Bool
  deriving DecidableEq

variable {α R K H : Type} [Field α] [LinearOrder α]

/-- The loop over the proposals, and the bonus draw behind all of them. -/
def verifyProposals (uniforms : Uniforms α) (seed position : Nat) (bonus : SamplingDistribution α) :
    Nat → List (MtpPrediction α × SamplingDistribution α) → Except SamplingError Verification
  | accepted, [] => do
    let token ← sampleDistribution bonus (uniforms.draw seed ⟨position + accepted, 300, 0⟩)
    return ⟨accepted, token, false⟩
  | accepted, (proposal, target) :: rest => do
    let decision ← rejectionSample proposal.token target proposal.distribution
      (uniforms.draw seed ⟨position + accepted, 100, accepted⟩)
      (uniforms.draw seed ⟨position + accepted, 200, accepted⟩)
    if ¬ decision.accepted then return ⟨accepted, decision.token, true⟩
    else verifyProposals uniforms seed position bonus (accepted + 1) rest

def RequestState.restoreVerified (state : RequestState α R K H) (verification : Verification) :
    Except SamplingError (RequestState α R K H) :=
  if verification.rejected then
    state.restoreSpeculativeRecurrentCheckpoint verification.accepted
  else .ok state

namespace Program

variable (program : Program α R K H)

/-- The distribution of each row, with the proposals before it marked as present. -/
def targetDistributions (request : RequestContext) :
    Finset UInt32 → List H → List UInt32 → Except SamplingError (List (SamplingDistribution α))
  | _, [], _ => .ok []
  | presence, hidden :: rest, proposals => do
    let distribution ← distributionFromLogits program.exponential program.vocabularySize
      (program.head hidden) request presence
    match proposals with
    | [] => return [distribution]
    | proposal :: proposals => do
      let distributions ← targetDistributions request (insert proposal presence) rest proposals
      return distribution :: distributions

/-- The next rollout, when another exact decode fits. -/
def continueMultiDraft (uniforms : Uniforms α) (state : RequestState α R K H)
    (invocation : ExactDecodeInvocation) (presence : Finset UInt32) (futureExact : Bool)
    (first : Option (MtpPrediction α)) : Except SamplingError (RequestState α R K H) :=
  if futureExact then
    match first with
    | none => .error (.runtimeError "next MTP rollout produced no root")
    | some first =>
      program.extendMtpRollout uniforms state invocation.request first presence
        invocation.contextLimit
  else .ok state

/-- Behind the verification: the state goes back to the last accepted row, and the draft takes
over from there. -/
def commitMultiDraft (uniforms : Uniforms α) (state : RequestState α R K H)
    (invocation : ExactDecodeInvocation) (hidden : List H) (verification : Verification) :
    Except SamplingError (RequestState α R K H × ExactDecodeExecutionResult) := do
  let proposals := (state.draftPredictions.map (·.token)).take verification.accepted
  let state ← state.restoreVerified verification
  let presence := state.samplingPresence ∪ proposals.toFinset ∪ {verification.nextToken}
  let positionsAdvanced := verification.accepted + 1
  let futureExact : Bool :=
    invocation.position + positionsAdvanced + 1 < invocation.contextLimit
  let (state, first) ← program.runMtp uniforms
    { state with
      lastHidden := hidden.getD verification.accepted state.lastHidden
      samplingPresence := presence
      mtpLength := invocation.position, draftValid := false, draftPredictions := [] }
    (proposals ++ [verification.nextToken]) (hidden.take positionsAdvanced)
    (List.range' (invocation.position + 1) positionsAdvanced) futureExact
    (if futureExact then some (invocation.request, presence) else none)
    ⟨invocation.position + positionsAdvanced, 1, 0⟩
  let state ← program.continueMultiDraft uniforms state invocation presence futureExact first
  return ({ state with synchronizedToken := verification.nextToken },
    ⟨invocation.guaranteedToken :: proposals, verification.nextToken, positionsAdvanced⟩)

/-- The second version of the ABI: several drafts, sampled. -/
def executeMultiDraft (uniforms : Uniforms α) (state : RequestState α R K H)
    (invocation : ExactDecodeInvocation) :
    Except SamplingError (RequestState α R K H × ExactDecodeExecutionResult) :=
  let proposals := state.draftPredictions
  if proposals = [] ∨ program.draftDepth < proposals.length ∨ 5 < proposals.length + 1 ∨
      invocation.contextLimit ≤ invocation.position + proposals.length then
    .error (.runtimeError "multi-draft MTP state is invalid")
  else if ¬ ∀ proposal ∈ proposals, 0 < proposal.distribution.probability proposal.token then
    .error (.runtimeError "MTP proposal has zero draft mass")
  else do
    let (state, hidden) ← program.runTarget state
      (invocation.guaranteedToken :: proposals.map (·.token))
      (List.range' invocation.position (proposals.length + 1)) .everyRow
    let distributions ← program.targetDistributions invocation.request state.samplingPresence
      hidden (proposals.map (·.token))
    let verification ← verifyProposals uniforms invocation.request.samplingSeed
      invocation.position (distributions.getLastD ⟨[]⟩) 0 (proposals.zip distributions)
    program.commitMultiDraft uniforms state invocation hidden verification

/-- The draft behind a legacy decode. -/
def continueLegacy (uniforms : Uniforms α) (state : RequestState α R K H)
    (tokens : List UInt32) (hidden : List H) (position : Nat) (produceDraft : Bool) :
    Except SamplingError (RequestState α R K H) := do
  let (state, draft) ← program.runMtp uniforms state tokens (hidden.take tokens.length)
    (List.range' (position + 1) tokens.length) produceDraft none ⟨0, 0, 0⟩
  if produceDraft then
    match draft with
    | none => .error (.runtimeError "legacy MTP produced no draft")
    | some draft => return { state with draftToken := draft.token, draftValid := true }
  else return state

def draftLegacy (uniforms : Uniforms α) (state : RequestState α R K H) (accepted : Bool)
    (draft nextToken : UInt32) (hidden : List H) (position : Nat) (futureExact : Bool) :
    Except SamplingError (RequestState α R K H) :=
  if accepted && position + 2 < program.maxContext then
    program.continueLegacy uniforms state [draft, nextToken] hidden position futureExact
  else if !accepted then
    program.continueLegacy uniforms state [nextToken] hidden position futureExact
  else
    -- The token behind the accepted one is outside the model's maximum context.
    program.continueLegacy uniforms state [draft] hidden position false

/-- Behind the verification of the one draft. -/
def commitLegacy (uniforms : Uniforms α) (state : RequestState α R K H)
    (invocation : ExactDecodeInvocation) (hidden : List H) (draft : UInt32) (accepted : Bool)
    (nextToken : UInt32) :
    Except SamplingError (RequestState α R K H × ExactDecodeExecutionResult) := do
  let positionsAdvanced := if accepted then 2 else 1
  let futureExact : Bool :=
    invocation.position + positionsAdvanced + 1 < invocation.contextLimit
  let state := if accepted then state else state.restoreRecurrentCheckpoint
  let state ← program.draftLegacy uniforms
    { state with
      lastHidden := hidden.getD (if accepted then 1 else 0) state.lastHidden
      draftValid := false, draftPredictions := [] }
    accepted draft nextToken hidden invocation.position futureExact
  return ({ state with synchronizedToken := nextToken },
    ⟨if accepted then [invocation.guaranteedToken, draft] else [invocation.guaranteedToken],
      nextToken, positionsAdvanced⟩)

/-- The first version of the ABI: one draft, greedy. -/
def executeLegacy (uniforms : Uniforms α) (state : RequestState α R K H)
    (invocation : ExactDecodeInvocation) :
    Except SamplingError (RequestState α R K H × ExactDecodeExecutionResult) := do
  let draft := state.draftToken
  let (state, hidden) ← program.runTarget state [invocation.guaranteedToken, draft]
    [invocation.position, invocation.position + 1] .afterFirst
  match hidden.map fun hidden => argmax (program.head hidden) with
  | [first, second] =>
    program.commitLegacy uniforms state invocation hidden draft (first = draft)
      (if first = draft then second else first)
  | _ => .error (.runtimeError "two-position target verification is incomplete")

def executeExactDecode (uniforms : Uniforms α) (state : RequestState α R K H)
    (invocation : ExactDecodeInvocation) :
    Except SamplingError (RequestState α R K H × ExactDecodeExecutionResult) :=
  if ¬ state.draftValid ∨ invocation.guaranteedToken ≠ state.synchronizedToken ∨
      invocation.position ≠ state.mtpLength ∨
      invocation.contextLimit ≤ invocation.position + 1 ∨
      program.maxContext < invocation.contextLimit then
    .error (.runtimeError "exact MTP invocation stream is invalid")
  else if 2 ≤ program.exactDecodeAbi then program.executeMultiDraft uniforms state invocation
  else program.executeLegacy uniforms state invocation

end Program

end QuantumLlm.Runtime.Mtp
