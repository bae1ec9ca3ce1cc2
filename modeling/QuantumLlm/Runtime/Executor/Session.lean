import Mathlib.Data.List.Dedup
import QuantumLlm.Lib.Run
import QuantumLlm.Runtime.Storage

/-!
# Program sessions

The flags of a `MoeProgramExecutor` session and its steps, one action per mutex
section: interpreted steps, direct sequences, exact decodes and the synchronous
exact batch share `active`, `closed` and the transaction flag. What a provider
answers is part of the action.
-/

namespace QuantumLlm.Runtime.Executor

/-- Interpreted steps may close their session after a success. -/
inductive StepKind where
  | interpreted (closeAfterSuccess : Bool)
  | sequence
  | exact
  deriving DecidableEq

inductive HandleState where
  /-- The start call has not returned it yet. -/
  | pending
  | valid
  | done
  deriving DecidableEq

/-- A `RequestState` or `ExactDecodeState` and the handle to it. -/
structure ExecutionStep where
  kind : StepKind
  handle : HandleState
  /-- Destroyed steps are no longer behind a weak pointer. -/
  alive : Bool := true
  terminal : Bool := false
  cancelledResultPending : Bool := false
  /-- Number of results the handle has returned. -/
  results : Nat := 0
  deriving DecidableEq

namespace ExecutionStep

/-- The step is under way. -/
def running (step : ExecutionStep) : Bool := step.alive && !step.terminal

/-- The provider call that starts the step is still to come. -/
def unissued (step : ExecutionStep) : Bool := step.alive && step.handle = .pending

def isExact (step : ExecutionStep) : Bool := step.kind = .exact

end ExecutionStep

/-- Provider calls that read or change the request state of a provider. -/
inductive ProviderCall where
  | execute
  | executeProgramSequence
  | executeExactDecode
  | synchronizeExactDecodeBatch
  | checkpointRequestState
  | rewindRequestState
  deriving DecidableEq

/-- What happened to a session, for the record. -/
inductive SessionEvent where
  | call (call : ProviderCall)
  | parked
  | restored
  | saved
  deriving DecidableEq

/-- The calls of a poll that issues so many operations; only interpreted steps issue any. -/
def ExecutionStep.calls (step : ExecutionStep) (operations : Nat) : List SessionEvent :=
  match step.kind with
  | .interpreted _ => List.replicate operations (.call .execute)
  | _ => []

structure SessionState where
  /-- Registry indices of `provider_states`. -/
  providerStates : List UInt32
  steps : List ExecutionStep := []
  activeStep : Option Nat := none
  activeExact : Option Nat := none
  /-- Between the two sections of `synchronize_exact`. -/
  synchronizing : Bool := false
  /-- Steps that a session cancel has still to cancel. -/
  cancelling : List Nat := []
  active : Bool := false
  parked : Bool := false
  closed : Bool := false
  retentionTransaction : Bool := false
  history : List SessionEvent := []
  deriving DecidableEq

/-- The registry indices a prepared program is bound to. -/
structure SessionProgram where
  /-- One index for each operation; a program has operations. -/
  prepared : List UInt32
  prepared_ne_nil : prepared ≠ []
  sequence : Option UInt32 := none
  exactDecode : Option UInt32 := none

inductive IssueAnswer where
  | handle
  | invalid
  | threw
  deriving DecidableEq

/-- How far one poll gets. An interpreted step issues operations on the way. -/
inductive PollAnswer where
  | pending
  | failed
  | succeeded
  | threw
  deriving DecidableEq

inductive SessionAction where
  | start (validInputs closeAfterSuccess : Bool)
  | reserveSequence (validInputs : Bool)
  | reserveExact (validInvocation : Bool)
  | issue (step : Nat) (answer : IssueAnswer)
  | reserveSynchronize (validBatch : Bool)
  | finishSynchronize (ok : Bool)
  | poll (step : Nat) (operations : Nat) (answer : PollAnswer)
  | cancelHandle (step : Nat)
  | cancelSession
  | cancelStep
  | beginTransaction
  | endTransaction
  | parkRetention (ok : Bool)
  | restoreRetention (ok : Bool)
  | checkpointRetention (calls : Nat)
  | rewindRetention (calls : Nat)
  | saveSnapshot
  deriving DecidableEq

namespace SessionState

def record (session : SessionState) (events : List SessionEvent) : SessionState :=
  { session with history := session.history ++ events }

def setStep (session : SessionState) (index : Nat) (step : ExecutionStep) : SessionState :=
  { session with steps := session.steps.set index step }

def addStep (session : SessionState) (step : ExecutionStep) : SessionState :=
  { session with steps := session.steps ++ [step] }

/-- The weak pointer of the step's kind, reset when it is the step. -/
def released (session : SessionState) (index : Nat) (isExact : Bool) : SessionState :=
  if isExact then
    if session.activeExact = some index then { session with activeExact := none, active := false }
    else session
  else if session.activeStep = some index then
    { session with activeStep := none, active := false }
  else session

def closedIf (session : SessionState) (close : Bool) : SessionState :=
  if close then { session with closed := true } else session

def cleared (session : SessionState) : SessionState :=
  if session.closed then { session with providerStates := [] } else session

/-- `finish` and `finish_exact`. -/
def finish (session : SessionState) (index : Nat) (isExact success : Bool) : SessionState :=
  let session := session.released index isExact
  (session.closedIf (!success && !session.retentionTransaction)).cleared

/-- `close`. -/
def close (session : SessionState) : SessionState :=
  let session := { session with closed := true }
  if session.active then session else { session with providerStates := [] }

/-- `cancel` of a step: nothing when it is terminal. -/
def cancelled (session : SessionState) (index : Nat) (step : ExecutionStep) (publish : Bool) :
    SessionState :=
  if step.terminal then session
  else
    (session.setStep index { step with
      terminal := true, cancelledResultPending := publish && !step.isExact }).finish
      index step.isExact false

/-- The step an alive weak pointer leads to. -/
def locked (session : SessionState) (pointer : Option Nat) : Option Nat :=
  pointer.filter fun index => (session.steps[index]?.map (·.alive)).getD false

def idle (session : SessionState) : Bool := !session.closed && !session.active

def start (session : SessionState) (closeAfterSuccess : Bool) : SessionState :=
  if session.idle then
    { session.addStep { kind := .interpreted closeAfterSuccess, handle := .valid } with
      active := true, activeStep := some session.steps.length }
  else session

def reserveSequence (program : SessionProgram) (session : SessionState) : SessionState :=
  if session.idle ∧ ∃ index, program.sequence = some index ∧ index ∈ session.providerStates then
    { session.addStep { kind := .sequence, handle := .pending } with
      active := true, activeStep := some session.steps.length }
  else session

def reserveExact (program : SessionProgram) (session : SessionState) : SessionState :=
  if session.idle ∧ ∃ index, program.exactDecode = some index ∧ index ∈ session.providerStates then
    { session.addStep { kind := .exact, handle := .pending } with
      active := true, activeExact := some session.steps.length }
  else session

/-- The provider call after the section that reserved the session. -/
def issue (session : SessionState) (index : Nat) (step : ExecutionStep) (answer : IssueAnswer) :
    SessionState :=
  let call := if step.isExact then ProviderCall.executeExactDecode else .executeProgramSequence
  let session := session.record [.call call]
  match answer with
  | .handle => session.setStep index { step with handle := .valid }
  | .invalid =>
    if step.isExact then
      -- `terminal` is set and `finish_exact` called whether or not the step was cancelled
      (session.setStep index { step with handle := .done, terminal := true, alive := false }).finish
        index true false
    else
      let session := session.cancelled index step false
      session.setStep index { step with
        handle := .done, terminal := true, alive := false }
  | .threw =>
    -- the exception unwinds past the reservation; only a session cancel still holds the step
    session.setStep index { step with handle := .done, alive := index ∈ session.cancelling }

def reserveSynchronize (program : SessionProgram) (session : SessionState) : SessionState :=
  if session.idle ∧ ∃ index, program.exactDecode = some index ∧ index ∈ session.providerStates then
    { session with active := true, synchronizing := true }
  else session

/-- The second section of `synchronize_exact`, after the provider call. -/
def finishSynchronize (session : SessionState) (ok : Bool) : SessionState :=
  let session := { session.record [.call .synchronizeExactDecodeBatch] with
    synchronizing := false, active := false }
  if ok then session else { session with closed := true, providerStates := [] }

/-- A result of the step's handle. -/
def yielded (session : SessionState) (index : Nat) : SessionState :=
  { session with steps := session.steps.modify index fun step =>
      { step with handle := .done, results := step.results + 1 } }

def poll (session : SessionState) (index : Nat) (step : ExecutionStep) (operations : Nat)
    (answer : PollAnswer) : SessionState :=
  if step.handle ≠ .valid then session
  else if step.cancelledResultPending then
    (session.setStep index { step with cancelledResultPending := false }).yielded index
  else if step.terminal then session
  else
    let session := session.record (step.calls operations)
    match answer with
    | .pending => session
    | .failed =>
      ((session.setStep index { step with terminal := true }).finish index step.isExact
        false).yielded index
    | .threw =>
      -- the handle catches, cancels the step and returns the error
      (session.cancelled index step false).yielded index
    | .succeeded =>
      let session := (session.setStep index { step with terminal := true }).finish index
        step.isExact true
      (if step.kind = .interpreted true then session.close else session).yielded index

def cancelHandle (session : SessionState) (index : Nat) (step : ExecutionStep) : SessionState :=
  if step.handle ≠ .valid then session
  else
    let session := session.cancelled index step false
    { session with steps := session.steps.modify index fun step => { step with handle := .done } }

/-- The section of `cancel`, which then cancels the steps it found. -/
def cancelSession (session : SessionState) : SessionState :=
  if session.closed ∧ ¬ session.active then session
  else
    let session := { session with closed := true }
    match session.locked session.activeStep, session.locked session.activeExact with
    | none, none => { session with active := false, providerStates := [] }
    | step, exact =>
      { session with cancelling := session.cancelling ++ step.toList ++ exact.toList }

def parkRetention (session : SessionState) (ok : Bool) : SessionState :=
  if session.idle ∧ ¬ session.parked ∧ ok then
    { session.record [.parked] with parked := true }
  else session

def restoreRetention (session : SessionState) (ok : Bool) : SessionState :=
  if session.idle ∧ session.parked ∧ ok then
    { session.record [.restored] with parked := false }
  else session

/-- The loops of `checkpoint_retention` and `rewind_retention`, which stop at a failure. -/
def controlRetention (session : SessionState) (call : ProviderCall) (calls : Nat) : SessionState :=
  if session.idle then session.record (List.replicate calls (.call call)) else session

def step (program : SessionProgram) (session : SessionState) : SessionAction → Option SessionState
  | .start validInputs closeAfterSuccess =>
    some (if validInputs then session.start closeAfterSuccess else session)
  | .reserveSequence validInputs =>
    some (if validInputs then session.reserveSequence program else session)
  | .reserveExact validInvocation =>
    some (if validInvocation then session.reserveExact program else session)
  | .issue index answer =>
    match session.steps[index]? with
    | some step => if step.unissued then some (session.issue index step answer) else none
    | none => none
  | .reserveSynchronize validBatch =>
    some (if validBatch then session.reserveSynchronize program else session)
  | .finishSynchronize ok =>
    if session.synchronizing then some (session.finishSynchronize ok) else none
  | .poll index operations answer =>
    (session.steps[index]?).map fun step => session.poll index step operations answer
  | .cancelHandle index => (session.steps[index]?).map fun step => session.cancelHandle index step
  | .cancelSession => some session.cancelSession
  | .cancelStep =>
    match session.cancelling with
    | [] => none
    | index :: rest =>
      let session := { session with cancelling := rest }
      (session.steps[index]?).map fun step => session.cancelled index step true
  | .beginTransaction =>
    some (if session.idle ∧ ¬ session.parked ∧ ¬ session.retentionTransaction then
      { session with retentionTransaction := true } else session)
  | .endTransaction =>
    some (if session.idle ∧ session.retentionTransaction then
      { session with retentionTransaction := false } else session)
  | .parkRetention ok => some (session.parkRetention ok)
  | .restoreRetention ok => some (session.restoreRetention ok)
  | .checkpointRetention calls => some (session.controlRetention .checkpointRequestState calls)
  | .rewindRetention calls => some (session.controlRetention .rewindRequestState calls)
  | .saveSnapshot =>
    some (if session.idle ∧ session.parked then session.record [.saved] else session)

/-- A session right after it began, loaded from a snapshot or not, with a state
for every provider of the program. -/
def begun (program : SessionProgram) (loaded : Bool) : SessionState where
  providerStates := (program.prepared ++ program.exactDecode.toList).dedup
  parked := loaded
  history := if loaded then [.parked] else []

end SessionState

end QuantumLlm.Runtime.Executor
