import QuantumLlm.Runtime.Executor.Session
import QuantumLlm.Runtime.Program.Compile

/-!
# The program interpreter

The `RequestState` of an interpreted step: its values behind their indices and
the operation it is at. A poll goes round until an operation is pending, all
operations are done or something fails; the clock, the handles and the answers
of the providers come from outside.
-/

namespace QuantumLlm.Runtime.Program

open Executor

/-- A value of a provider. The owner keeps the storage behind the data alive. -/
structure ExecutionValue where
  abi : String
  memoryDomain : String
  owner : Option Nat
  data : UInt64
  bytes : UInt64
  deriving DecidableEq

def ExecutionValue.valid (value : ExecutionValue) : Bool :=
  value.abi ≠ "" && value.memoryDomain ≠ "" && value.owner.isSome && value.data ≠ 0 &&
    value.bytes ≠ 0

structure OperationExecutionResult where
  status : Status
  outputs : List ExecutionValue

structure ProgramExecutionResult where
  status : Status
  outputs : OrderedMap String ExecutionValue := .empty

def internalError (message : String) : Status := ⟨.internal, message⟩

/-- A bound program with the registry index of the provider of each operation. -/
structure Plan where
  program : CompiledModelProgram
  prepared : List UInt32

def prepareInstruction (program : CompiledModelProgram) (entry : CompiledOperationProgram × Nat) :
    Except Status UInt32 := do
  require (entry.1.logicalOperation.toNat = entry.2)
    "compiled operation order or kernel binding is invalid"
  match program.kernels[entry.1.kernelBinding.toNat]? with
  | none => .error ⟨.invalidArgument, "compiled operation order or kernel binding is invalid"⟩
  | some kernel => .ok kernel.providerRegistryIndex

/-- `create`, for providers that prepare every operation they are bound to. -/
def prepare (program : CompiledModelProgram) : Except Status Plan := do
  let prepared ← compileEach (prepareInstruction program) program.operations.zipIdx
  pure { program, prepared }

/-- The instructions of a plan. -/
def Plan.instructions (plan : Plan) : List (CompiledOperationProgram × UInt32) :=
  plan.program.operations.zip plan.prepared

structure RequestState where
  /-- Registry indices of the session's `provider_states`. -/
  providerStates : List UInt32
  values : List (Option ExecutionValue)
  currentInputs : List ExecutionValue := []
  inflight : Bool := false
  nextOperation : Nat := 0
  terminal : Bool := false
  cancelledResultPending : Bool := false
  /-- The operations handed to a provider so far and their inputs, for the record. -/
  executed : List (Nat × List ExecutionValue) := []

/-- What the providers answer: the result of an operation for its inputs. -/
abbrev Providers := Nat → List ExecutionValue → OperationExecutionResult

/-- What a poll finds: whether the deadline has passed at the start of each round,
which handles have their result and how `execute` answers. -/
structure Turn where
  expired : Nat → Bool
  ready : Nat → Bool
  issued : Nat → IssueAnswer

/-- The state after a poll and the result it returns, if any. -/
abbrev PollOutcome := RequestState × Option ProgramExecutionResult

/-- Half a round returns from the poll or goes on. -/
inductive Round where
  | returned (outcome : PollOutcome)
  | next (state : RequestState)

namespace RequestState

def fail (state : RequestState) (status : Status) : PollOutcome :=
  ({ state with inflight := false, currentInputs := [], values := [], terminal := true },
    some { status })

def cancel (state : RequestState) (publishResult : Bool) : RequestState :=
  if state.terminal then state
  else
    { state with
      inflight := false, currentInputs := [], values := [], terminal := true
      cancelledResultPending := publishResult }

/-- An exception out of the poll: the handle cancels the step and returns the error. -/
def threw (state : RequestState) (what : String) : PollOutcome :=
  (state.cancel false, some { status := internalError ("program execution poll failed: " ++ what) })

/-- The outputs of an operation, each into a slot that is still empty. -/
def storeOutputs (program : CompiledModelProgram) :
    List PortBinding → List ExecutionValue → List (Option ExecutionValue) →
    Option (List (Option ExecutionValue))
  | port :: ports, value :: outputs, values =>
    if values[port.valueIndex.toNat]? = some none ∧ value.valid ∧
        (program.values[port.valueIndex.toNat]?).map (·.abi) = some value.abi then
      storeOutputs program ports outputs (values.set port.valueIndex.toNat (some value))
    else none
  | _, _, values => some values

/-- The result of the operation under way. -/
def complete (plan : Plan) (state : RequestState) (result : OperationExecutionResult) : Round :=
  if result.status.ok then
    match plan.program.operations[state.nextOperation]? with
    | none => .returned ({ state with inflight := false }.threw "vector::_M_range_check")
    | some compiled =>
      if result.outputs.length ≠ compiled.outputValues.length then
        .returned (state.fail (internalError
          "operation provider returned a partial or extra output set"))
      else
        match storeOutputs plan.program compiled.outputValues result.outputs state.values with
        | none =>
          .returned (state.fail (internalError
            "operation provider returned an invalid output value"))
        | some values => .next { state with
            inflight := false, values, currentInputs := []
            nextOperation := state.nextOperation + 1 }
  else .returned (state.fail result.status)

/-- The first half of a round: the clock and the operation under way. -/
def settle (plan : Plan) (providers : Providers) (turn : Turn) (round : Nat)
    (state : RequestState) : Round :=
  if turn.expired round then
    .returned (state.fail ⟨.deadlineExceeded, "model program execution deadline expired"⟩)
  else if state.inflight then
    if turn.ready state.nextOperation then
      state.complete plan (providers state.nextOperation state.currentInputs)
    else .returned (state, none)
  else .next state

/-- The external outputs, by role. -/
def collectOutputs (values : List (Option ExecutionValue)) :
    OrderedMap String ExecutionValue → List CompiledProgramEndpoint →
    Option (OrderedMap String ExecutionValue)
  | outputs, [] => some outputs
  | outputs, endpoint :: rest =>
    match values[endpoint.valueIndex.toNat]? with
    | some (some value) => collectOutputs values (outputs.emplace endpoint.role value) rest
    | _ => none

/-- All operations are done. -/
def conclude (plan : Plan) (state : RequestState) : PollOutcome :=
  match collectOutputs state.values .empty plan.program.outputs with
  | none => state.fail (internalError "model program completed without an external output")
  | some outputs =>
    ({ state with currentInputs := [], values := [], terminal := true },
      some { status := Status.success, outputs })

/-- The values that the ports of an operation name. -/
def gatherInputs (values : List (Option ExecutionValue)) :
    List PortBinding → Option (List ExecutionValue)
  | [] => some []
  | port :: rest =>
    match values[port.valueIndex.toNat]? with
    | some (some value) => (gatherInputs values rest).map (value :: ·)
    | _ => none

/-- The second half of a round: the next operation goes to its provider. -/
def issue (turn : Turn) (instruction : CompiledOperationProgram × UInt32)
    (state : RequestState) : Round :=
  match gatherInputs state.values instruction.1.inputValues with
  | none =>
    .returned (state.fail (internalError
      "model program attempted to consume an unavailable value"))
  | some inputs =>
    let state := { state with currentInputs := inputs }
    if instruction.2 ∈ state.providerStates then
      let state := { state with
        executed := state.executed ++ [(state.nextOperation, inputs)] }
      match turn.issued state.nextOperation with
      | .handle => .next { state with inflight := true }
      | .invalid =>
        .returned (state.fail (internalError
          "operation provider rejected a bound invocation"))
      | .threw => .returned (state.threw "execute")
    else
      .returned (state.fail (internalError "model program lacks provider request state"))

/-- The rounds of a poll, with the instructions that are still to be handed out. -/
def rounds (plan : Plan) (providers : Providers) (turn : Turn) :
    List (CompiledOperationProgram × UInt32) → Nat → RequestState → PollOutcome
  | [], round, state =>
    match state.settle plan providers turn round with
    | .returned outcome => outcome
    | .next state => state.conclude plan
  | instruction :: rest, round, state =>
    match state.settle plan providers turn round with
    | .returned outcome => outcome
    | .next state =>
      match state.issue turn instruction with
      | .returned outcome => outcome
      | .next state => rounds plan providers turn rest (round + 1) state

def poll (plan : Plan) (providers : Providers) (turn : Turn) (state : RequestState) :
    PollOutcome :=
  if state.cancelledResultPending then
    ({ state with cancelledResultPending := false },
      some { status := ⟨.cancelled, "model execution session was cancelled"⟩ })
  else if state.terminal then (state, none)
  else
    let handedOut := if state.inflight then state.nextOperation + 1 else state.nextOperation
    rounds plan providers turn (plan.instructions.drop handedOut) 0 state

/-- A run of polls with the results they return. -/
def run (plan : Plan) (providers : Providers) :
    RequestState → List Turn → RequestState × List ProgramExecutionResult
  | state, [] => (state, [])
  | state, turn :: rest =>
    let polled := state.poll plan providers turn
    let others := run plan providers polled.1 rest
    (others.1, polled.2.toList ++ others.2)

/-- The slots after the external inputs. -/
def placeInputs (program : CompiledModelProgram) (inputs : OrderedMap String ExecutionValue) :
    List (Option ExecutionValue) → List CompiledProgramEndpoint →
    Option (List (Option ExecutionValue))
  | values, [] => some values
  | values, endpoint :: rest =>
    match inputs.find? endpoint.role with
    | none => none
    | some value =>
      if value.valid ∧ endpoint.valueIndex.toNat < values.length ∧
          (program.values[endpoint.valueIndex.toNat]?).map (·.abi) = some value.abi then
        placeInputs program inputs (values.set endpoint.valueIndex.toNat (some value)) rest
      else none

def start (plan : Plan) (session : SessionState) (inputs : OrderedMap String ExecutionValue) :
    Except Status RequestState := do
  require (inputs.size = plan.program.inputs.length)
    "model execution input role set is incomplete"
  match placeInputs plan.program inputs (List.replicate plan.program.values.length none)
      plan.program.inputs with
  | none => .error ⟨.invalidArgument, "model execution input is absent, invalid, or ABI-mismatched"⟩
  | some values =>
    if session.closed then .error ⟨.cancelled, "model execution session is closed"⟩
    else if session.active then
      .error ⟨.backpressure, "model execution session already has an active step"⟩
    else .ok { providerStates := session.providerStates, values }

end RequestState

end QuantumLlm.Runtime.Program
