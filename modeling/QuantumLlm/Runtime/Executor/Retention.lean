import QuantumLlm.Lib.OrderedMap
import QuantumLlm.Lib.Pass
import QuantumLlm.Runtime.Storage
import Mathlib.Data.String.Basic

/-!
# Retention operations of a program session

Parking, restoring, rebinding, checkpointing and rewinding a session: each is a
pass over the request states of all its providers, in registry order, and the
operations differ in what they do when a provider in the middle fails.
-/

namespace QuantumLlm.Runtime.Executor

structure ProgramRequestContext where
  requestId : UInt64 := 0
  /-- Ticks of the steady clock. -/
  deadline : Int := 2 ^ 63 - 1
  parameters : OrderedMap String UInt64 := .empty

/-- What a provider keeps for one request. -/
structure ProviderRequestState where
  parked : Bool := false
  position : UInt32 := 0
  context : ProgramRequestContext := {}
  retained : Option UInt32 := none

/-- An entry of `provider_states`, with the provider that its registry index finds. -/
structure ProviderSlot where
  registryIndex : UInt32
  supportsParking : Bool := true
  state : ProviderRequestState := {}

def ProviderSlot.withState (change : ProviderRequestState → ProviderRequestState)
    (slot : ProviderSlot) : ProviderSlot := { slot with state := change slot.state }

structure RetentionSession where
  active : Bool := false
  closed : Bool := false
  parked : Bool := false
  parkedPosition : UInt32 := 0
  parkedPages : UInt64 := 0
  parkedBytes : UInt64 := 0
  request : ProgramRequestContext := {}
  providerStates : List ProviderSlot := []

structure RequestStateParkingResult where
  status : Status
  populatedPages : UInt64 := 0
  parkedBytes : UInt64 := 0

/-- What a provider call does: it returns, or throws with or without a text. -/
inductive ProviderAnswer (α : Type) where
  | returned (result : α)
  | threw (what : Option String)

/-- The text of a caught exception. -/
def caught (operation : String) : Option String → String
  | some what => operation ++ ": " ++ what
  | none => operation

def kMaximumU64 : UInt64 := 0xffffffffffffffff

def parkState (state : ProviderRequestState) : ProviderRequestState := { state with parked := true }

def restoreState (state : ProviderRequestState) : ProviderRequestState :=
  { state with parked := false }

def rebindState (replacement : ProgramRequestContext) (state : ProviderRequestState) :
    ProviderRequestState := { state with context := replacement }

def checkpointState (position : UInt32) (state : ProviderRequestState) : ProviderRequestState :=
  { state with retained := some position }

def rewindState (position : UInt32) (state : ProviderRequestState) : ProviderRequestState :=
  { state with position }

abbrev ParkingEnd := CallEnd (UInt64 × UInt64) RequestStateParkingResult

def parkCall (answers : UInt32 → ProviderAnswer RequestStateParkingResult)
    (total : UInt64 × UInt64) (slot : ProviderSlot) : ParkingEnd :=
  if ¬ slot.supportsParking then
    .failed ⟨⟨.invalidArgument, "request-state parking is not supported by every provider"⟩, 0, 0⟩
  else
    match answers slot.registryIndex with
    | .threw what => .threw (caught "request-state parking failed" what)
    | .returned result =>
      if ¬ result.status.ok then .failed result
      else if total.1 > kMaximumU64 - result.populatedPages ∨
          total.2 > kMaximumU64 - result.parkedBytes then
        .spoiled ⟨⟨.internal, "request-state parking accounting overflowed"⟩, 0, 0⟩
      else .next (total.1 + result.populatedPages, total.2 + result.parkedBytes)

def restoreCall (answers : UInt32 → ProviderAnswer RequestStateParkingResult) (_ : Unit)
    (slot : ProviderSlot) : CallEnd Unit RequestStateParkingResult :=
  match answers slot.registryIndex with
  | .threw what => .threw (caught "request-state restore failed" what)
  | .returned result => if result.status.ok then .next () else .failed result

/-- A call that returns only a status. -/
def statusCall (operation : String) (answers : UInt32 → ProviderAnswer Status) (_ : Unit)
    (slot : ProviderSlot) : CallEnd Unit Status :=
  match answers slot.registryIndex with
  | .threw what => .threw (caught operation what)
  | .returned status => if status.ok then .next () else .failed status

namespace RetentionSession

def sessionClosed : Status := ⟨.cancelled, "model execution session is closed"⟩

def sessionBusy : Status :=
  ⟨.backpressure, "model execution session already has an active step"⟩

def withProviders (session : RetentionSession) (providerStates : List ProviderSlot) :
    RetentionSession := { session with providerStates }

def parkRetention (session : RetentionSession) (nextPosition : UInt32)
    (answers : UInt32 → ProviderAnswer RequestStateParkingResult) :
    RequestStateParkingResult × RetentionSession :=
  if session.closed then (⟨sessionClosed, 0, 0⟩, session)
  else if session.active then (⟨sessionBusy, 0, 0⟩, session)
  else if session.parked then
    (⟨⟨.invalidArgument, "model execution session is already parked"⟩, 0, 0⟩, session)
  else
    let pass := runPass (parkCall answers) (.withState parkState) (0, 0) session.providerStates
    match pass.ending with
    | .completed (pages, bytes) =>
      (⟨.success, pages, bytes⟩,
        { session with
          parked := true, parkedPosition := nextPosition, parkedPages := pages
          parkedBytes := bytes, providerStates := pass.touched })
    | .failed result =>
      -- the providers parked so far are restored
      (result, session.withProviders
        (pass.touched.map (.withState restoreState) ++ pass.untouched))
    | .threw message =>
      (⟨⟨.internal, message⟩, 0, 0⟩, session.withProviders (pass.touched ++ pass.untouched))

def restoreRetention (session : RetentionSession)
    (answers : UInt32 → ProviderAnswer RequestStateParkingResult) :
    RequestStateParkingResult × RetentionSession :=
  if session.closed then (⟨sessionClosed, 0, 0⟩, session)
  else if session.active then (⟨sessionBusy, 0, 0⟩, session)
  else if ¬ session.parked then
    (⟨⟨.invalidArgument, "model execution session is not parked"⟩, 0, 0⟩, session)
  else
    let pass := runPass (restoreCall answers) (.withState restoreState) () session.providerStates
    match pass.ending with
    | .completed _ =>
      (⟨.success, session.parkedPages, session.parkedBytes⟩,
        { session with
          parked := false, parkedPosition := 0, parkedPages := 0, parkedBytes := 0
          providerStates := pass.touched })
    | .failed result =>
      -- the providers restored so far are parked again at the parked position
      (result, session.withProviders
        (pass.touched.map (.withState parkState) ++ pass.untouched))
    | .threw message =>
      (⟨⟨.internal, message⟩, 0, 0⟩, session.withProviders (pass.touched ++ pass.untouched))

/-- The loop of `checkpoint_retention` and of `rewind_retention`. -/
def controlRetention (operation : String) (effect : ProviderRequestState → ProviderRequestState)
    (session : RetentionSession) (answers : UInt32 → ProviderAnswer Status) :
    Status × RetentionSession :=
  if session.closed then (sessionClosed, session)
  else if session.active then (sessionBusy, session)
  else
    let pass := runPass (statusCall operation answers) (.withState effect) () session.providerStates
    match pass.ending with
    | .completed _ => (.success, session.withProviders pass.touched)
    | .failed status => (status, session.withProviders (pass.touched ++ pass.untouched))
    | .threw message =>
      (⟨.internal, message⟩, session.withProviders (pass.touched ++ pass.untouched))

def checkpointRetention (session : RetentionSession) (nextPosition : UInt32)
    (answers : UInt32 → ProviderAnswer Status) : Status × RetentionSession :=
  controlRetention "retention checkpoint failed" (checkpointState nextPosition) session answers

def rewindRetention (session : RetentionSession) (nextPosition : UInt32)
    (answers : UInt32 → ProviderAnswer Status) : Status × RetentionSession :=
  controlRetention "retention rewind failed" (rewindState nextPosition) session answers

/-- The parameters of the request are kept where the replacement has none. -/
def merged (session : RetentionSession) (replacement : ProgramRequestContext) :
    ProgramRequestContext :=
  { replacement with
    parameters := session.request.parameters.entries.foldl
      (fun parameters parameter => parameters.emplace parameter.1 parameter.2)
      replacement.parameters }

/-- `rebind`; nothing is returned when a provider throws, since the function is
`noexcept` and the process ends. -/
def rebind (session : RetentionSession) (now : Int) (replacement : ProgramRequestContext)
    (answers : UInt32 → ProviderAnswer Status) : Option (Status × RetentionSession) :=
  if replacement.requestId = 0 ∨ now > replacement.deadline then
    some (⟨.invalidArgument, "replacement request context is invalid"⟩, session)
  else if session.closed then some (sessionClosed, session)
  else if session.active then
    some (⟨.backpressure, "model execution session has an active step"⟩, session)
  else
    let replacement := session.merged replacement
    let pass := runPass (statusCall "" answers) (.withState (rebindState replacement)) ()
      session.providerStates
    match pass.ending with
    | .completed _ =>
      some (.success, { session with request := replacement, providerStates := pass.touched })
    | .failed status => some (status, session.withProviders (pass.touched ++ pass.untouched))
    | .threw _ => none

end RetentionSession

end QuantumLlm.Runtime.Executor
