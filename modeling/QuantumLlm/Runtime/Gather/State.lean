import QuantumLlm.Lib.OrderedMap
import QuantumLlm.Lib.OrderedSet
import QuantumLlm.Lib.Run
import QuantumLlm.Runtime.Storage
import Mathlib.Data.List.Sort

/-!
# Extent gather storage

A logical multi-extent read becomes one asynchronous read per extent on a backing
storage. The thread in `read`, the callbacks of the children, the cancelling
threads and the finishing thread meet under one lock per operation; each step
below is one section under that lock or one call out of it.
-/

namespace QuantumLlm.Runtime.Gather

def coverStatus : Status :=
  ⟨.invalidArgument, "payload extents must exactly and safely cover the destination"⟩

/-- The loop over the sorted extents: the cursor behind the last one. -/
def coverExtents (storedBytes : UInt64) : UInt64 → List PayloadExtent → Except Status UInt64
  | cursor, [] => .ok cursor
  | cursor, extent :: rest =>
    if extent.path.isEmpty ∨ extent.bytes = 0 ∨ extent.destinationOffset ≠ cursor ∨
        extent.bytes > storedBytes - cursor ∨
        extent.sourceOffset > 0xffffffffffffffff - extent.bytes then .error coverStatus
    else coverExtents storedBytes (cursor + extent.bytes) rest

/-- Only extents with one destination could come in another order, and those are
rejected in any. -/
def sortByDestination (extents : List PayloadExtent) : List PayloadExtent :=
  extents.insertionSort fun left right =>
    left.destinationOffset.toNat ≤ right.destinationOffset.toNat

def validateGather (request : ReadRequest) : Status :=
  if request.record.extents.isEmpty then
    ⟨.invalidArgument, "extent gather requires a multi-extent payload"⟩
  else if request.destination.data = none ∨ request.record.storedBytes = 0 ∨
      request.record.storedBytes > request.destination.capacity then
    ⟨.invalidArgument, "invalid extent gather destination"⟩
  else match coverExtents request.record.storedBytes 0 (sortByDestination request.record.extents) with
    | .error status => status
    | .ok cursor =>
      if cursor ≠ request.record.storedBytes then
        ⟨.invalidArgument, "payload extents do not cover stored_bytes"⟩
      else .success

/-- The read of one extent, straight into its part of the destination. -/
def childRequest (request : ReadRequest) (extent : PayloadExtent) : ReadRequest where
  record := { request.record with
    path := extent.path
    extents := []
    recordOffset := extent.sourceOffset
    storedBytes := extent.bytes
    deviceBytes := 0
    headerBytes := 0
    alignment := 1 }
  destination :=
    { data := request.destination.data.map (· + extent.destinationOffset)
      capacity := extent.bytes }
  direct := false

structure Pending where
  children : List OperationId := []
  remaining : Nat
  readBytes : UInt64 := 0
  status : Status := {}
  launching : Bool := true
  cancelled : Bool := false
  finished : Bool := false

/-- Where the thread in `read` is. -/
inductive Launcher where
  | looping
  /-- `backing->read` returned; its operation is not recorded yet. -/
  | returned
  | cancelling (child : OperationId)
  | done
  deriving DecidableEq

/-- Where a thread in `finish` is. -/
inductive Finisher where
  | entered
  | erasing (result : ReadResult)
  | calling (result : ReadResult)
  deriving DecidableEq

/-- What happened to an operation. -/
inductive Moment where
  | completed (child : Nat) (result : ReadResult)
  | cancelled
  /-- `finish` has fixed the result. -/
  | decided (result : ReadResult)
  /-- The caller's completion was invoked. -/
  | called (result : ReadResult)
  deriving DecidableEq

structure Flight where
  request : ReadRequest
  pending : Pending
  /-- Reads handed to the backing storage, in the order of the extents. -/
  issued : List ReadRequest := []
  /-- Children whose callback has not run. -/
  running : List Nat := []
  launcher : Launcher := .looping
  finishers : List Finisher := []
  /-- Threads in `cancel` that have found the operation. -/
  cancellers : Nat := 0
  /-- Children that some `cancel` still has to cancel. -/
  toCancel : List OperationId := []
  history : List Moment := []

inductive FlightMove where
  | callRead
  | recordChild (child : OperationId)
  | cancelChild
  | close
  | complete (child : Nat) (result : ReadResult)
  | finishLock
  | finishErase (result : ReadResult)
  | finishCall (result : ReadResult)
  | cancelFound
  | cancelLock
  | cancelBacking (child : OperationId)

namespace Pending

/-- The section of a child's callback. -/
def absorb (pending : Pending) (result : ReadResult) : Pending :=
  { pending with
    status := if !result.status.ok && pending.status.ok then result.status else pending.status
    readBytes := pending.readBytes + result.readBytes
    remaining := if pending.remaining ≠ 0 then pending.remaining - 1 else pending.remaining }

def cancelledStatus : Status := ⟨.cancelled, "extent gather cancelled"⟩

/-- The section of `cancel`. -/
def cancel (pending : Pending) : Pending :=
  { pending with
    cancelled := true
    status := if pending.status.ok then cancelledStatus else pending.status }

end Pending

namespace Flight

def start (request : ReadRequest) : Flight where
  request := request
  pending := { remaining := request.record.extents.length }

/-- The result a finishing thread takes under the lock. -/
def result (flight : Flight) : ReadResult :=
  ⟨flight.pending.status, flight.request.record.storedBytes, flight.pending.readBytes⟩

def step (flight : Flight) : FlightMove → Option Flight
  | .callRead =>
    match flight.launcher, flight.request.record.extents[flight.issued.length]? with
    | .looping, some extent =>
      some { flight with
        issued := flight.issued ++ [childRequest flight.request extent]
        running := flight.running ++ [flight.issued.length]
        launcher := .returned }
    | _, _ => none
  | .recordChild child =>
    match flight.launcher with
    | .returned =>
      some { flight with
        pending := { flight.pending with children := flight.pending.children ++ [child] }
        launcher := if flight.pending.cancelled then .cancelling child else .looping }
    | _ => none
  | .cancelChild =>
    match flight.launcher with
    | .cancelling _ => some { flight with launcher := .looping }
    | _ => none
  | .close =>
    if flight.launcher = .looping ∧
        flight.request.record.extents.length ≤ flight.issued.length then
      some { flight with
        pending := { flight.pending with launching := false }
        launcher := .done
        finishers := flight.finishers ++ if flight.pending.remaining = 0 then [.entered] else [] }
    else none
  | .complete child result =>
    if child ∈ flight.running then
      let pending := flight.pending.absorb result
      some { flight with
        pending
        running := flight.running.erase child
        finishers := flight.finishers ++
          if pending.remaining = 0 ∧ pending.launching = false then [.entered] else []
        history := flight.history ++ [.completed child result] }
    else none
  | .finishLock =>
    if .entered ∈ flight.finishers then
      if flight.pending.finished then
        some { flight with finishers := flight.finishers.erase .entered }
      else
        some { flight with
          pending := { flight.pending with finished := true }
          finishers := flight.finishers.erase .entered ++ [.erasing flight.result]
          history := flight.history ++ [.decided flight.result] }
    else none
  | .finishErase result =>
    if .erasing result ∈ flight.finishers then
      some { flight with
        finishers := flight.finishers.erase (.erasing result) ++ [.calling result] }
    else none
  | .finishCall result =>
    if .calling result ∈ flight.finishers then
      some { flight with
        finishers := flight.finishers.erase (.calling result)
        history := flight.history ++ [.called result] }
    else none
  | .cancelFound => some { flight with cancellers := flight.cancellers + 1 }
  | .cancelLock =>
    if 0 < flight.cancellers then
      some { flight with
        pending := flight.pending.cancel
        cancellers := flight.cancellers - 1
        toCancel := flight.toCancel ++ flight.pending.children
        history := flight.history ++ [.cancelled] }
    else none
  | .cancelBacking child =>
    if child ∈ flight.toCancel then
      some { flight with toCancel := flight.toCancel.erase child }
    else none

end Flight

structure Storage where
  /-- Operation ids are drawn from a counter that never runs out. -/
  nextId : Nat := 1
  operations : OrderedSet Nat := OrderedSet.empty
  /-- Every operation that was started, by its id. -/
  flights : OrderedMap Nat Flight := OrderedMap.empty
  /-- Completions invoked at once, with a validation error. -/
  refused : List (Nat × ReadResult) := []
  /-- Operations that `shutdown` still has to cancel. -/
  stopping : List Nat := []

inductive Action where
  | read (request : ReadRequest) (hasCompletion : Bool)
  | move (id : Nat) (move : FlightMove)
  | shutdown
  | stopNext

namespace Storage

def setFlight (storage : Storage) (id : Nat) (flight : Flight) : Storage :=
  { storage with flights := storage.flights.modify id fun _ => flight }

/-- `cancel` looks its operation up; one that has finished is not there. -/
def findCancel (storage : Storage) (id : Nat) : Storage :=
  match storage.flights.find? id with
  | none => storage
  | some flight =>
    if id ∈ storage.operations then
      storage.setFlight id { flight with cancellers := flight.cancellers + 1 }
    else storage

def step (storage : Storage) : Action → Option Storage
  | .read request hasCompletion =>
    let id := storage.nextId
    let storage := { storage with nextId := id + 1 }
    if !hasCompletion then some storage
    else
      let validation := validateGather request
      if !validation.ok then
        some { storage with
          refused := storage.refused ++ [(id, ⟨validation, request.record.storedBytes, 0⟩)] }
      else
        some { storage with
          operations := storage.operations.insert id
          flights := storage.flights.emplace id (Flight.start request) }
  | .move id move =>
    match move with
    | .cancelFound => some (storage.findCancel id)
    | _ =>
      match storage.flights.find? id with
      | none => none
      | some flight =>
        match flight.step move with
        | none => none
        | some flight =>
          let storage := storage.setFlight id flight
          match move with
          | .finishErase _ => some { storage with operations := storage.operations.erase id }
          | _ => some storage
  | .shutdown => some { storage with stopping := storage.stopping ++ storage.operations.items }
  | .stopNext =>
    match storage.stopping with
    | [] => none
    | id :: rest => some ({ storage with stopping := rest }.findCancel id)

end Storage

end QuantumLlm.Runtime.Gather
