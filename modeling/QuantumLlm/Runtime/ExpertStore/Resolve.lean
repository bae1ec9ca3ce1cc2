import QuantumLlm.Runtime.ActiveExpert.Wire
import QuantumLlm.Runtime.Cache.State

/-!
# Resolving batches of experts

The local store, the remote store and the union of both. A batch starts one
acquisition for each member; the futures behind them are completed from outside,
in any order, and its handle is polled or cancelled between.
-/

namespace QuantumLlm.Runtime.ExpertStore

open ActiveExpert (ActiveExpertIdentity Text)

inductive ExpertResolveTarget where
  | device
  | host
  | hostReady
  | remote
  | automatic
  deriving DecidableEq

inductive ExpertPlacementKind where
  | device
  | host
  | remote
  deriving DecidableEq

structure ExpertResolveRequest where
  key : ExpertKey
  record : PayloadRecord := {}
  target : ExpertResolveTarget := .device
  options : ExpertAcquireOptions := {}
  deriving DecidableEq

abbrev LeaseId := Nat

/-- `BoundRemoteExpertLease`, with the name of its executor. -/
structure RemoteExpertLease where
  identity : ActiveExpertIdentity
  executor : String
  deriving DecidableEq

structure ResolvedExpert where
  key : ExpertKey
  placement : ExpertPlacementKind
  deviceLease : Option LeaseId := none
  hostLease : Option LeaseId := none
  remoteLease : Option RemoteExpertLease := none
  deriving DecidableEq

/-- `operator bool`. -/
def ResolvedExpert.live (expert : ResolvedExpert) : Bool :=
  match expert.placement with
  | .device => expert.deviceLease.isSome
  | .host => expert.hostLease.isSome
  | .remote => expert.remoteLease.isSome

structure ExpertResolveResult where
  status : Status
  experts : List ResolvedExpert := []
  deriving DecidableEq

inductive MemberKind where
  | device
  | host
  deriving DecidableEq

/-- `AcquireResult` and `HostPreloadResult`; device acquisitions do not look at `retained`. -/
structure Completion where
  status : Status
  retained : Bool := true
  lease : Option LeaseId := none
  deriving DecidableEq

/-- An acquisition of a batch: the value of its future and whether it was cancelled. -/
structure Member where
  kind : MemberKind
  key : ExpertKey
  completion : Option Completion := none
  cancelled : Bool := false
  deriving DecidableEq

/-- What the cache has been asked for. -/
structure World where
  members : List Member := []
  /-- Leases of `try_acquire_host`. -/
  ready : List (ExpertKey × LeaseId) := []
  /-- Calls of `record_access`. -/
  accesses : List ExpertKey := []
  deriving DecidableEq

namespace World

def start (world : World) (kind : MemberKind) (key : ExpertKey) (completion : Option Completion) :
    World × Nat :=
  ({ world with members := world.members ++ [{ kind, key, completion }] }, world.members.length)

/-- The value of a future that is ready. -/
def completion (world : World) (handle : Option Nat) : Option Completion :=
  handle.bind fun index => (world.members[index]?).bind (·.completion)

/-- `cancel` of a handle, which may be empty. -/
def cancel (world : World) (handle : Option Nat) : World :=
  match handle with
  | none => world
  | some index =>
    { world with
      members := world.members.modify index fun member => { member with cancelled := true } }

def cancelAll (world : World) : List (Option Nat) → World
  | [] => world
  | handle :: rest => (world.cancel handle).cancelAll rest

def complete (world : World) (index : Nat) (completion : Completion) : World :=
  { world with
    members := world.members.modify index fun member =>
      { member with completion := some completion } }

end World

/-! ## The local store -/

namespace LocalResolveState

structure Item where
  key : ExpertKey
  target : ExpertResolveTarget
  options : ExpertAcquireOptions
  handle : Option Nat := none
  hostHandle : Option Nat := none
  result : Option Completion := none
  host : Option LeaseId := none
  error : Option Status := none
  deriving DecidableEq

end LocalResolveState

structure LocalResolveState where
  items : List LocalResolveState.Item
  terminal : Bool := false
  deriving DecidableEq

/-- Where one item of a poll leads: to a failure that was there before, to one of its
own, or on to the next item. -/
inductive ItemPoll where
  | errored (status : Status)
  | failed (item : LocalResolveState.Item) (status : Status)
  | passed (item : LocalResolveState.Item) (complete : Bool) (accesses : List ExpertKey)

namespace LocalResolveState

/-- The status of a completion that does not grant what was asked for. -/
def Item.refusal (item : Item) (completion : Completion) : Option Status :=
  if item.target = .host then
    if completion.status.ok ∧ completion.retained ∧ completion.lease.isSome then none
    else if completion.status.ok then
      some ⟨.internal, "host expert resolve completed without ownership"⟩
    else some completion.status
  else if completion.status.ok ∧ completion.lease.isSome then none
  else if completion.status.ok then
    some ⟨.internal, "expert store member returned no lease"⟩
  else some completion.status

def pollHost (world : World) (item : Item) : ItemPoll :=
  if item.host.isSome then .passed item true []
  else
    match world.completion item.hostHandle with
    | none => .passed item false []
    | some completion =>
      match item.refusal completion with
      | some status => .passed { item with error := some status } false []
      | none => .passed { item with host := completion.lease } true
          (if item.options.recordAccess then [item.key] else [])

def pollDevice (world : World) (item : Item) : ItemPoll :=
  if item.result.isSome then .passed item true []
  else
    match world.completion item.handle with
    | none => .passed item false []
    | some completion =>
      match item.refusal completion with
      | some status => .failed { item with result := some completion } status
      | none => .passed { item with result := some completion } true []

def pollItem (world : World) (item : Item) : ItemPoll :=
  match item.error with
  | some status => .errored status
  | none =>
    match item.target with
    | .hostReady => .passed item true []
    | .host => pollHost world item
    | _ => pollDevice world item

/-- What an error found in an item cancels, and `cancel`. -/
def unresolved (item : Item) : List (Option Nat) :=
  (if item.target = .device ∧ item.result = none then [item.handle] else []) ++
    if item.target = .host ∧ item.host = none then [item.hostHandle] else []

/-- What the failure of a device member cancels. -/
def unacquired (item : Item) : List (Option Nat) :=
  if item.result = none then [item.handle] else []

/-- The loop of a poll, with the items behind it. -/
def pollItems (done : List Item) (complete : Bool) :
    World → List Item → World × List Item × Option (Except Status Unit)
  | world, [] => (world, done, if complete then some (.ok ()) else none)
  | world, item :: rest =>
    match pollItem world item with
    | .errored status =>
      let items := done ++ item :: rest
      (world.cancelAll (items.flatMap unresolved), items, some (.error status))
    | .failed item status =>
      let items := done ++ item :: rest
      (world.cancelAll (items.flatMap unacquired), items, some (.error status))
    | .passed item found accesses =>
      pollItems (done ++ [item]) (complete && found)
        { world with accesses := world.accesses ++ accesses } rest

/-- The expert of an item whose turn has come. -/
def resolved (item : Item) : ResolvedExpert :=
  if item.target = .hostReady ∨ item.target = .host then
    { key := item.key, placement := .host, hostLease := item.host }
  else
    { key := item.key, placement := .device
      deviceLease := item.result.bind (·.lease) }

def poll (world : World) (state : LocalResolveState) :
    World × LocalResolveState × Option ExpertResolveResult :=
  if state.terminal ∨ state.items = [] then (world, state, none)
  else
    match pollItems [] true world state.items with
    | (world, items, none) => (world, { state with items }, none)
    | (world, items, some (.error status)) => (world, { items, terminal := true }, some { status })
    | (world, items, some (.ok ())) =>
      (world, { items, terminal := true },
        some { status := Status.success, experts := items.map resolved })

def cancel (world : World) (state : LocalResolveState) : World × LocalResolveState :=
  if state.terminal then (world, state)
  else (world.cancelAll (state.items.flatMap unresolved), { state with terminal := true })

end LocalResolveState

/-- What the cache answers at once: a ready host copy, whether a preload has a valid handle,
and the value of a future that is ready from the start. -/
structure StartAnswer where
  ready : Option LeaseId := none
  accepted : Bool := true
  completion : Option Completion := none
  deriving DecidableEq

namespace LocalExpertStore

open LocalResolveState

/-- Starts the acquisition of one request. -/
def startItem (world : World) (request : ExpertResolveRequest) (answer : StartAnswer) :
    World × Item :=
  let item : Item :=
    { key := request.key
      target := if request.target = .automatic then .device else request.target
      options := request.options }
  match request.target with
  | .hostReady =>
    match answer.ready with
    | some lease =>
      ({ world with ready := world.ready ++ [(request.key, lease)] },
        { item with host := some lease })
    | none =>
      (world, { item with
        error := some ⟨.backpressure, "requested expert is not ready in host memory"⟩ })
  | .host =>
    if answer.accepted then
      let started := world.start .host request.key answer.completion
      (started.1, { item with hostHandle := some started.2 })
    else
      (world, { item with
        error := some ⟨.backpressure, "host expert-page resolve was rejected"⟩ })
  | _ =>
    let started := world.start .device request.key answer.completion
    (started.1, { item with handle := some started.2 })

/-- Starts the members in order; a remote target among them gives up. -/
def startItems (world : World) :
    List (ExpertResolveRequest × StartAnswer) → World × Option (List Item)
  | [] => (world, some [])
  | (request, answer) :: rest =>
    if request.target = .remote then (world, none)
    else
      let first := startItem world request answer
      let others := startItems first.1 rest
      (others.1, others.2.map (first.2 :: ·))

/-- The destructor of a `HostPreloadHandle` cancels it, that of an `AcquireHandle` does not. -/
def abandon (world : World) : World :=
  { world with
    members := world.members.map fun member =>
      if member.kind = .host then { member with cancelled := true } else member }

/-- A request list with the answers of the cache. The handle is `none` when it is invalid. -/
def resolve (world : World) (requests : List (ExpertResolveRequest × StartAnswer)) :
    World × Option LocalResolveState :=
  if requests = [] ∨ ¬ (requests.map (·.1.key)).Nodup then (world, none)
  else
    match startItems world requests with
    | (world, none) => (abandon world, none)
    | (world, some items) => (world, some { items })

end LocalExpertStore

/-! ## The remote store -/

structure RemoteExpertOwnerRange where
  namespaceId : UInt64
  firstLayer : UInt32
  layerCount : UInt32
  firstExpert : UInt32
  expertCount : UInt32
  /-- The name of the owner. -/
  executor : String
  deriving DecidableEq

structure ActiveExpertComponentContract where
  modelContentHash : Sha256Digest
  namespaceId : UInt64
  layerCount : UInt32
  expertsPerLayer : UInt32
  encodingAbi : UInt32
  executionCapability : Text
  executionAbi : UInt32
  sourceAbi : UInt32
  deriving DecidableEq

structure RemoteExpertStore where
  contract : ActiveExpertComponentContract
  owners : List RemoteExpertOwnerRange
  deriving DecidableEq

namespace RemoteExpertStore

/-- `ActiveExpertOwnerDirectory::find`. -/
def find (owners : List RemoteExpertOwnerRange) (key : ExpertKey) : Option String :=
  (owners.find? fun range =>
    key.modelId = range.namespaceId && key.layer ≥ range.firstLayer &&
      key.layer - range.firstLayer < range.layerCount && key.expert ≥ range.firstExpert &&
      key.expert - range.firstExpert < range.expertCount).map (·.executor)

def validComponentContract (contract : ActiveExpertComponentContract) : Bool :=
  contract.modelContentHash.bytes.any (· ≠ 0) && contract.namespaceId ≠ 0 &&
    contract.layerCount ≠ 0 && contract.expertsPerLayer ≠ 0 && contract.encodingAbi ≠ 0 &&
    contract.executionCapability ≠ [] && contract.executionAbi ≠ 0 && contract.sourceAbi ≠ 0

def owns (store : RemoteExpertStore) (key : ExpertKey) : Bool :=
  validComponentContract store.contract && key.modelId = store.contract.namespaceId &&
    key.layer < store.contract.layerCount && key.expert < store.contract.expertsPerLayer &&
    key.encodingAbi = store.contract.encodingAbi && (find store.owners key).isSome

/-- The lease of one request. -/
def lease (store : RemoteExpertStore) (request : ExpertResolveRequest) : Option ResolvedExpert :=
  if (request.target = .remote ∨ request.target = .automatic) ∧ store.owns request.key ∧
      request.record.sourceAbi = store.contract.sourceAbi then
    (find store.owners request.key).map fun executor =>
      { key := request.key
        placement := .remote
        remoteLease := some
          { identity :=
              { modelContentHash := store.contract.modelContentHash
                key := request.key
                capability := store.contract.executionCapability
                executionAbi := store.contract.executionAbi
                sourceAbi := store.contract.sourceAbi }
            executor } }
  else none

def leases (store : RemoteExpertStore) : List ExpertResolveRequest → Option (List ResolvedExpert)
  | [] => some []
  | request :: rest =>
    match store.lease request with
    | none => none
    | some expert => (leases store rest).map (expert :: ·)

end RemoteExpertStore

structure ImmediateRemoteResolveState where
  result : ExpertResolveResult
  terminal : Bool := false
  deriving DecidableEq

namespace ImmediateRemoteResolveState

def poll (world : World) (state : ImmediateRemoteResolveState) :
    World × ImmediateRemoteResolveState × Option ExpertResolveResult :=
  if state.terminal then (world, state, none)
  else (world, { state with terminal := true }, some state.result)

def cancel (world : World) (state : ImmediateRemoteResolveState) :
    World × ImmediateRemoteResolveState :=
  (world, { state with terminal := true })

end ImmediateRemoteResolveState

def RemoteExpertStore.resolve (store : RemoteExpertStore) (requests : List ExpertResolveRequest) :
    Option ImmediateRemoteResolveState :=
  if requests = [] ∨ ¬ validComponentContract store.contract ∨
      ¬ (requests.map (·.key)).Nodup then none
  else (store.leases requests).map fun experts => { result := { status := Status.success, experts } }

/-- `ExpertResolveHandle`: the core, or nothing when the handle is empty. -/
structure ResolveHandle (σ : Type) where
  state : σ
  terminal : Bool := false
  deriving DecidableEq

/-- How a kind of batch is polled and cancelled. -/
class Resolving (σ : Type) where
  poll : World → σ → World × σ × Option ExpertResolveResult
  cancel : World → σ → World × σ

instance localResolving : Resolving LocalResolveState where
  poll := LocalResolveState.poll
  cancel := LocalResolveState.cancel

instance remoteResolving : Resolving ImmediateRemoteResolveState where
  poll := ImmediateRemoteResolveState.poll
  cancel := ImmediateRemoteResolveState.cancel

namespace ResolveHandle

variable {σ : Type} [Resolving σ]

def poll (world : World) (handle : ResolveHandle σ) :
    World × ResolveHandle σ × Option ExpertResolveResult :=
  if handle.terminal then (world, handle, none)
  else
    match Resolving.poll world handle.state with
    | (world, state, none) => (world, { handle with state }, none)
    | (world, state, some result) => (world, { state, terminal := true }, some result)

def cancel (world : World) (handle : ResolveHandle σ) : World × ResolveHandle σ :=
  if handle.terminal then (world, handle)
  else
    let cancelled := Resolving.cancel world handle.state
    (cancelled.1, { state := cancelled.2, terminal := true })

end ResolveHandle

/-! ## The union of both stores -/

/-- `PlacementResolveState::Batch`. -/
structure PlacementBatch (σ : Type) where
  indices : List Nat
  handle : Option (ResolveHandle σ)
  complete : Bool
  deriving DecidableEq

structure PlacementResolveState where
  expected : List ExpertKey
  resolved : List (Option ResolvedExpert)
  localBatch : PlacementBatch LocalResolveState
  remoteBatch : PlacementBatch ImmediateRemoteResolveState
  terminal : Bool := false
  deriving DecidableEq

namespace PlacementResolveState

variable {σ : Type} [Resolving σ]

def cardinalityMismatch : Status := ⟨.internal, "placement store batch cardinality mismatch"⟩

def identityMismatch : Status := ⟨.internal, "placement store batch identity mismatch"⟩

/-- The experts of a batch, each to its place. -/
def place (expected : List ExpertKey) :
    List (Option ResolvedExpert) → List Nat → List ResolvedExpert →
    List (Option ResolvedExpert) × Option Status
  | resolved, index :: indices, expert :: experts =>
    if expert.live ∧ expected[index]? = some expert.key then
      place expected (resolved.set index (some expert)) indices experts
    else (resolved, some identityMismatch)
  | resolved, _, _ => (resolved, none)

/-- `poll_batch`. -/
def pollBatch (world : World) (expected : List ExpertKey) (resolved : List (Option ResolvedExpert))
    (batch : PlacementBatch σ) :
    World × PlacementBatch σ × List (Option ResolvedExpert) × Option Status :=
  if batch.complete then (world, batch, resolved, none)
  else
    match batch.handle with
    | none => (world, batch, resolved, none)
    | some handle =>
      match handle.poll world with
      | (world, handle, none) => (world, { batch with handle := some handle }, resolved, none)
      | (world, handle, some result) =>
        let batch := { batch with handle := some handle, complete := true }
        if ¬ result.status.ok then (world, batch, resolved, some result.status)
        else if result.experts.length ≠ batch.indices.length then
          (world, batch, resolved, some cardinalityMismatch)
        else
          let placed := place expected resolved batch.indices result.experts
          (world, batch, placed.1, placed.2)

def cancelBatch (world : World) (batch : PlacementBatch σ) : World × PlacementBatch σ :=
  match batch.handle with
  | none => (world, batch)
  | some handle =>
    let cancelled := handle.cancel world
    (cancelled.1, { batch with handle := some cancelled.2 })

/-- The experts in request order, unless one is missing. -/
def assembled (resolved : List (Option ResolvedExpert)) : ExpertResolveResult :=
  if resolved.all (·.isSome) then
    { status := Status.success, experts := resolved.filterMap id }
  else
    { status := ⟨.internal, "placement store completed with an unresolved member"⟩ }

def poll (world : World) (state : PlacementResolveState) :
    World × PlacementResolveState × Option ExpertResolveResult :=
  if state.terminal then (world, state, none)
  else
    match pollBatch world state.expected state.resolved state.localBatch with
    | (world, localBatch, resolved, some status) =>
      let cancelled := cancelBatch world state.remoteBatch
      (cancelled.1,
        { state with resolved, localBatch, remoteBatch := cancelled.2, terminal := true },
        some { status })
    | (world, localBatch, resolved, none) =>
      match pollBatch world state.expected resolved state.remoteBatch with
      | (world, remoteBatch, resolved, some status) =>
        let cancelled := cancelBatch world localBatch
        (cancelled.1,
          { state with resolved, localBatch := cancelled.2, remoteBatch, terminal := true },
          some { status })
      | (world, remoteBatch, resolved, none) =>
        let state := { state with resolved, localBatch, remoteBatch }
        if localBatch.complete ∧ remoteBatch.complete then
          (world, { state with terminal := true }, some (assembled resolved))
        else (world, state, none)

def cancel (world : World) (state : PlacementResolveState) : World × PlacementResolveState :=
  if state.terminal then (world, state)
  else
    let first := cancelBatch world state.localBatch
    let second := cancelBatch first.1 state.remoteBatch
    (second.1, { state with
      localBatch := first.2, remoteBatch := second.2, terminal := true })

end PlacementResolveState

instance placementResolving : Resolving PlacementResolveState where
  poll := PlacementResolveState.poll
  cancel := PlacementResolveState.cancel

namespace PlacementExpertStore

def useRemote (remote : RemoteExpertStore) (request : ExpertResolveRequest) : Bool :=
  request.target = .remote || (request.target = .automatic && remote.owns request.key)

/-- Where a request goes, with the target it is passed on with. -/
def forwarded (remote : RemoteExpertStore) (request : ExpertResolveRequest) :
    ExpertResolveRequest :=
  if useRemote remote request then { request with target := .remote }
  else if request.target = .automatic then { request with target := .device }
  else request

def resolve (world : World) (remote : RemoteExpertStore)
    (requests : List (ExpertResolveRequest × StartAnswer)) :
    World × Option PlacementResolveState :=
  if requests = [] ∨ ¬ (requests.map (·.1.key)).Nodup then (world, none)
  else if requests.any fun request =>
      useRemote remote request.1 && !remote.owns request.1.key then (world, none)
  else
    let locals := requests.zipIdx.filter fun entry => !useRemote remote entry.1.1
    let remotes := requests.zipIdx.filter fun entry => useRemote remote entry.1.1
    let localRequests := locals.map fun entry => (forwarded remote entry.1.1, entry.1.2)
    let remoteRequests := remotes.map fun entry => forwarded remote entry.1.1
    let started := if localRequests = [] then (world, none)
      else LocalExpertStore.resolve world localRequests
    if localRequests ≠ [] ∧ started.2 = none then (started.1, none)
    else
      let localBatch : PlacementBatch LocalResolveState :=
        { indices := locals.map (·.2)
          handle := started.2.map ({ state := · })
          complete := localRequests = [] }
      let remoteState := if remoteRequests = [] then none else remote.resolve remoteRequests
      if remoteRequests ≠ [] ∧ remoteState = none then
        ((PlacementResolveState.cancelBatch started.1 localBatch).1, none)
      else
        (started.1, some
          { expected := requests.map (·.1.key)
            resolved := List.replicate requests.length none
            localBatch
            remoteBatch :=
              { indices := remotes.map (·.2)
                handle := remoteState.map ({ state := · })
                complete := remoteRequests = [] } })

end PlacementExpertStore

end QuantumLlm.Runtime.ExpertStore
