import QuantumLlm.Lib.OrderedMap
import QuantumLlm.Lib.Run
import QuantumLlm.Runtime.Storage

/-!
# Continuous batch scheduler

Requests, their queued tokens and the routed-expert items of those tokens live in
three containers that seven operations keep in step. Work ids are drawn from a
counter that never runs out. A batch mixes items of
several requests; a request may go while items of it are in flight.
-/

namespace QuantumLlm.Runtime

abbrev RequestId := UInt64

inductive ExpertResidency where
  | absent
  | ramReady
  | vramReady
  | failed
  deriving DecidableEq, Repr

structure SchedulerConfig where
  maximumRequests : Nat
  maximumQueuedTokens : Nat
  maximumBatchItems : Nat

/-- The routing weight is carried as its bits. -/
structure RoutedExpert where
  expert : UInt32
  routingWeight : UInt32 := 0
  deriving DecidableEq

structure TokenWork where
  request : RequestId
  sequence : UInt64
  row : UInt32 := 0
  layer : UInt32 := 0
  deadlineTick : UInt64 := 0
  experts : List RoutedExpert

structure ScheduledItem where
  work : Nat
  request : RequestId
  sequence : UInt64
  row : UInt32
  layer : UInt32
  expert : UInt32
  routingWeight : UInt32
  deriving DecidableEq

structure ExpertGroup where
  layer : UInt32
  expert : UInt32
  items : List ScheduledItem
  deriving DecidableEq

structure SchedulerBatch where
  groups : List ExpertGroup := []
  readyItems : Nat := 0
  blockedItems : Nat := 0
  failedItems : Nat := 0
  uniqueExperts : Nat := 0

structure SchedulerSnapshot where
  activeRequests : Nat := 0
  queuedTokens : Nat := 0
  pendingItems : Nat := 0
  admittedRequests : Nat := 0
  rejectedRequests : Nat := 0
  cancelledRequests : Nat := 0
  completedTokens : Nat := 0
  scheduledItems : Nat := 0
  reusedItems : Nat := 0

/-- A query may answer differently for each item it is asked about. -/
abbrev ResidencyQuery := Nat → UInt32 → UInt32 → ExpertResidency

namespace Scheduler

structure TokenKey where
  request : RequestId
  sequence : UInt64
  deriving DecidableEq

/-- The defaulted three-way comparison is lexicographic over the fields. -/
def TokenKey.fields (key : TokenKey) : ℕ ×ₗ ℕ :=
  toLex (key.request.toNat, key.sequence.toNat)

theorem TokenKey.fields_injective : Function.Injective TokenKey.fields := by
  intro left right h
  cases left
  cases right
  simpa [TokenKey.fields, UInt64.toNat_inj] using h

instance : LinearOrder TokenKey := LinearOrder.lift' TokenKey.fields TokenKey.fields_injective

/-- The layer and expert that items of a batch share. -/
structure GroupKey where
  layer : UInt32
  expert : UInt32
  deriving DecidableEq

def GroupKey.fields (key : GroupKey) : ℕ ×ₗ ℕ := toLex (key.layer.toNat, key.expert.toNat)

theorem GroupKey.fields_injective : Function.Injective GroupKey.fields := by
  intro left right h
  cases left
  cases right
  simpa [GroupKey.fields, UInt32.toNat_inj] using h

instance : LinearOrder GroupKey := LinearOrder.lift' GroupKey.fields GroupKey.fields_injective

structure Item where
  value : ScheduledItem
  deadline : UInt64
  arrival : Nat
  inFlight : Bool := false
  complete : Bool := false

def Item.launched (item : Item) : Item := { item with inFlight := true }

def Item.completed (item : Item) : Item := { item with inFlight := false, complete := true }

structure Token where
  key : TokenKey
  arrival : Nat
  work : List Nat

structure Core where
  config : SchedulerConfig
  requests : List RequestId := []
  tokens : OrderedMap TokenKey Token := OrderedMap.empty
  items : OrderedMap Nat Item := OrderedMap.empty
  nextWork : Nat := 1
  clock : Nat := 0
  metrics : SchedulerSnapshot := {}

/-- The constructor; a zero limit throws. -/
def create (config : SchedulerConfig) : Option Core :=
  if config.maximumRequests = 0 ∨ config.maximumQueuedTokens = 0 ∨ config.maximumBatchItems = 0 then
    none
  else some { config }

def Item.sortKey (item : Item) : ℕ ×ₗ ℕ ×ₗ ℕ ×ₗ ℕ ×ₗ ℕ :=
  let deadline := if item.deadline = 0 then 2 ^ 64 - 1 else item.deadline.toNat
  toLex (deadline, toLex (item.arrival, toLex (item.value.request.toNat,
    toLex (item.value.sequence.toNat, item.value.expert.toNat))))

/-- A sort of the ready items; equal ones may come in any order. -/
structure Sorting where
  sort : List (Nat × Item) → List (Nat × Item)
  perm : ∀ items, (sort items).Perm items
  sorted : ∀ items, (sort items).Pairwise fun left right => left.2.sortKey ≤ right.2.sortKey

namespace Core

def admitRequest (core : Core) (request : RequestId) : Status × Core :=
  if request = 0 then (⟨.invalidArgument, "request id zero"⟩, core)
  else if request ∈ core.requests then (⟨.invalidArgument, "duplicate request id"⟩, core)
  else if core.requests.length ≥ core.config.maximumRequests then
    (⟨.backpressure, "request capacity exhausted"⟩,
      { core with metrics := { core.metrics with
          rejectedRequests := core.metrics.rejectedRequests + 1 } })
  else
    let requests := core.requests ++ [request]
    (.success, { core with
      requests
      metrics := { core.metrics with
        admittedRequests := core.metrics.admittedRequests + 1
        activeRequests := requests.length } })

/-- One routed expert of a token becomes an item. -/
def addItem (token : TokenWork) (arrival : Nat)
    (state : OrderedMap Nat Item × Nat × List Nat) (route : RoutedExpert) :
    OrderedMap Nat Item × Nat × List Nat :=
  let (items, id, work) := state
  let scheduled : ScheduledItem :=
    ⟨id, token.request, token.sequence, token.row, token.layer, route.expert, route.routingWeight⟩
  (items.emplace id { value := scheduled, deadline := token.deadlineTick, arrival }, id + 1,
    work ++ [id])

def enqueue (core : Core) (token : TokenWork) : Status × Core :=
  if token.request ∉ core.requests ∨ token.experts = [] then
    (⟨.invalidArgument, "unknown request or empty route"⟩, core)
  else if core.tokens.size ≥ core.config.maximumQueuedTokens then
    (⟨.backpressure, "token queue capacity exhausted"⟩, core)
  else
    let key : TokenKey := ⟨token.request, token.sequence⟩
    if core.tokens.contains key then (⟨.invalidArgument, "duplicate token sequence"⟩, core)
    else
      let arrival := core.clock + 1
      let (items, nextWork, work) :=
        token.experts.foldl (addItem token arrival) (core.items, core.nextWork, [])
      let tokens := core.tokens.emplace key ⟨key, arrival, work⟩
      (.success, { core with
        clock := arrival
        items
        nextWork
        tokens
        metrics := { core.metrics with queuedTokens := tokens.size, pendingItems := items.size } })

/-- Items that still wait to be handed out. -/
def waiting (core : Core) : List (Nat × Item) :=
  core.items.entries.filter fun entry => !entry.2.complete && !entry.2.inFlight

def residencyOf (residency : ResidencyQuery) (entry : Nat × Item) : ExpertResidency :=
  residency entry.1 entry.2.value.layer entry.2.value.expert

def ready (core : Core) (residency : ResidencyQuery) : List (Nat × Item) :=
  core.waiting.filter fun entry => residencyOf residency entry = .vramReady

/-- The items a batch hands out. -/
def picked (core : Core) (residency : ResidencyQuery) (sorting : Sorting) : List (Nat × Item) :=
  (sorting.sort (core.ready residency)).take core.config.maximumBatchItems

def grouped (picked : List (Nat × Item)) : OrderedMap GroupKey (List ScheduledItem) :=
  picked.foldl (fun grouped entry =>
    grouped.push ⟨entry.2.value.layer, entry.2.value.expert⟩ entry.2.value) OrderedMap.empty

/-- `schedule`; an empty query hands out nothing. -/
def schedule (core : Core) (residency : Option ResidencyQuery) (sorting : Sorting) :
    SchedulerBatch × Core :=
  match residency with
  | none => ({}, core)
  | some residency =>
    let picked := core.picked residency sorting
    let groups := (grouped picked).entries.map fun group =>
      (⟨group.1.layer, group.1.expert, group.2⟩ : ExpertGroup)
    let batch : SchedulerBatch :=
      { groups
        readyItems := picked.length
        blockedItems := core.waiting.countP fun entry =>
          residencyOf residency entry = .ramReady || residencyOf residency entry = .absent
        failedItems := core.waiting.countP fun entry => residencyOf residency entry = .failed
        uniqueExperts := groups.length }
    (batch, { core with
      items := picked.foldl (fun items entry => items.modify entry.1 Item.launched) core.items
      metrics := { core.metrics with
        scheduledItems := core.metrics.scheduledItems + batch.readyItems
        reusedItems := core.metrics.reusedItems + (batch.readyItems - batch.uniqueExperts) } })

/-- The first loop of `complete`: the error it returns, if any. -/
def completionError (core : Core) : List Nat → List Nat → Option Status
  | _, [] => none
  | unique, id :: rest =>
    if id ∈ unique then some ⟨.invalidArgument, "duplicate completion id"⟩
    else match core.items.find? id with
      | none => some ⟨.invalidArgument, "completion is not in flight"⟩
      | some item =>
        if !item.inFlight || item.complete then
          some ⟨.invalidArgument, "completion is not in flight"⟩
        else core.completionError (id :: unique) rest

def complete (core : Core) (work : List Nat) : Status × Core :=
  match core.completionError [] work with
  | some status => (status, core)
  | none => (.success, { core with
      items := work.foldl (fun items id => items.modify id Item.completed) core.items })

/-- `none` when an item of the list is missing, where `at` would throw. -/
def allComplete (items : OrderedMap Nat Item) : List Nat → Option Bool
  | [] => some true
  | id :: rest =>
    match items.find? id with
    | none => none
    | some item => if item.complete then allComplete items rest else some false

def tokenComplete (core : Core) (request : RequestId) (sequence : UInt64) : Option Bool :=
  match core.tokens.find? ⟨request, sequence⟩ with
  | none => some false
  | some token => allComplete core.items token.work

/-- `none` is the thrown exception, which leaves the tables as they were. -/
def retireToken (core : Core) (request : RequestId) (sequence : UInt64) : Option Core :=
  match core.tokens.find? ⟨request, sequence⟩ with
  | none => none
  | some token =>
    if core.tokenComplete request sequence = some true then
      let items := token.work.foldl OrderedMap.erase core.items
      let tokens := core.tokens.erase ⟨request, sequence⟩
      some { core with
        items
        tokens
        metrics := { core.metrics with
          completedTokens := core.metrics.completedTokens + 1
          queuedTokens := tokens.size
          pendingItems := items.size } }
    else none

/-- The work of the queued tokens of a request. -/
def workOf (core : Core) (request : RequestId) : List Nat :=
  (core.tokens.entries.filter (·.1.request = request)).flatMap (·.2.work)

def cancel (core : Core) (request : RequestId) : Core :=
  if request ∉ core.requests then core
  else
    let requests := core.requests.filter (· ≠ request)
    let items := (core.workOf request).foldl OrderedMap.erase core.items
    let tokens := core.tokens.filterKeys (·.request ≠ request)
    { core with
      requests
      items
      tokens
      metrics := { core.metrics with
        cancelledRequests := core.metrics.cancelledRequests + 1
        activeRequests := requests.length
        queuedTokens := tokens.size
        pendingItems := items.size } }

def finish (core : Core) (request : RequestId) : Core :=
  let hasTokens := core.tokens.entries.any (·.1.request = request)
  let requests := if !hasTokens then core.requests.filter (· ≠ request) else core.requests
  { core with
    requests
    metrics := { core.metrics with activeRequests := requests.length } }

end Core

end Scheduler

end QuantumLlm.Runtime
