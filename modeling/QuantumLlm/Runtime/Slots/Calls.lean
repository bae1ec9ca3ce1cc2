import QuantumLlm.Lib.Interleaving
import QuantumLlm.Lib.Run
import QuantumLlm.Runtime.Slots.State

/-!
# Calls on request states

Creation, execution, parking, restoring, rewinding, loading and destruction of
request states, one section under the mutex at a time.
-/

namespace QuantumLlm.Runtime.Slots

variable {config : Config}

/-- A snapshot that was read and checked before it is installed. -/
structure Snapshot where
  parked : ParkedRequestState
  hostPageCount : Nat
  progress : Progress
  deriving DecidableEq

def Snapshot.hostBytes (config : Config) (snapshot : Snapshot) : Nat :=
  snapshot.hostPageCount * config.hostFp16TargetPageBytes

/-- The geometry that `load_request_state_snapshot` checks. -/
def Snapshot.valid (config : Config) (snapshot : Snapshot) : Bool :=
  let parked := snapshot.parked
  let progress := snapshot.progress
  progress.retentionPosition ≠ 0 && progress.retentionPosition ≤ config.maxContext &&
    progress.currentPosition + 1 = progress.retentionPosition && progress.retentionValid &&
    progress.synchronizationRows = 0 &&
    parked.logicalPages = config.pagesOf progress.retentionPosition &&
    parked.logicalPages ≤ config.maximumPagesPerSlot &&
    parked.pagePayloadBytes = parked.pageIndices.length * config.kvPageBytes &&
    parked.windowPayloadBytes = config.windowKvBytesPerSlot &&
    parked.reportedBytes = parked.bytes + snapshot.hostBytes config &&
    (if config.hostAuthoritativeFp16Kv then
      snapshot.hostPageCount = parked.logicalPages &&
        progress.retentionPosition ≤ progress.hostKvPopulatedTokens
    else
      snapshot.hostPageCount = 0 && progress.hostKvPopulatedTokens = 0 &&
        parked.pageIndices.length = parked.logicalPages) &&
    parked.pageIndices.all (· < parked.logicalPages) &&
    decide (parked.pageIndices.Pairwise (· < ·))

/-- What execution addresses, and what the device allows. -/
inductive Address where
  | page (cachePosition : Nat) (allocated published : Bool)
  | hostPage (cachePosition : Nat) (allocations : Nat)
  deriving DecidableEq

namespace Provider

/-- The pages that an execution makes sure of, until one fails. -/
def ensurePages (provider : Provider config) (state : RequestState) :
    List Address → Provider config × RequestState × Bool
  | [] => (provider, state, true)
  | .page cachePosition allocated published :: rest =>
    match state.slot with
    | none => (provider, state, false)
    | some slot =>
      let ensured := provider.ensurePage slot cachePosition allocated published
      if ensured.2 then ensurePages ensured.1 state rest else (ensured.1, state, false)
  | .hostPage cachePosition allocations :: rest =>
    let ensured := provider.ensureHostKvPage state cachePosition allocations
    if ensured.2.2 then ensurePages ensured.1 ensured.2.1 rest else ensured

/-- An execution under the mutex; the kernels come after the pages. -/
def execute (provider : Provider config) (state : RequestState) (addresses : List Address)
    (finished : Bool) (progress : Progress) : Provider config × RequestState × Bool :=
  let ensured := provider.ensurePages state addresses
  if ensured.2.2 && finished then (ensured.1, { ensured.2.1 with progress }, true)
  else (ensured.1, ensured.2.1, false)

/-- The pages of the prefix that are there. -/
def residentPages (provider : Provider config) (slot pageCount : Nat) : List Nat :=
  (List.range pageCount).filter fun index =>
    ((provider.slotPages[slot]?.getD [])[index]?.getD none).isSome

/-- `park_request_state`; the payload can be allocated and every copy succeeds, or not. -/
def park (provider : Provider config) (state : RequestState) (nextPosition : Nat)
    (copied : Bool) : Provider config × RequestState × Bool :=
  match state.parkedState, state.slot with
  | none, some slot =>
    let progress := state.progress
    let pageCount := config.pagesOf nextPosition
    let resident := provider.residentPages slot pageCount
    let pageBytes := resident.length * config.kvPageBytes
    let requiredBytes := pageBytes + config.windowKvBytesPerSlot + config.stateBytes
    if config.capacity ≤ slot ∨ provider.slotInUse[slot]? ≠ some true ∨ nextPosition = 0 ∨
        config.maxContext < nextPosition ∨ progress.currentPosition + 1 ≠ nextPosition ∨
        ¬ progress.retentionValid ∨ progress.retentionPosition ≠ nextPosition ∨
        progress.synchronizationRows ≠ 0 then (provider, state, false)
    else if config.hostAuthoritativeFp16Kv ∧
        (progress.hostKvPopulatedTokens < nextPosition ∨ state.hostKvPages < pageCount) then
      (provider, state, false)
    else if ¬ config.hostAuthoritativeFp16Kv ∧ resident.length ≠ pageCount then
      (provider, state, false)
    else if ¬ provider.fits requiredBytes then (provider, state, false)
    else if ¬ copied then (provider, state, false)
    else
      let parked : ParkedRequestState :=
        { pageIndices := resident
          logicalPages := pageCount
          pagePayloadBytes := pageBytes
          windowPayloadBytes := config.windowKvBytesPerSlot
          bytes := requiredBytes
          reportedBytes := requiredBytes + state.hostKvBytes }
      let freed := provider.freePages slot
      ({ freed with
          slotInUse := provider.slotInUse.set slot false
          parkedRequestBytes := provider.parkedRequestBytes + requiredBytes
          parkedSessionBytes := provider.parkedSessionBytes + parked.reportedBytes },
        { state with slot := none, parkedState := some parked }, true)
  | _, _ => (provider, state, false)

/-- The pages that a restore publishes, the indices it has published, and whether it went
through. -/
def restorePages (slot pageCount : Nat) (provider : Provider config) (allocations copies : Nat)
    (published : List Nat) : List Nat → Provider config × List Nat × Bool
  | [] => (provider, published, true)
  | index :: rest =>
    if pageCount ≤ index then (provider, published, false)
    else
      match provider.takePage slot index (0 < allocations) with
      | none => (provider, published, false)
      | some taken =>
        match copies with
        | 0 => (taken, published ++ [index], false)
        | copies + 1 =>
          restorePages slot pageCount taken
            (if provider.freeKvPages = [] then allocations - 1 else allocations) copies
            (published ++ [index]) rest

/-- A failed restore puts its pages into the free list. -/
def unpublish (slot : Nat) (provider : Provider config) : List Nat → Provider config
  | [] => provider
  | index :: rest =>
    match (provider.slotPages[slot]?.getD [])[index]? with
    | some (some page) =>
      let freed := { provider with freeKvPages := provider.freeKvPages ++ [page] }
      unpublish slot (freed.setPage slot index none) rest
    | _ => unpublish slot provider rest

/-- `restore_request_state`. -/
def restore (provider : Provider config) (state : RequestState) (allocations copies : Nat)
    (finished : Bool) : Provider config × RequestState × Bool :=
  match state.parkedState, state.slot with
  | some parked, none =>
    match provider.slotInUse.findIdx? (!·) with
    | none => (provider, state, false)
    | some slot =>
      let resident := parked.pageIndices.length
      if config.maximumPagesPerSlot < parked.logicalPages ∨
          parked.pagePayloadBytes ≠ resident * config.kvPageBytes ∨
          parked.windowPayloadBytes ≠ config.windowKvBytesPerSlot then
        (provider, state, false)
      else if provider.parkedRequestBytes < parked.bytes ∨
          provider.parkedSessionBytes < parked.reportedBytes then (provider, state, false)
      else if provider.freeKvPages.length + (config.kvPageCapacity - provider.allKvPages) <
          resident then (provider, state, false)
      else
        let marked : Provider config :=
          { provider with slotInUse := provider.slotInUse.set slot true }
        let restored := restorePages slot parked.logicalPages marked allocations copies []
          parked.pageIndices
        if restored.2.2 && finished then
          ({ restored.1 with
              parkedRequestBytes := provider.parkedRequestBytes - parked.bytes
              parkedSessionBytes := provider.parkedSessionBytes - parked.reportedBytes },
            { state with slot := some slot, parkedState := none }, true)
        else
          let rolledBack := unpublish slot restored.1 restored.2.1
          ({ rolledBack with slotInUse := rolledBack.slotInUse.set slot false }, state, false)
  | _, _ => (provider, state, false)

/-- `rewind_request_state`. -/
def rewind (provider : Provider config) (state : RequestState) (nextPosition : Nat)
    (copied : Bool) : Provider config × RequestState × Bool :=
  let progress := state.progress
  if ¬ progress.retentionValid ∨ progress.retentionPosition ≠ nextPosition ∨
      progress.synchronizationRows ≠ 0 ∨ ¬ copied then (provider, state, false)
  else
    let trimmed :=
      if config.hostAuthoritativeFp16Kv then
        provider.trimHostKv state (state.hostKvPages - config.pagesOf nextPosition)
      else (provider, state)
    (trimmed.1,
      { trimmed.2 with
        progress :=
          { progress with
            currentPosition := nextPosition - 1
            synchronizationRows := 0
            hostKvPopulatedTokens :=
              if config.hostAuthoritativeFp16Kv then nextPosition
              else progress.hostKvPopulatedTokens } }, true)

/-- The second section of `load_request_state_snapshot`. -/
def install (provider : Provider config) (state : RequestState) (snapshot : Snapshot) :
    Provider config × RequestState × Bool :=
  let hostBytes := snapshot.hostBytes config
  if ¬ provider.fits snapshot.parked.bytes ∨
      config.parkingRamCapacityBytes - snapshot.parked.bytes - provider.hostKvBytes -
        provider.parkedRequestBytes < hostBytes then (provider, state, false)
  else
    ({ provider with
        hostKvBytes := provider.hostKvBytes + hostBytes
        parkedRequestBytes := provider.parkedRequestBytes + snapshot.parked.bytes
        parkedSessionBytes := provider.parkedSessionBytes + snapshot.parked.reportedBytes },
      { slot := none
        parkedState := some snapshot.parked
        hostKvPages := snapshot.hostPageCount
        hostKvBytes := hostBytes
        progress := snapshot.progress }, true)

/-- The second section of `release_request_state`. -/
def releaseRequestState (provider : Provider config) (state : RequestState) :
    Provider config × RequestState :=
  let unparked :=
    match state.parkedState with
    | none => provider
    | some parked =>
      { provider with
        parkedRequestBytes :=
          if parked.bytes ≤ provider.parkedRequestBytes then
            provider.parkedRequestBytes - parked.bytes
          else provider.parkedRequestBytes
        parkedSessionBytes :=
          if parked.reportedBytes ≤ provider.parkedSessionBytes then
            provider.parkedSessionBytes - parked.reportedBytes
          else provider.parkedSessionBytes }
  let released := unparked.releaseHostKv state
  (released.1, { released.2 with slot := none, parkedState := none })

end Provider

/-- Whether a state is in the middle of a call that drops the mutex. -/
inductive Status where
  | live
  /-- Loading: its slot is released, the snapshot not installed. -/
  | installing (snapshot : Snapshot)
  /-- Destroyed: its slot is released. -/
  | dropping
  | gone
  deriving DecidableEq

structure Request where
  status : Status
  state : RequestState
  deriving DecidableEq

inductive Choice where
  | execute (addresses : List Address) (finished : Bool) (progress : Progress)
  | park (nextPosition : Nat) (copied : Bool)
  | restore (allocations copies : Nat) (finished : Bool)
  | rewind (nextPosition : Nat) (copied : Bool)
  /-- `none` when a file is missing or refused. -/
  | load (snapshot : Option Snapshot)
  | install
  | destroy
  | drop
  deriving DecidableEq

namespace Request

/-- One section of a call, and what it reports. -/
def call (provider : Provider config) (request : Request) (choice : Choice) :
    Option (Provider config × Request × Bool) :=
  let state := request.state
  match request.status, choice with
  | .live, .execute addresses finished progress =>
    let called := provider.execute state addresses finished progress
    some (called.1, ⟨.live, called.2.1⟩, called.2.2)
  | .live, .park nextPosition copied =>
    let called := provider.park state nextPosition copied
    some (called.1, ⟨.live, called.2.1⟩, called.2.2)
  | .live, .restore allocations copies finished =>
    let called := provider.restore state allocations copies finished
    some (called.1, ⟨.live, called.2.1⟩, called.2.2)
  | .live, .rewind nextPosition copied =>
    let called := provider.rewind state nextPosition copied
    some (called.1, ⟨.live, called.2.1⟩, called.2.2)
  | .live, .load snapshot =>
    match state.parkedState, state.slot, snapshot with
    | none, some slot, some snapshot =>
      if slot < config.capacity ∧ snapshot.valid config then
        some (provider.releaseSlot slot, ⟨.installing snapshot, state⟩, true)
      else some (provider, request, false)
    | _, _, _ => some (provider, request, false)
  | .installing snapshot, .install =>
    let called := provider.install state snapshot
    some (called.1, ⟨.live, called.2.1⟩, called.2.2)
  | .live, .destroy =>
    match state.parkedState, state.slot with
    | none, some slot => some (provider.releaseSlot slot, ⟨.dropping, state⟩, true)
    | _, _ => some (provider, ⟨.dropping, state⟩, true)
  | .dropping, .drop =>
    let released := provider.releaseRequestState state
    some (released.1, ⟨.gone, released.2⟩, true)
  | _, _ => none

def step (provider : Provider config) (request : Request) (choice : Choice) :
    Option (Provider config × Request) :=
  (call provider request choice).map fun called => (called.1, called.2.1)

end Request

abbrev Service (config : Config) := Interleaved (Provider config) Request

inductive Action where
  /-- The request is valid, and its state can be cleared and allocated. -/
  | create (valid cleared : Bool)
  | turn (index : Nat) (choice : Choice)
  deriving DecidableEq

namespace Service

def start : Service config where
  shared := {}
  threads := []

/-- `create_request_state`. -/
def create (service : Service config) (valid cleared : Bool) : Service config × Bool :=
  if ¬ valid then (service, false)
  else
    match service.shared.slotInUse.findIdx? (!·) with
    | none => (service, false)
    | some slot =>
      let marked : Provider config :=
        { service.shared with slotInUse := service.shared.slotInUse.set slot true }
      if cleared then
        ({ shared := marked, threads := service.threads ++ [⟨.live, { slot := some slot }⟩] },
          true)
      else ({ service with shared := marked }, false)

def step (service : Service config) : Action → Option (Service config)
  | .create valid cleared => some (service.create valid cleared).1
  | .turn index choice => service.turn Request.step index choice

end Service

end QuantumLlm.Runtime.Slots
