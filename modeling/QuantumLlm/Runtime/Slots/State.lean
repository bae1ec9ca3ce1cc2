import Mathlib.Data.List.ReduceOption
import Mathlib.Data.List.Basic

/-!
# Slots and pages

The execution slots of the provider, the tables of KV pages, the free list and
the byte counters, with the operations that move pages between them. Every
allocation and every copy may fail where an argument says so.
-/

namespace QuantumLlm.Runtime.Slots

structure Config where
  capacity : Nat
  maxContext : Nat
  kvPageTokens : Nat
  kvPageTokens_pos : 0 < kvPageTokens
  kvPageCapacity : Nat
  kvPageBytes : Nat
  windowKvBytesPerSlot : Nat
  /-- The recurrent, convolution and hidden states of one slot. -/
  stateBytes : Nat
  hostFp16TargetPageBytes : Nat
  parkingRamCapacityBytes : Nat
  hostAuthoritativeFp16Kv : Bool

namespace Config

variable (config : Config)

def pagesOf (tokens : Nat) : Nat := (tokens + config.kvPageTokens - 1) / config.kvPageTokens

def maximumPagesPerSlot : Nat := config.pagesOf config.maxContext

end Config

/-- Pages are named in the order in which the device allocated them. -/
abbrev Page := Nat

abbrev PageTable := List (Option Page)

structure Provider (config : Config) where
  slotInUse : List Bool := List.replicate config.capacity false
  slotPages : List PageTable :=
    List.replicate config.capacity (List.replicate config.maximumPagesPerSlot none)
  freeKvPages : List Page := []
  /-- How many pages were ever allocated, none of which is given back to the device. -/
  allKvPages : Nat := 0
  hostKvBytes : Nat := 0
  parkedRequestBytes : Nat := 0
  parkedSessionBytes : Nat := 0

/-- The payload is left out, its size is `bytes`. -/
structure ParkedRequestState where
  pageIndices : List Nat
  logicalPages : Nat
  pagePayloadBytes : Nat
  windowPayloadBytes : Nat
  bytes : Nat
  reportedBytes : Nat
  deriving DecidableEq

/-- How far a request is, as execution sets it. -/
structure Progress where
  currentPosition : Nat := 0
  retentionPosition : Nat := 0
  retentionValid : Bool := false
  synchronizationRows : Nat := 0
  hostKvPopulatedTokens : Nat := 0
  deriving DecidableEq

/-- `slot` is `none` for `kNoSlot`. -/
structure RequestState where
  slot : Option Nat
  parkedState : Option ParkedRequestState := none
  hostKvPages : Nat := 0
  hostKvBytes : Nat := 0
  progress : Progress := {}
  deriving DecidableEq

variable {config : Config}

namespace Provider

def setPage (provider : Provider config) (slot index : Nat) (page : Option Page) :
    Provider config :=
  { provider with
    slotPages := provider.slotPages.modify slot fun table => table.set index page }

/-- The table of a slot gives its pages back. -/
def freePages (provider : Provider config) (slot : Nat) : Provider config :=
  { provider with
    freeKvPages := provider.freeKvPages ++ (provider.slotPages[slot]?.getD []).reduceOption
    slotPages := provider.slotPages.modify slot fun table => table.map fun _ => none }

/-- `release_slot`. -/
def releaseSlot (provider : Provider config) (slot : Nat) : Provider config :=
  if provider.slotInUse[slot]? = some true then
    { provider.freePages slot with slotInUse := provider.slotInUse.set slot false }
  else provider

/-- A page for an empty entry: from the free list, or from the device. -/
def takePage (provider : Provider config) (slot index : Nat) (allocated : Bool) :
    Option (Provider config) :=
  match provider.freeKvPages.getLast? with
  | some page =>
    some ({ provider with freeKvPages := provider.freeKvPages.dropLast }.setPage slot index
      (some page))
  | none =>
    if allocated then
      some ({ provider with allKvPages := provider.allKvPages + 1 }.setPage slot index
        (some provider.allKvPages))
    else none

/-- `ensure_page`. -/
def ensurePage (provider : Provider config) (slot cachePosition : Nat)
    (allocated published : Bool) : Provider config × Bool :=
  if config.capacity ≤ slot ∨ config.maxContext ≤ cachePosition then (provider, false)
  else
    let index := cachePosition / config.kvPageTokens
    match (provider.slotPages[slot]?.getD [])[index]? with
    | some none =>
      if provider.freeKvPages = [] ∧ config.kvPageCapacity ≤ provider.allKvPages then
        (provider, false)
      else
        match provider.takePage slot index allocated with
        | none => (provider, false)
        | some provider => (provider, published)
    | _ => (provider, true)

/-- The loop of `ensure_host_kv_page`: so many more pages, of which so many can be allocated. -/
def growHostKv (provider : Provider config) (state : RequestState) (allocations : Nat) :
    Nat → Provider config × RequestState × Bool
  | 0 => (provider, state, true)
  | missing + 1 =>
    let pageBytes := config.hostFp16TargetPageBytes
    if pageBytes = 0 ∨ config.parkingRamCapacityBytes < pageBytes ∨
        config.parkingRamCapacityBytes - pageBytes <
          provider.hostKvBytes + provider.parkedRequestBytes then
      (provider, state, false)
    else if allocations = 0 then (provider, state, false)
    else
      growHostKv { provider with hostKvBytes := provider.hostKvBytes + pageBytes }
        { state with
          hostKvPages := state.hostKvPages + 1
          hostKvBytes := state.hostKvBytes + pageBytes } (allocations - 1) missing

/-- `ensure_host_kv_page`. -/
def ensureHostKvPage (provider : Provider config) (state : RequestState)
    (cachePosition allocations : Nat) : Provider config × RequestState × Bool :=
  if ¬ config.hostAuthoritativeFp16Kv then (provider, state, true)
  else if config.maxContext ≤ cachePosition then (provider, state, false)
  else
    provider.growHostKv state allocations
      (cachePosition / config.kvPageTokens + 1 - state.hostKvPages)

/-- `release_host_kv`. -/
def releaseHostKv (provider : Provider config) (state : RequestState) :
    Provider config × RequestState :=
  ({ provider with
      hostKvBytes :=
        if state.hostKvBytes ≤ provider.hostKvBytes then provider.hostKvBytes - state.hostKvBytes
        else provider.hostKvBytes },
    { state with
      hostKvPages := 0
      hostKvBytes := 0
      progress := { state.progress with hostKvPopulatedTokens := 0 } })

/-- The loop of `trim_host_kv`, for so many pages. -/
def trimHostKv (provider : Provider config) (state : RequestState) :
    Nat → Provider config × RequestState
  | 0 => (provider, state)
  | surplus + 1 =>
    let pageBytes := config.hostFp16TargetPageBytes
    trimHostKv
      { provider with
        hostKvBytes :=
          if pageBytes ≤ provider.hostKvBytes then provider.hostKvBytes - pageBytes
          else provider.hostKvBytes }
      { state with
        hostKvPages := state.hostKvPages - 1
        hostKvBytes :=
          if pageBytes ≤ state.hostKvBytes then state.hostKvBytes - pageBytes
          else state.hostKvBytes }
      surplus

/-- What leaves room for it in the parking memory. -/
def fits (provider : Provider config) (bytes : Nat) : Bool :=
  bytes ≤ config.parkingRamCapacityBytes &&
    provider.hostKvBytes + provider.parkedRequestBytes ≤ config.parkingRamCapacityBytes - bytes

end Provider

end QuantumLlm.Runtime.Slots
