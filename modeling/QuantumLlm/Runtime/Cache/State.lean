import QuantumLlm.Lib.Table
import QuantumLlm.Runtime.BufferPool
import QuantumLlm.Runtime.Record.Validation

/-!
# Expert cache: data model

The configuration, the per-expert entry, the byte counters and the core state
behind `ExpertCacheCore`. Telemetry is left out, and with it the entry fields that
only feed telemetry. The last fields of the core record what its clients, its
residency directory and its state machine observe; no operation reads them,
except that a future which was dropped decides who destroys a promise's value.
-/

namespace QuantumLlm.Runtime

inductive CacheState where
  | absent
  | ssdLoading
  | ramReady
  | gpuUploading
  | vramReady
  | failed
  deriving DecidableEq, Repr

def validCacheTransition (source target : CacheState) : Bool :=
  if target = .failed then source ≠ .failed
  else match source with
    | .absent => target = .ssdLoading
    | .ssdLoading => target = .ramReady || target = .absent
    | .ramReady => target = .gpuUploading || target = .absent
    | .gpuUploading => target = .vramReady || target = .ramReady
    | .vramReady => target = .ramReady || target = .absent
    | .failed => target = .absent

structure TierBudget where
  capacityBytes : UInt64 := 0
  highWatermarkBytes : UInt64 := 0
  lowWatermarkBytes : UInt64 := 0
  deriving DecidableEq, Repr

def validBudget (budget : TierBudget) : Bool :=
  budget.capacityBytes ≠ 0 && budget.highWatermarkBytes ≠ 0 &&
    budget.lowWatermarkBytes ≤ budget.highWatermarkBytes &&
    budget.highWatermarkBytes ≤ budget.capacityBytes

structure CachePlacementConfig where
  layerPartitionCount : UInt32 := 1
  layersPerPartition : UInt32 := 1
  ramSharedBurstBytes : UInt64 := 0
  vramSharedBurstBytes : UInt64 := 0
  vramTransientBytes : UInt64 := 0
  ramProtectedBytes : UInt64 := 0
  deriving DecidableEq, Repr

structure ExpertCacheConfig where
  ram : TierBudget
  vram : TierBudget
  retainHostCopy : Bool := true
  placement : CachePlacementConfig := {}
  ramRetentionMinimumFrequency : UInt32 := 1
  deriving DecidableEq, Repr

/-- The constructor's configuration test; its null-pointer tests are types here. -/
def validConfig (config : ExpertCacheConfig) (buffers : FixedBufferPool) : Bool :=
  validBudget config.ram && validBudget config.vram &&
    buffers.alignment ≥ kExpertPackAlignment.toUInt64 &&
    config.placement.layerPartitionCount ≠ 0 && config.placement.layersPerPartition ≠ 0 &&
    config.placement.ramSharedBurstBytes < config.ram.highWatermarkBytes &&
    config.placement.vramSharedBurstBytes < config.vram.highWatermarkBytes &&
    config.placement.vramTransientBytes < config.vram.highWatermarkBytes &&
    config.placement.ramProtectedBytes < config.ram.highWatermarkBytes

inductive ExpertRequestPriority where
  | warm
  | prefetch
  | demand
  deriving DecidableEq, Repr

def ExpertRequestPriority.index : ExpertRequestPriority → Nat
  | .warm => 0
  | .prefetch => 1
  | .demand => 2

def higherPriority (left right : ExpertRequestPriority) : Bool := left.index > right.index

structure ExpertAcquireOptions where
  priority : ExpertRequestPriority := .demand
  recordAccess : Bool := true
  allowHostRetention : Bool := true
  protectVram : Bool := false
  failFastOnDeviceAdmission : Bool := false
  deriving DecidableEq, Repr

structure HostPreloadOptions where
  priority : ExpertRequestPriority := .warm
  protectRam : Bool := true
  acquireLease : Bool := false
  deriving DecidableEq, Repr

abbrev WaiterId := Nat

structure Waiter where
  id : WaiterId
  options : ExpertAcquireOptions
  deriving DecidableEq, Repr

structure HostWaiter where
  id : WaiterId
  options : HostPreloadOptions
  deriving DecidableEq, Repr

/-- A retained pageable copy of a record. -/
structure ImmutableHostBuffer where
  bytes : List UInt8
  deriving DecidableEq

/-- An `IDeviceAllocation`: its identity and its immutable `bytes()`. -/
structure DeviceAllocation where
  id : Nat
  bytes : UInt64
  deriving DecidableEq, Repr

structure Entry where
  record : PayloadRecord := {}
  state : CacheState := .absent
  waiters : List Waiter := []
  hostWaiters : List HostWaiter := []
  host : Option PoolLease := none
  hostCopy : Option ImmutableHostBuffer := none
  device : Option DeviceAllocation := none
  validatedSections : Option ExpertSections := none
  validatedCompact : SplitExpertSections := {}
  ramReserved : UInt64 := 0
  vramReserved : UInt64 := 0
  references : Nat := 0
  lastAccess : UInt64 := 0
  frequency : UInt32 := 0
  routingScoreMassQ20 : UInt64 := 0
  routingScorePeakQ20 : UInt32 := 0
  ramProtected : Bool := false
  ramProtectedRequested : Bool := false
  ramProtectionPersistent : Bool := false
  vramResident : Bool := true
  vramResidentRequested : Bool := false
  forceHostRetention : Bool := false
  preparingHost : Bool := false
  ioOperation : OperationId := 0
  uploadOperation : OperationId := 0
  abandon : Bool := false

instance : Inhabited Entry := ⟨{}⟩

/-- `same_record`: all fields, the digest by constant-time comparison. -/
def sameRecord (left right : PayloadRecord) : Bool := left = right

/-- `device_bytes(record)`: zero keeps stored and device bytes equal. -/
def deviceBytes (record : PayloadRecord) : UInt64 :=
  if record.deviceBytes = 0 then record.storedBytes else record.deviceBytes

def kRoutingScoreScale : UInt64 := 0x100000

namespace Entry

def hasWaiters (entry : Entry) : Bool := !entry.waiters.isEmpty || !entry.hostWaiters.isEmpty

def hasHostBytes (entry : Entry) : Bool := entry.host.isSome || entry.hostCopy.isSome

/-- `effective_priority_locked`: the highest priority over both waiter maps. -/
def effectivePriority (entry : Entry) : ExpertRequestPriority :=
  (entry.waiters.map (·.options.priority) ++ entry.hostWaiters.map (·.options.priority)).foldl
    (fun result priority => if higherPriority priority result then priority else result) .warm

/-- `device_allows_host_retention_locked`. -/
def allowsHostRetention (entry : Entry) : Bool :=
  entry.waiters.any (·.options.allowHostRetention)

/-- `temperature_locked`: saturating sum of frequency and routing-score heat. -/
def temperature (entry : Entry) : UInt64 :=
  let limit : UInt64 := 0xffffffffffffffff
  let frequencyHeat := entry.frequency.toUInt64 * kRoutingScoreScale
  let peakHeat := (entry.routingScorePeakQ20 / 4).toUInt64
  let scoreHeat :=
    if peakHeat > limit - entry.routingScoreMassQ20 then limit
    else entry.routingScoreMassQ20 + peakHeat
  if scoreHeat > limit - frequencyHeat then limit else frequencyHeat + scoreHeat

/-- The retention test of `prepare_host_entry`, evaluated twice there. -/
def needsCopy (config : ExpertCacheConfig) (entry : Entry) : Bool :=
  config.retainHostCopy &&
    (entry.forceHostRetention ||
      (entry.allowsHostRetention && entry.frequency ≥ config.ramRetentionMinimumFrequency))

end Entry

structure Counters where
  ramBytes : UInt64 := 0
  ramProbationaryBytes : UInt64 := 0
  ramProtectedBytes : UInt64 := 0
  vramBytes : UInt64 := 0
  vramResidentBytes : UInt64 := 0
  vramTransientBytes : UInt64 := 0
  vramReferencedEntries : UInt64 := 0
  vramReferencedBytes : UInt64 := 0
  vramTransientReferencedBytes : UInt64 := 0
  ramPartitionBytes : Nat → UInt64 := fun _ => 0
  vramPartitionBytes : Nat → UInt64 := fun _ => 0

/-- A waiter that `acquire` or `preload_host` created; only the second's handle
cancels on destruction. -/
structure Ticket where
  id : WaiterId
  key : ExpertKey
  host : Bool
  deriving DecidableEq

/-- The value a waiter's promise was set to. -/
structure Answer where
  id : WaiterId
  status : Status
  deriving DecidableEq

/-- What an `ExpertLease` or a `HostExpertLease` points to. -/
inductive Grant where
  | device (allocation : Option DeviceAllocation)
  | host (copy : ImmutableHostBuffer)
  deriving DecidableEq

/-- An outstanding lease, named after the waiter or the lookup it was handed to. -/
structure Lease where
  id : WaiterId
  key : ExpertKey
  grant : Grant
  deriving DecidableEq

/-- One application of `fail_entry_locked`. -/
structure Failure where
  key : ExpertKey
  state : CacheState
  status : Status
  deriving DecidableEq

structure Journal where
  issued : List Ticket := []
  answers : List Answer := []
  leases : List Lease := []
  /-- Ids of the leases whose `release_reference` has run. -/
  returned : List WaiterId := []
  /-- Device waiters whose `AcquireHandle` was destroyed. -/
  dropped : List WaiterId := []
  /-- Leases destroyed by a thread that holds the core mutex. -/
  reentered : List WaiterId := []
  failures : List Failure := []

/-- The answers of the device residency directory. They may change from one scan
to the next, so they take the number of scans and retirements made so far. -/
structure Directory where
  routePinned : Nat → ExpertKey → Bool
  tryRetire : Nat → ExpertKey → Bool

/-- Exceptions that would escape a lock section. -/
inductive Fault where
  | invalidTransition
  | missingIndexEntry
  deriving DecidableEq, Repr

structure Core where
  config : ExpertCacheConfig
  directory : Option Directory
  buffers : FixedBufferPool
  entries : Table ExpertKey Entry := Table.empty
  readTaskKeys : ExpertRequestPriority → OrderedSet ExpertKey := fun _ => OrderedSet.empty
  uploadTaskKeys : ExpertRequestPriority → OrderedSet ExpertKey := fun _ => OrderedSet.empty
  accessClock : UInt64 := 0
  counters : Counters := {}
  hostPrepareQueue : List ExpertKey := []
  shuttingDown : Bool := false
  directoryClock : Nat := 0
  /-- Keys the residency directory has been told to show. -/
  published : List ExpertKey := []
  /-- Attempted `transition_locked` calls. -/
  transitions : List (CacheState × CacheState) := []
  fault : Option Fault := none
  journal : Journal := {}

namespace Core

abbrev entry (core : Core) (key : ExpertKey) : Entry := core.entries.get key

def partitionFor (core : Core) (key : ExpertKey) : Nat :=
  min (key.layer / core.config.placement.layersPerPartition).toNat
    (core.config.placement.layerPartitionCount.toNat - 1)

def partitionQuota (core : Core) (tier : TierBudget) (sharedBurst : UInt64) : UInt64 :=
  (tier.highWatermarkBytes - sharedBurst) / core.config.placement.layerPartitionCount.toUInt64

def modify (core : Core) (key : ExpertKey) (change : Entry → Entry) : Core :=
  { core with entries := core.entries.modify key change }

end Core

def bufferClass (priority : ExpertRequestPriority) : BufferPoolClass :=
  if priority = .demand then .demand else .background

end QuantumLlm.Runtime
