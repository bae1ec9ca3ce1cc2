import QuantumLlm.Runtime.Cache.Locked

/-!
# Expert cache: eviction and admission

The victim scan, the eviction loops and the capacity tests that run before a
reservation. The loops of the source end because every round removes a copy or
marks a key as busy; the bound each loop carries here is that count.
-/

namespace QuantumLlm.Runtime

/-- The arguments of `evict_one_locked`. -/
structure EvictionRequest where
  needRam : Bool
  needVram : Bool
  excluded : Option ExpertKey := none
  requiredPartition : Option Nat := none
  overQuotaOnly : Bool := false
  requiredVramClass : Option Bool := none
  maximumTemperatureExclusive : Option UInt64 := none
  requiredRamClass : Option Bool := none

namespace Entry

/-- No lease, waiter, read, preparation or upload holds the entry. -/
def evictable (entry : Entry) : Bool :=
  entry.references = 0 && !entry.hasWaiters && !entry.preparingHost &&
    entry.state ≠ .ssdLoading && entry.state ≠ .gpuUploading && entry.state ≠ .failed

/-- The copies an eviction would take from the entry. -/
def useful (entry : Entry) (needRam needVram : Bool) : Bool :=
  (needRam && entry.hasHostBytes) || (needVram && entry.device.isSome)

/-- The class and temperature filters of a request. -/
def matchesRequest (entry : Entry) (request : EvictionRequest) : Bool :=
  (!request.needVram || request.requiredVramClass.all fun resident =>
      entry.device.isSome && entry.vramResident = resident) &&
    (!request.needRam || request.requiredRamClass.all fun protectedClass =>
      entry.hasHostBytes && entry.ramProtected = protectedClass) &&
    request.maximumTemperatureExclusive.all fun limit => entry.temperature < limit

def protectRam (entry : Entry) : Entry :=
  { entry with ramProtected := true, ramProtectedRequested := true }

def makeResident (entry : Entry) : Entry :=
  { entry with vramResident := true, vramResidentRequested := true }

end Entry

namespace Core

def routePinned (core : Core) (key : ExpertKey) : Bool :=
  core.directory.any fun directory => directory.routePinned core.directoryClock key

def tryRetire (core : Core) (key : ExpertKey) : Bool :=
  core.directory.all fun directory => directory.tryRetire core.directoryClock key

/-- How far the partition of `key` is over its quota in the requested tiers. -/
def excess (core : Core) (request : EvictionRequest) (key : ExpertKey) : UInt64 :=
  let partition := core.partitionFor key
  let ramQuota := core.partitionQuota core.config.ram core.config.placement.ramSharedBurstBytes
  let vramQuota := core.partitionQuota core.config.vram core.config.placement.vramSharedBurstBytes
  let ramExcess :=
    if request.needRam && core.counters.ramPartitionBytes partition > ramQuota then
      core.counters.ramPartitionBytes partition - ramQuota
    else 0
  let vramExcess :=
    if request.needVram && core.counters.vramPartitionBytes partition > vramQuota then
      core.counters.vramPartitionBytes partition - vramQuota
    else 0
  max ramExcess vramExcess

def eligible (core : Core) (request : EvictionRequest) (busy : List ExpertKey)
    (key : ExpertKey) : Bool :=
  let entry := core.entry key
  request.excluded ≠ some key && key ∉ busy && entry.evictable &&
    !(request.needVram && entry.device.isSome && core.routePinned key) &&
    entry.useful request.needRam request.needVram && entry.matchesRequest request &&
    request.requiredPartition.all (core.partitionFor key = ·) &&
    !(request.overQuotaOnly && core.excess request key = 0)

/-- The order of victims: colder first, then further over quota, then older. -/
def precedes (core : Core) (request : EvictionRequest) (key candidate : ExpertKey) : Bool :=
  let entry := core.entry key
  let other := core.entry candidate
  entry.temperature < other.temperature ||
    (entry.temperature = other.temperature &&
      (core.excess request key > core.excess request candidate ||
        (core.excess request key = core.excess request candidate &&
          (entry.lastAccess < other.lastAccess ||
            (entry.lastAccess = other.lastAccess && key < candidate)))))

def evictionScan (core : Core) (request : EvictionRequest) (busy : List ExpertKey) :
    Option ExpertKey :=
  core.entries.keys.items.foldl (fun candidate key =>
    if core.eligible request busy key && candidate.all (core.precedes request key ·) then some key
    else candidate) none

/-- The victim's RAM copy goes, if RAM is needed. -/
def evictHost (core : Core) (victim : ExpertKey) (needRam : Bool) : Core :=
  if needRam && (core.entry victim).hasHostBytes then core.releaseHostLocked victim else core

/-- The victim's device copy goes, if VRAM is needed: the directory has retired it. -/
def evictDevice (core : Core) (victim : ExpertKey) (needVram : Bool) : Core :=
  if needVram && (core.entry victim).device.isSome then
    let released := core.releaseDeviceLocked victim true
    let entry := released.entry victim
    if entry.state = .vramReady then
      released.transitionLocked victim (if entry.hasHostBytes then .ramReady else .absent)
    else released
  else core

/-- A victim left in `RAM_READY` without a byte in RAM is absent. -/
def evictEmpty (core : Core) (victim : ExpertKey) : Core :=
  let entry := core.entry victim
  if entry.state = .ramReady && !entry.hasHostBytes then core.transitionLocked victim .absent
  else core

def evictVictim (core : Core) (victim : ExpertKey) (needRam needVram : Bool) : Core :=
  let retired : Core :=
    { core with
      published :=
        if needVram && (core.entry victim).device.isSome && core.directory.isSome then
          core.published.filter (· ≠ victim)
        else core.published }
  ((retired.evictHost victim needRam).evictDevice victim needVram).evictEmpty victim

/-- The retry loop of `evict_one_locked` around a busy retirement. -/
def evictRetry (request : EvictionRequest) : Nat → List ExpertKey → Core → Bool × Core
  | 0, _, core => (false, core)
  | fuel + 1, busy, core =>
    let scanned := { core with directoryClock := core.directoryClock + 1 }
    match core.evictionScan request busy with
    | none => (false, scanned)
    | some victim =>
      if request.needVram && (core.entry victim).device.isSome && !core.tryRetire victim then
        evictRetry request fuel (victim :: busy) scanned
      else (true, scanned.evictVictim victim request.needRam request.needVram)

def evictOneLocked (core : Core) (request : EvictionRequest) : Bool × Core :=
  evictRetry request (core.entries.keys.items.length + 1) [] core

/-- `if (!attempt) return false;` before the rest. -/
def andThen (attempt : Bool × Core) (rest : Core → Bool × Core) : Bool × Core :=
  if attempt.1 then rest attempt.2 else attempt

/-- `if (attempt) return true;` before the rest. -/
def orElse (attempt : Bool × Core) (rest : Core → Bool × Core) : Bool × Core :=
  if attempt.1 then attempt else rest attempt.2

/-- Copies in either tier; every successful eviction removes at least one. -/
def copies (core : Core) : Nat :=
  core.entries.sum fun _ entry => entry.hasHostBytes.toNat + entry.device.isSome.toNat

/-- `while (pressed) if (!evict) return false; return true;` -/
def evictLoop (pressed : Core → Bool) (evict : Core → Bool × Core) : Nat → Core → Bool × Core
  | 0, core => (false, core)
  | fuel + 1, core =>
    if pressed core then
      match evict core with
      | (true, evicted) => evictLoop pressed evict fuel evicted
      | (false, evicted) => (false, evicted)
    else (true, core)

def evictWhile (core : Core) (pressed : Core → Bool) (evict : Core → Bool × Core) : Bool × Core :=
  evictLoop pressed evict (core.copies + 1) core

def makePartitionCapacityLocked (core : Core) (ramNeed : UInt64) (key : ExpertKey) :
    Bool × Core :=
  if core.config.placement.layerPartitionCount = 1 then (true, core)
  else
    let partition := core.partitionFor key
    let burst := core.config.placement.ramSharedBurstBytes
    let ramLimit := core.partitionQuota core.config.ram burst + burst
    if ramNeed > ramLimit then (false, core)
    else core.evictWhile (fun core => core.counters.ramPartitionBytes partition + ramNeed > ramLimit)
      fun core => core.evictOneLocked
        { needRam := true, needVram := false, excluded := some key,
          requiredPartition := some partition }

def makeRamClassCapacityLocked (core : Core) (ramNeed : UInt64) (key : ExpertKey)
    (protectedClass : Bool) : Bool × Core :=
  if ramNeed = 0 || core.config.placement.ramProtectedBytes = 0 then (true, core)
  else
    let limit :=
      if protectedClass then core.config.placement.ramProtectedBytes
      else core.config.ram.highWatermarkBytes - core.config.placement.ramProtectedBytes
    if ramNeed > limit then (false, core)
    else core.evictWhile
      (fun core =>
        (if protectedClass then core.counters.ramProtectedBytes
          else core.counters.ramProbationaryBytes) + ramNeed > limit)
      fun core => core.evictOneLocked
        { needRam := true, needVram := false, excluded := some key,
          requiredRamClass := some protectedClass }

/-- One round of `make_vram_class_capacity_locked`: the own partition first while
it is over quota, then any partition of the class. -/
def evictVramClass (core : Core) (vramNeed : UInt64) (key : ExpertKey) (resident : Bool)
    (admissionLimit : Option UInt64) : Bool × Core :=
  let partition := core.partitionFor key
  let quota := core.partitionQuota core.config.vram core.config.placement.vramSharedBurstBytes
  let own :=
    if resident && core.config.placement.layerPartitionCount > 1 &&
        core.counters.vramPartitionBytes partition + vramNeed > quota then
      core.evictOneLocked
        { needRam := false, needVram := true, excluded := some key,
          requiredPartition := some partition, requiredVramClass := some true,
          maximumTemperatureExclusive := admissionLimit }
    else (false, core)
  orElse own fun core => core.evictOneLocked
    { needRam := false, needVram := true, excluded := some key,
      requiredVramClass := some resident, maximumTemperatureExclusive := admissionLimit }

def makeVramClassCapacityLocked (core : Core) (vramNeed : UInt64) (key : ExpertKey)
    (resident : Bool) (admissionTemperature : UInt64) : Bool × Core :=
  if vramNeed = 0 then (true, core)
  else
    let transientLimit := core.config.placement.vramTransientBytes
    let admissionLimit :=
      if resident && transientLimit ≠ 0 then some admissionTemperature else none
    let limit :=
      if resident then core.config.vram.highWatermarkBytes - transientLimit else transientLimit
    if vramNeed > limit then (false, core)
    else core.evictWhile
      (fun core =>
        (if resident then core.counters.vramResidentBytes
          else core.counters.vramTransientBytes) + vramNeed > limit)
      fun core => core.evictVramClass vramNeed key resident admissionLimit

/-- One round of the global RAM loop: over-quota partitions first. -/
def evictGlobalRam (core : Core) (key : ExpertKey) : Bool × Core :=
  orElse
    (core.evictOneLocked
      { needRam := true, needVram := false, excluded := some key, overQuotaOnly := true })
    fun core => core.evictOneLocked { needRam := true, needVram := false, excluded := some key }

/-- Headroom for a burst: eviction goes on to the low watermark where that is safe. -/
def makeHeadroom (core : Core) (key : ExpertKey) (ramPressured : Bool) : Core :=
  if ramPressured && core.config.placement.layerPartitionCount = 1 &&
      core.config.placement.ramProtectedBytes = 0 then
    (core.evictWhile (fun core => core.counters.ramBytes > core.config.ram.lowWatermarkBytes)
      fun core => core.evictOneLocked
        { needRam := true, needVram := false, excluded := some key }).2
  else core

/-- The global part of `make_capacity_locked`. -/
def makeGlobalCapacity (core : Core) (ramNeed vramNeed : UInt64) (key : ExpertKey) :
    Bool × Core :=
  let pressed (core : Core) : Bool :=
    core.counters.ramBytes + ramNeed > core.config.ram.highWatermarkBytes
  andThen (core.evictWhile pressed fun core => core.evictGlobalRam key) fun evicted =>
    let roomy := evicted.makeHeadroom key (pressed core)
    (roomy.counters.ramBytes + ramNeed ≤ roomy.config.ram.highWatermarkBytes &&
      roomy.counters.vramBytes + vramNeed ≤ roomy.config.vram.highWatermarkBytes, roomy)

def makeCapacityLocked (core : Core) (ramNeed vramNeed : UInt64) (key : ExpertKey)
    (ramProtected resident : Bool) (admissionTemperature : UInt64) : Bool × Core :=
  if ramNeed > core.config.ram.highWatermarkBytes ||
      vramNeed > core.config.vram.highWatermarkBytes then (false, core)
  else
    andThen (core.makePartitionCapacityLocked ramNeed key) fun core =>
    andThen (core.makeRamClassCapacityLocked ramNeed key ramProtected) fun core =>
    andThen (core.makeVramClassCapacityLocked vramNeed key resident admissionTemperature) fun core =>
    core.makeGlobalCapacity ramNeed vramNeed key

/-- Admission of a device demand: the class it was admitted in, if it was. -/
def makeDeviceCapacityLocked (core : Core) (key : ExpertKey) (ramNeed : UInt64)
    (ramProtected : Bool) : Option Bool × Core :=
  let entry := core.entry key
  let vramNeed := deviceBytes entry.record
  let attempt (resident : Bool) (core : Core) := core.makeCapacityLocked ramNeed vramNeed key
    ramProtected resident (core.entry key).temperature
  let resident : Bool := core.config.placement.vramTransientBytes = 0 ||
    entry.vramResidentRequested || entry.frequency ≥ 2
  let (admitted, core) := attempt resident core
  if admitted then (some resident, core)
  else if resident then
    let (admitted, core) := attempt false core
    (if admitted then some false else none, core)
  else
    let residentLimit :=
      core.config.vram.highWatermarkBytes - core.config.placement.vramTransientBytes
    if core.counters.vramResidentBytes + vramNeed ≤ residentLimit then
      let (admitted, core) := attempt true core
      (if admitted then some true else none, core)
    else (none, core)

/-- The entry and its bytes move to the protected class. -/
def protectRam (core : Core) (key : ExpertKey) (bytes : UInt64) : Core :=
  { core.modify key Entry.protectRam with
    counters := { core.counters with
      ramProbationaryBytes := core.counters.ramProbationaryBytes - bytes
      ramProtectedBytes := core.counters.ramProtectedBytes + bytes } }

def promoteRamLocked (core : Core) (key : ExpertKey) (force : Bool) : Core :=
  let entry := core.entry key
  if entry.hostCopy.isNone || entry.ramProtected || entry.ramReserved = 0 ||
      core.config.placement.ramProtectedBytes = 0 || !force then core
  else
    let (made, core) := core.makeRamClassCapacityLocked entry.ramReserved key true
    if made then core.protectRam key (core.entry key).ramReserved else core

/-- The entry and its bytes move to the resident class. -/
def makeResident (core : Core) (key : ExpertKey) (bytes : UInt64) : Core :=
  { core.modify key Entry.makeResident with
    counters := { core.counters with
      vramTransientReferencedBytes :=
        if (core.entry key).references ≠ 0 then
          core.counters.vramTransientReferencedBytes - bytes
        else core.counters.vramTransientReferencedBytes
      vramTransientBytes := core.counters.vramTransientBytes - bytes
      vramResidentBytes := core.counters.vramResidentBytes + bytes
      vramPartitionBytes := fun partition =>
        if partition = core.partitionFor key then
          core.counters.vramPartitionBytes partition + bytes
        else core.counters.vramPartitionBytes partition } }

def promoteVramLocked (core : Core) (key : ExpertKey) (force : Bool) : Core :=
  let entry := core.entry key
  if entry.device.isNone || entry.vramResident || entry.vramReserved = 0 ||
      core.config.placement.vramTransientBytes = 0 || (!force && entry.frequency < 2) then core
  else
    let (made, core) :=
      core.makeVramClassCapacityLocked entry.vramReserved key true entry.temperature
    if made then core.makeResident key (core.entry key).vramReserved else core

end Core

end QuantumLlm.Runtime
