import QuantumLlm.Runtime.Cache.State

/-!
# Expert cache: helpers that run under the core mutex

The short `_locked` functions every lock section is made of. What a helper does
to the entry itself is a function of the entry; the version on the core also
moves the counters, the task indexes, the staging pool and the journal.
-/

namespace QuantumLlm.Runtime

namespace Counters

def chargeRam (counters : Counters) (partition : Nat) (bytes : UInt64) (protectedClass : Bool) :
    Counters :=
  { counters with
    ramBytes := counters.ramBytes + bytes
    ramProtectedBytes :=
      if protectedClass then counters.ramProtectedBytes + bytes else counters.ramProtectedBytes
    ramProbationaryBytes :=
      if protectedClass then counters.ramProbationaryBytes
      else counters.ramProbationaryBytes + bytes
    ramPartitionBytes := fun other =>
      if other = partition then counters.ramPartitionBytes other + bytes
      else counters.ramPartitionBytes other }

def dischargeRam (counters : Counters) (partition : Nat) (bytes : UInt64)
    (protectedClass : Bool) : Counters :=
  { counters with
    ramBytes := counters.ramBytes - bytes
    ramProtectedBytes :=
      if protectedClass then counters.ramProtectedBytes - bytes else counters.ramProtectedBytes
    ramProbationaryBytes :=
      if protectedClass then counters.ramProbationaryBytes
      else counters.ramProbationaryBytes - bytes
    ramPartitionBytes := fun other =>
      if other = partition then counters.ramPartitionBytes other - bytes
      else counters.ramPartitionBytes other }

def chargeVram (counters : Counters) (partition : Nat) (bytes : UInt64) (resident : Bool) :
    Counters :=
  { counters with
    vramBytes := counters.vramBytes + bytes
    vramResidentBytes :=
      if resident then counters.vramResidentBytes + bytes else counters.vramResidentBytes
    vramTransientBytes :=
      if resident then counters.vramTransientBytes else counters.vramTransientBytes + bytes
    vramPartitionBytes := fun other =>
      if resident ∧ other = partition then counters.vramPartitionBytes other + bytes
      else counters.vramPartitionBytes other }

def dischargeVram (counters : Counters) (partition : Nat) (bytes : UInt64) (resident : Bool) :
    Counters :=
  { counters with
    vramBytes := counters.vramBytes - bytes
    vramResidentBytes :=
      if resident then counters.vramResidentBytes - bytes else counters.vramResidentBytes
    vramTransientBytes :=
      if resident then counters.vramTransientBytes else counters.vramTransientBytes - bytes
    vramPartitionBytes := fun other =>
      if resident ∧ other = partition then counters.vramPartitionBytes other - bytes
      else counters.vramPartitionBytes other }

/-- The aggregate part of `add_reference_locked`. -/
def addReferenced (counters : Counters) (bytes : UInt64) (resident : Bool) : Counters :=
  { counters with
    vramReferencedEntries := counters.vramReferencedEntries + 1
    vramReferencedBytes := counters.vramReferencedBytes + bytes
    vramTransientReferencedBytes :=
      if resident then counters.vramTransientReferencedBytes
      else counters.vramTransientReferencedBytes + bytes }

/-- The aggregate part of `remove_reference_locked`. -/
def removeReferenced (counters : Counters) (bytes : UInt64) (resident : Bool) : Counters :=
  { counters with
    vramReferencedEntries := counters.vramReferencedEntries - 1
    vramReferencedBytes := counters.vramReferencedBytes - bytes
    vramTransientReferencedBytes :=
      if resident then counters.vramTransientReferencedBytes
      else counters.vramTransientReferencedBytes - bytes }

end Counters

namespace Journal

/-- The promises of these waiters are set. -/
def answered (journal : Journal) (ids : List WaiterId) (status : Status) : Journal :=
  { journal with answers := journal.answers ++ ids.map fun id => ⟨id, status⟩ }

def leased (journal : Journal) (lease : Lease) : Journal :=
  { journal with leases := journal.leases ++ [lease] }

def failing (journal : Journal) (failure : Failure) : Journal :=
  { journal with failures := journal.failures ++ [failure] }

end Journal

/-! ## Effects on the entry -/

namespace Entry

def releaseStaging (entry : Entry) : Entry := { entry with host := none }

def releaseHost (entry : Entry) : Entry :=
  { entry with
    host := none
    hostCopy := none
    validatedSections := none
    ramReserved := 0
    ramProtected := false
    ramProtectedRequested := entry.ramProtectedRequested && entry.ramProtectionPersistent }

def releaseDevice (entry : Entry) : Entry := { entry with device := none, vramReserved := 0 }

def stage (entry : Entry) (lease : PoolLease) : Entry := { entry with host := some lease }

def reserveRam (entry : Entry) (bytes : UInt64) (protectedClass : Bool) : Entry :=
  { entry with ramProtected := protectedClass, ramReserved := entry.ramReserved + bytes }

def reserveVram (entry : Entry) (bytes : UInt64) (resident : Bool) : Entry :=
  { entry with vramResident := resident, vramReserved := entry.vramReserved + bytes }

def enter (entry : Entry) (next : CacheState) : Entry := { entry with state := next }

def addReferences (entry : Entry) (count : Nat) : Entry :=
  { entry with references := entry.references + count }

def removeReference (entry : Entry) : Entry :=
  { entry with references := entry.references - 1 }

/-- A new device waiter revives an abandoned entry. -/
def join (entry : Entry) (waiter : Waiter) : Entry :=
  { entry with waiters := entry.waiters ++ [waiter], abandon := false }

def joinHost (entry : Entry) (waiter : HostWaiter) : Entry :=
  { entry with
    forceHostRetention := true
    ramProtectedRequested := entry.ramProtectedRequested || waiter.options.protectRam
    ramProtectionPersistent := entry.ramProtectionPersistent || waiter.options.protectRam
    hostWaiters := entry.hostWaiters ++ [waiter]
    abandon := false }

def withoutWaiter (entry : Entry) (id : WaiterId) : Entry :=
  { entry with waiters := entry.waiters.eraseP (·.id = id) }

def withoutHostWaiter (entry : Entry) (id : WaiterId) : Entry :=
  { entry with hostWaiters := entry.hostWaiters.eraseP (·.id = id) }

/-- The device waiters that do not wait for capacity. -/
def failFast (entry : Entry) : List Waiter :=
  entry.waiters.filter (·.options.failFastOnDeviceAdmission)

def withoutFailFast (entry : Entry) : Entry :=
  { entry with waiters := entry.waiters.filter (!·.options.failFastOnDeviceAdmission) }

def withoutWaiters (entry : Entry) : Entry := { entry with waiters := [], hostWaiters := [] }

def setPreparing (entry : Entry) (preparing : Bool) : Entry :=
  { entry with preparingHost := preparing }

def store (entry : Entry) (admission : ExpertAdmission)
    (retained : Option ImmutableHostBuffer) : Entry :=
  { entry with
    validatedSections := some admission.target
    validatedCompact := admission.compact
    hostCopy := retained }

def setDevice (entry : Entry) (allocation : DeviceAllocation) : Entry :=
  { entry with device := some allocation }

def withoutDeviceWaiters (entry : Entry) : Entry := { entry with waiters := [] }

def withoutHostWaiters (entry : Entry) : Entry := { entry with hostWaiters := [] }

def setVramReserved (entry : Entry) (bytes : UInt64) : Entry :=
  { entry with vramReserved := bytes }

def withoutOperations (entry : Entry) : Entry :=
  { entry with ioOperation := 0, uploadOperation := 0 }

def reserveAdmitted (entry : Entry) (bytes : UInt64) : Option Bool → Entry
  | none => entry
  | some resident => entry.reserveVram bytes resident

def touch (entry : Entry) (clock : UInt64) : Entry :=
  { entry with
    lastAccess := clock
    frequency := if entry.frequency = 0xffffffff then entry.frequency else entry.frequency + 1 }

/-- The aging step of `touch_locked`. -/
def age (entry : Entry) : Entry :=
  { entry with
    frequency := (entry.frequency + 1) / 2
    routingScoreMassQ20 := (entry.routingScoreMassQ20 + 1) / 2
    routingScorePeakQ20 := (entry.routingScorePeakQ20 + 1) / 2 }

/-- `add_routing_score_locked` after its floating-point scaling. -/
def addRoutingScore (entry : Entry) (scaledSum : UInt64) (scaledMax : UInt32) : Entry :=
  { entry with
    routingScoreMassQ20 :=
      if scaledSum > 0xffffffffffffffff - entry.routingScoreMassQ20 then 0xffffffffffffffff
      else entry.routingScoreMassQ20 + scaledSum
    routingScorePeakQ20 := max entry.routingScorePeakQ20 scaledMax }

end Entry

namespace Core

def refreshTaskIndexesLocked (core : Core) (key : ExpertKey) : Core :=
  let entry := core.entry key
  let idle := entry.abandon || !entry.hasWaiters
  { core with
    readTaskKeys := fun priority =>
      let erased := (core.readTaskKeys priority).erase key
      if idle then erased
      else if entry.state = .absent && priority = entry.effectivePriority then erased.insert key
      else erased
    uploadTaskKeys := fun priority =>
      let erased := (core.uploadTaskKeys priority).erase key
      if idle then erased
      else if entry.state = .ramReady && !entry.waiters.isEmpty && entry.hasHostBytes &&
          priority = entry.effectivePriority then erased.insert key
      else erased }

def transitionLocked (core : Core) (key : ExpertKey) (next : CacheState) : Core :=
  let state := (core.entry key).state
  let attempted : Core := { core with transitions := core.transitions ++ [(state, next)] }
  if validCacheTransition state next then
    (attempted.modify key (·.enter next)).refreshTaskIndexesLocked key
  else { attempted with fault := some .invalidTransition }

def reserveRamLocked (core : Core) (key : ExpertKey) (bytes : UInt64) (protectedClass : Bool) :
    Core :=
  { core.modify key (·.reserveRam bytes protectedClass) with
    counters := core.counters.chargeRam (core.partitionFor key) bytes protectedClass }

def reserveVramLocked (core : Core) (key : ExpertKey) (bytes : UInt64) (resident : Bool) : Core :=
  { core.modify key (·.reserveVram bytes resident) with
    counters := core.counters.chargeVram (core.partitionFor key) bytes resident }

/-- The VRAM reservation of an admission, if it asked for one. -/
def reserveAdmitted (core : Core) (key : ExpertKey) (bytes : UInt64) : Option Bool → Core
  | none => core
  | some resident => core.reserveVramLocked key bytes resident

def releaseStagingLocked (core : Core) (key : ExpertKey) : Core :=
  { core.modify key Entry.releaseStaging with
    buffers := core.buffers.reset (core.entry key).host }

def releaseHostLocked (core : Core) (key : ExpertKey) : Core :=
  let entry := core.entry key
  let staged := core.releaseStagingLocked key
  { staged.modify key Entry.releaseHost with
    counters := staged.counters.dischargeRam (core.partitionFor key) entry.ramReserved
      entry.ramProtected }

def releaseDeviceLocked (core : Core) (key : ExpertKey) (directoryEntryRetired : Bool) : Core :=
  let entry := core.entry key
  { core.modify key Entry.releaseDevice with
    counters := core.counters.dischargeVram (core.partitionFor key) entry.vramReserved
      entry.vramResident
    published :=
      if entry.device.isSome && core.directory.isSome && !directoryEntryRetired then
        core.published.filter (· ≠ key)
      else core.published }

/-- Gives the staging slot back, and with it everything in RAM that no retained
copy backs. -/
def unstageLocked (core : Core) (key : ExpertKey) : Core :=
  let unstaged := core.releaseStagingLocked key
  if (unstaged.entry key).hostCopy.isNone then
    (unstaged.releaseHostLocked key).transitionLocked key .absent
  else unstaged

def addReferenceLocked (core : Core) (key : ExpertKey) : Core :=
  let entry := core.entry key
  { core.modify key (·.addReferences 1) with
    counters :=
      if entry.references ≠ 0 || entry.device.isNone then core.counters
      else core.counters.addReferenced entry.vramReserved entry.vramResident }

def removeReferenceLocked (core : Core) (key : ExpertKey) : Core :=
  let entry := core.entry key
  { core.modify key Entry.removeReference with
    counters :=
      if entry.references ≠ 1 || entry.device.isNone then core.counters
      else core.counters.removeReferenced entry.vramReserved entry.vramResident }

/-! ## Waiters -/

def answerAll (core : Core) (ids : List WaiterId) (status : Status) : Core :=
  { core with journal := core.journal.answered ids status }

def answer (core : Core) (id : WaiterId) (status : Status) : Core := core.answerAll [id] status

/-- Hands out a lease and the reference it holds. -/
def grantLease (core : Core) (key : ExpertKey) (id : WaiterId) (grant : Grant) : Core :=
  let referenced := core.addReferenceLocked key
  { referenced with journal := referenced.journal.leased ⟨id, key, grant⟩ }

/-- Answers one waiter of a resident expert, with a lease if it gets one. -/
def fulfil (core : Core) (key : ExpertKey) (id : WaiterId) (grant : Option Grant) : Core :=
  (match grant with
    | some grant => core.grantLease key id grant
    | none => core).answer id Status.success

/-- A waiter whose future is gone is the last owner of the lease in its promise:
clearing the waiter map then destroys the lease under the mutex. -/
def satisfyReadyWaitersLocked (core : Core) (key : ExpertKey) : Core :=
  let entry := core.entry key
  let granted := entry.waiters.foldl (fun core waiter =>
    core.fulfil key waiter.id (some (.device entry.device))) core
  let orphans := (entry.waiters.map (·.id)).filter (· ∈ core.journal.dropped)
  let cleared : Core :=
    { granted.modify key Entry.withoutDeviceWaiters with
      journal := { granted.journal with reentered := granted.journal.reentered ++ orphans } }
  cleared.refreshTaskIndexesLocked key

def satisfyHostWaitersLocked (core : Core) (key : ExpertKey) : Core :=
  let entry := core.entry key
  match entry.hostCopy, entry.validatedSections with
  | some copy, some _ =>
    let granted := entry.hostWaiters.foldl (fun core waiter =>
      core.fulfil key waiter.id
        (if waiter.options.acquireLease then some (.host copy) else none)) core
    (granted.modify key Entry.withoutHostWaiters).refreshTaskIndexesLocked key
  | _, _ => core

def failWaitersLocked (core : Core) (key : ExpertKey) (status : Status) : Core :=
  let entry := core.entry key
  let answered := (core.answerAll (entry.waiters.map (·.id)) status).answerAll
    (entry.hostWaiters.map (·.id)) status
  (answered.modify key Entry.withoutWaiters).refreshTaskIndexesLocked key

def rejectionStatus : Status :=
  ⟨.backpressure, "device admission is blocked by the current placement"⟩

def rejectBlockedDeviceWaitersLocked (core : Core) (key : ExpertKey) : Core :=
  let entry := core.entry key
  if entry.failFast.isEmpty then core
  else
    ((core.answerAll (entry.failFast.map (·.id)) rejectionStatus).modify key
      Entry.withoutFailFast).refreshTaskIndexesLocked key

def logFailure (core : Core) (key : ExpertKey) (status : Status) : Core :=
  { core with journal := core.journal.failing ⟨key, (core.entry key).state, status⟩ }

/-- The transition of `fail_entry_locked`; an entry that failed before stays. -/
def quarantine (core : Core) (key : ExpertKey) : Core :=
  if (core.entry key).state ≠ .failed then core.transitionLocked key .failed else core

def failEntryLocked (core : Core) (key : ExpertKey) (status : Status) : Core :=
  let failed := (core.logFailure key status).quarantine key
  let released := ((failed.failWaitersLocked key status).releaseHostLocked key).releaseDeviceLocked
    key false
  released.modify key Entry.withoutOperations

def touchLocked (core : Core) (key : ExpertKey) : Core :=
  let clock := core.accessClock + 1
  let touched : Core := { core.modify key (·.touch clock) with accessClock := clock }
  if clock &&& 0xffff = 0 then { touched with entries := touched.entries.mapValues Entry.age }
  else touched

end Core

end QuantumLlm.Runtime
