import QuantumLlm.Runtime.Cache.Tasks

/-!
# Expert cache: client requests

The lock sections behind the public operations. A section that creates a waiter
takes the waiter's fresh id; the section of a cancellation also returns the I/O
operations that are to be cancelled once the mutex is free.
-/

namespace QuantumLlm.Runtime

/-- One element of `record_accesses`; the scores are given as the fixed-point
values `add_routing_score_locked` scales them to, `none` where it ignores them. -/
structure ExpertAccess where
  key : ExpertKey
  count : UInt32
  routingScore : Option (UInt64 × UInt32) := none
  deriving DecidableEq

namespace Core

def cancelledStatus : Status := ⟨.cancelled, "expert acquisition cancelled"⟩
def preloadCancelledStatus : Status := ⟨.cancelled, "host preload cancelled"⟩
def shuttingDownStatus : Status := ⟨.cancelled, "expert cache is shutting down"⟩
def shutdownStatus : Status := ⟨.cancelled, "expert cache shutdown"⟩
def mismatchStatus : Status :=
  ⟨.invalidArgument, "same expert key references different immutable records"⟩
def quarantinedStatus : Status := ⟨.checksumMismatch, "expert is quarantined after a failed load"⟩
def noHostCopyStatus : Status := ⟨.backpressure, "resident expert has no pageable host copy"⟩

/-- A new waiter and its promise. -/
def issue (core : Core) (ticket : Ticket) : Core :=
  { core with journal := { core.journal with issued := core.journal.issued ++ [ticket] } }

/-- `entries.try_emplace(key)`, with the record of the first request. -/
def emplace (core : Core) (key : ExpertKey) (record : PayloadRecord) : Core :=
  { core with entries := core.entries.tryEmplace key { record } }

/-- The access bookkeeping of an acquisition. -/
def noteAcquire (core : Core) (key : ExpertKey) (options : ExpertAcquireOptions) : Core :=
  let touched :=
    if options.recordAccess then
      ((core.touchLocked key).promoteRamLocked key false).promoteVramLocked key false
    else core
  if options.protectVram then
    (touched.modify key ({ · with vramResidentRequested := true })).promoteVramLocked key true
  else touched

/-- A device waiter joins the entry. -/
def joinWaiter (core : Core) (key : ExpertKey) (waiter : Waiter) : Core :=
  (core.modify key (·.join waiter)).refreshTaskIndexesLocked key

def acquire (core : Core) (key : ExpertKey) (record : PayloadRecord)
    (options : ExpertAcquireOptions) (id : WaiterId) : Core :=
  let core := core.issue ⟨id, key, false⟩
  if core.shuttingDown then core.answer id shuttingDownStatus
  else
    let core := (core.emplace key record).noteAcquire key options
    let entry := core.entry key
    if !sameRecord entry.record record then core.answer id mismatchStatus
    else if entry.state = .failed then core.answer id quarantinedStatus
    else if entry.state = .vramReady && entry.device.isSome then
      core.fulfil key id (some (.device entry.device))
    else core.joinWaiter key ⟨id, options⟩

/-- A host waiter joins the entry. -/
def joinHostWaiter (core : Core) (key : ExpertKey) (waiter : HostWaiter) : Core :=
  (core.modify key (·.joinHost waiter)).refreshTaskIndexesLocked key

/-- A preload whose copy is already there is answered at once. -/
def hitHost (core : Core) (key : ExpertKey) (options : HostPreloadOptions) (id : WaiterId)
    (copy : ImmutableHostBuffer) : Core :=
  let pinned :=
    if options.protectRam then
      (core.modify key
        ({ · with ramProtectedRequested := true, ramProtectionPersistent := true })
        ).promoteRamLocked key true
    else core
  pinned.fulfil key id (if options.acquireLease then some (.host copy) else none)

def preloadHost (core : Core) (key : ExpertKey) (record : PayloadRecord)
    (options : HostPreloadOptions) (id : WaiterId) : Core :=
  let core := core.issue ⟨id, key, true⟩
  if core.shuttingDown then core.answer id shuttingDownStatus
  else
    let core := core.emplace key record
    let entry := core.entry key
    if !sameRecord entry.record record then core.answer id mismatchStatus
    else if entry.state = .failed then core.answer id quarantinedStatus
    else
      let copy? := if entry.validatedSections.isSome &&
          (entry.state = .ramReady || entry.state = .vramReady) then entry.hostCopy else none
      match copy? with
      | some copy => core.hitHost key options id copy
      | none =>
        if entry.state = .ramReady || entry.state = .vramReady ||
            entry.state = .gpuUploading then core.answer id noHostCopyStatus
        else core.joinHostWaiter key ⟨id, options⟩

/-- The lease is named `id` when there is one. -/
def tryAcquireHost (core : Core) (key : ExpertKey) (record : PayloadRecord) (recordAccess : Bool)
    (id : WaiterId) : Core :=
  if core.shuttingDown || key ∉ core.entries.keys then core
  else
    let entry := core.entry key
    let copy? := if record.sourceAbi = kExpertSourceAbiExpertPackV1 &&
        sameRecord entry.record record && entry.validatedSections.isSome &&
        (entry.state = .ramReady || entry.state = .vramReady) then entry.hostCopy else none
    match copy? with
    | none => core
    | some copy =>
      let touched :=
        if recordAccess then
          ((core.touchLocked key).promoteRamLocked key false).promoteVramLocked key false
        else core
      touched.grantLease key id (.host copy)

def touchTimes (core : Core) (key : ExpertKey) : Nat → Core
  | 0 => core
  | count + 1 => (core.touchLocked key).touchTimes key count

def recordAccess (core : Core) (key : ExpertKey) (count : UInt32) : Core :=
  if count = 0 || core.shuttingDown || key ∉ core.entries.keys then core
  else ((core.touchTimes key count.toNat).promoteRamLocked key false).promoteVramLocked key false

/-- `add_routing_score_locked`; scores it ignores leave the entry alone. -/
def addRoutingScoreLocked (core : Core) (access : ExpertAccess) : Core :=
  match access.routingScore with
  | none => core
  | some (scaledSum, scaledMax) => core.modify access.key (·.addRoutingScore scaledSum scaledMax)

def recordOne (core : Core) (access : ExpertAccess) : Core :=
  if access.count = 0 || access.key ∉ core.entries.keys then core
  else
    let scored := (core.touchTimes access.key access.count.toNat).addRoutingScoreLocked access
    (scored.promoteRamLocked access.key false).promoteVramLocked access.key false

def recordAccesses (core : Core) (accesses : List ExpertAccess) : Core :=
  if core.shuttingDown then core else accesses.foldl recordOne core

def protect (core : Core) (key : ExpertKey) (ram vram : Bool) : Core :=
  if core.shuttingDown || key ∉ core.entries.keys then core
  else
    let core :=
      if ram then (core.modify key ({ · with ramProtectedRequested := true })).promoteRamLocked
        key true
      else core
    if vram then (core.modify key ({ · with vramResidentRequested := true })).promoteVramLocked
      key true
    else core

/-- What a cancellation does once the last waiter of an entry is gone. -/
def abandonIfIdle (core : Core) (key : ExpertKey) : Core :=
  if (core.entry key).hasWaiters then core
  else
    let abandoned := core.modify key ({ · with abandon := true })
    let entry := abandoned.entry key
    if entry.state = .ramReady && !entry.preparingHost then
      (abandoned.unstageLocked key).modify key ({ · with abandon := false })
    else abandoned

/-- The `storage->cancel` and `uploader->cancel` calls after the section. -/
def cancellations (entry : Entry) : Option OperationId × Option OperationId :=
  if entry.hasWaiters then (none, none)
  else (if entry.ioOperation = 0 then none else some entry.ioOperation,
    if entry.uploadOperation = 0 then none else some entry.uploadOperation)

def cancelWaiter (core : Core) (key : ExpertKey) (id : WaiterId) :
    Core × Option OperationId × Option OperationId :=
  if key ∉ core.entries.keys || !(core.entry key).waiters.any (·.id = id) then (core, none, none)
  else
    let answered := (core.answer id cancelledStatus).modify key (·.withoutWaiter id)
    ((answered.abandonIfIdle key).refreshTaskIndexesLocked key, cancellations (answered.entry key))

def cancelHostWaiter (core : Core) (key : ExpertKey) (id : WaiterId) :
    Core × Option OperationId × Option OperationId :=
  if key ∉ core.entries.keys || !(core.entry key).hostWaiters.any (·.id = id) then
    (core, none, none)
  else
    let answered := (core.answer id preloadCancelledStatus).modify key (·.withoutHostWaiter id)
    ((answered.abandonIfIdle key).refreshTaskIndexesLocked key, cancellations (answered.entry key))

def releaseReference (core : Core) (key : ExpertKey) : Core :=
  if key ∉ core.entries.keys || (core.entry key).references = 0 then core
  else
    let removed := core.removeReferenceLocked key
    let clock := removed.accessClock + 1
    { removed.modify key ({ · with lastAccess := clock }) with accessClock := clock }

/-- A lease destructor: the lease is gone and `release_reference` runs. -/
def returnLease (core : Core) (lease : Lease) : Core :=
  let released := core.releaseReference lease.key
  { released with
    journal := { released.journal with
      leases := released.journal.leases.filter (· ≠ lease)
      returned := released.journal.returned ++ [lease.id] } }

def trimTo (core : Core) (ramTarget vramTarget : UInt64) : Core :=
  (core.evictWhile
    (fun core => core.counters.ramBytes > ramTarget || core.counters.vramBytes > vramTarget)
    fun core => core.evictOneLocked
      { needRam := core.counters.ramBytes > ramTarget
        needVram := core.counters.vramBytes > vramTarget }).2

def configureVramBudget (core : Core) (budget : TierBudget) (transientBytes : UInt64) :
    Status × Core :=
  if core.shuttingDown then (shuttingDownStatus, core)
  else if !validBudget budget || transientBytes ≥ budget.highWatermarkBytes then
    (⟨.invalidArgument, "invalid fitted expert VRAM budget"⟩, core)
  else if core.counters.vramBytes ≠ 0 then
    (⟨.invalidArgument, "expert VRAM budget cannot change after first admission"⟩, core)
  else
    (Status.success, { core with
      config := { core.config with
        vram := budget
        placement := { core.config.placement with vramTransientBytes := transientBytes } } })

/-- Fails every waiter; the operations to cancel are read off the entries. -/
def shutdown (core : Core) : Core × List OperationId × List OperationId :=
  if core.shuttingDown then (core, [], [])
  else
    let keys := core.entries.keys.items
    let stopped := { core with shuttingDown := true }
    (keys.foldl (fun core key => core.failWaitersLocked key shutdownStatus) stopped,
      (keys.map fun key => (core.entry key).ioOperation).filter (· ≠ 0),
      (keys.map fun key => (core.entry key).uploadOperation).filter (· ≠ 0))

end Core

end QuantumLlm.Runtime
