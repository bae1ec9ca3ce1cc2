import QuantumLlm.Runtime.Cache.Admission

/-!
# Expert cache: task selection and completions

The lock sections that move an expert through its load: `next_task_locked`, the
storage and upload completions, and the sections of the host preparation worker.
-/

namespace QuantumLlm.Runtime

inductive TaskKind where
  | read
  | upload
  deriving DecidableEq, Repr

structure Task where
  kind : TaskKind
  key : ExpertKey
  deriving DecidableEq

structure UploadResult where
  status : Status
  allocation : Option DeviceAllocation
  uploadedBytes : UInt64
  deriving DecidableEq

namespace Core

/-- The acquired staging slot goes to the entry. -/
def stage (core : Core) (key : ExpertKey) (lease : PoolLease) (buffers : FixedBufferPool) : Core :=
  { core.modify key (·.stage lease) with buffers }

/-- The reservations of an admitted read and its transition. -/
def startLoad (core : Core) (key : ExpertKey) (lease : PoolLease) (buffers : FixedBufferPool)
    (admitted : Option Bool) : Core :=
  let entry := core.entry key
  let reserved := (core.stage key lease buffers).reserveRamLocked key entry.record.storedBytes
    entry.ramProtectedRequested
  (reserved.reserveAdmitted key (deviceBytes entry.record) admitted).transitionLocked key
    .ssdLoading

/-- The reservation of an admitted upload and its transition. -/
def startUpload (core : Core) (key : ExpertKey) (reserved : Option Bool) : Core :=
  (core.reserveAdmitted key (deviceBytes (core.entry key).record) reserved).transitionLocked key
    .gpuUploading

/-- The upload loop of one priority, over the keys indexed when it started: a
round only moves the key it is at. -/
def scanUploads (priority : ExpertRequestPriority) : List ExpertKey → Core → Option Task × Core
  | [], core => (none, core)
  | key :: rest, core =>
    if key ∉ core.entries.keys then (none, { core with fault := some .missingIndexEntry })
    else
      let entry := core.entry key
      if entry.waiters.isEmpty || entry.abandon || entry.effectivePriority ≠ priority ||
          entry.state ≠ .ramReady || !entry.hasHostBytes then
        scanUploads priority rest (core.refreshTaskIndexesLocked key)
      else if entry.vramReserved = 0 then
        match core.makeDeviceCapacityLocked key 0 false with
        | (none, core) => scanUploads priority rest (core.rejectBlockedDeviceWaitersLocked key)
        | (some resident, core) => (some ⟨.upload, key⟩, core.startUpload key (some resident))
      else (some ⟨.upload, key⟩, core.startUpload key none)

def oversizeStatus : Status := ⟨.backpressure, "expert record exceeds fixed staging slot"⟩

/-- Admission of one read candidate: the VRAM class for a device demand, nothing
for a preload. -/
def admitRead (core : Core) (key : ExpertKey) : Option (Option Bool) × Core :=
  let entry := core.entry key
  if entry.waiters.isEmpty then
    match core.makeCapacityLocked entry.record.storedBytes 0 key entry.ramProtectedRequested false
        entry.temperature with
    | (true, core) => (some none, core)
    | (false, core) => (none, core)
  else
    match core.makeDeviceCapacityLocked key entry.record.storedBytes
        entry.ramProtectedRequested with
    | (some resident, core) => (some (some resident), core)
    | (none, core) => (none, core)

/-- The read loop of one priority. -/
def scanReads (priority : ExpertRequestPriority) : List ExpertKey → Core → Option Task × Core
  | [], core => (none, core)
  | key :: rest, core =>
    if key ∉ core.entries.keys then (none, { core with fault := some .missingIndexEntry })
    else
      let entry := core.entry key
      if !entry.hasWaiters || entry.abandon || entry.effectivePriority ≠ priority ||
          entry.state ≠ .absent then
        scanReads priority rest (core.refreshTaskIndexesLocked key)
      else if entry.record.storedBytes > core.buffers.slotBytes then
        scanReads priority rest (core.failEntryLocked key oversizeStatus)
      else if !entry.waiters.isEmpty &&
          deviceBytes entry.record > core.config.vram.highWatermarkBytes then
        scanReads priority rest core
      else
        match core.admitRead key with
        | (none, core) =>
          scanReads priority rest
            (if entry.waiters.isEmpty then core
              else core.rejectBlockedDeviceWaitersLocked key)
        | (some admitted, core) =>
          match core.buffers.tryAcquire entry.record.storedBytes (bufferClass priority) with
          | none => scanReads priority rest core
          | some (lease, buffers) => (some ⟨.read, key⟩, core.startLoad key lease buffers admitted)

/-- Uploads before reads at each priority, demand first. -/
def scanPriorities : List ExpertRequestPriority → Core → Option Task × Core
  | [], core => (none, core)
  | priority :: rest, core =>
    match scanUploads priority (core.uploadTaskKeys priority).items core with
    | (some task, core) => (some task, core)
    | (none, core) =>
      if core.fault.isSome then (none, core)
      else match scanReads priority (core.readTaskKeys priority).items core with
      | (some task, core) => (some task, core)
      | (none, core) => if core.fault.isSome then (none, core) else scanPriorities rest core

def nextTaskLocked (core : Core) : Option Task × Core :=
  scanPriorities [.demand, .prefetch, .warm] core

/-- The lock section of `start_read`: whether the read is to be cancelled now. -/
def recordRead (core : Core) (key : ExpertKey) (operation : OperationId) : Bool × Core :=
  let entry := core.entry key
  if entry.state = .ssdLoading then
    (entry.abandon, core.modify key ({ · with ioOperation := operation }))
  else (false, core)

/-- The lock section of `start_upload`. -/
def recordUpload (core : Core) (key : ExpertKey) (operation : OperationId) : Bool × Core :=
  let entry := core.entry key
  if entry.state = .gpuUploading then
    (entry.abandon, core.modify key ({ · with uploadOperation := operation }))
  else (false, core)

/-- The test `start_upload` makes before it hands the record to the uploader. -/
def uploadSourceError (entry : Entry) : Option Status :=
  if !entry.hasHostBytes then some ⟨.internal, "RAM-ready expert has no host bytes"⟩
  else if entry.validatedSections.isNone then
    some ⟨.internal, "RAM-ready expert was not host-validated"⟩
  else none

def shortReadStatus : Status :=
  ⟨.shortRead, "storage completed without the complete expert record"⟩

/-- Sends an unfinished load back to `ABSENT` with all its resources. -/
def abandonLoad (core : Core) (key : ExpertKey) : Core :=
  ((core.transitionLocked key .absent).releaseHostLocked key).releaseDeviceLocked key false

/-- Hands a complete read to the host worker. -/
def queuePreparation (core : Core) (key : ExpertKey) : Core :=
  { core.modify key (·.setPreparing true) with
    hostPrepareQueue := core.hostPrepareQueue ++ [key] }

def readComplete (core : Core) (key : ExpertKey) (result : ReadResult) : Core :=
  if key ∉ core.entries.keys || (core.entry key).state ≠ .ssdLoading then core
  else
    let core := core.modify key ({ · with ioOperation := 0 })
    let entry := core.entry key
    if entry.abandon || !entry.hasWaiters then core.abandonLoad key
    else if result.status.code = .cancelled then
      (core.abandonLoad key).modify key ({ · with abandon := false })
    else if !result.status.ok then core.failEntryLocked key result.status
    else if result.requestedBytes ≠ entry.record.storedBytes ||
        result.readBytes ≠ entry.record.storedBytes then
      core.failEntryLocked key shortReadStatus
    else
      core.queuePreparation key

def invalidAllocationStatus : Status :=
  ⟨.uploadFailed, "device upload returned an invalid allocation"⟩

/-- An uploader's answer that is stored only if it fits the reservation. -/
def acceptedAllocation (entry : Entry) (result : UploadResult) : Option DeviceAllocation :=
  match result.allocation with
  | none => none
  | some allocation =>
    if !result.status.ok || result.uploadedBytes = 0 ||
        result.uploadedBytes ≠ allocation.bytes || allocation.bytes > entry.vramReserved then none
    else some allocation

/-- Returns what the reservation holds over the allocation's size. -/
def shrinkVram (core : Core) (key : ExpertKey) (bytes : UInt64) : Core :=
  let entry := core.entry key
  if bytes < entry.vramReserved then
    { core.modify key (·.setVramReserved bytes) with
      counters := core.counters.dischargeVram (core.partitionFor key) (entry.vramReserved - bytes)
        entry.vramResident }
  else core

/-- `directory->publish`, where there is a directory. -/
def publish (core : Core) (key : ExpertKey) : Core :=
  { core with
    published :=
      if core.directory.isSome then key :: core.published.filter (· ≠ key) else core.published }

/-- After an upload only a retained copy stays in RAM, and no staging slot. -/
def releaseUploadSource (core : Core) (key : ExpertKey) : Core :=
  if !core.config.retainHostCopy || (core.entry key).hostCopy.isNone then core.releaseHostLocked key
  else core.releaseStagingLocked key

/-- The upload stays: `VRAM_READY`, and every device waiter gets a lease. -/
def finishUpload (core : Core) (key : ExpertKey) (allocation : DeviceAllocation) : Core :=
  let ready := (core.modify key (·.setDevice allocation)).transitionLocked key .vramReady
  (ready.releaseUploadSource key).satisfyReadyWaitersLocked key

/-- `published` is the directory's answer, asked only when there is a directory. -/
def uploadComplete (core : Core) (key : ExpertKey) (result : UploadResult) (published : Status) :
    Core :=
  if key ∉ core.entries.keys || (core.entry key).state ≠ .gpuUploading then core
  else
    let core := core.modify key ({ · with uploadOperation := 0 })
    let entry := core.entry key
    if entry.abandon || entry.waiters.isEmpty then
      ((core.transitionLocked key .ramReady).releaseDeviceLocked key false).unstageLocked key
    else match acceptedAllocation entry result with
    | none =>
      core.failEntryLocked key
        (if result.status.ok then invalidAllocationStatus else result.status)
    | some allocation =>
      let core := core.shrinkVram key allocation.bytes
      if core.directory.isSome && !published.ok then core.failEntryLocked key published
      else (core.publish key).finishUpload key allocation

def lostStagingStatus : Status := ⟨.internal, "host preparation lost its staging record"⟩

def copyFailedStatus : Status := ⟨.backpressure, "cannot allocate pageable RAM cache copy"⟩

/-- A lock section that fails the entry while it is still loading. -/
def failPreparation (core : Core) (key : ExpertKey) (status : Status) : Core :=
  if (core.entry key).state = .ssdLoading then
    (core.modify key (·.setPreparing false)).failEntryLocked key status
  else core

/-- What a section of the preparation loop decides. -/
inductive Preparation where
  | stopped
  | copyNeeded
  | proceed
  deriving DecidableEq, Repr

/-- The first section of the loop: is a copy to be made outside the lock? -/
def checkPreparation (core : Core) (key : ExpertKey) (retained : Option ImmutableHostBuffer) :
    Preparation :=
  let entry := core.entry key
  if entry.state ≠ .ssdLoading || core.shuttingDown then .stopped
  else if entry.needsCopy core.config && retained.isNone then .copyNeeded
  else .proceed

/-- The record is in RAM: validated, copied if a copy was made. -/
def storePrepared (core : Core) (key : ExpertKey) (admission : ExpertAdmission)
    (retained : Option ImmutableHostBuffer) : Core :=
  (core.modify key (·.store admission retained)).transitionLocked key .ramReady

/-- Answers the host waiters; without a device waiter the staging slot goes too. -/
def settlePrepared (core : Core) (key : ExpertKey) : Core :=
  let satisfied := core.satisfyHostWaitersLocked key
  if (satisfied.entry key).waiters.isEmpty then satisfied.unstageLocked key else satisfied

/-- The second section of the loop: `none` sends the worker back to the first. -/
def finishPreparation (core : Core) (key : ExpertKey) (admission : ExpertAdmission)
    (retained : Option ImmutableHostBuffer) : Option Core :=
  let entry := core.entry key
  if entry.state ≠ .ssdLoading || core.shuttingDown then some core
  else if entry.needsCopy core.config && retained.isNone then none
  else
    let core := core.modify key (·.setPreparing false)
    if entry.abandon || !entry.hasWaiters then some (core.abandonLoad key)
    else
      let ready := core.storePrepared key admission retained
      let promoted :=
        if (ready.entry key).ramProtectedRequested then ready.promoteRamLocked key true else ready
      some (promoted.settlePrepared key)

end Core

end QuantumLlm.Runtime
