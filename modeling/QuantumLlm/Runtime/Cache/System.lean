import QuantumLlm.Lib.Run
import QuantumLlm.Runtime.Cache.Requests

/-!
# Expert cache: the running system

The core together with what its threads, its storage, its uploader and its
clients are doing. One action is one lock section, or one step outside the mutex;
every order of actions is a run. A thread may select a task whenever it likes,
which covers every moment a `drive` loop can be at.
-/

namespace QuantumLlm.Runtime

/-- A record the host worker has validated outside the mutex. -/
structure Prepared where
  key : ExpertKey
  admission : ExpertAdmission
  bytes : List UInt8
  retained : Option ImmutableHostBuffer := none
  deriving DecidableEq

/-- Where the host worker is in `prepare_host_entry`. -/
inductive Worker where
  | idle
  | popped (key : ExpertKey)
  | validated (prepared : Prepared)
  | copying (prepared : Prepared)
  | finishing (prepared : Prepared)
  deriving DecidableEq

/-- An I/O operation and the key its completion reports for. -/
structure Operation where
  id : OperationId
  key : ExpertKey
  deriving DecidableEq

structure CacheSystem where
  core : Core
  /-- Selected tasks not yet handed to storage or uploader. -/
  tasks : List Task := []
  reads : List Operation := []
  uploads : List Operation := []
  /-- Operations whose id the core has not recorded yet. -/
  unrecordedReads : List Operation := []
  unrecordedUploads : List Operation := []
  worker : Worker := .idle
  /-- Waiters whose handle, and operations whose device, `cancel` was called on. -/
  cancelledWaiters : List WaiterId := []
  cancelledReads : List OperationId := []
  cancelledUploads : List OperationId := []

inductive Action where
  | acquire (key : ExpertKey) (record : PayloadRecord) (options : ExpertAcquireOptions)
      (id : WaiterId)
  | preloadHost (key : ExpertKey) (record : PayloadRecord) (options : HostPreloadOptions)
      (id : WaiterId)
  | tryAcquireHost (key : ExpertKey) (record : PayloadRecord) (recordAccess : Bool)
      (id : WaiterId)
  | recordAccess (key : ExpertKey) (count : UInt32)
  | recordAccesses (accesses : List ExpertAccess)
  | protect (key : ExpertKey) (ram vram : Bool)
  | cancelWaiter (key : ExpertKey) (id : WaiterId)
  | cancelHostWaiter (key : ExpertKey) (id : WaiterId)
  | dropHandle (id : WaiterId)
  | releaseLease (lease : Lease)
  | trimTo (ramTarget vramTarget : UInt64)
  | configureVramBudget (budget : TierBudget) (transientBytes : UInt64)
  | shutdown
  | nextTask
  | startRead (key : ExpertKey) (id : OperationId)
  | startUpload (key : ExpertKey) (id : OperationId)
  | recordRead (operation : Operation)
  | recordUpload (operation : Operation)
  | readComplete (operation : Operation) (result : ReadResult)
  | uploadComplete (operation : Operation) (result : UploadResult) (published : Status)
  | popPreparation
  | validate (span : ByteSpan)
  | checkPreparation
  | copyRecord (allocated : Bool)
  | finishPreparation

namespace Core

/-- No waiter or lease has had this name. -/
def fresh (core : Core) (id : WaiterId) : Bool :=
  id ∉ core.journal.issued.map (·.id) && id ∉ core.journal.leases.map (·.id) &&
    id ∉ core.journal.returned

/-- Destroys an `AcquireHandle`: with the promise already set its future is the
last owner of the lease, and no lock is held. -/
def dropHandle (core : Core) (id : WaiterId) : Core :=
  let dropped : Core :=
    { core with journal := { core.journal with dropped := core.journal.dropped ++ [id] } }
  match core.journal.leases.find? (·.id = id) with
  | some lease => dropped.returnLease lease
  | none => dropped

end Core

namespace CacheSystem

/-- A thread escaped with an exception, or deadlocked on the core mutex. -/
def stuck (system : CacheSystem) : Bool :=
  system.core.fault.isSome || !system.core.journal.reentered.isEmpty

def onCore (system : CacheSystem) (change : Core → Core) : CacheSystem :=
  { system with core := change system.core }

/-- Cancels through a handle; the operations are cancelled once the mutex is free. -/
def cancelThrough (system : CacheSystem) (id : WaiterId)
    (cancel : Core → Core × Option OperationId × Option OperationId) : CacheSystem :=
  let (core, read, upload) := cancel system.core
  { system with
    core
    cancelledWaiters := system.cancelledWaiters ++ [id]
    cancelledReads := system.cancelledReads ++ read.toList
    cancelledUploads := system.cancelledUploads ++ upload.toList }

/-- The client side of a step: public operations and lease destructors. -/
def clientStep (system : CacheSystem) : Action → Option CacheSystem
  | .acquire key record options id =>
    if system.core.fresh id then some (system.onCore (·.acquire key record options id)) else none
  | .preloadHost key record options id =>
    if system.core.fresh id then some (system.onCore (·.preloadHost key record options id))
    else none
  | .tryAcquireHost key record recordAccess id =>
    if system.core.fresh id then
      some (system.onCore (·.tryAcquireHost key record recordAccess id))
    else none
  | .recordAccess key count => some (system.onCore (·.recordAccess key count))
  | .recordAccesses accesses => some (system.onCore (·.recordAccesses accesses))
  | .protect key ram vram => some (system.onCore (·.protect key ram vram))
  | .cancelWaiter key id =>
    -- A handle can ask once, and not after it is gone.
    if ⟨id, key, false⟩ ∈ system.core.journal.issued ∧ id ∉ system.cancelledWaiters ∧
        id ∉ system.core.journal.dropped then
      some (system.cancelThrough id (·.cancelWaiter key id))
    else none
  | .cancelHostWaiter key id =>
    if ⟨id, key, true⟩ ∈ system.core.journal.issued ∧ id ∉ system.cancelledWaiters then
      some (system.cancelThrough id (·.cancelHostWaiter key id))
    else none
  | .dropHandle id =>
    if system.core.journal.issued.any (fun ticket => ticket.id = id && !ticket.host) &&
        id ∉ system.core.journal.dropped then
      some (system.onCore (·.dropHandle id))
    else none
  | .releaseLease lease =>
    if lease ∈ system.core.journal.leases then some (system.onCore (·.returnLease lease))
    else none
  | .trimTo ramTarget vramTarget => some (system.onCore (·.trimTo ramTarget vramTarget))
  | .configureVramBudget budget transientBytes =>
    some (system.onCore fun core => (core.configureVramBudget budget transientBytes).2)
  | .shutdown =>
    let (core, reads, uploads) := system.core.shutdown
    some { system with
      core
      cancelledReads := system.cancelledReads ++ reads
      cancelledUploads := system.cancelledUploads ++ uploads }
  | _ => none

/-- The device side of a step: task selection, storage and uploader. -/
def deviceStep (system : CacheSystem) : Action → Option CacheSystem
  | .nextTask =>
    if system.core.shuttingDown then none
    else
      let (task, core) := system.core.nextTaskLocked
      some { system with core, tasks := system.tasks ++ task.toList }
  | .startRead key id =>
    if ⟨.read, key⟩ ∈ system.tasks ∧
        id ∉ (system.reads ++ system.unrecordedReads).map (·.id) then
      some { system with
        tasks := system.tasks.erase ⟨.read, key⟩
        reads := system.reads ++ [⟨id, key⟩]
        unrecordedReads := system.unrecordedReads ++ [⟨id, key⟩] }
    else none
  | .startUpload key id =>
    if ⟨.upload, key⟩ ∈ system.tasks ∧
        id ∉ (system.uploads ++ system.unrecordedUploads).map (·.id) then
      let taken := { system with tasks := system.tasks.erase ⟨.upload, key⟩ }
      match Core.uploadSourceError (system.core.entry key) with
      | some status => some (taken.onCore (·.failEntryLocked key status))
      | none => some { taken with
          uploads := system.uploads ++ [⟨id, key⟩]
          unrecordedUploads := system.unrecordedUploads ++ [⟨id, key⟩] }
    else none
  | .recordRead operation =>
    if operation ∈ system.unrecordedReads then
      let (cancelNow, core) := system.core.recordRead operation.key operation.id
      some { system with
        core
        unrecordedReads := system.unrecordedReads.erase operation
        cancelledReads := system.cancelledReads ++ if cancelNow then [operation.id] else [] }
    else none
  | .recordUpload operation =>
    if operation ∈ system.unrecordedUploads then
      let (cancelNow, core) := system.core.recordUpload operation.key operation.id
      some { system with
        core
        unrecordedUploads := system.unrecordedUploads.erase operation
        cancelledUploads := system.cancelledUploads ++ if cancelNow then [operation.id] else [] }
    else none
  | .readComplete operation result =>
    if operation ∈ system.reads then
      some { system with
        core := system.core.readComplete operation.key result
        reads := system.reads.erase operation }
    else none
  | .uploadComplete operation result published =>
    if operation ∈ system.uploads then
      some { system with
        core := system.core.uploadComplete operation.key result published
        uploads := system.uploads.erase operation }
    else none
  | _ => none

/-- The host worker's side of a step. -/
def workerStep (sha256 : List UInt8 → Sha256Digest) (system : CacheSystem) : Action → Option CacheSystem
  | .popPreparation =>
    match system.worker, system.core.hostPrepareQueue with
    | .idle, key :: rest =>
      some { system with
        core := { system.core with hostPrepareQueue := rest }
        worker := .popped key }
    | _, _ => none
  | .validate span =>
    match system.worker with
    | .popped key =>
      let entry := system.core.entry key
      let rejected (status : Status) : CacheSystem :=
        { system with core := system.core.failPreparation key status, worker := .idle }
      if entry.host.isNone || system.core.buffers.slotBytes < entry.record.storedBytes then
        some (rejected Core.lostStagingStatus)
      else if span.size ≠ entry.record.storedBytes then none
      else match validateExpertAdmission sha256 span key entry.record with
      | .error status => some (rejected status)
      | .ok admission =>
        some { system with worker := .validated ⟨key, admission, span.bytes, none⟩ }
    | _ => none
  | .checkPreparation =>
    match system.worker with
    | .validated prepared =>
      match system.core.checkPreparation prepared.key prepared.retained with
      | .stopped => some { system with worker := .idle }
      | .copyNeeded => some { system with worker := .copying prepared }
      | .proceed => some { system with worker := .finishing prepared }
    | _ => none
  | .copyRecord allocated =>
    match system.worker with
    | .copying prepared =>
      if allocated then
        some { system with
          worker := .finishing { prepared with retained := some ⟨prepared.bytes⟩ } }
      else
        some { system with
          core := system.core.failPreparation prepared.key Core.copyFailedStatus
          worker := .idle }
    | _ => none
  | .finishPreparation =>
    match system.worker with
    | .finishing prepared =>
      match system.core.finishPreparation prepared.key prepared.admission
          prepared.retained with
      | none => some { system with worker := .validated prepared }
      | some core => some { system with core, worker := .idle }
    | _ => none
  | _ => none

def step (sha256 : List UInt8 → Sha256Digest) (system : CacheSystem) (action : Action) :
    Option CacheSystem :=
  if system.stuck then none
  else (system.clientStep action).or
    ((system.deviceStep action).or (system.workerStep sha256 action))

/-- The constructors: an invalid pool or configuration throws. -/
def boot (config : ExpertCacheConfig) (directory : Option Directory) (slotCount : Nat)
    (slotBytes alignment : UInt64) (reservedDemandSlots : Nat) : Option CacheSystem :=
  match FixedBufferPool.create slotCount slotBytes alignment reservedDemandSlots with
  | none => none
  | some buffers =>
    if validConfig config buffers then some { core := { config, directory, buffers } } else none

end CacheSystem

end QuantumLlm.Runtime
