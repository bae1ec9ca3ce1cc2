import QuantumLlm.Runtime.Cache.Requests

/-!
# Expert cache: the life of one entry

The abstract machine of a single expert. A move is what one lock section does to
one entry; `EntryOk` is what every move keeps whatever the other entries, the
budgets and the timing are.
-/

namespace QuantumLlm.Runtime

/-- What a lock section does to an entry. -/
inductive Move where
  | evict (needRam needVram : Bool)
  | join (waiter : Waiter)
  | joinHost (waiter : HostWaiter)
  | withdraw (id : WaiterId)
  | withdrawHost (id : WaiterId)
  | reject
  | fail (status : Status)
  | startLoad (lease : PoolLease) (admitted : Option Bool)
  | startUpload (reserved : Option Bool)
  | abandonLoad
  | queue
  | unqueue
  | store (admission : ExpertAdmission) (retained : Option ImmutableHostBuffer)
  | settle
  | abandonUpload
  | shrink (bytes : UInt64)
  | finishUpload (allocation : DeviceAllocation)
  | grant (id : WaiterId) (grant : Grant)
  | release
  | clear (status : Status)

namespace Entry

/-- The part of an entry that its life cycle depends on. -/
def body (entry : Entry) : Entry :=
  { entry with
    lastAccess := 0
    frequency := 0
    routingScoreMassQ20 := 0
    routingScorePeakQ20 := 0
    ramProtected := false
    ramProtectedRequested := false
    ramProtectionPersistent := false
    vramResident := false
    vramResidentRequested := false
    ioOperation := 0
    uploadOperation := 0 }

theorem field_of_body {α : Type} {entry other : Entry} (field : Entry → α)
    (h : other.body = entry.body) (hbody : ∀ entry : Entry, field entry.body = field entry := by
      intro _; rfl) : field other = field entry := by
  rw [← hbody other, h, hbody]

/-! ## Moves -/

/-- A `RAM_READY` entry keeps its retained copy or nothing. -/
def unstage (entry : Entry) : Entry :=
  if entry.hostCopy.isNone then entry.releaseHost.enter .absent
  else entry.releaseStaging

def evictHost (entry : Entry) (needRam : Bool) : Entry :=
  if needRam && entry.hasHostBytes then entry.releaseHost else entry

def evictDevice (entry : Entry) (needVram : Bool) : Entry :=
  if needVram && entry.device.isSome then
    if entry.releaseDevice.state = .vramReady then
      entry.releaseDevice.enter (if entry.releaseDevice.hasHostBytes then .ramReady else .absent)
    else entry.releaseDevice
  else entry

def evictEmpty (entry : Entry) : Entry :=
  if entry.state = .ramReady && !entry.hasHostBytes then entry.enter .absent else entry

def evicted (entry : Entry) (needRam needVram : Bool) : Entry :=
  ((entry.evictHost needRam).evictDevice needVram).evictEmpty

def abandonedIfIdle (entry : Entry) : Entry :=
  if entry.hasWaiters then entry
  else if entry.state = .ramReady && !entry.preparingHost then
    { entry.unstage with abandon := false }
  else { entry with abandon := true }

def failed (entry : Entry) : Entry :=
  (entry.enter .failed).withoutWaiters.releaseHost.releaseDevice.withoutOperations

def loading (entry : Entry) (lease : PoolLease) (admitted : Option Bool) : Entry :=
  let reserved := (entry.stage lease).reserveRam entry.record.storedBytes
    entry.ramProtectedRequested
  (reserved.reserveAdmitted (deviceBytes entry.record) admitted).enter .ssdLoading

def uploading (entry : Entry) (reserved : Option Bool) : Entry :=
  (entry.reserveAdmitted (deviceBytes entry.record) reserved).enter .gpuUploading

def loadAbandoned (entry : Entry) : Entry :=
  (entry.enter .absent).releaseHost.releaseDevice

/-- The retained copy lets the host waiters go. -/
def hostSatisfied (entry : Entry) : Entry :=
  if entry.hostCopy.isSome && entry.validatedSections.isSome then
    (entry.addReferences
      (entry.hostWaiters.filter (·.options.acquireLease)).length).withoutHostWaiters
  else entry

def settled (entry : Entry) : Entry :=
  let satisfied := entry.hostSatisfied
  if satisfied.waiters.isEmpty then satisfied.unstage else satisfied

def uploadAbandoned (entry : Entry) : Entry :=
  (entry.enter .ramReady).releaseDevice.unstage

def releaseUploadSource (entry : Entry) (retainHostCopy : Bool) : Entry :=
  if !retainHostCopy || entry.hostCopy.isNone then entry.releaseHost else entry.releaseStaging

def uploaded (entry : Entry) (retainHostCopy : Bool) (allocation : DeviceAllocation) : Entry :=
  ((((entry.setDevice allocation).enter .vramReady).releaseUploadSource
    retainHostCopy).addReferences entry.waiters.length).withoutDeviceWaiters

/-- The entry after a move. -/
def moved (config : ExpertCacheConfig) (entry : Entry) : Move → Entry
  | .evict needRam needVram => entry.evicted needRam needVram
  | .join waiter => entry.join waiter
  | .joinHost waiter => entry.joinHost waiter
  | .withdraw id => (entry.withoutWaiter id).abandonedIfIdle
  | .withdrawHost id => (entry.withoutHostWaiter id).abandonedIfIdle
  | .reject => entry.withoutFailFast
  | .fail _ => entry.failed
  | .startLoad lease admitted => entry.loading lease admitted
  | .startUpload reserved => entry.uploading reserved
  | .abandonLoad => entry.loadAbandoned
  | .queue => entry.setPreparing true
  | .unqueue => entry.setPreparing false
  | .store admission retained => (entry.store admission retained).enter .ramReady
  | .settle => entry.settled
  | .abandonUpload => entry.uploadAbandoned
  | .shrink bytes => entry.setVramReserved bytes
  | .finishUpload allocation => entry.uploaded config.retainHostCopy allocation
  | .grant _ _ => entry.addReferences 1
  | .release => entry.removeReference
  | .clear _ => entry.withoutWaiters

/-- The states a lock section makes a move in. -/
def Enabled (config : ExpertCacheConfig) (entry : Entry) : Move → Prop
  | .evict needRam needVram => entry.evictable ∧ entry.useful needRam needVram
  | .join _ => entry.state ≠ .failed ∧ entry.state ≠ .vramReady
  | .joinHost _ => entry.state = .absent ∨ entry.state = .ssdLoading
  | .withdraw id => entry.waiters.any (·.id = id)
  | .withdrawHost id => entry.hostWaiters.any (·.id = id)
  | .reject => True
  | .fail _ => entry.state ≠ .vramReady ∧ entry.preparingHost = false
  | .startLoad _ admitted =>
    entry.state = .absent ∧ entry.hasWaiters ∧ (admitted.isSome ↔ entry.waiters ≠ [])
  | .startUpload reserved =>
    entry.state = .ramReady ∧ entry.waiters ≠ [] ∧ (reserved.isSome ↔ entry.vramReserved = 0)
  | .abandonLoad => entry.state = .ssdLoading ∧ entry.preparingHost = false
  | .queue => entry.state = .ssdLoading
  | .unqueue => entry.state = .ssdLoading
  | .store _ retained =>
    entry.state = .ssdLoading ∧ entry.preparingHost = false ∧ entry.record.storedBytes ≠ 0 ∧
      (retained.isSome → config.retainHostCopy)
  | .settle => entry.state = .ramReady
  | .abandonUpload => entry.state = .gpuUploading ∧ entry.waiters = []
  | .shrink bytes => entry.state = .gpuUploading ∧ bytes ≤ entry.vramReserved
  | .finishUpload allocation =>
    entry.state = .gpuUploading ∧ allocation.bytes ≤ entry.vramReserved ∧
      entry.waiters ≠ []
  | .grant _ (.device allocation) => entry.state = .vramReady ∧ entry.device = allocation
  | .grant _ (.host copy) => entry.hostCopy = some copy
  | .release => entry.references ≠ 0
  | .clear _ => True

end Entry

/-! ## The invariant of an entry -/

structure EntryOk (config : ExpertCacheConfig) (entry : Entry) : Prop where
  abandoned : entry.abandon → entry.waiters = [] ∧ entry.hostWaiters = []
  device_iff : entry.device.isSome ↔ entry.state = .vramReady
  device_fits : ∀ allocation, entry.device = some allocation →
    allocation.bytes ≤ entry.vramReserved
  forced : entry.hostWaiters ≠ [] → entry.forceHostRetention
  copied : entry.hostCopy.isSome → config.retainHostCopy ∧
    (entry.state = .ramReady ∨ entry.state = .gpuUploading ∨ entry.state = .vramReady)
  staged : entry.host.isSome →
    entry.state = .ssdLoading ∨ entry.state = .ramReady ∨ entry.state = .gpuUploading
  loading : entry.state = .ssdLoading → entry.host.isSome
  ready : entry.state = .ramReady ∨ entry.state = .gpuUploading → entry.hasHostBytes
  reserved : entry.hasHostBytes → entry.ramReserved = entry.record.storedBytes
  unreserved : entry.hasHostBytes = false → entry.ramReserved = 0
  validated : entry.hasHostBytes → entry.state ≠ .ssdLoading →
    entry.validatedSections.isSome ∧ entry.record.storedBytes ≠ 0
  quarantined : entry.state = .failed →
    entry.vramReserved = 0 ∧ entry.waiters = [] ∧ entry.hostWaiters = []
  preparing : entry.preparingHost → entry.state = .ssdLoading
  sized : entry.vramReserved ≠ 0 → deviceBytes entry.record ≠ 0

theorem EntryOk.default (config : ExpertCacheConfig) (record : PayloadRecord) :
    EntryOk config { record } := by
  constructor <;> simp [Entry.hasHostBytes]

theorem EntryOk.congr {config : ExpertCacheConfig} {entry other : Entry}
    (h : other.body = entry.body) (hentry : EntryOk config entry) : EntryOk config other := by
  have hbody : EntryOk config entry.body := { hentry with }
  rw [← h] at hbody
  exact { hbody with }

open Entry

namespace EntryOk

variable {config : ExpertCacheConfig} {entry : Entry}

section

variable (h : EntryOk config entry)

include h

theorem evicted {needRam needVram : Bool}
    (hidle : entry.evictable) (huseful : entry.useful needRam needVram) :
    EntryOk config (entry.evicted needRam needVram) := by
  constructor <;>
    grind [cases EntryOk, Entry.evicted, evictHost, evictDevice, evictEmpty, enter, releaseHost,
      releaseDevice, hasHostBytes, evictable, useful, hasWaiters]

theorem withWaiters {waiters : List Waiter} {hostWaiters : List HostWaiter}
    (hwaiters : entry.waiters = [] → waiters = [])
    (hhost : entry.hostWaiters = [] → hostWaiters = []) :
    EntryOk config { entry with waiters, hostWaiters } := by
  constructor <;> grind [cases EntryOk, hasHostBytes]

theorem unstage (hstate : entry.state = .ramReady) :
    EntryOk config entry.unstage := by
  cases hcopy : entry.hostCopy with
  | none => constructor <;> grind [cases EntryOk, Entry.unstage, enter, releaseHost, hasHostBytes]
  | some copy => constructor <;> grind [cases EntryOk, Entry.unstage, releaseStaging, hasHostBytes]

theorem abandonedIfIdle : EntryOk config entry.abandonedIfIdle := by
  unfold Entry.abandonedIfIdle
  split
  next => exact h
  next hidle =>
    split
    next hready =>
      have hunstaged := h.unstage (by grind)
      constructor <;> grind [cases EntryOk, hasHostBytes]
    next => constructor <;> grind [cases EntryOk, hasHostBytes, hasWaiters]

end

theorem failed (hidle : entry.preparingHost = false) :
    EntryOk config entry.failed := by
  constructor <;> grind [hasHostBytes, Entry.failed, enter, withoutWaiters, releaseHost,
    releaseDevice, withoutOperations]

section

variable (h : EntryOk config entry)

include h

theorem hostSatisfied : EntryOk config entry.hostSatisfied := by
  unfold Entry.hostSatisfied
  split
  next => constructor <;> grind [cases EntryOk, hasHostBytes, addReferences, withoutHostWaiters]
  next => exact h

theorem settled (hstate : entry.state = .ramReady) :
    EntryOk config entry.settled := by
  have hready : entry.hostSatisfied.state = .ramReady := by
    unfold Entry.hostSatisfied
    split <;> exact hstate
  simp only [Entry.settled]
  split
  next => exact h.hostSatisfied.unstage hready
  next => exact h.hostSatisfied

theorem uploadAbandoned (hstate : entry.state = .gpuUploading) :
    EntryOk config entry.uploadAbandoned := by
  have hready : EntryOk config (entry.enter .ramReady).releaseDevice := by
    constructor <;> grind [cases EntryOk, hasHostBytes, enter, releaseDevice]
  exact hready.unstage rfl

theorem uploaded {allocation : DeviceAllocation}
    (hstate : entry.state = .gpuUploading) (hfits : allocation.bytes ≤ entry.vramReserved) :
    EntryOk config (entry.uploaded config.retainHostCopy allocation) := by
  cases hcopy : entry.hostCopy with
  | none =>
    constructor <;> grind [cases EntryOk, Entry.uploaded, releaseUploadSource, setDevice, enter,
      addReferences, withoutDeviceWaiters, releaseHost, releaseStaging, hasHostBytes]
  | some copy =>
    constructor <;> grind [cases EntryOk, Entry.uploaded, releaseUploadSource, setDevice, enter,
      addReferences, withoutDeviceWaiters, releaseHost, releaseStaging, hasHostBytes]

end

theorem joined {waiter : Waiter} (h : EntryOk config entry) (hstate : entry.state ≠ .failed)
    (hunready : entry.state ≠ .vramReady) : EntryOk config (entry.join waiter) := by
  constructor <;> grind [cases EntryOk, join, hasHostBytes]

section

variable (h : EntryOk config entry)

include h

theorem hostJoined {waiter : HostWaiter}
    (hstate : entry.state = .absent ∨ entry.state = .ssdLoading) :
    EntryOk config (entry.joinHost waiter) := by
  constructor <;> grind [cases EntryOk, joinHost, hasHostBytes]

theorem startedLoad {lease : PoolLease} {admitted : Option Bool} (hstate : entry.state = .absent)
    (hadmitted : admitted.isSome ↔ entry.waiters ≠ []) :
    EntryOk config (entry.loading lease admitted) := by
  cases admitted <;> constructor <;>
    grind [cases EntryOk, hasHostBytes, Entry.loading, enter, stage, reserveRam, reserveAdmitted,
      reserveVram]

theorem startedUpload {reserved : Option Bool}
    (hstate : entry.state = .ramReady) (hwaits : entry.waiters ≠ [])
    (hreserved : reserved.isSome ↔ entry.vramReserved = 0) :
    EntryOk config (entry.uploading reserved) := by
  cases reserved <;> constructor <;>
    grind [cases EntryOk, hasHostBytes, Entry.uploading, enter, reserveAdmitted, reserveVram]

theorem loadAbandoned (hidle : entry.preparingHost = false) :
    EntryOk config entry.loadAbandoned := by
  constructor <;>
    grind [cases EntryOk, hasHostBytes, Entry.loadAbandoned, enter, releaseHost, releaseDevice]

theorem setPreparing {preparing : Bool}
    (hstate : entry.state = .ssdLoading) : EntryOk config (entry.setPreparing preparing) := by
  constructor <;> grind [cases EntryOk, Entry.setPreparing, hasHostBytes]

theorem stored {admission : ExpertAdmission} {retained : Option ImmutableHostBuffer}
    (hstate : entry.state = .ssdLoading)
    (hidle : entry.preparingHost = false) (hbytes : entry.record.storedBytes ≠ 0)
    (hretained : retained.isSome → config.retainHostCopy) :
    EntryOk config ((entry.store admission retained).enter .ramReady) := by
  constructor <;> grind [cases EntryOk, hasHostBytes, Entry.store, enter]

theorem shrunk {bytes : UInt64} (hstate : entry.state = .gpuUploading)
    (hfits : bytes ≤ entry.vramReserved) : EntryOk config (entry.setVramReserved bytes) := by
  constructor <;> grind [cases EntryOk, setVramReserved, hasHostBytes]

theorem moved {move : Move} (henabled : Enabled config entry move) :
    EntryOk config (entry.moved config move) := by
  cases move with
  | evict needRam needVram => exact h.evicted henabled.1 henabled.2
  | join waiter => exact h.joined henabled.1 henabled.2
  | joinHost waiter => exact h.hostJoined henabled
  | withdraw id =>
    exact (h.withWaiters (fun hnil => by simp [hnil]) (fun hnil => hnil)).abandonedIfIdle
  | withdrawHost id =>
    exact (h.withWaiters (fun hnil => hnil) (fun hnil => by simp [hnil])).abandonedIfIdle
  | reject => exact h.withWaiters (fun hnil => by simp [hnil]) (fun hnil => hnil)
  | fail status => exact .failed henabled.2
  | startLoad lease admitted => exact h.startedLoad henabled.1 henabled.2.2
  | startUpload reserved => exact h.startedUpload henabled.1 henabled.2.1 henabled.2.2
  | abandonLoad => exact h.loadAbandoned henabled.2
  | queue => exact h.setPreparing henabled
  | unqueue => exact h.setPreparing henabled
  | store admission retained => exact h.stored henabled.1 henabled.2.1 henabled.2.2.1 henabled.2.2.2
  | settle => exact h.settled henabled
  | abandonUpload => exact h.uploadAbandoned henabled.1
  | shrink bytes => exact h.shrunk henabled.1 henabled.2
  | finishUpload allocation => exact h.uploaded henabled.1 henabled.2.1
  | grant id grant => exact { h with }
  | release => exact { h with }
  | clear status => exact h.withWaiters (fun _ => rfl) (fun _ => rfl)

end

end EntryOk

end QuantumLlm.Runtime
