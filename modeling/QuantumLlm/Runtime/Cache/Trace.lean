import QuantumLlm.Runtime.Cache.Frame
import QuantumLlm.Runtime.Cache.Loads

/-!
# Expert cache: lock sections as traces

A lock section is a sequence of acts: a move of one entry, or a step that no
entry's life cycle sees. `Moves` says everything a move does to the core, so that
an invariant of the cache is proved once per act and then holds after every
section.
-/

namespace QuantumLlm.Runtime

namespace Journal

/-- The promises and leases of a move. -/
def logged (journal : Journal) (key : ExpertKey) (entry : Entry) : Move → Journal
  | .withdraw id => journal.answered [id] Core.cancelledStatus
  | .withdrawHost id => journal.answered [id] Core.preloadCancelledStatus
  | .reject => journal.answered (entry.failFast.map (·.id)) Core.rejectionStatus
  | .fail status =>
    ((journal.failing ⟨key, entry.state, status⟩).answered (entry.waiters.map (·.id))
      status).answered (entry.hostWaiters.map (·.id)) status
  | .settle =>
    match entry.hostCopy, entry.validatedSections with
    | some copy, some _ =>
      journal.fulfilled key HostWaiter.id (fun waiter =>
        if waiter.options.acquireLease then some (.host copy) else none) entry.hostWaiters
    | _, _ => journal
  | .finishUpload allocation =>
    let fulfilled := journal.fulfilled key Waiter.id
      (fun _ => some (.device (some allocation))) entry.waiters
    { fulfilled with
      reentered := fulfilled.reentered ++
        (entry.waiters.map (·.id)).filter (· ∈ journal.dropped) }
  | .grant id grant => journal.leased ⟨id, key, grant⟩
  | .clear status =>
    (journal.answered (entry.waiters.map (·.id)) status).answered (entry.hostWaiters.map (·.id))
      status
  | _ => journal

end Journal

namespace Move

def queued (key : ExpertKey) : Move → List ExpertKey
  | .queue => [key]
  | _ => []

/-- The accounts a move keeps level: only a load that tops up a reservation in
another class splits a charge, and nobody counts a device copy that arrives under a
reference. -/
def Level (entry : Entry) (account : Account) : Move → Prop
  | .startLoad _ (some resident) =>
    entry.vramReserved = 0 ∨ entry.vramResident = resident ∨ account = .ram ∨ account = .vram ∨
      account.referenced
  | .finishUpload _ => entry.references = 0 ∨ account.referenced = false
  | _ => True

/-- The capacity test before a reservation. -/
def Fits (core : Core) (record : PayloadRecord) : Move → Prop
  | .startLoad _ admitted =>
    core.counters.ramBytes + record.storedBytes ≤ core.config.ram.highWatermarkBytes ∧
      record.storedBytes ≤ core.config.ram.highWatermarkBytes ∧
      (admitted.isSome →
        core.counters.vramBytes + deviceBytes record ≤ core.config.vram.highWatermarkBytes ∧
          deviceBytes record ≤ core.config.vram.highWatermarkBytes)
  | .startUpload (some _) =>
    core.counters.vramBytes + deviceBytes record ≤ core.config.vram.highWatermarkBytes ∧
      deviceBytes record ≤ core.config.vram.highWatermarkBytes
  | _ => True

end Move

namespace Core

/-- Everything a move of `key` does to the core. -/
structure Moves (key : ExpertKey) (move : Move) (core core' : Core) : Prop
    extends Local key core core' where
  key_mem : key ∈ core.entries.keys
  enabled : (core.entry key).Enabled core.config move
  entry : core'.entry key = (core.entry key).moved core.config move
  indexed_self : core.IndexedAt key → core'.IndexedAt key
  shown : core.directory.isSome → ((core.entry key).device.isSome → key ∈ core.published) →
    (core'.entry key).device.isSome → key ∈ core'.published
  journal : core'.journal = core.journal.logged key (core.entry key) move
  queue : core'.hostPrepareQueue = core.hostPrepareQueue ++ move.queued key
  drift : ∀ account, move.Level (core.entry key) account → core'.drift account = core.drift account
  fits : move.Fits core (core.entry key).record

/-- A step that no life cycle sees: accesses, promotions, clocks. -/
structure Noted (core core' : Core) : Prop where
  keys : core'.entries.keys = core.entries.keys
  body : ∀ key, (core'.entry key).body = (core.entry key).body
  resident : ∀ key, (core.entry key).device = none →
    (core'.entry key).vramResident = (core.entry key).vramResident
  indexed : ∀ key, core.IndexedAt key → core'.IndexedAt key
  drift : ∀ account, core'.drift account = core.drift account
  classed : core.Classed → core'.Classed
  buffers : core'.buffers = core.buffers
  clean : core.Clean → core'.Clean
  published : core'.published = core.published
  config : core'.config = core.config
  directory : core'.directory = core.directory
  shuttingDown : core'.shuttingDown = core.shuttingDown
  queue : core'.hostPrepareQueue = core.hostPrepareQueue
  journal : core'.journal = core.journal

inductive Act where
  | note
  | move (key : ExpertKey) (move : Move)
  | emplace (key : ExpertKey) (record : PayloadRecord)
  | issue (ticket : Ticket)
  | answer (id : WaiterId) (status : Status)
  | returned (lease : Lease)
  | dropped (id : WaiterId)
  | configure (budget : TierBudget) (transientBytes : UInt64)
  | stop
  | pop (key : ExpertKey)

/-- The core after a lease is gone, whether or not its reference was. -/
def forget (core : Core) (lease : Lease) : Core :=
  { core with
    journal := { core.journal with
      leases := core.journal.leases.filter (· ≠ lease)
      returned := core.journal.returned ++ [lease.id] } }

def markDropped (core : Core) (id : WaiterId) : Core :=
  { core with journal := { core.journal with dropped := core.journal.dropped ++ [id] } }

def configured (core : Core) (budget : TierBudget) (transientBytes : UInt64) : Core :=
  { core with
    config := { core.config with
      vram := budget
      placement := { core.config.placement with vramTransientBytes := transientBytes } } }

def Acts (core core' : Core) : Act → Prop
  | .note => Noted core core'
  | .move key move => Moves key move core core'
  | .emplace key record => core' = core.emplace key record
  | .issue ticket => core' = core.issue ticket
  | .answer id status => core' = core.answer id status
  | .returned lease => core' = core.forget lease
  | .dropped id => core' = core.markDropped id
  | .configure budget transientBytes =>
    core.counters.vramBytes = 0 ∧ validBudget budget ∧ transientBytes < budget.highWatermarkBytes ∧
      core' = core.configured budget transientBytes
  | .stop => core' = { core with shuttingDown := true }
  | .pop key => core.hostPrepareQueue = key :: core'.hostPrepareQueue ∧
      core' = { core with hostPrepareQueue := core'.hostPrepareQueue }

/-- A sequence of acts, each of them allowed where it happens. -/
inductive Trace (allowed : Core → Act → Prop) : Core → Core → Prop where
  | refl {core : Core} : Trace allowed core core
  | tail {core middle core' : Core} {act : Act} : Trace allowed core middle →
      allowed middle act → Acts middle core' act → Trace allowed core core'

namespace Trace

variable {allowed weaker : Core → Act → Prop} {core middle core' : Core}

theorem single {act : Act} (hallowed : allowed core act) (h : Acts core core' act) :
    Trace allowed core core' :=
  refl.tail hallowed h

theorem of_eq (h : core' = core) : Trace allowed core core' := h ▸ refl

theorem trans (first : Trace allowed core middle) (second : Trace allowed middle core') :
    Trace allowed core core' := by
  induction second with
  | refl => exact first
  | tail _ hallowed h ih => exact ih.tail hallowed h

theorem mono (h : Trace allowed core core')
    (himp : ∀ core act, allowed core act → weaker core act) : Trace weaker core core' := by
  induction h with
  | refl => exact refl
  | tail _ hallowed hact ih => exact ih.tail (himp _ _ hallowed) hact

theorem lift {holds : Core → Prop} (h : Trace allowed core core')
    (hact : ∀ {core core' act}, allowed core act → Acts core core' act → holds core →
      holds core') (hstart : holds core) : holds core' := by
  induction h with
  | refl => exact hstart
  | tail _ hallowed hstep ih => exact hact hallowed hstep ih

end Trace

end Core

end QuantumLlm.Runtime
