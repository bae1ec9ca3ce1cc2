import QuantumLlm.Runtime.Cache.Account
import QuantumLlm.Runtime.Cache.Staging

/-!
# Expert cache: what a helper leaves alone

Helpers that run on one entry keep the rest of the core: the other entries and
their place in the task indexes, the drift of every counter, the ownership of the
staging slots and the legality of the state machine so far.
-/

namespace QuantumLlm.Runtime

namespace Entry

/-- The read index of this priority should list the entry. -/
def ReadReady (entry : Entry) (priority : ExpertRequestPriority) : Prop :=
  entry.state = .absent ∧ entry.abandon = false ∧ entry.hasWaiters ∧
    entry.effectivePriority = priority

/-- The upload index of this priority should list the entry. -/
def UploadReady (entry : Entry) (priority : ExpertRequestPriority) : Prop :=
  entry.state = .ramReady ∧ entry.hasHostBytes ∧ entry.abandon = false ∧ entry.waiters ≠ [] ∧
    entry.effectivePriority = priority

variable {entry : Entry}

theorem hasWaiters_iff :
    entry.hasWaiters ↔ entry.waiters ≠ [] ∨ entry.hostWaiters ≠ [] := by
  simp [hasWaiters]

theorem hasWaiters_eq_false_iff :
    entry.hasWaiters = false ↔ entry.waiters = [] ∧ entry.hostWaiters = [] := by
  simp [hasWaiters]

/-- What the staging pool and the counters see of an entry. -/
def footprint (entry : Entry) : Option PoolLease × UInt64 × Bool × UInt64 × Bool × Bool :=
  (entry.host, entry.ramReserved, entry.ramProtected, entry.vramReserved, entry.vramResident,
    entry.referenced)

theorem charge_of_footprint {other : Entry} {home : Nat} {account : Account}
    (h : other.footprint = entry.footprint) :
    other.charge home account = entry.charge home account := by
  simp only [footprint, Prod.mk.injEq] at h
  obtain ⟨-, hram, hprotected, hvram, hresident, hreferenced⟩ := h
  cases account <;> simp only [charge, hram, hprotected, hvram, hresident, hreferenced]

end Entry

/-- The journal after answering waiters with the grants `granted` gives them. -/
def Journal.fulfilled {α : Type} (journal : Journal) (key : ExpertKey) (name : α → WaiterId)
    (granted : α → Option Grant) (waiters : List α) : Journal :=
  { journal with
    answers := journal.answers ++ waiters.map fun waiter => ⟨name waiter, Status.success⟩
    leases := journal.leases ++ waiters.filterMap fun waiter =>
      (granted waiter).map fun grant => ⟨name waiter, key, grant⟩ }

namespace Core

def IndexedAt (core : Core) (key : ExpertKey) : Prop :=
  ∀ priority,
    (key ∈ core.readTaskKeys priority ↔ (core.entry key).ReadReady priority) ∧
      (key ∈ core.uploadTaskKeys priority ↔ (core.entry key).UploadReady priority)

/-- A used staging slot belongs to an entry. -/
def Staged (core : Core) (slot : Nat) : Prop :=
  core.buffers.slots.getD slot false = true →
    ∃ key lease, (core.entry key).host = some lease ∧ lease.slot = slot

/-- No exception so far, and no illegal transition attempted. -/
structure Clean (core : Core) : Prop where
  fault : core.fault = none
  transitions : ∀ attempt ∈ core.transitions, validCacheTransition attempt.1 attempt.2

/-! ## Locality -/

/-- A step at `key` seen from everywhere else. -/
structure Local (key : ExpertKey) (core core' : Core) : Prop where
  keys : core'.entries.keys = core.entries.keys
  others : ∀ other, other ≠ key → core'.entry other = core.entry other
  indexed : ∀ other, other ≠ key → core.IndexedAt other → core'.IndexedAt other
  staged : (∀ slot, core.Staged slot) → ∀ slot, core'.Staged slot
  clean : core.Clean → core'.Clean
  published : ∀ other, other ≠ key → (other ∈ core'.published ↔ other ∈ core.published)
  config : core'.config = core.config
  directory : core'.directory = core.directory
  shuttingDown : core'.shuttingDown = core.shuttingDown
  shape : core'.buffers.shape = core.buffers.shape
  pooled : Pooled core.entries core.buffers → Pooled core'.entries core'.buffers

/-- A local step after which every counter still fits the entries as before. -/
structure Keeps (key : ExpertKey) (core core' : Core) : Prop extends Local key core core' where
  drift : ∀ account, core'.drift account = core.drift account

/-- A step of one entry that nobody outside the cache can observe. -/
structure Silent (key : ExpertKey) (core core' : Core) : Prop extends Keeps key core core' where
  journal : core'.journal = core.journal
  shown : core'.published = core.published
  queue : core'.hostPrepareQueue = core.hostPrepareQueue

namespace Local

variable {key : ExpertKey} {core middle core' : Core}

theorem refl : Local key core core :=
  ⟨rfl, fun _ _ => rfl, fun _ _ h => h, fun h => h, fun h => h, fun _ _ => Iff.rfl, rfl, rfl, rfl,
    rfl, fun h => h⟩

theorem trans (first : Local key core middle) (second : Local key middle core') :
    Local key core core' where
  keys := second.keys.trans first.keys
  others other hother := (second.others other hother).trans (first.others other hother)
  indexed other hother h := second.indexed other hother (first.indexed other hother h)
  staged h := second.staged (first.staged h)
  clean h := second.clean (first.clean h)
  published other hother := (second.published other hother).trans (first.published other hother)
  config := second.config.trans first.config
  directory := second.directory.trans first.directory
  shuttingDown := second.shuttingDown.trans first.shuttingDown
  shape := second.shape.trans first.shape
  pooled h := second.pooled (first.pooled h)

theorem indexed_of_eq (hothers : ∀ other, other ≠ key → core'.entry other = core.entry other)
    (hread : ∀ other, other ≠ key → ∀ priority,
      (other ∈ core'.readTaskKeys priority ↔ other ∈ core.readTaskKeys priority))
    (hupload : ∀ other, other ≠ key → ∀ priority,
      (other ∈ core'.uploadTaskKeys priority ↔ other ∈ core.uploadTaskKeys priority)) :
    ∀ other, other ≠ key → core.IndexedAt other → core'.IndexedAt other := by
  intro other hother h priority
  rw [hread other hother, hupload other hother, hothers other hother]
  exact h priority

end Local

namespace Keeps

variable {key : ExpertKey} {core middle core' : Core}

theorem refl : Keeps key core core := ⟨.refl, fun _ => rfl⟩

theorem trans (first : Keeps key core middle) (second : Keeps key middle core') :
    Keeps key core core' :=
  ⟨first.toLocal.trans second.toLocal,
    fun account => (second.drift account).trans (first.drift account)⟩

end Keeps

namespace Silent

variable {key : ExpertKey} {core middle core' : Core}

theorem refl : Silent key core core := ⟨.refl, rfl, rfl, rfl⟩

theorem trans (first : Silent key core middle) (second : Silent key middle core') :
    Silent key core core' :=
  ⟨first.toKeeps.trans second.toKeeps, second.journal.trans first.journal,
    second.shown.trans first.shown, second.queue.trans first.queue⟩

end Silent

structure HasEntry (core : Core) (key : ExpertKey) (entry : Entry) : Prop where
  mem : key ∈ core.entries.keys
  entry : core.entry key = entry

/-- A silent step that also says what becomes of the entry. -/
structure Does (key : ExpertKey) (core core' : Core) (after : Entry) : Prop
    extends Silent key core core' where
  ends : core'.HasEntry key after

namespace Does

variable {key : ExpertKey} {core middle core' : Core} {entry between after : Entry}

theorem refl (h : core.HasEntry key entry) : Does key core core entry := ⟨.refl, h⟩

theorem trans (first : Does key core middle between) (second : Does key middle core' after) :
    Does key core core' after :=
  ⟨first.toSilent.trans second.toSilent, second.ends⟩

end Does

section

variable {core : Core} {key other : ExpertKey} {change : Entry → Entry}

/-- The journal, the queue and what is published of this entry are outside. -/
theorem outside_keeps {journal : Journal} {hostPrepareQueue published : List ExpertKey}
    (hpublished : ∀ other, other ≠ key → (other ∈ published ↔ other ∈ core.published)) :
    Keeps key core { core with journal, hostPrepareQueue, published } :=
  { Keeps.refl with
    clean := fun h => ⟨h.fault, h.transitions⟩
    published := hpublished }

theorem journal_keeps {journal : Journal} : Keeps key core { core with journal } :=
  outside_keeps fun _ _ => Iff.rfl

@[simp] theorem keys_modify : (core.modify key change).entries.keys = core.entries.keys := rfl

theorem entry_modify_self (hkey : key ∈ core.entries.keys) :
    (core.modify key change).entry key = change (core.entry key) :=
  Table.get_modify_self hkey

@[simp] theorem entry_modify_ne (h : other ≠ key) :
    (core.modify key change).entry other = core.entry other :=
  Table.get_modify_ne h

section

variable (hkey : key ∈ core.entries.keys)
  (hhost : (change (core.entry key)).host = (core.entry key).host)

include hkey hhost

theorem modify_local :
    Local key core (core.modify key change) where
  keys := rfl
  others _ hother := entry_modify_ne hother
  indexed := Local.indexed_of_eq (fun _ hother => entry_modify_ne hother)
    (fun _ _ _ => Iff.rfl) (fun _ _ _ => Iff.rfl)
  staged h slot hused := by
    obtain ⟨owner, lease, howner, hslot⟩ := h slot hused
    by_cases heq : owner = key
    · subst heq
      exact ⟨owner, lease, by rw [entry_modify_self hkey, hhost, howner], hslot⟩
    · exact ⟨owner, lease, by rw [entry_modify_ne heq, howner], hslot⟩
  clean h := ⟨h.fault, h.transitions⟩
  published _ _ := Iff.rfl
  config := rfl
  directory := rfl
  shuttingDown := rfl
  shape := rfl
  pooled h := by
    refine h.congr rfl fun other => ?_
    by_cases heq : other = key
    · subst heq
      exact (congrArg Entry.host (entry_modify_self hkey)).trans hhost
    · exact congrArg Entry.host (entry_modify_ne heq)

theorem recount_keeps {counters : Counters} {published : List ExpertKey}
    (hpublished : ∀ other, other ≠ key → (other ∈ published ↔ other ∈ core.published))
    (hbalance : ∀ account, counters.balance account +
        (core.entry key).charge (core.partitionFor key) account =
      core.counters.balance account +
        (change (core.entry key)).charge (core.partitionFor key) account) :
    Keeps key core { core.modify key change with counters, published } where
  toLocal :=
    { modify_local hkey hhost with
      clean := fun h => ⟨h.fault, h.transitions⟩
      published := hpublished }
  drift account := drift_of_exchange hkey rfl rfl (fun _ hother => entry_modify_ne hother) (by
    show counters.balance account + _ = _ + ((core.modify key change).entry key).charge _ account
    rw [entry_modify_self hkey]
    exact hbalance account)

end

end

section

variable {core : Core} {key other : ExpertKey} {entry : Entry} {next : CacheState}

theorem modify_does {change : Entry → Entry} (h : core.HasEntry key entry)
    (hfootprint : (change entry).footprint = entry.footprint) :
    Does key core (core.modify key change) (change entry) := by
  obtain ⟨hkey, rfl⟩ := h
  have hself : (core.modify key change).entry key = change (core.entry key) :=
    entry_modify_self hkey
  refine ⟨⟨⟨modify_local hkey (congrArg Prod.fst hfootprint), fun account => ?_⟩, rfl, rfl, rfl⟩,
    hkey, hself⟩
  exact drift_of_charge_eq hkey rfl rfl (fun _ hother => entry_modify_ne hother) rfl
    (by rw [hself, Entry.charge_of_footprint hfootprint])

theorem refresh_silent : Silent key core (core.refreshTaskIndexesLocked key) :=
  { Silent.refl with
    indexed := Local.indexed_of_eq (fun _ _ => rfl)
      (fun other hother priority => by
        simp only [refreshTaskIndexesLocked]
        split_ifs <;> simp [hother])
      (fun other hother priority => by
        simp only [refreshTaskIndexesLocked]
        split_ifs <;> simp [hother])
    clean := fun h => ⟨h.fault, h.transitions⟩ }

theorem refresh_indexedAt : (core.refreshTaskIndexesLocked key).IndexedAt key := by
  intro priority
  constructor
  · show key ∈ (core.refreshTaskIndexesLocked key).readTaskKeys priority ↔
      (core.entry key).ReadReady priority
    simp only [refreshTaskIndexesLocked, Entry.ReadReady]
    split_ifs <;> grind [OrderedSet.mem_erase, OrderedSet.mem_insert]
  · show key ∈ (core.refreshTaskIndexesLocked key).uploadTaskKeys priority ↔
      (core.entry key).UploadReady priority
    simp only [refreshTaskIndexesLocked, Entry.UploadReady]
    split_ifs <;> grind [OrderedSet.mem_erase, OrderedSet.mem_insert, Entry.hasWaiters]

theorem reindexed_does {change : Entry → Entry} (h : core.HasEntry key entry)
    (hfootprint : (change entry).footprint = entry.footprint) :
    Does key core ((core.modify key change).refreshTaskIndexesLocked key) (change entry) :=
  have hmodified := modify_does h hfootprint
  ⟨hmodified.toSilent.trans refresh_silent, hmodified.ends.mem, hmodified.ends.entry⟩

section

variable (h : core.HasEntry key entry) (hvalid : validCacheTransition entry.state next)
include h hvalid

theorem transition_indexedAt : (core.transitionLocked key next).IndexedAt key := by
  simp only [transitionLocked, h.entry, hvalid, if_true]
  exact refresh_indexedAt

theorem transition_does : Does key core (core.transitionLocked key next) (entry.enter next) := by
  have hlogged : Does key core
      { core with transitions := core.transitions ++ [(entry.state, next)] } entry := by
    refine ⟨{ Silent.refl with clean := fun hclean => ⟨hclean.fault, ?_⟩ }, h.mem, h.entry⟩
    intro attempt hattempt
    rcases List.mem_append.1 hattempt with hold | hnew
    · exact hclean.transitions attempt hold
    · rw [List.mem_singleton.1 hnew]
      exact hvalid
  simp only [transitionLocked, h.entry, hvalid, if_true]
  exact hlogged.trans (reindexed_does hlogged.ends rfl)

end

end

/-! ## Reservations -/

section

variable {core : Core} {key : ExpertKey} {entry : Entry} {bytes : UInt64}
  {protectedClass resident retired : Bool} (h : core.HasEntry key entry)

include h

theorem reserveRam_does (hnone : entry.ramReserved = 0) :
    Does key core (core.reserveRamLocked key bytes protectedClass)
      (entry.reserveRam bytes protectedClass) := by
  obtain ⟨hkey, rfl⟩ := h
  refine ⟨⟨recount_keeps hkey rfl (fun _ _ => Iff.rfl) fun account => ?_, rfl, rfl, rfl⟩, hkey,
    @entry_modify_self core key (·.reserveRam bytes protectedClass) hkey⟩
  rcases account with _ | ⟨_ | _⟩ | partition | _ | ⟨_ | _⟩ | partition | _ | _ | _ <;>
    grind [Counters.balance, Entry.charge, Entry.referenced, Counters.chargeRam, Entry.reserveRam]

theorem releaseStaging_does :
    Does key core (core.releaseStagingLocked key) entry.releaseStaging := by
  obtain ⟨hkey, rfl⟩ := h
  have hothers : ∀ other, other ≠ key →
      (core.releaseStagingLocked key).entry other = core.entry other :=
    fun _ hother => entry_modify_ne hother
  have hself : (core.releaseStagingLocked key).entry key = (core.entry key).releaseStaging :=
    @entry_modify_self core key Entry.releaseStaging hkey
  refine ⟨⟨⟨⟨rfl, hothers, ?_, ?_, fun h => ⟨h.fault, h.transitions⟩, fun _ _ => Iff.rfl, rfl, rfl,
    rfl, ?_, ?_⟩, ?_⟩, rfl, rfl, rfl⟩, hkey, hself⟩
  · exact Local.indexed_of_eq hothers (fun _ _ _ => Iff.rfl) (fun _ _ _ => Iff.rfl)
  · intro h slot hused
    have hfreed := core.buffers.reset_slots hused
    obtain ⟨owner, lease, howner, hslot⟩ := h slot hfreed.1
    have hne : owner ≠ key := by
      rintro rfl
      exact hfreed.2 lease howner hslot
    exact ⟨owner, lease, by rw [hothers owner hne, howner], hslot⟩
  · exact FixedBufferPool.shape_reset
  · exact fun h => h.reset hkey rfl hothers (congrArg Entry.host hself)
  · intro account
    refine drift_of_charge_eq hkey rfl rfl hothers rfl ?_
    rw [hself]
    cases account <;> rfl

theorem releaseHost_does : Does key core (core.releaseHostLocked key) entry.releaseHost := by
  have hstaging := releaseStaging_does h
  obtain ⟨hkey, hstaged⟩ := hstaging.ends
  obtain rfl := h.entry
  have hreleased : Keeps key (core.releaseStagingLocked key) (core.releaseHostLocked key) := by
    refine recount_keeps hkey ?_ (fun _ _ => Iff.rfl) fun account => ?_
    · rw [hstaged]
      rfl
    · rw [hstaged]
      rcases account with _ | ⟨_ | _⟩ | partition | _ | ⟨_ | _⟩ | partition | _ | _ | _ <;>
        grind [Counters.balance, Entry.charge, Entry.referenced, Counters.dischargeRam,
          Entry.releaseHost, Entry.releaseStaging, releaseStagingLocked, modify, partitionFor]
  refine ⟨⟨hstaging.toKeeps.trans hreleased, rfl, rfl, rfl⟩, hkey, ?_⟩
  refine (@entry_modify_self _ key Entry.releaseHost hkey).trans ?_
  rw [hstaged]
  rfl

theorem releaseDevice_keeps (hfree : entry.referenced = false) :
    Keeps key core (core.releaseDeviceLocked key retired) := by
  obtain ⟨hkey, rfl⟩ := h
  refine recount_keeps hkey rfl (fun other hother => ?_) fun account => ?_
  · split_ifs <;> simp [hother]
  · rcases account with _ | ⟨_ | _⟩ | partition | _ | ⟨_ | _⟩ | partition | _ | _ | _ <;>
      grind [Counters.balance, Entry.charge, Entry.referenced, Counters.dischargeVram,
        Entry.releaseDevice]

/-- The directory does not see it, or has retired the device copy before. -/
theorem releaseDevice_does (hfree : entry.referenced = false)
    (hretired : entry.device = none ∨ retired = true) :
    Does key core (core.releaseDeviceLocked key retired) entry.releaseDevice := by
  have hkeeps := @releaseDevice_keeps _ _ _ retired h hfree
  obtain ⟨hkey, rfl⟩ := h
  refine ⟨⟨hkeeps, rfl, ?_, rfl⟩, hkey, @entry_modify_self core key Entry.releaseDevice hkey⟩
  rcases hretired with hnone | hretired
  · simp [releaseDeviceLocked, hnone]
  · simp [releaseDeviceLocked, hretired]

end

section

variable {core : Core} {key : ExpertKey} {bytes : UInt64} {resident : Bool}
  (hkey : key ∈ core.entries.keys)
include hkey

theorem entry_reserveVram :
    (core.reserveVramLocked key bytes resident).entry key =
      (core.entry key).reserveVram bytes resident :=
  @entry_modify_self core key (·.reserveVram bytes resident) hkey

theorem reserveVram_local :
    Local key core (core.reserveVramLocked key bytes resident) :=
  { modify_local hkey rfl with clean := fun h => ⟨h.fault, h.transitions⟩ }

theorem reserveVram_drift {account : Account} (hdevice : (core.entry key).device = none)
    (hclass : (core.entry key).vramReserved = 0 ∨ (core.entry key).vramResident = resident ∨
      account = .ram ∨ account = .vram ∨ account.referenced) :
    (core.reserveVramLocked key bytes resident).drift account = core.drift account := by
  refine drift_of_exchange hkey rfl rfl (reserveVram_local hkey).others ?_
  rw [entry_reserveVram hkey]
  rcases account with _ | ⟨_ | _⟩ | partition | _ | ⟨_ | _⟩ | partition | _ | _ | _ <;>
    grind [Counters.balance, Entry.charge, Entry.referenced, Account.referenced,
      Counters.chargeVram, Entry.reserveVram, reserveVramLocked]

theorem reserveAdmitted_spec {admitted : Option Bool} :
    Local key core (core.reserveAdmitted key bytes admitted) ∧
      (core.reserveAdmitted key bytes admitted).entry key =
        (core.entry key).reserveAdmitted bytes admitted ∧
      (core.reserveAdmitted key bytes admitted).journal = core.journal ∧
      (core.reserveAdmitted key bytes admitted).published = core.published ∧
      (core.reserveAdmitted key bytes admitted).hostPrepareQueue = core.hostPrepareQueue := by
  cases admitted with
  | none => exact ⟨.refl, rfl, rfl, rfl, rfl⟩
  | some resident => exact ⟨reserveVram_local hkey, entry_reserveVram hkey, rfl, rfl, rfl⟩

theorem entry_addReference :
    (core.addReferenceLocked key).entry key = (core.entry key).addReferences 1 :=
  @entry_modify_self core key (·.addReferences 1) hkey

theorem addReference_keeps : Keeps key core (core.addReferenceLocked key) := by
  refine recount_keeps hkey rfl (fun _ _ => Iff.rfl) fun account => ?_
  cases hdevice : (core.entry key).device <;>
    rcases account with _ | ⟨_ | _⟩ | partition | _ | ⟨_ | _⟩ | partition | _ | _ | _ <;>
    grind [Counters.balance, Entry.charge, Entry.referenced, Counters.addReferenced,
      Entry.addReferences]

theorem entry_removeReference :
    (core.removeReferenceLocked key).entry key = (core.entry key).removeReference :=
  @entry_modify_self core key Entry.removeReference hkey

theorem removeReference_keeps : Keeps key core (core.removeReferenceLocked key) := by
  refine recount_keeps hkey rfl (fun _ _ => Iff.rfl) fun account => ?_
  cases hdevice : (core.entry key).device <;>
    rcases account with _ | ⟨_ | _⟩ | partition | _ | ⟨_ | _⟩ | partition | _ | _ | _ <;>
    grind [Counters.balance, Entry.charge, Entry.referenced, Counters.removeReferenced,
      Entry.removeReference]

end

section

variable {core : Core} {key : ExpertKey} {journal : Journal}

variable {id : WaiterId} {grant : Option Grant}

section

variable (hkey : key ∈ core.entries.keys)

include hkey

theorem grantLease_keeps {grant : Grant} :
    Keeps key core (core.grantLease key id grant) :=
  (addReference_keeps hkey).trans journal_keeps

theorem fulfil_keeps :
    Keeps key core (core.fulfil key id grant) := by
  cases grant with
  | none => exact journal_keeps
  | some grant => exact (grantLease_keeps hkey).trans journal_keeps

theorem entry_fulfil :
    (core.fulfil key id grant).entry key =
      (core.entry key).addReferences grant.isSome.toNat := by
  cases grant with
  | none => rfl
  | some grant => exact entry_addReference hkey

end

theorem foldl_fulfil {α : Type} (name : α → WaiterId) (granted : α → Option Grant)
    (waiters : List α) (hkey : key ∈ core.entries.keys) :
    let fulfilled := waiters.foldl (fun core waiter =>
      core.fulfil key (name waiter) (granted waiter)) core
    Keeps key core fulfilled ∧
      fulfilled.entry key = (core.entry key).addReferences
        (waiters.filter fun waiter => (granted waiter).isSome).length ∧
      fulfilled.journal = core.journal.fulfilled key name granted waiters ∧
      fulfilled.published = core.published ∧
      fulfilled.hostPrepareQueue = core.hostPrepareQueue := by
  induction waiters generalizing core with
  | nil => exact ⟨.refl, rfl, by simp [Journal.fulfilled], rfl, rfl⟩
  | cons waiter rest ih =>
    have hstep : Keeps key core (core.fulfil key (name waiter) (granted waiter)) :=
      fulfil_keeps hkey
    have hkey' : key ∈ (core.fulfil key (name waiter) (granted waiter)).entries.keys :=
      hstep.keys ▸ hkey
    obtain ⟨hkeeps, hentry, hjournal, hpublished, hqueue⟩ := ih hkey'
    refine ⟨hstep.trans hkeeps, ?_, ?_, ?_, ?_⟩
    · rw [List.foldl_cons, hentry, entry_fulfil hkey]
      cases hgrant : granted waiter <;> simp [hgrant, Entry.addReferences]
      omega
    · rw [List.foldl_cons, hjournal]
      cases hgrant : granted waiter <;>
        simp [hgrant, fulfil, answer, answerAll, grantLease, Journal.fulfilled, Journal.answered,
          Journal.leased, addReferenceLocked, modify]
    · rw [List.foldl_cons, hpublished]
      cases hgrant : granted waiter <;> rfl
    · rw [List.foldl_cons, hqueue]
      cases hgrant : granted waiter <;> rfl

end

end Core

end QuantumLlm.Runtime
