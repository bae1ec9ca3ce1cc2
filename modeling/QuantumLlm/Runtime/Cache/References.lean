import QuantumLlm.Runtime.Cache.Budget

/-!
# Expert cache: referenced device copies

The counters of the referenced device copies follow the first and the last reference of a
copy. They are exact as long as no copy arrives under a reference that somebody already
holds to the entry.
-/

namespace QuantumLlm.Runtime

namespace Entry

variable {entry : Entry} {config : ExpertCacheConfig}

theorem device_abandonedIfIdle : entry.abandonedIfIdle.device = entry.device := by
  unfold abandonedIfIdle
  split_ifs
  · rfl
  · exact Core.device_unstage
  · rfl

theorem device_settled : entry.settled.device = entry.device := by
  simp only [settled, hostSatisfied]
  split_ifs <;> first | exact Core.device_unstage | rfl

theorem device_moved {move : Move} {allocation : DeviceAllocation}
    (h : (entry.moved config move).device = some allocation) :
    move = .finishUpload allocation ∨ entry.device = some allocation := by
  cases move with
  | evict needRam needVram =>
    rw [moved, (@evicted_taken entry needRam needVram).device] at h
    split at h
    next => cases h
    next => exact Or.inr h
  | withdraw id =>
    rw [moved, device_abandonedIfIdle] at h
    exact Or.inr h
  | withdrawHost id =>
    rw [moved, device_abandonedIfIdle] at h
    exact Or.inr h
  | startLoad lease admitted => cases admitted <;> exact Or.inr h
  | startUpload reserved => cases reserved <;> exact Or.inr h
  | settle =>
    rw [moved, device_settled] at h
    exact Or.inr h
  | abandonUpload =>
    rw [moved, uploadAbandoned, Core.device_unstage] at h
    cases h
  | finishUpload arrived =>
    have harrived : (entry.moved config (.finishUpload arrived)).device = some arrived := by
      simp only [moved, uploaded, releaseUploadSource]
      split <;> rfl
    rw [harrived] at h
    cases h
    exact Or.inl rfl
  | fail status => cases h
  | abandonLoad => cases h
  | _ => exact Or.inr h

end Entry

namespace Core

variable {core core' : Core} {key : ExpertKey} {act : Act}

/-- No device copy is empty. -/
def Filled (core : Core) : Prop :=
  ∀ key allocation, (core.entry key).device = some allocation → allocation.bytes ≠ 0

theorem Acts.filled (h : Acts core core' act)
    (harrives : ∀ key allocation, act = .move key (.finishUpload allocation) →
      allocation.bytes ≠ 0)
    (hfilled : core.Filled) : core'.Filled := by
  intro key allocation hdevice
  rcases h.entry_cases key with hbody | ⟨move, rfl, -, hentry⟩ | ⟨record, -, -, -, hentry⟩
  · rw [Entry.field_of_body Entry.device hbody] at hdevice
    exact hfilled key allocation hdevice
  · rw [hentry] at hdevice
    rcases Entry.device_moved hdevice with rfl | hbefore
    · exact harrives key allocation rfl
    · exact hfilled key allocation hbefore
  · rw [hentry] at hdevice
    cases hdevice

theorem bytes_of_accepted {entry : Entry} {result : UploadResult} {allocation : DeviceAllocation}
    (h : acceptedAllocation entry result = some allocation) : allocation.bytes ≠ 0 := by
  unfold acceptedAllocation at h
  split at h
  next => cases h
  next =>
    split at h
    next => cases h
    next hfits =>
      cases h
      simp only [Bool.or_eq_true, not_or, decide_eq_true_eq] at hfits
      obtain ⟨⟨⟨-, hbytes⟩, hsame⟩, -⟩ := hfits
      intro hzero
      exact hbytes ((not_not.1 hsame).trans hzero)

/-- The counters of the referenced device copies say what they are for. -/
structure ReferencesCounted (core : Core) : Prop where
  entries : core.counters.vramReferencedEntries.toNat =
    core.entries.sum fun _ entry => if entry.referenced then 1 else 0
  bytes : core.counters.vramReferencedBytes.toNat =
    core.entries.sum fun _ entry => if entry.referenced then entry.vramReserved.toNat else 0
  transientBytes : core.counters.vramTransientReferencedBytes.toNat =
    core.entries.sum fun _ entry =>
      if entry.referenced ∧ entry.vramResident = false then entry.vramReserved.toNat else 0

/-- What the last reference to a copy, or its promotion, takes off a counter is there. -/
def ReferencesCovered (core : Core) : Prop :=
  ∀ key, (core.entry key).referenced →
    1 ≤ core.counters.vramReferencedEntries ∧
      (core.entry key).vramReserved ≤ core.counters.vramReferencedBytes ∧
      ((core.entry key).vramResident = false →
        (core.entry key).vramReserved ≤ core.counters.vramTransientReferencedBytes)

/-- The invariant of the runs in which no copy arrives under a reference. -/
structure Counted (core : Core) : Prop where
  budgeted : core.Budgeted
  filled : core.Filled
  level : ∀ account, account.referenced → core.drift account = 0

theorem load_referenced {account : Account} (haccount : account.referenced)
    (hsound : core.Sound) (hfilled : core.Filled) : core.load account ≤ core.load .vram := by
  refine Table.sum_le_sum fun key _ => ?_
  have hpaid : (core.entry key).referenced → 1 ≤ (core.entry key).vramReserved.toNat := by
    intro hreferenced
    rw [Entry.referenced, Bool.and_eq_true] at hreferenced
    obtain ⟨allocation, hdevice⟩ := Option.isSome_iff_exists.1 hreferenced.2
    have hbytes := hfilled key allocation hdevice
    have hfits := (hsound.ok key).device_fits allocation hdevice
    rw [UInt64.le_iff_toNat_le] at hfits
    rw [Ne, ← UInt64.toNat_inj, UInt64.toNat_zero] at hbytes
    omega
  cases account with
  | referencedEntries =>
    simp only [Entry.charge]
    split
    next hreferenced => exact hpaid hreferenced
    next => exact Nat.zero_le _
  | referencedBytes =>
    simp only [Entry.charge]
    split
    next => exact Nat.le_refl _
    next => exact Nat.zero_le _
  | referencedTransientBytes =>
    simp only [Entry.charge]
    split
    next => exact Nat.le_refl _
    next => exact Nat.zero_le _
  | _ => cases haccount

namespace Counted

variable (h : core.Counted) (hsound : core.Sound)
include h hsound

theorem balance (account : Account) (haccount : account.referenced) :
    (core.counters.balance account).toNat = core.load account := by
  refine balance_eq_load (h.level account haccount) ?_
  have := load_referenced haccount hsound h.filled
  have := h.budgeted.vram
  have := h.budgeted.small.2
  omega

theorem counted : core.ReferencesCounted where
  entries := by
    refine (h.balance hsound .referencedEntries rfl).trans ?_
    refine Table.sum_congr rfl fun key _ => ?_
    simp only [Entry.charge]
    split <;> rfl
  bytes := by
    refine (h.balance hsound .referencedBytes rfl).trans ?_
    refine Table.sum_congr rfl fun key _ => ?_
    simp only [Entry.charge]
    split <;> rfl
  transientBytes := by
    refine (h.balance hsound .referencedTransientBytes rfl).trans ?_
    refine Table.sum_congr rfl fun key _ => ?_
    simp only [Entry.charge]
    split <;> rfl

theorem charge_le (account : Account) (haccount : account.referenced)
    (hkey : key ∈ core.entries.keys) :
    (core.entry key).charge (core.partitionFor key) account ≤ core.counters.balance account := by
  rw [UInt64.le_iff_toNat_le, h.balance hsound account haccount]
  let weight (key : ExpertKey) (entry : Entry) : Nat :=
    (entry.charge (core.partitionFor key) account).toNat
  have hle : weight key (core.entry key) ≤ core.entries.sum weight := Table.le_sum hkey
  exact hle

theorem covered : core.ReferencesCovered := by
  intro key hreferenced
  have hkey : key ∈ core.entries.keys := by
    by_contra hnone
    rw [entry, core.entries.get_of_not_mem key hnone] at hreferenced
    cases hreferenced
  have hentries := h.charge_le hsound .referencedEntries rfl hkey
  have hbytes := h.charge_le hsound .referencedBytes rfl hkey
  have htransient := h.charge_le hsound .referencedTransientBytes rfl hkey
  simp only [Entry.charge, hreferenced, if_true, true_and] at hentries hbytes htransient
  refine ⟨hentries, hbytes, fun hclass => ?_⟩
  rw [if_pos hclass] at htransient
  exact htransient

end Counted

end Core

namespace CacheSystem

variable {sha256 : List UInt8 → Sha256Digest} {system start : CacheSystem} {action : Action}
  {config : ExpertCacheConfig} {directory : Option Directory} {slotCount : Nat}
  {slotBytes alignment : UInt64} {reservedDemandSlots : Nat}

/-- No upload hands its allocation to an entry that somebody already holds. -/
def ArrivesUnheld (system : CacheSystem) : Action → Prop
  | .uploadComplete operation result published =>
    ∀ allocation, system.core.Lands operation.key result published allocation →
      (system.core.entry operation.key).references = 0
  | _ => True

theorem counted_of_acts {core core' : Core} {act : Core.Act}
    (hsmall : SmallBudgets system action) (hunheld : ArrivesUnheld system action)
    (hsound : core.Sound) (hpermits : Core.Permits system action core act)
    (hacts : Core.Acts core core' act) (h : core.Counted) : core'.Counted := by
  refine ⟨hacts.budgeted hsound (fun budget transientBytes hact => ?_) h.budgeted,
    hacts.filled (fun key allocation hact => ?_) h.filled, fun account haccount => ?_⟩
  · subst hact
    obtain rfl : action = .configureVramBudget budget transientBytes := hpermits
    exact hsmall
  · subst hact
    obtain ⟨operation, result, published, -, -, ⟨-, -, haccepted, -⟩, -⟩ := hpermits
    exact Core.bytes_of_accepted haccepted
  · rw [hacts.drift fun key move hact => ?_, h.level account haccount]
    subst hact
    cases move with
    | startLoad lease admitted =>
      cases admitted with
      | none => exact True.intro
      | some resident => exact Or.inr (Or.inr (Or.inr (Or.inr haccount)))
    | finishUpload allocation =>
      obtain ⟨operation, result, published, rfl, rfl, hlands, hreferences⟩ := hpermits
      exact Or.inl (hreferences.trans (hunheld allocation hlands))
    | _ => exact True.intro

theorem boot_counted (hboot : boot config directory slotCount slotBytes alignment
      reservedDemandSlots = some start) (hsmall : config.Small) : start.core.Counted := by
  refine ⟨boot_budgeted hboot hsmall, fun key allocation hdevice => ?_,
    fun account _ => boot_drift account hboot⟩
  obtain ⟨buffers, -, -, rfl⟩ := boot_eq hboot
  cases hdevice

/-- While no upload finishes for an entry that is already referenced, the counters of the
referenced device copies are exact in every state, and nothing is taken off them that is not
there, also between the acts of a step. -/
theorem references_counted (hboot : boot config directory slotCount slotBytes alignment
      reservedDemandSlots = some start) (hsmall : config.Small)
    (hreach : Reaches (step sha256) (fun system action =>
      SmallBudgets system action ∧ ArrivesUnheld system action) start system) :
    (system.core.ReferencesCounted ∧ system.core.ReferencesCovered) ∧
      ∀ action core, SmallBudgets system action → ArrivesUnheld system action →
        Core.Trace (Core.Permits system action) system.core core →
        core.ReferencesCounted ∧ core.ReferencesCovered := by
  have hcounted : system.core.Counted :=
    holds_of_reaches (fun hallowed => counted_of_acts hallowed.1 hallowed.2) hreach
      (boot_sound hboot) (boot_counted hboot hsmall)
  have hsound := (Sound.of_reaches hreach (boot_sound hboot)).core
  refine ⟨⟨hcounted.counted hsound, hcounted.covered hsound⟩, fun action core hbudget hunheld
    htrace => ?_⟩
  have hboth := @Core.Trace.lift _ _ _ (fun core => core.Sound ∧ core.Counted) htrace
    (fun hpermits hacts hbefore => ⟨hacts.sound hbefore.1,
      counted_of_acts hbudget hunheld hbefore.1 hpermits hacts hbefore.2⟩) ⟨hsound, hcounted⟩
  exact ⟨hboth.2.counted hboth.1, hboth.2.covered hboth.1⟩

/-- One lease on a copy that was uploaded for it. -/
theorem uploaded_copy_counted : ∃ system : CacheSystem,
    system.core.counters.vramReferencedBytes = 4096 ∧ system.core.ReferencesCounted ∧
      system.core.ReferencesCovered := by
  let check (system : CacheSystem) : Action → Bool
    | .configureVramBudget _ _ => false
    | .uploadComplete operation _ _ => decide ((system.core.entry operation.key).references = 0)
    | _ => true
  have hrun : (runChecked (step fun _ => zeroDigest) check (bootSmall none)
      ([.acquire relu2Key relu2Manifest {} 1] ++ loadRelu2 ++ uploadRelu2)).any
      (fun system => decide (system.core.counters.vramReferencedBytes = 4096)) = true := by
    decide +kernel
  have hcheck : ∀ system action, check system action = true →
      SmallBudgets system action ∧ ArrivesUnheld system action := by
    intro system action hpassed
    cases action with
    | configureVramBudget budget transientBytes => cases hpassed
    | uploadComplete operation result published =>
      have hunheld : (system.core.entry operation.key).references = 0 := of_decide_eq_true hpassed
      exact ⟨True.intro, fun _ _ => hunheld⟩
    | _ => exact ⟨True.intro, True.intro⟩
  obtain ⟨system, hreach, hexpected⟩ := reaches_of_small hcheck hrun
  exact ⟨system, of_decide_eq_true hexpected,
    (references_counted (bootSmall_eq none) (by decide) hreach).1⟩

/-- One lease is held, and giving it back takes off a count that was never made. -/
def lastReturnWraps (held : CacheSystem) : Bool :=
  match held.core.journal.leases with
  | [lease] => decide (held.stuck = false ∧
      (held.core.returnLease lease).counters.vramReferencedEntries = 0xffffffffffffffff ∧
        (held.core.returnLease lease).entries.sum
          (fun _ entry => if entry.referenced then 1 else 0) = 0)
  | _ => false

/-- A copy that arrives under the lease of a preload is never counted, but its last reference
is taken off. -/
theorem preloaded_copy_not_counted : ∃ system : CacheSystem,
    Reaches (step fun _ => zeroDigest) (fun _ _ => True) (bootSmall none) system ∧
      system.core.counters.vramReferencedEntries = 0xffffffffffffffff ∧
      ¬system.core.ReferencesCounted := by
  have hrun : (runChecked (step fun _ => zeroDigest) (fun _ _ => true) (bootSmall none)
      ([.preloadHost relu2Key relu2Manifest { acquireLease := true } 1] ++ loadRelu2 ++
        [.acquire relu2Key relu2Manifest {} 2] ++ uploadRelu2 ++ [.dropHandle 2])).any
      lastReturnWraps = true := by
    decide +kernel
  obtain ⟨held, hreach, hexpected⟩ := reaches_of_small (fun _ _ _ => True.intro) hrun
  rw [lastReturnWraps] at hexpected
  split at hexpected
  next lease hleases =>
    obtain ⟨hstuck, hwrapped, hnone⟩ := of_decide_eq_true hexpected
    have hstep : step (fun _ => zeroDigest) held (.releaseLease lease) =
        some (held.onCore (·.returnLease lease)) := by
      simp [step, clientStep, hstuck, hleases]
    refine ⟨_, hreach.next True.intro hstep, hwrapped, fun hcounted => ?_⟩
    have hentries := hcounted.entries
    rw [show (held.onCore (·.returnLease lease)).core = held.core.returnLease lease from rfl,
      hwrapped, hnone] at hentries
    cases hentries
  next => cases hexpected

end CacheSystem

end QuantumLlm.Runtime
