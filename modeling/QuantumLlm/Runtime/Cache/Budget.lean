import QuantumLlm.Runtime.Cache.Invariants

/-!
# Expert cache: tier budgets

While the watermarks are below half the range of a counter, no tier outgrows its
watermark. Classes and partitions keep to their limits as well, as long as no read takes
up a reservation that an earlier one left in another class.
-/

namespace QuantumLlm.Runtime

namespace Core

variable {core core' : Core} {key : ExpertKey}

/-- What the allocations of the device copies take. -/
def deviceCopyBytes (core : Core) : Nat :=
  core.entries.sum fun _ entry => entry.device.elim 0 (·.bytes.toNat)

theorem deviceCopyBytes_le (hsound : core.Sound) : core.deviceCopyBytes ≤ core.load .vram := by
  refine Table.sum_le_sum fun key _ => ?_
  cases hdevice : (core.entries.get key).device with
  | none => exact Nat.zero_le _
  | some allocation =>
    have hfits := (hsound.ok key).device_fits allocation hdevice
    exact hfits

theorem Classed.ringless (h : core.Classed) (hring : core.config.placement.vramTransientBytes = 0) :
    (core.entry key).vramReserved = 0 ∨ (core.entry key).vramResident = true := by
  have hload := h.classes false
  have hlimit : (core.config.vramClassLimit false).toNat = 0 := congrArg UInt64.toNat hring
  rw [hlimit, Nat.le_zero] at hload
  by_cases hkey : key ∈ core.entries.keys
  · have hcharge := Table.sum_eq_zero_iff.1 hload key hkey
    cases hresident : (core.entry key).vramResident with
    | true => exact Or.inr rfl
    | false =>
      left
      simp only [Entry.charge] at hcharge
      rw [if_pos hresident] at hcharge
      exact UInt64.toNat_inj.1 hcharge
  · left
    rw [entry_of_not_mem hkey]

/-- No pending read still holds device memory, unless there is only one class of it. -/
def Unclaimed (core : Core) : Prop :=
  core.config.placement.vramTransientBytes = 0 ∨ ∀ key, (core.entry key).state = .absent →
    (core.entry key).hasWaiters → (core.entry key).vramReserved = 0

theorem Starts.level {start : Core} {lease : PoolLease} {admitted : Option Bool}
    (h : Starts start core key lease admitted) (hsound : core.Sound) (hclassed : core.Classed)
    (hunclaimed : start.Unclaimed) (account : Account) :
    (Move.startLoad lease admitted).Level (core.entry key) account := by
  cases hadmitted : admitted with
  | none => exact True.intro
  | some resident =>
    rcases hunclaimed with hring | hfree
    · rw [← h.config] at hring
      rcases @Classed.ringless _ key hclassed hring with hzero | hresident
      · exact Or.inl hzero
      · rcases h.ring hring resident hadmitted with rfl | hempty
        · exact Or.inr (Or.inl hresident)
        · left
          by_contra hreserved
          exact (hsound.ok key).sized hreserved hempty
    · left
      rw [h.reserved]
      exact hfree key h.pending.1 h.pending.2

end Core

namespace CacheSystem

variable {sha256 : List UInt8 → Sha256Digest} {system start : CacheSystem}
  {config : ExpertCacheConfig} {directory : Option Directory} {slotCount : Nat}
  {slotBytes alignment : UInt64} {reservedDemandSlots : Nat}

/-- Every budget that a run configures has a small watermark. -/
def SmallBudgets (_ : CacheSystem) : Action → Prop
  | .configureVramBudget budget _ => budget.highWatermarkBytes.toNat < 2 ^ 63
  | _ => True

theorem boot_drift (account : Account) (hboot : boot config directory slotCount slotBytes
      alignment reservedDemandSlots = some start) : start.core.drift account = 0 := by
  obtain ⟨buffers, -, -, rfl⟩ := boot_eq hboot
  have hbalance : Counters.balance {} account = 0 := by
    rcases account with _ | ⟨_ | _⟩ | partition | _ | ⟨_ | _⟩ | partition | _ | _ | _ <;> rfl
  show Counters.balance {} account - 0 = 0
  rw [hbalance, sub_zero]

theorem boot_budgeted (hboot : boot config directory slotCount slotBytes alignment
      reservedDemandSlots = some start) (hsmall : config.Small) : start.core.Budgeted := by
  have hdrift := fun account => boot_drift account hboot
  obtain ⟨buffers, -, -, rfl⟩ := boot_eq hboot
  exact ⟨⟨hdrift .ram, hdrift .vram⟩, hsmall, Nat.zero_le _, Nat.zero_le _⟩

variable {allowed : CacheSystem → Action → Prop}

theorem level_of_reaches
    (hboot : boot config directory slotCount slotBytes alignment reservedDemandSlots = some start)
    (hreach : Reaches (step sha256) allowed start system) :
    system.core.drift .ram = 0 ∧ system.core.drift .vram = 0 := by
  refine @holds_of_reaches sha256 _ _ allowed
    (fun core => core.drift .ram = 0 ∧ core.drift .vram = 0)
    (fun _ _ _ hacts hbefore => ?_) hreach (boot_sound hboot)
    ⟨boot_drift .ram hboot, boot_drift .vram hboot⟩
  exact ⟨(hacts.drift fun _ _ _ => Core.level_total (Or.inl rfl)).trans hbefore.1,
    (hacts.drift fun _ _ _ => Core.level_total (Or.inr rfl)).trans hbefore.2⟩

theorem placed_of_valid {buffers : FixedBufferPool} (hvalid : validConfig config buffers) :
    config.placement.vramTransientBytes ≤ config.vram.highWatermarkBytes ∧
      config.placement.ramSharedBurstBytes ≤ config.ram.highWatermarkBytes := by
  simp only [validConfig, Bool.and_eq_true, decide_eq_true_eq] at hvalid
  exact ⟨UInt64.le_of_lt hvalid.1.2, UInt64.le_of_lt hvalid.1.1.1.2⟩

section

variable
  (hboot : boot config directory slotCount slotBytes alignment reservedDemandSlots = some start)
  (hsmall : config.Small)

include hboot hsmall

theorem boot_classed : start.core.Classed := by
  have hbudget := boot_budgeted hboot hsmall
  have hdrift := fun account => boot_drift account hboot
  obtain ⟨buffers, -, hvalid, rfl⟩ := boot_eq hboot
  exact ⟨hbudget, fun account _ => hdrift account, placed_of_valid hvalid, fun _ => Nat.zero_le _,
    fun _ _ => Nat.zero_le _⟩

theorem budgeted_of_reaches
    (hreach : Reaches (step sha256) SmallBudgets start system) : system.core.Budgeted := by
  refine holds_of_reaches (fun {system action core core' act} hallowed hsound hpermits hacts
    hbudget => ?_) hreach (boot_sound hboot) (boot_budgeted hboot hsmall)
  refine hacts.budgeted hsound (fun budget transientBytes hact => ?_) hbudget
  subst hact
  obtain rfl : action = .configureVramBudget budget transientBytes := hpermits
  exact hallowed

end

/-- Reads that find a reservation left in another class are not selected. -/
def KeepsClasses (system : CacheSystem) (action : Action) : Prop :=
  SmallBudgets system action ∧ (action = .nextTask → system.core.Unclaimed)

/-- A test for it, for a device without a ring whose budget stays. -/
def keepsClasses (system : CacheSystem) : Action → Bool
  | .configureVramBudget _ _ => false
  | .nextTask => decide (system.core.config.placement.vramTransientBytes = 0)
  | _ => true

theorem keepsClasses_spec {system : CacheSystem} {action : Action}
    (h : keepsClasses system action = true) : KeepsClasses system action := by
  cases action with
  | configureVramBudget budget transientBytes => cases h
  | nextTask => exact ⟨True.intro, fun _ => Or.inl (of_decide_eq_true h)⟩
  | _ => exact ⟨True.intro, fun hnext => by cases hnext⟩

theorem classed_of_reaches (hboot : boot config directory slotCount slotBytes alignment
      reservedDemandSlots = some start) (hsmall : config.Small)
    (hreach : Reaches (step sha256) KeepsClasses start system) : system.core.Classed := by
  refine @Reaches.invariant _ _ _ _ _ _ (fun system : CacheSystem => system.core.Classed) hreach
    (boot_classed hboot hsmall) fun {before after action} hreach hbefore hallowed hstep => ?_
  have hstart := Sound.of_reaches hreach (boot_sound hboot)
  refine step_keeps (fun {core core' act} hsound hpermits hacts hclassed => ?_) hstart hbefore hstep
  refine hacts.classed hsound (fun budget transientBytes hact => ?_) (fun key move hact => ?_) hclassed
  · subst hact
    obtain rfl : action = .configureVramBudget budget transientBytes := hpermits
    exact hallowed.1
  · subst hact
    cases move with
    | startLoad lease admitted =>
      obtain ⟨haction, hstarts⟩ := hpermits
      exact ⟨hstarts.rooms hstart.core hbefore, fun account _ =>
        hstarts.level hsound hclassed (hallowed.2 haction) account⟩
    | startUpload reserved => exact ⟨hpermits hstart.core hbefore, fun _ _ => True.intro⟩
    | _ => exact Core.rooms_of_frees rfl (by simp)

/-- Neither tier exceeds its watermark, and the device copies are paid for. -/
theorem tiers_within_budget (hboot : boot config directory slotCount slotBytes alignment
      reservedDemandSlots = some start) (hsmall : config.Small)
    (hreach : Reaches (step sha256) SmallBudgets start system) :
    system.core.counters.ramBytes ≤ system.core.config.ram.highWatermarkBytes ∧
      system.core.counters.vramBytes ≤ system.core.config.vram.highWatermarkBytes ∧
      system.core.deviceCopyBytes ≤ system.core.counters.vramBytes.toNat := by
  have hbudget := budgeted_of_reaches hboot hsmall hreach
  have hsound := (Sound.of_reaches hreach (boot_sound hboot)).core
  refine ⟨?_, ?_, ?_⟩
  · rw [UInt64.le_iff_toNat_le, hbudget.ramBytes]
    exact hbudget.ram
  · rw [UInt64.le_iff_toNat_le, hbudget.vramBytes]
    exact hbudget.vram
  · rw [hbudget.vramBytes]
    exact Core.deviceCopyBytes_le hsound

/-- Room for four records in either tier. -/
def smallConfig : ExpertCacheConfig where
  ram := ⟨16384, 16384, 8192⟩
  vram := ⟨16384, 16384, 8192⟩

def bootSmall (directory : Option Directory) : CacheSystem :=
  { core := { config := smallConfig, directory, buffers := ⟨[false, false], 4096, 4096, 1, 0, 0⟩ } }

/-- Selects a read, and takes it through storage and the host worker. -/
def loadRelu2 : List Action :=
  [.nextTask, .startRead relu2Key 1, .recordRead ⟨1, relu2Key⟩,
    .readComplete ⟨1, relu2Key⟩ ⟨Status.success, 4096, 4096⟩, .popPreparation,
    .validate relu2Record, .checkPreparation, .copyRecord true, .finishPreparation]

/-- Selects an upload, and completes it. -/
def uploadRelu2 : List Action :=
  [.nextTask, .startUpload relu2Key 2, .recordUpload ⟨2, relu2Key⟩,
    .uploadComplete ⟨2, relu2Key⟩ ⟨Status.success, some ⟨7, 4096⟩, 4096⟩ Status.success]

theorem bootSmall_eq (directory : Option Directory) :
    boot smallConfig directory 2 4096 4096 1 = some (bootSmall directory) := by
  cases directory <;> rfl

theorem reaches_of_small {check : CacheSystem → Action → Bool} {expected : CacheSystem → Bool}
     {actions : List Action}
    (hcheck : ∀ system action, check system action = true → allowed system action)
    (h : (runChecked (step fun _ => zeroDigest) check (bootSmall directory) actions).any
      expected = true) : ∃ system,
      Reaches (step fun _ => zeroDigest) allowed (bootSmall directory) system ∧
        expected system = true := by
  rw [Option.any_eq_true] at h
  obtain ⟨system, hrun, hexpected⟩ := h
  exact ⟨system, Reaches.of_runChecked hcheck hrun, hexpected⟩

/-- A loaded and uploaded record is paid for in both tiers. -/
theorem small_cache_within_budget : ∃ system : CacheSystem,
    (system.core.counters.ramBytes = 4096 ∧ system.core.counters.vramBytes = 4096) ∧
      system.core.counters.ramBytes ≤ system.core.config.ram.highWatermarkBytes ∧
      system.core.counters.vramBytes ≤ system.core.config.vram.highWatermarkBytes ∧
      system.core.deviceCopyBytes ≤ system.core.counters.vramBytes.toNat := by
  let expected (system : CacheSystem) : Bool :=
    decide (system.core.counters.ramBytes = 4096 ∧ system.core.counters.vramBytes = 4096)
  let check (_ : CacheSystem) : Action → Bool
    | .configureVramBudget budget _ => decide (budget.highWatermarkBytes.toNat < 2 ^ 63)
    | _ => true
  have hrun : (runChecked (step fun _ => zeroDigest) check (bootSmall none)
      ([.acquire relu2Key relu2Manifest {} 1] ++ loadRelu2 ++ uploadRelu2)).any expected = true := by
    decide +kernel
  have hcheck : ∀ system action, check system action = true → SmallBudgets system action := by
    intro system action hpassed
    cases action with
    | configureVramBudget budget transientBytes =>
      have hbudget : budget.highWatermarkBytes.toNat < 2 ^ 63 := of_decide_eq_true hpassed
      exact hbudget
    | _ => exact True.intro
  obtain ⟨system, hreach, hexpected⟩ := reaches_of_small hcheck hrun
  exact ⟨system, of_decide_eq_true hexpected,
    tiers_within_budget (bootSmall_eq none) (by decide) hreach⟩

end CacheSystem

end QuantumLlm.Runtime
