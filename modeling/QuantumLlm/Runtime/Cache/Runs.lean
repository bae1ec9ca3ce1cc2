import QuantumLlm.Runtime.Cache.Priorities

/-!
# Expert cache: what holds in every run

A run is any order of lock sections after a constructor that succeeded. The task indexes, the
work under way, the resources of the entries, the staging slots and the counters agree with each
other in every state that a run reaches.
-/

namespace QuantumLlm.Runtime

structure CacheRun (sha256 : List UInt8 → Sha256Digest) where
  config : ExpertCacheConfig
  directory : Option Directory
  slotCount : Nat
  slotBytes : UInt64
  alignment : UInt64
  reservedDemandSlots : Nat
  start : CacheSystem
  final : CacheSystem
  booted : CacheSystem.boot config directory slotCount slotBytes alignment reservedDemandSlots =
    some start
  reaches : Reaches (CacheSystem.step sha256) (fun _ _ => True) start final

namespace CacheRun

variable {sha256 : List UInt8 → Sha256Digest} (run : CacheRun sha256)

abbrev core : Core := run.final.core

abbrev entry (key : ExpertKey) : Entry := run.core.entry key

theorem sound : run.final.Sound := .of_reaches run.reaches (CacheSystem.boot_sound run.booted)

theorem pooled : Pooled run.core.entries run.core.buffers :=
  CacheSystem.holds_of_reaches (fun _ _ _ hacts hbefore => hacts.pooled hbefore) run.reaches
    (CacheSystem.boot_sound run.booted) (CacheSystem.boot_pooled run.booted).1

/-- The task indexes list exactly the entries that can be started, each under the priority of its
waiters. -/
theorem tasks_indexed (key : ExpertKey) (priority : ExpertRequestPriority) :
    (key ∈ run.core.readTaskKeys priority ↔ (run.entry key).ReadReady priority) ∧
      (key ∈ run.core.uploadTaskKeys priority ↔ (run.entry key).UploadReady priority) ∧
      (key ∈ run.core.readTaskKeys priority ∨ key ∈ run.core.uploadTaskKeys priority →
        key ∈ run.core.entries.keys) := by
  have hsound := run.sound.core
  obtain ⟨hread, hupload⟩ := hsound.indexed key priority
  refine ⟨hread, hupload, ?_⟩
  rintro (hmem | hmem)
  · exact hsound.mem_of_read hmem
  · exact hsound.mem_of_upload hmem

/-- A loading entry has one read and an uploading one has one upload. Each preparation is queued or
runs once, until a shutdown gives it up. -/
theorem work_in_flight (key : ExpertKey) :
    run.final.loads key = (if (run.entry key).phase = .loading then 1 else 0) ∧
      run.final.sends key = (if (run.entry key).phase = .uploading then 1 else 0) ∧
      run.final.preparations key ≤ (if (run.entry key).phase = .preparing then 1 else 0) ∧
      (run.core.shuttingDown = false → run.final.preparations key =
        if (run.entry key).phase = .preparing then 1 else 0) :=
  ⟨run.sound.loads key, run.sound.sends key, run.sound.preparations key,
    fun hrunning => run.sound.running hrunning key⟩

/-- No section throws, and every transition that one attempts is legal. -/
theorem transitions_legal : run.core.fault = none ∧
    ∀ attempt ∈ run.core.transitions, validCacheTransition attempt.1 attempt.2 :=
  ⟨run.sound.core.clean.fault, run.sound.core.clean.transitions⟩

/-- What an entry holds is justified by its state. -/
theorem resources_justified (key : ExpertKey) : EntryOk run.core.config (run.entry key) :=
  run.sound.core.ok key

/-- A used staging slot has one owner, which is loading or on its way to the device. Behind the
demand only so many slots are used that the reserve stays free. -/
theorem staging_owned :
    (∀ slot, run.core.buffers.slots.getD slot false = true →
      ∃ key lease, (run.entry key).host = some lease ∧ lease.slot = slot ∧
        ((run.entry key).state = .ssdLoading ∨ (run.entry key).state = .ramReady ∨
          (run.entry key).state = .gpuUploading) ∧
        ∀ other lease', (run.entry other).host = some lease' → lease'.slot = slot → other = key) ∧
      run.core.buffers.used = (run.core.entries.sum fun _ entry => entry.staging) ∧
      run.core.buffers.backgroundUsed ≤
        run.core.buffers.slots.length - run.core.buffers.reservedDemandSlots := by
  have hsound := run.sound.core
  have hpooled := run.pooled
  refine ⟨fun slot hused => ?_, hpooled.used.symm, hpooled.limit⟩
  obtain ⟨key, lease, hlease, hslot⟩ := hsound.staged slot hused
  refine ⟨key, lease, hlease, hslot, (hsound.ok key).staged (by simp [hlease]), ?_⟩
  intro other lease' hother hslot'
  exact hpooled.apart other key lease' lease hother hlease (hslot'.trans hslot.symm)

/-- The totals of both tiers are the sums over the entries. -/
theorem totals_exact : run.core.counters.ramBytes = run.core.total .ram ∧
    run.core.counters.vramBytes = run.core.total .vram := by
  obtain ⟨hram, hvram⟩ := CacheSystem.level_of_reaches run.booted run.reaches
  exact ⟨sub_eq_zero.1 hram, sub_eq_zero.1 hvram⟩

end CacheRun

namespace CacheSystem

variable {sha256 : List UInt8 → Sha256Digest} {system start : CacheSystem}
  {config : ExpertCacheConfig} {directory : Option Directory} {slotCount : Nat}
  {slotBytes alignment : UInt64} {reservedDemandSlots : Nat}

/-- Where no read takes up a reservation of another class, every counter but those of the
references is the sum of its charges, and every class and partition is within its limit. -/
theorem classes_within_limits (hboot : boot config directory slotCount slotBytes alignment
      reservedDemandSlots = some start) (hsmall : config.Small)
    (hreach : Reaches (step sha256) KeepsClasses start system) :
    (∀ account, account.referenced = false →
      system.core.counters.balance account = system.core.total account) ∧
    (∀ resident, system.core.load (.vramClass resident) ≤
      (system.core.config.vramClassLimit resident).toNat) ∧
    (system.core.config.placement.layerPartitionCount ≠ 1 → ∀ partition,
      system.core.load (.ramPartition partition) ≤ system.core.ramPartitionLimit.toNat) := by
  have hclassed := classed_of_reaches hboot hsmall hreach
  exact ⟨fun account hplain => sub_eq_zero.1 (hclassed.levels account hplain), hclassed.classes,
    hclassed.partitions⟩

/-- A loaded and uploaded record is charged to the class of its device copy. -/
theorem small_cache_classed : ∃ system : CacheSystem,
    system.core.load (.vramClass true) = 4096 ∧
      system.core.counters.balance (.vramClass true) = system.core.total (.vramClass true) := by
  have hrun : (runChecked (step fun _ => zeroDigest) keepsClasses (bootSmall none)
      ([.acquire relu2Key relu2Manifest {} 1] ++ loadRelu2 ++ uploadRelu2)).any
        (fun system => decide (system.core.load (.vramClass true) = 4096)) = true := by
    decide +kernel
  obtain ⟨system, hreach, hexpected⟩ := reaches_of_small (fun _ _ => keepsClasses_spec) hrun
  exact ⟨system, of_decide_eq_true hexpected,
    (classes_within_limits (bootSmall_eq none) (by decide) hreach).1 (.vramClass true) rfl⟩

end CacheSystem

end QuantumLlm.Runtime
