import QuantumLlm.Runtime.Cache.Account
import QuantumLlm.Runtime.Cache.Lifecycle

/-!
# Expert cache: loads

What the entries have reserved of an account, as a natural number, and the limits of
the admission tests: a tier, a class of device memory, a partition of RAM.
-/

namespace QuantumLlm.Runtime

theorem toNat_wordSum (words : List UInt64) :
    words.sum.toNat = (words.map UInt64.toNat).sum % 2 ^ 64 := by
  induction words with
  | nil => rfl
  | cons word rest ih =>
    rw [List.sum_cons, List.map_cons, List.sum_cons, UInt64.toNat_add, ih]
    omega

theorem Table.toNat_sum {K V : Type*} [LinearOrder K] [Inhabited V] (table : Table K V)
    (weight : K → V → UInt64) : (table.sum weight).toNat =
      (table.sum fun key value => (weight key value).toNat) % 2 ^ 64 := by
  rw [Table.sum, toNat_wordSum, List.map_map]
  rfl

namespace Core

variable {core core' : Core} {key : ExpertKey}

/-- What the entries have reserved of an account. -/
def load (core : Core) (account : Account) : Nat :=
  core.entries.sum fun key entry => (entry.charge (core.partitionFor key) account).toNat

theorem toNat_total (account : Account) :
    (core.total account).toNat = core.load account % 2 ^ 64 :=
  Table.toNat_sum _ _

theorem balance_eq_load {account : Account} (hlevel : core.drift account = 0)
    (hfits : core.load account < 2 ^ 64) :
    (core.counters.balance account).toNat = core.load account := by
  rw [sub_eq_zero.1 hlevel, toNat_total, Nat.mod_eq_of_lt hfits]

theorem load_exchange {account : Account} (hkey : key ∈ core.entries.keys)
    (hkeys : core'.entries.keys = core.entries.keys)
    (hplacement : core'.config.placement = core.config.placement)
    (hothers : ∀ other, other ≠ key → core'.entry other = core.entry other) :
    core'.load account + ((core.entry key).charge (core.partitionFor key) account).toNat =
      core.load account + ((core'.entry key).charge (core.partitionFor key) account).toNat := by
  have hpartition : core'.partitionFor = core.partitionFor := by
    funext other
    simp only [partitionFor, hplacement]
  simp only [load, hpartition]
  exact Table.sum_exchange hkey hkeys hothers

theorem load_emplace {record : PayloadRecord} {account : Account} :
    (core.emplace key record).load account = core.load account := by
  by_cases hkey : key ∈ core.entries.keys
  · rw [emplace, Table.tryEmplace_of_mem hkey]
  · have hzero : ({ record } : Entry).charge (core.partitionFor key) account = 0 := by
      cases account <;> simp [Entry.charge, Entry.referenced]
    show (core.entries.tryEmplace key { record }).sum _ = _
    rw [Table.sum_tryEmplace hkey]
    show core.load account + (({ record } : Entry).charge (core.partitionFor key) account).toNat = _
    rw [hzero, UInt64.toNat_zero, add_zero]

theorem load_vram : core.load .vram =
    core.load (.vramClass true) + core.load (.vramClass false) := by
  have hsplit : ∀ key (entry : Entry), (entry.charge (core.partitionFor key) .vram).toNat =
      (entry.charge (core.partitionFor key) (.vramClass true)).toNat +
        (entry.charge (core.partitionFor key) (.vramClass false)).toNat := by
    intro key entry
    cases hclass : entry.vramResident <;> simp [Entry.charge, hclass]
  simp only [load, hsplit]
  exact List.sum_map_add

end Core

/-! ## What a move reserves -/

/-- The class a move reserves device memory in. -/
def Move.admitted : Move → Option Bool
  | .startLoad _ admitted => admitted
  | .startUpload reserved => reserved
  | _ => none

namespace Entry

variable {entry : Entry} {config : ExpertCacheConfig}

/-- What an eviction takes from its victim. -/
structure Taken (entry after : Entry) (needRam needVram : Bool) : Prop where
  host : after.hasHostBytes = (entry.hasHostBytes && !needRam)
  device : after.device = if needVram then none else entry.device
  ramReserved : after.ramReserved =
    if needRam && entry.hasHostBytes then 0 else entry.ramReserved
  vramReserved : after.vramReserved =
    if needVram && entry.device.isSome then 0 else entry.vramReserved
  vramResident : after.vramResident = entry.vramResident

theorem evicted_taken {needRam needVram : Bool} :
    Taken entry (entry.evicted needRam needVram) needRam needVram := by
  have hempty : ∀ entry : Entry, Taken entry entry.evictEmpty false false := by
    intro entry
    unfold evictEmpty
    split <;> exact ⟨by simp [hasHostBytes, enter], rfl, rfl, rfl, rfl⟩
  have hdevice : ∀ entry : Entry, Taken entry (entry.evictDevice needVram) false needVram := by
    intro entry
    unfold evictDevice
    cases needVram with
    | false => exact ⟨by simp, rfl, rfl, rfl, rfl⟩
    | true =>
      cases hsome : entry.device with
      | none => exact ⟨by simp, by simp [hsome], rfl, by simp [hsome], rfl⟩
      | some allocation =>
        simp only [Option.isSome_some, Bool.and_self, if_true]
        split <;>
          exact ⟨by simp [hasHostBytes, enter, releaseDevice], rfl, rfl, by simp [hsome]; rfl,
            rfl⟩
  have hhost : Taken entry (entry.evictHost needRam) needRam false := by
    unfold evictHost
    cases needRam with
    | false => exact ⟨by simp, rfl, rfl, rfl, rfl⟩
    | true =>
      cases hbytes : entry.hasHostBytes with
      | false => exact ⟨by simp [hbytes], rfl, by simp [hbytes], rfl, rfl⟩
      | true =>
        exact ⟨by simp [hasHostBytes, releaseHost], rfl, by simp [hbytes, releaseHost], rfl,
          rfl⟩
  obtain ⟨a1, a2, a3, a4, a5⟩ := hempty ((entry.evictHost needRam).evictDevice needVram)
  obtain ⟨b1, b2, b3, b4, b5⟩ := hdevice (entry.evictHost needRam)
  obtain ⟨c1, c2, c3, c4, c5⟩ := hhost
  simp only [Bool.false_eq_true, if_false, Bool.not_false, Bool.and_true, Bool.false_and]
    at a1 a2 a3 a4 b1 b3 c2 c4
  constructor
  · rw [evicted, a1, b1, c1]
  · rw [evicted, a2, b2, c2]
  · rw [evicted, a3, b3, c3]
  · rw [evicted, a4, b4, c2, c4]
  · rw [evicted, a5, b5, c5]

theorem reserved_evicted {needRam needVram : Bool} :
    (entry.evicted needRam needVram).ramReserved ≤ entry.ramReserved ∧
      (entry.evicted needRam needVram).vramReserved ≤ entry.vramReserved ∧
      (entry.evicted needRam needVram).vramResident = entry.vramResident := by
  obtain ⟨-, -, hram, hvram, hclass⟩ := @evicted_taken entry needRam needVram
  rw [hram, hvram]
  refine ⟨?_, ?_, hclass⟩
  · split
    next => exact UInt64.zero_le
    next => exact UInt64.le_refl _
  · split
    next => exact UInt64.zero_le
    next => exact UInt64.le_refl _

theorem reserved_unstage : entry.unstage.ramReserved ≤ entry.ramReserved ∧
    entry.unstage.vramReserved = entry.vramReserved ∧
    entry.unstage.vramResident = entry.vramResident := by
  unfold unstage
  split
  next => exact ⟨UInt64.zero_le, rfl, rfl⟩
  next => exact ⟨UInt64.le_refl _, rfl, rfl⟩

theorem reserved_abandonedIfIdle : entry.abandonedIfIdle.ramReserved ≤ entry.ramReserved ∧
    entry.abandonedIfIdle.vramReserved = entry.vramReserved ∧
    entry.abandonedIfIdle.vramResident = entry.vramResident := by
  unfold abandonedIfIdle
  split
  next => exact ⟨UInt64.le_refl _, rfl, rfl⟩
  next =>
    split
    next => exact reserved_unstage
    next => exact ⟨UInt64.le_refl _, rfl, rfl⟩

theorem reserved_settled : entry.settled.ramReserved ≤ entry.ramReserved ∧
    entry.settled.vramReserved = entry.vramReserved ∧
    entry.settled.vramResident = entry.vramResident := by
  have hsatisfied : entry.hostSatisfied.ramReserved = entry.ramReserved ∧
      entry.hostSatisfied.vramReserved = entry.vramReserved ∧
      entry.hostSatisfied.vramResident = entry.vramResident := by
    unfold hostSatisfied
    split <;> exact ⟨rfl, rfl, rfl⟩
  simp only [settled]
  split
  next =>
    have hunstage := @reserved_unstage entry.hostSatisfied
    rw [hsatisfied.1, hsatisfied.2.1, hsatisfied.2.2] at hunstage
    exact hunstage
  next => exact ⟨UInt64.le_of_eq hsatisfied.1, hsatisfied.2⟩

theorem reserved_uploaded {retainHostCopy : Bool} {allocation : DeviceAllocation} :
    (entry.uploaded retainHostCopy allocation).ramReserved ≤ entry.ramReserved ∧
      (entry.uploaded retainHostCopy allocation).vramReserved = entry.vramReserved ∧
      (entry.uploaded retainHostCopy allocation).vramResident = entry.vramResident := by
  unfold uploaded releaseUploadSource
  split
  next => exact ⟨UInt64.zero_le, rfl, rfl⟩
  next => exact ⟨UInt64.le_refl _, rfl, rfl⟩

theorem ramReserved_moved {move : Move} (hok : EntryOk config entry)
    (henabled : entry.Enabled config move) :
    (entry.moved config move).ramReserved ≤ entry.ramReserved ∨
      (∃ lease admitted, move = .startLoad lease admitted) ∧ entry.ramReserved = 0 ∧
        (entry.moved config move).ramReserved = entry.record.storedBytes := by
  cases move with
  | evict => exact Or.inl reserved_evicted.1
  | withdraw => exact Or.inl (@reserved_abandonedIfIdle (entry.withoutWaiter _)).1
  | withdrawHost => exact Or.inl (@reserved_abandonedIfIdle (entry.withoutHostWaiter _)).1
  | fail => exact Or.inl UInt64.zero_le
  | abandonLoad => exact Or.inl UInt64.zero_le
  | settle => exact Or.inl reserved_settled.1
  | abandonUpload => exact Or.inl (@reserved_unstage (entry.enter .ramReady).releaseDevice).1
  | finishUpload => exact Or.inl reserved_uploaded.1
  | startUpload reserved => cases reserved <;> exact Or.inl (UInt64.le_refl _)
  | startLoad lease admitted =>
    have hbytes : entry.hasHostBytes = false := by
      cases hbytes : entry.hasHostBytes with
      | false => rfl
      | true =>
        have := hok.staged
        have := hok.copied
        grind [hasHostBytes, Enabled]
    have hzero := hok.unreserved hbytes
    refine Or.inr ⟨⟨lease, admitted, rfl⟩, hzero, ?_⟩
    have hnew : entry.ramReserved + entry.record.storedBytes = entry.record.storedBytes := by
      rw [hzero, UInt64.zero_add]
    cases admitted <;> exact hnew
  | _ => exact Or.inl (UInt64.le_refl _)

/-- A move that reserves no device memory leaves its entry no more of it, in the same class. -/
theorem vram_moved {move : Move} (henabled : entry.Enabled config move)
    (hnone : move.admitted = none) :
    (entry.moved config move).vramReserved ≤ entry.vramReserved ∧
      (entry.moved config move).vramResident = entry.vramResident := by
  have hof : ∀ {after : Entry}, after.vramReserved = entry.vramReserved ∧
      after.vramResident = entry.vramResident →
      after.vramReserved ≤ entry.vramReserved ∧ after.vramResident = entry.vramResident :=
    fun hsame => ⟨UInt64.le_of_eq hsame.1, hsame.2⟩
  cases move with
  | evict => exact reserved_evicted.2
  | withdraw id => exact hof (@reserved_abandonedIfIdle (entry.withoutWaiter id)).2
  | withdrawHost id => exact hof (@reserved_abandonedIfIdle (entry.withoutHostWaiter id)).2
  | fail => exact ⟨UInt64.zero_le, rfl⟩
  | abandonLoad => exact ⟨UInt64.zero_le, rfl⟩
  | settle => exact hof reserved_settled.2
  | abandonUpload =>
    obtain ⟨-, hreserved, hclass⟩ := @reserved_unstage (entry.enter .ramReady).releaseDevice
    exact ⟨UInt64.le_trans (UInt64.le_of_eq hreserved) UInt64.zero_le, hclass⟩
  | finishUpload => exact hof reserved_uploaded.2
  | shrink bytes => exact ⟨henabled.2, rfl⟩
  | startUpload reserved =>
    cases hnone
    exact ⟨UInt64.le_refl _, rfl⟩
  | startLoad lease admitted =>
    cases hnone
    exact ⟨UInt64.le_refl _, rfl⟩
  | _ => exact ⟨UInt64.le_refl _, rfl⟩

theorem vram_admitted {move : Move} {resident : Bool} (hsome : move.admitted = some resident) :
    (entry.moved config move).vramReserved = entry.vramReserved + deviceBytes entry.record ∧
      (entry.moved config move).vramResident = resident := by
  cases move with
  | startUpload reserved =>
    cases hsome
    exact ⟨rfl, rfl⟩
  | startLoad lease admitted =>
    cases hsome
    exact ⟨rfl, rfl⟩
  | _ => cases hsome

end Entry

/-! ## Limits -/

namespace ExpertCacheConfig

/-- Watermarks for which no admission test wraps. -/
def Small (config : ExpertCacheConfig) : Prop :=
  config.ram.highWatermarkBytes.toNat < 2 ^ 63 ∧ config.vram.highWatermarkBytes.toNat < 2 ^ 63

instance (config : ExpertCacheConfig) : Decidable config.Small :=
  inferInstanceAs (Decidable (_ ∧ _))

/-- The limit of `make_vram_class_capacity_locked`. -/
def vramClassLimit (config : ExpertCacheConfig) (resident : Bool) : UInt64 :=
  if resident then config.vram.highWatermarkBytes - config.placement.vramTransientBytes
  else config.placement.vramTransientBytes

end ExpertCacheConfig

namespace Core

/-- The limit of `make_partition_capacity_locked`. -/
def ramPartitionLimit (core : Core) : UInt64 :=
  core.partitionQuota core.config.ram core.config.placement.ramSharedBurstBytes +
    core.config.placement.ramSharedBurstBytes

/-- Both byte counters show what is reserved, and that is within the watermarks. -/
structure Budgeted (core : Core) : Prop where
  level : core.drift .ram = 0 ∧ core.drift .vram = 0
  small : core.config.Small
  ram : core.load .ram ≤ core.config.ram.highWatermarkBytes.toNat
  vram : core.load .vram ≤ core.config.vram.highWatermarkBytes.toNat

/-- Every class of device memory and every partition of RAM is within its limit too. -/
structure Classed (core : Core) : Prop extends core.Budgeted where
  levels : ∀ account, account.referenced = false → core.drift account = 0
  placed : core.config.placement.vramTransientBytes ≤ core.config.vram.highWatermarkBytes ∧
    core.config.placement.ramSharedBurstBytes ≤ core.config.ram.highWatermarkBytes
  classes : ∀ resident,
    core.load (.vramClass resident) ≤ (core.config.vramClassLimit resident).toNat
  partitions : core.config.placement.layerPartitionCount ≠ 1 → ∀ partition,
    core.load (.ramPartition partition) ≤ core.ramPartitionLimit.toNat

/-- A move that reserves does so within the limits. -/
def Rooms (core : Core) (key : ExpertKey) (move : Move) : Prop :=
  (∀ lease admitted, move = .startLoad lease admitted →
    core.config.placement.layerPartitionCount ≠ 1 →
      core.load (.ramPartition (core.partitionFor key)) + (core.entry key).record.storedBytes.toNat ≤
        core.ramPartitionLimit.toNat) ∧
    ∀ resident, move.admitted = some resident →
      core.load (.vramClass resident) + (deviceBytes (core.entry key).record).toNat ≤
        (core.config.vramClassLimit resident).toNat

variable {core core' : Core} {key : ExpertKey}

theorem Budgeted.ramBytes (h : core.Budgeted) : core.counters.ramBytes.toNat = core.load .ram :=
  balance_eq_load h.level.1 (by have := h.ram; have := h.small.1; omega)

theorem Budgeted.vramBytes (h : core.Budgeted) : core.counters.vramBytes.toNat = core.load .vram :=
  balance_eq_load h.level.2 (by have := h.vram; have := h.small.2; omega)

theorem fits_of_small {used need high : UInt64} {load : Nat} (hused : used.toNat = load)
    (hsmall : high.toNat < 2 ^ 63) (hload : load ≤ high.toNat) (hneed : need ≤ high)
    (hfits : used + need ≤ high) : load + need.toNat ≤ high.toNat := by
  rw [UInt64.le_iff_toNat_le] at hneed hfits
  rw [UInt64.toNat_add, hused] at hfits
  omega

namespace Classed

variable (h : core.Classed)
include h

theorem vramClassLimit_le (resident : Bool) :
    (core.config.vramClassLimit resident).toNat ≤ core.config.vram.highWatermarkBytes.toNat := by
  have hplaced := h.placed.1
  cases resident with
  | false => exact UInt64.le_iff_toNat_le.1 hplaced
  | true =>
    show (core.config.vram.highWatermarkBytes - core.config.placement.vramTransientBytes).toNat ≤ _
    rw [UInt64.toNat_sub_of_le _ _ hplaced]
    omega

theorem ramPartitionLimit_le :
    core.ramPartitionLimit.toNat ≤ core.config.ram.highWatermarkBytes.toNat := by
  have hplaced := h.placed.2
  have hburst := UInt64.le_iff_toNat_le.1 hplaced
  have hshare := Nat.div_le_self (core.config.ram.highWatermarkBytes.toNat -
    core.config.placement.ramSharedBurstBytes.toNat)
    core.config.placement.layerPartitionCount.toUInt64.toNat
  rw [ramPartitionLimit, partitionQuota, UInt64.toNat_add, UInt64.toNat_div,
    UInt64.toNat_sub_of_le _ _ hplaced]
  generalize (core.config.ram.highWatermarkBytes.toNat -
    core.config.placement.ramSharedBurstBytes.toNat) /
      core.config.placement.layerPartitionCount.toUInt64.toNat = share at hshare ⊢
  omega

theorem classBytes (resident : Bool) : (core.counters.balance (.vramClass resident)).toNat =
    core.load (.vramClass resident) := by
  refine balance_eq_load (h.levels _ rfl) ?_
  have hload := h.classes resident
  have hlimit := h.vramClassLimit_le resident
  have hsmall := h.small.2
  omega

theorem partitionBytes (hcount : core.config.placement.layerPartitionCount ≠ 1) (partition : Nat) :
    (core.counters.ramPartitionBytes partition).toNat = core.load (.ramPartition partition) := by
  refine @balance_eq_load core (.ramPartition partition) (h.levels _ rfl) ?_
  have hload := h.partitions hcount partition
  have hlimit := h.ramPartitionLimit_le
  have hsmall := h.small.1
  omega

theorem congr (hconfig : core'.config = core.config)
    (hkeys : core'.entries.keys = core.entries.keys)
    (hreserved : ∀ key, (core'.entry key).ramReserved = (core.entry key).ramReserved ∧
      (core'.entry key).vramReserved = (core.entry key).vramReserved ∧
      (core'.entry key).vramResident = (core.entry key).vramResident)
    (hdrift : ∀ account, core'.drift account = core.drift account) : core'.Classed := by
  have hpartition : core'.partitionFor = core.partitionFor := by
    funext other
    simp only [partitionFor, hconfig]
  have hlimit : core'.ramPartitionLimit = core.ramPartitionLimit := by
    simp only [ramPartitionLimit, partitionQuota, hconfig]
  have hram : core'.load .ram = core.load .ram :=
    Table.sum_congr hkeys fun key _ => congrArg UInt64.toNat (hreserved key).1
  have hvram : core'.load .vram = core.load .vram :=
    Table.sum_congr hkeys fun key _ => congrArg UInt64.toNat (hreserved key).2.1
  have hclasses : ∀ resident, core'.load (.vramClass resident) = core.load (.vramClass resident) := by
    refine fun resident => Table.sum_congr hkeys fun key _ => ?_
    simp only [Entry.charge, (hreserved key).2.1, (hreserved key).2.2]
  have hpartitions : ∀ partition,
      core'.load (.ramPartition partition) = core.load (.ramPartition partition) := by
    refine fun partition => Table.sum_congr hkeys fun key _ => ?_
    simp only [Entry.charge, (hreserved key).1, hpartition]
  exact
    { level := ⟨by rw [hdrift, h.level.1], by rw [hdrift, h.level.2]⟩
      small := hconfig ▸ h.small
      ram := by rw [hram, hconfig]; exact h.ram
      vram := by rw [hvram, hconfig]; exact h.vram
      levels := fun account haccount => by rw [hdrift, h.levels account haccount]
      placed := by rw [hconfig]; exact h.placed
      classes := fun resident => by rw [hclasses, hconfig]; exact h.classes resident
      partitions := fun hcount partition => by
        rw [hpartitions, hlimit]
        exact h.partitions (by rw [← hconfig]; exact hcount) partition }

end Classed

end Core

end QuantumLlm.Runtime
