import QuantumLlm.Runtime.Cache.Budget
import QuantumLlm.Runtime.Cache.Victims

/-!
# Expert cache: the admission predictor

`vram_admission_would_improve` counts in one pass what `make_device_capacity_locked`
evicts in rounds. A round of a class without a temperature limit starts in the partition
of the demand, while the count runs over all partitions; there the two can disagree.
-/

namespace QuantumLlm.Runtime

namespace Core

/-- The candidates that the predictor counts. -/
def displaceable (core : Core) (key : ExpertKey) (resident : Bool) (candidate : ExpertKey) : Bool :=
  let entry := core.entry candidate
  !(candidate = key || entry.device.isNone || entry.vramResident ≠ resident ||
    entry.references ≠ 0 || entry.hasWaiters || core.routePinned candidate ||
    entry.temperature ≥ (core.entry key).temperature || entry.state = .gpuUploading ||
    entry.state = .failed)

/-- The scan of the predictor: it stops where the deficit is covered. -/
def scanColder (core : Core) (key : ExpertKey) (resident : Bool) (deficit : UInt64) :
    List ExpertKey → UInt64 → Bool
  | [], _ => false
  | candidate :: rest, colderBytes =>
    if core.displaceable key resident candidate then
      let colderBytes := colderBytes + (core.entry candidate).vramReserved
      if colderBytes ≥ deficit then true else core.scanColder key resident deficit rest colderBytes
    else core.scanColder key resident deficit rest colderBytes

/-- The class that a device demand asks for first. -/
def demandClass (core : Core) (key : ExpertKey) : Bool :=
  core.config.placement.vramTransientBytes = 0 || (core.entry key).vramResidentRequested ||
    (core.entry key).frequency ≥ 2

def vramAdmissionWouldImprove (core : Core) (key : ExpertKey) (record : PayloadRecord) : Bool :=
  let entry := core.entry key
  if core.shuttingDown || key ∉ core.entries.keys then false
  else if !sameRecord entry.record record || entry.device.isSome || !entry.hasHostBytes ||
      entry.state ≠ .ramReady then false
  else
    let need := deviceBytes entry.record
    let resident := core.demandClass key
    let limit :=
      if resident then
        core.config.vram.highWatermarkBytes - core.config.placement.vramTransientBytes
      else core.config.placement.vramTransientBytes
    let usage :=
      if resident then core.counters.vramResidentBytes else core.counters.vramTransientBytes
    if usage + need ≤ limit then true
    else core.scanColder key resident (usage + need - limit) core.entries.keys.items 0

/-- A device copy of the class that an admission of `key` can take, hot or cold. -/
def replaceable (core : Core) (key : ExpertKey) (resident : Bool) (other : ExpertKey) : Bool :=
  other ≠ key && (core.entry other).evictable && (core.entry other).device.isSome &&
    (core.entry other).vramResident = resident && !core.routePinned other

/-- Strictly colder than the demanded entry. -/
def colder (core : Core) (key other : ExpertKey) : Bool :=
  (core.entry other).temperature < (core.entry key).temperature

def atHome (core : Core) (key other : ExpertKey) : Bool :=
  core.partitionFor other = core.partitionFor key

/-- The device memory that the chosen entries have reserved. -/
def reservedBy (core : Core) (chosen : ExpertKey → Bool) : Nat :=
  core.entries.sum fun other entry => if chosen other then entry.vramReserved.toNat else 0

variable {core core' : Core} {key other : ExpertKey} {resident : Bool}

theorem replaceable_iff : core.replaceable key resident other ↔
    other ≠ key ∧ (core.entry other).evictable ∧ (core.entry other).device.isSome ∧
      (core.entry other).vramResident = resident ∧ core.routePinned other = false := by
  simp [replaceable, and_assoc]

theorem displaceable_iff (hsound : core.Sound) : core.displaceable key resident other ↔
    core.replaceable key resident other ∧ core.colder key other := by
  have hok := hsound.ok other
  rw [replaceable_iff, evictable_iff]
  simp only [displaceable, colder, Bool.not_eq_true', Bool.or_eq_false_iff, decide_eq_false_iff_not,
    decide_eq_true_eq, ge_iff_le, UInt64.not_le, Entry.hasWaiters_eq_false_iff,
    Option.isNone_eq_false_iff, not_not]
  constructor
  · rintro ⟨⟨⟨⟨⟨⟨⟨⟨hne, hdevice⟩, hclass⟩, hreferences⟩, hwaiters⟩, hpinned⟩, hcolder⟩, hgpu⟩, hfailed⟩
    have hready := hok.device_iff.1 hdevice
    have hidle : (core.entry other).preparingHost = false := by
      by_contra hpreparing
      have hloading := hok.preparing (by simpa using hpreparing)
      rw [hready] at hloading
      cases hloading
    exact ⟨⟨hne, ⟨hreferences, hwaiters, hidle, by simp [hready], hgpu, hfailed⟩, hdevice, hclass,
      hpinned⟩, hcolder⟩
  · rintro ⟨⟨hne, ⟨hreferences, hwaiters, -, -, hgpu, hfailed⟩, hdevice, hclass, hpinned⟩, hcolder⟩
    exact ⟨⟨⟨⟨⟨⟨⟨⟨hne, hdevice⟩, hclass⟩, hreferences⟩, hwaiters⟩, hpinned⟩, hcolder⟩, hgpu⟩, hfailed⟩

theorem displaceable_eq (hsound : core.Sound) : core.displaceable key resident other =
    (core.replaceable key resident other && core.colder key other) := by
  rw [Bool.eq_iff_iff, displaceable_iff hsound, Bool.and_eq_true]

theorem reservedBy_le {chosen larger : ExpertKey → Bool}
    (h : ∀ other, chosen other → larger other) : core.reservedBy chosen ≤ core.reservedBy larger := by
  refine Table.sum_le_sum fun other _ => ?_
  by_cases hchosen : chosen other
  · rw [if_pos hchosen, if_pos (h other hchosen)]
  · rw [if_neg hchosen]
    exact Nat.zero_le _

/-- The colder copies that an admission of `key` can take. -/
def coldBytes (core : Core) (key : ExpertKey) (resident : Bool) : Nat :=
  core.reservedBy fun other => core.replaceable key resident other && core.colder key other

theorem scanColder_covers {deficit colderBytes : UInt64} (keys : List ExpertKey)
    (h : core.scanColder key resident deficit keys colderBytes = true) :
    deficit.toNat ≤ colderBytes.toNat + (keys.map fun other =>
      if core.displaceable key resident other then (core.entry other).vramReserved.toNat
      else 0).sum := by
  induction keys generalizing colderBytes with
  | nil => cases h
  | cons candidate rest ih =>
    simp only [scanColder] at h
    rw [List.map_cons, List.sum_cons]
    split at h
    next hcounted =>
      rw [if_pos hcounted]
      have hsum : (colderBytes + (core.entry candidate).vramReserved).toNat ≤
          colderBytes.toNat + (core.entry candidate).vramReserved.toNat := by
        exact Nat.mod_le _ _
      split at h
      next hcovered =>
        have hle := UInt64.le_iff_toNat_le.1 hcovered
        omega
      next =>
        have hrest := ih h
        omega
    next hskipped =>
      rw [if_neg hskipped, Nat.zero_add]
      exact ih h

theorem coldBytes_le : core.coldBytes key resident ≤ core.load (.vramClass resident) := by
  unfold coldBytes reservedBy load
  refine Table.sum_le_sum fun other _ => ?_
  split
  next hchosen =>
    rw [Bool.and_eq_true, replaceable_iff] at hchosen
    simp only [Entry.charge]
    rw [if_pos hchosen.1.2.2.2.1]
  next => exact Nat.zero_le _

/-- A prediction that did not wrap has found the room: it is there, or the colder copies hold it. -/
theorem wouldImprove_covers {record : PayloadRecord} (hsound : core.Sound) (hclassed : core.Classed)
    (hfits : core.load (.vramClass (core.demandClass key)) +
      (deviceBytes (core.entry key).record).toNat < 2 ^ 64)
    (h : core.vramAdmissionWouldImprove key record = true) :
    core.load (.vramClass (core.demandClass key)) + (deviceBytes (core.entry key).record).toNat ≤
      (core.config.vramClassLimit (core.demandClass key)).toNat +
        core.coldBytes key (core.demandClass key) := by
  simp only [vramAdmissionWouldImprove] at h
  have hbytes := hclassed.classBytes (core.demandClass key)
  have hlimit : (if core.demandClass key = true then
      core.config.vram.highWatermarkBytes - core.config.placement.vramTransientBytes
      else core.config.placement.vramTransientBytes) =
        core.config.vramClassLimit (core.demandClass key) := rfl
  have husage : (if core.demandClass key = true then core.counters.vramResidentBytes
      else core.counters.vramTransientBytes) =
        core.counters.balance (.vramClass (core.demandClass key)) := by
    cases core.demandClass key <;> rfl
  rw [hlimit, husage] at h
  generalize hneed : deviceBytes (core.entry key).record = need at *
  generalize hresident : core.demandClass key = resident at *
  have hsum : (core.counters.balance (.vramClass resident) + need).toNat =
      core.load (.vramClass resident) + need.toNat := by
    rw [UInt64.toNat_add, hbytes, Nat.mod_eq_of_lt hfits]
  split at h
  next => cases h
  next =>
    split at h
    next => cases h
    next =>
      split at h
      next hroom =>
        have hle := UInt64.le_iff_toNat_le.1 hroom
        omega
      next hfull =>
        have hcovers := scanColder_covers _ h
        rw [UInt64.toNat_sub_of_le _ _ (UInt64.le_of_lt (UInt64.not_le.1 hfull))] at hcovers
        have hcold : (core.entries.keys.items.map fun other =>
            if core.displaceable key resident other then (core.entry other).vramReserved.toNat
            else 0).sum = core.coldBytes key resident := by
          simp only [displaceable_eq hsound]
          rfl
        rw [hcold, UInt64.toNat_zero] at hcovers
        omega

end Core

end QuantumLlm.Runtime
