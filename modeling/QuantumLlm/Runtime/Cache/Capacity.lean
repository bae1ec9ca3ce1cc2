import QuantumLlm.Runtime.Cache.Evictions

/-!
# Expert cache: capacity tests and promotions

The admission tests evict other entries only, and one that succeeds has measured
both tiers after its last eviction. A promotion moves a charge between classes.
-/

namespace QuantumLlm.Runtime

namespace Core

variable {core core' : Core} {key : ExpertKey} {ramNeed vramNeed : UInt64}

theorem makePartitionCapacity_evicts :
    Evicts (some key) core (core.makePartitionCapacityLocked ramNeed key).2 := by
  simp only [makePartitionCapacityLocked]
  split
  next => exact .refl
  next =>
    split
    next => exact .refl
    next => exact evictWhile_evicts (evictOne_evictor _ fun _ => rfl)

theorem makeRamClassCapacity_evicts {protectedClass : Bool} :
    Evicts (some key) core (core.makeRamClassCapacityLocked ramNeed key protectedClass).2 := by
  unfold makeRamClassCapacityLocked
  split
  next => exact .refl
  next =>
    generalize (if protectedClass then core.config.placement.ramProtectedBytes
      else core.config.ram.highWatermarkBytes - core.config.placement.ramProtectedBytes) = limit
    simp only
    split
    next => exact .refl
    next => exact evictWhile_evicts (evictOne_evictor _ fun _ => rfl)

variable {resident ramProtected : Bool} {admissionTemperature : UInt64}

theorem evictVramClass_evictor {admissionLimit : Option UInt64} :
    Evictor (some key) fun core => core.evictVramClass vramNeed key resident admissionLimit := by
  intro core
  have hown : Evictor (some key) fun core => core.evictOneLocked
      { needRam := false, needVram := true, excluded := some key,
        requiredPartition := some (core.partitionFor key), requiredVramClass := some true,
        maximumTemperatureExclusive := admissionLimit } :=
    evictOne_evictor _ fun _ => rfl
  have hany : Evictor (some key) fun core => core.evictOneLocked
      { needRam := false, needVram := true, excluded := some key,
        requiredVramClass := some resident, maximumTemperatureExclusive := admissionLimit } :=
    evictOne_evictor _ fun _ => rfl
  simp only [evictVramClass]
  refine orElse_evictor ?_ hany
  split
  next => exact hown core
  next => exact ⟨.refl, by simp⟩

theorem makeVramClassCapacity_evicts {resident : Bool} {admissionTemperature : UInt64} :
    Evicts (some key) core
      (core.makeVramClassCapacityLocked vramNeed key resident admissionTemperature).2 := by
  simp only [makeVramClassCapacityLocked]
  split
  next => exact .refl
  next =>
    cases resident
    all_goals
      simp only [if_true, Bool.false_eq_true, if_false]
      split
      next => exact .refl
      next => exact evictWhile_evicts evictVramClass_evictor

theorem evictGlobalRam_evictor : Evictor (some key) fun core => core.evictGlobalRam key := by
  intro core
  have hquota : Evictor (some key) fun core => core.evictOneLocked
      { needRam := true, needVram := false, excluded := some key, overQuotaOnly := true } :=
    evictOne_evictor _ fun _ => rfl
  exact orElse_evictor (hquota core) (evictOne_evictor _ fun _ => rfl)

theorem makeHeadroom_evicts {ramPressured : Bool} :
    Evicts (some key) core (core.makeHeadroom key ramPressured) := by
  unfold makeHeadroom
  split
  next => exact evictWhile_evicts (evictOne_evictor _ fun _ => rfl)
  next => exact .refl

/-- Both tiers have room for a demand. -/
def Roomy (core : Core) (ramNeed vramNeed : UInt64) : Prop :=
  core.counters.ramBytes + ramNeed ≤ core.config.ram.highWatermarkBytes ∧
    core.counters.vramBytes + vramNeed ≤ core.config.vram.highWatermarkBytes

/-- There is room, and no sum of the test has wrapped past a watermark. -/
def Admits (core : Core) (ramNeed vramNeed : UInt64) : Prop :=
  core.Roomy ramNeed vramNeed ∧ ramNeed ≤ core.config.ram.highWatermarkBytes ∧
    vramNeed ≤ core.config.vram.highWatermarkBytes

theorem makeGlobalCapacity_evicts :
    Evicts (some key) core (core.makeGlobalCapacity ramNeed vramNeed key).2 :=
  andThen_evicts (evictWhile_evicts evictGlobalRam_evictor) makeHeadroom_evicts

theorem makeGlobalCapacity_true (h : (core.makeGlobalCapacity ramNeed vramNeed key).1 = true) :
    (core.makeGlobalCapacity ramNeed vramNeed key).2.Roomy ramNeed vramNeed := by
  unfold makeGlobalCapacity at h ⊢
  obtain ⟨_, hrest⟩ := andThen_true h
  rw [hrest] at h ⊢
  simpa [Roomy] using h

section

variable {ramProtected resident : Bool} {admissionTemperature : UInt64}

theorem makeCapacity_evicts : Evicts (some key) core
    (core.makeCapacityLocked ramNeed vramNeed key ramProtected resident
      admissionTemperature).2 := by
  unfold makeCapacityLocked
  split
  next => exact .refl
  next =>
    exact andThen_evicts makePartitionCapacity_evicts (andThen_evicts makeRamClassCapacity_evicts
      (andThen_evicts makeVramClassCapacity_evicts makeGlobalCapacity_evicts))

theorem makeCapacity_admits (h : (core.makeCapacityLocked ramNeed vramNeed key ramProtected
    resident admissionTemperature).1 = true) :
    (core.makeCapacityLocked ramNeed vramNeed key ramProtected resident
      admissionTemperature).2.Admits ramNeed vramNeed := by
  unfold Admits
  rw [makeCapacity_evicts.config]
  unfold makeCapacityLocked at h ⊢
  split at h
  next => cases h
  next hneed =>
    obtain ⟨_, hfirst⟩ := andThen_true h
    rw [if_neg hneed, hfirst]
    rw [hfirst] at h
    obtain ⟨_, hsecond⟩ := andThen_true h
    rw [hsecond]
    rw [hsecond] at h
    obtain ⟨_, hthird⟩ := andThen_true h
    rw [hthird]
    rw [hthird] at h
    simp only [Bool.or_eq_true, decide_eq_true_eq, not_or, UInt64.not_lt] at hneed
    exact ⟨makeGlobalCapacity_true h, hneed⟩

end

theorem Evicts.ramPartitionLimit {excluded : Option ExpertKey} (h : Evicts excluded core core') :
    core'.ramPartitionLimit = core.ramPartitionLimit ∧ core'.partitionFor = core.partitionFor := by
  refine ⟨?_, funext fun other => ?_⟩
  · simp only [Core.ramPartitionLimit, partitionQuota, h.config]
  · simp only [partitionFor, h.config]

theorem makePartitionCapacity_true (hcount : core.config.placement.layerPartitionCount ≠ 1)
    (h : (core.makePartitionCapacityLocked ramNeed key).1 = true) :
    ramNeed ≤ core.ramPartitionLimit ∧
      (core.makePartitionCapacityLocked ramNeed key).2.counters.ramPartitionBytes
        (core.partitionFor key) + ramNeed ≤ core.ramPartitionLimit := by
  simp only [makePartitionCapacityLocked, if_neg hcount] at h ⊢
  split at h
  next => cases h
  next hneed =>
    rw [if_neg hneed]
    have hrelaxed := evictWhile_true (@evictOne_evictor (some key) _ fun _ => rfl) h
    exact ⟨UInt64.not_lt.1 hneed, UInt64.not_lt.1 (of_decide_eq_false hrelaxed)⟩

theorem makeVramClassCapacity_true
    (h : (core.makeVramClassCapacityLocked vramNeed key resident admissionTemperature).1 = true) :
    vramNeed = 0 ∨ vramNeed ≤ core.config.vramClassLimit resident ∧
      (core.makeVramClassCapacityLocked vramNeed key resident
        admissionTemperature).2.counters.balance (.vramClass resident) + vramNeed ≤
          core.config.vramClassLimit resident := by
  by_cases hzero : vramNeed = 0
  · exact Or.inl hzero
  · right
    simp only [makeVramClassCapacityLocked, if_neg hzero] at h ⊢
    cases resident
    all_goals
      simp only [if_true, Bool.false_eq_true, if_false] at h ⊢
      split at h
      next => cases h
      next hneed =>
        rw [if_neg hneed]
        have hrelaxed := evictWhile_true evictVramClass_evictor h
        exact ⟨UInt64.not_lt.1 hneed, UInt64.not_lt.1 (of_decide_eq_false hrelaxed)⟩

theorem Classed.class_fits (h : core'.Classed) (hconfig : core'.config = core.config)
    (hfits : vramNeed = 0 ∨ vramNeed ≤ core.config.vramClassLimit resident ∧
      core'.counters.balance (.vramClass resident) + vramNeed ≤
        core.config.vramClassLimit resident) :
    core'.load (.vramClass resident) + vramNeed.toNat ≤
      (core'.config.vramClassLimit resident).toNat := by
  have hload := h.classes resident
  rcases hfits with rfl | ⟨hneed, hfits⟩
  · exact hload
  · rw [← hconfig] at hneed hfits
    have hlimit := h.vramClassLimit_le resident
    have hsmall := h.small.2
    exact fits_of_small (h.classBytes resident) (by omega) hload hneed hfits

/-- A demand stays within its partition of RAM and within its class of device memory. -/
def Fitting (core : Core) (key : ExpertKey) (ramNeed vramNeed : UInt64) (resident : Bool) : Prop :=
  (core.config.placement.layerPartitionCount ≠ 1 →
    core.load (.ramPartition (core.partitionFor key)) + ramNeed.toNat ≤
      core.ramPartitionLimit.toNat) ∧
    core.load (.vramClass resident) + vramNeed.toNat ≤ (core.config.vramClassLimit resident).toNat

theorem makeCapacity_fitting (hsound : core.Sound) (hclassed : core.Classed)
    (h : (core.makeCapacityLocked ramNeed vramNeed key ramProtected resident
      admissionTemperature).1 = true) :
    (core.makeCapacityLocked ramNeed vramNeed key ramProtected resident
      admissionTemperature).2.Fitting key ramNeed vramNeed resident := by
  unfold makeCapacityLocked at h ⊢
  split at h
  next => cases h
  next hneed =>
    obtain ⟨hpartition, hfirst⟩ := andThen_true h
    rw [if_neg hneed, hfirst]
    rw [hfirst] at h
    obtain ⟨_, hsecond⟩ := andThen_true h
    rw [hsecond]
    rw [hsecond] at h
    obtain ⟨hclass, hthird⟩ := andThen_true h
    rw [hthird]
    have hevicts1 := @makePartitionCapacity_evicts core key ramNeed
    have htrue1 := @makePartitionCapacity_true core key ramNeed
    generalize (core.makePartitionCapacityLocked ramNeed key).2 = core1 at *
    have hevicts2 := @makeRamClassCapacity_evicts core1 key ramNeed ramProtected
    generalize (core1.makeRamClassCapacityLocked ramNeed key ramProtected).2 = core2 at *
    have hevicts3 := @makeVramClassCapacity_evicts core2 key vramNeed resident admissionTemperature
    have htrue3 := makeVramClassCapacity_true hclass
    generalize (core2.makeVramClassCapacityLocked vramNeed key resident
      admissionTemperature).2 = core3 at *
    have hevicts4 := @makeGlobalCapacity_evicts core3 key ramNeed vramNeed
    have hclassed1 := hevicts1.classed hsound hclassed
    have hthree := (hevicts1.trans hevicts2).trans hevicts3
    have hrest := (hevicts2.trans hevicts3).trans hevicts4
    constructor
    · intro hcount
      obtain ⟨hlimit, hhome⟩ := hrest.ramPartitionLimit
      obtain ⟨hlimit1, hhome1⟩ := hevicts1.ramPartitionLimit
      rw [hrest.config] at hcount
      obtain ⟨hroom, hfits⟩ := htrue1 (by rw [← hevicts1.config]; exact hcount) hpartition
      rw [← hlimit1, ← hhome1] at hfits
      rw [← hlimit1] at hroom
      have hsmall := hclassed1.small.1
      have hle := hclassed1.ramPartitionLimit_le
      have hbound := fits_of_small (hclassed1.partitionBytes hcount _) (by omega)
        (hclassed1.partitions hcount _) hroom hfits
      have hless := hrest.ram_le (core1.partitionFor key)
      rw [hlimit, hhome]
      omega
    · have hbound := (hthree.classed hsound hclassed).class_fits hevicts3.config htrue3
      have hless := hevicts4.vram_le resident
      rw [hevicts4.config]
      omega

theorem makeVramClassCapacity_transient (hring : core.config.placement.vramTransientBytes = 0)
    (h : (core.makeVramClassCapacityLocked vramNeed key false admissionTemperature).1 = true) :
    vramNeed = 0 := by
  by_contra hne
  have hpos : 0 < vramNeed := UInt64.pos_iff_ne_zero.2 hne
  simp [makeVramClassCapacityLocked, hne, hring, hpos] at h

theorem makeCapacity_transient (hring : core.config.placement.vramTransientBytes = 0)
    (h : (core.makeCapacityLocked ramNeed vramNeed key ramProtected false
      admissionTemperature).1 = true) : vramNeed = 0 := by
  unfold makeCapacityLocked at h
  split at h
  next => cases h
  next =>
    obtain ⟨_, hfirst⟩ := andThen_true h
    rw [hfirst] at h
    obtain ⟨_, hsecond⟩ := andThen_true h
    rw [hsecond] at h
    obtain ⟨hclass, _⟩ := andThen_true h
    refine makeVramClassCapacity_transient ?_ hclass
    rw [makeRamClassCapacity_evicts.config, makePartitionCapacity_evicts.config]
    exact hring

/-- What an admission promises about the class it chose. -/
def Granted (core core' : Core) (key : ExpertKey) (ramNeed : UInt64) (resident : Bool) : Prop :=
  core'.Admits ramNeed (deviceBytes (core.entry key).record) ∧
    (core.config.placement.vramTransientBytes = 0 → resident = true ∨
      deviceBytes (core.entry key).record = 0) ∧
    (core.Sound → core.Classed →
      core'.Fitting key ramNeed (deviceBytes (core.entry key).record) resident)

theorem makeDeviceCapacity_spec {ramProtected : Bool} :
    Evicts (some key) core (core.makeDeviceCapacityLocked key ramNeed ramProtected).2 ∧
      ∀ resident, (core.makeDeviceCapacityLocked key ramNeed ramProtected).1 = some resident →
        Granted core (core.makeDeviceCapacityLocked key ramNeed ramProtected).2 key ramNeed
          resident := by
  simp only [makeDeviceCapacityLocked, Granted]
  generalize hvram : deviceBytes (core.entry key).record = vramNeed
  generalize hclass : (decide (core.config.placement.vramTransientBytes = 0) ||
    (core.entry key).vramResidentRequested || decide ((core.entry key).frequency ≥ 2)) = resident
  have hfirst := @makeCapacity_evicts core key ramNeed vramNeed ramProtected resident
    (core.entry key).temperature
  split
  next hadmitted =>
    refine ⟨hfirst, fun chosen hsome => ?_⟩
    cases hsome
    exact ⟨makeCapacity_admits hadmitted, fun hring => Or.inl (by rw [← hclass]; simp [hring]),
      fun hsound hclassed => makeCapacity_fitting hsound hclassed hadmitted⟩
  next =>
    generalize hafter : (core.makeCapacityLocked ramNeed vramNeed key ramProtected resident
      (core.entry key).temperature).2 = after
    rw [hafter] at hfirst
    split
    next =>
      have hsecond := @makeCapacity_evicts after key ramNeed vramNeed ramProtected false
      refine ⟨hfirst.trans hsecond, fun chosen hsome => ?_⟩
      split at hsome
      next hadmitted =>
        cases hsome
        refine ⟨makeCapacity_admits hadmitted, fun hring => Or.inr ?_, fun hsound hclassed =>
          makeCapacity_fitting (hfirst.trace.sound hsound) (hfirst.classed hsound hclassed)
            hadmitted⟩
        exact makeCapacity_transient (by rw [hfirst.config]; exact hring) hadmitted
      next => cases hsome
    next =>
      split
      next =>
        have hsecond := @makeCapacity_evicts after key ramNeed vramNeed ramProtected true
        refine ⟨hfirst.trans hsecond, fun chosen hsome => ?_⟩
        split at hsome
        next hadmitted =>
          cases hsome
          exact ⟨makeCapacity_admits hadmitted, fun _ => Or.inl rfl, fun hsound hclassed =>
            makeCapacity_fitting (hfirst.trace.sound hsound) (hfirst.classed hsound hclassed)
              hadmitted⟩
        next => cases hsome
      next => exact ⟨hfirst, nofun⟩

theorem protectRam_noted (hkey : key ∈ core.entries.keys)
    (hclass : (core.entry key).ramProtected = false) :
    Noted core (core.protectRam key (core.entry key).ramReserved) := by
  have hself : (core.protectRam key (core.entry key).ramReserved).entry key =
      (core.entry key).protectRam := by
    show (core.modify key Entry.protectRam).entry key = _
    rw [entry_modify_self hkey]
  have hkeeps : Keeps key core (core.protectRam key (core.entry key).ramReserved) := by
    refine recount_keeps hkey rfl (fun _ _ => Iff.rfl) fun account => ?_
    rcases account with _ | ⟨_ | _⟩ | partition | _ | ⟨_ | _⟩ | partition | _ | _ | _ <;>
      grind [Counters.balance, Entry.charge, Entry.referenced, Entry.protectRam]
  have hsilent : Silent key core (core.protectRam key (core.entry key).ramReserved) :=
    ⟨hkeeps, rfl, rfl, rfl⟩
  refine .of_silent hsilent ?_ ?_ (hsilent.classed ?_ ?_) ?_ rfl
  · rw [hself]
    rfl
  · intro _
    rw [hself]
    rfl
  · rw [hself]
    rfl
  · rw [hself]
    rfl
  · intro h
    refine h.of_ready_iff rfl rfl fun priority => ?_
    rw [hself]
    exact ⟨Iff.rfl, Iff.rfl⟩

theorem Classed.exchange (h : core.Classed) (hkey : key ∈ core.entries.keys)
    (hlocal : Local key core core') (hdrift : ∀ account, core'.drift account = core.drift account)
    (hself : core'.entry key = (core.entry key).makeResident)
    (hfits : core.load (.vramClass true) + (core.entry key).vramReserved.toNat ≤
      (core.config.vramClassLimit true).toNat) : core'.Classed := by
  have hload := fun account => @load_exchange core core' key account hkey hlocal.keys
    (by rw [hlocal.config]) hlocal.others
  rw [hself] at hload
  have hlimit : core'.ramPartitionLimit = core.ramPartitionLimit := by
    simp only [ramPartitionLimit, partitionQuota, hlocal.config]
  have hram : core'.load .ram = core.load .ram := Nat.add_right_cancel (hload .ram)
  have hvram : core'.load .vram = core.load .vram := Nat.add_right_cancel (hload .vram)
  have hpartition : ∀ partition, core'.load (.ramPartition partition) =
      core.load (.ramPartition partition) :=
    fun partition => Nat.add_right_cancel (hload (.ramPartition partition))
  refine
    { level := ⟨by rw [hdrift, h.level.1], by rw [hdrift, h.level.2]⟩
      small := hlocal.config ▸ h.small
      ram := by rw [hram, hlocal.config]; exact h.ram
      vram := by rw [hvram, hlocal.config]; exact h.vram
      levels := fun account haccount => by rw [hdrift, h.levels account haccount]
      placed := by rw [hlocal.config]; exact h.placed
      classes := fun resident => ?_
      partitions := fun hcount partition => by
        rw [hpartition, hlimit]
        exact h.partitions (by rw [← hlocal.config]; exact hcount) partition }
  rw [hlocal.config]
  have hexchange := hload (.vramClass resident)
  have hle := h.classes resident
  cases resident with
  | true =>
    have hcharge : (core.entry key).makeResident.charge (core.partitionFor key) (.vramClass true) =
        (core.entry key).vramReserved := rfl
    rw [hcharge] at hexchange
    omega
  | false =>
    have hcharge : (core.entry key).makeResident.charge (core.partitionFor key)
        (.vramClass false) = 0 := rfl
    rw [hcharge, UInt64.toNat_zero] at hexchange
    omega

theorem makeResident_noted (hkey : key ∈ core.entries.keys)
    (hclass : (core.entry key).vramResident = false) (hdevice : (core.entry key).device.isSome)
    (hfits : core.Classed → core.load (.vramClass true) + (core.entry key).vramReserved.toNat ≤
      (core.config.vramClassLimit true).toNat) :
    Noted core (core.makeResident key (core.entry key).vramReserved) := by
  have hself : (core.makeResident key (core.entry key).vramReserved).entry key =
      (core.entry key).makeResident := by
    show (core.modify key Entry.makeResident).entry key = _
    rw [entry_modify_self hkey]
  have hkeeps : Keeps key core (core.makeResident key (core.entry key).vramReserved) := by
    refine recount_keeps hkey rfl (fun _ _ => Iff.rfl) fun account => ?_
    rcases account with _ | ⟨_ | _⟩ | partition | _ | ⟨_ | _⟩ | partition | _ | _ | _ <;>
      grind [Counters.balance, Entry.charge, Entry.referenced, Entry.makeResident]
  refine .of_silent ⟨hkeeps, rfl, rfl, rfl⟩ ?_ ?_
    (fun hclassed => hclassed.exchange hkey hkeeps.toLocal hkeeps.drift hself (hfits hclassed)) ?_ rfl
  · rw [hself]
    rfl
  · intro hnone
    rw [hnone] at hdevice
    cases hdevice
  · intro h
    refine h.of_ready_iff rfl rfl fun priority => ?_
    rw [hself]
    exact ⟨Iff.rfl, Iff.rfl⟩

theorem promoteRam_spare {force : Bool} (hkey : key ∈ core.entries.keys) :
    Trace (Spare (some key)) core (core.promoteRamLocked key force) := by
  simp only [promoteRamLocked]
  split
  next => exact .refl
  next hclass =>
    have hevicts := @makeRamClassCapacity_evicts core key (core.entry key).ramReserved true
    split
    next =>
      refine hevicts.trace.trans (protectRam_noted (hevicts.keys ▸ hkey) ?_).spare
      rw [hevicts.excluded_entry]
      grind
    next => exact hevicts.trace

theorem promoteVram_spare {force : Bool} (hkey : key ∈ core.entries.keys) :
    Trace (Spare (some key)) core (core.promoteVramLocked key force) := by
  simp only [promoteVramLocked]
  split
  next => exact .refl
  next hclass =>
    have hevicts := @makeVramClassCapacity_evicts core key (core.entry key).vramReserved true
    split
    next hmade =>
      refine hevicts.trace.trans
        (makeResident_noted (hevicts.keys ▸ hkey) ?_ ?_ fun hclassed => ?_).spare
      · rw [hevicts.excluded_entry]
        grind
      · rw [hevicts.excluded_entry]
        simp only [Bool.or_eq_true, not_or] at hclass
        exact Option.isSome_iff_ne_none.2 (by simpa using hclass.1.1.1.1)
      · rw [hevicts.excluded_entry]
        exact hclassed.class_fits hevicts.config (makeVramClassCapacity_true hmade)
    next => exact hevicts.trace

end Core

end QuantumLlm.Runtime
