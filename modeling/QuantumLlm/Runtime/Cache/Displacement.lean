import QuantumLlm.Runtime.Cache.Prediction

/-!
# Expert cache: displacement

The rounds of a device admission against the count of the predictor. Every round takes
the coldest copy it may look at; what is gone is followed from the core the admission
started in.
-/

namespace QuantumLlm.Runtime

namespace Core

variable {start core core' : Core} {key other victim : ExpertKey} {resident : Bool}

/-! ## Evictions of one class -/

/-- The core after evictions of device copies that an admission of `key` can take. -/
structure Relieved (key : ExpertKey) (resident : Bool) (start core : Core) : Prop where
  entry : ∀ other, core.entry other = start.entry other ∨
    start.replaceable key resident other ∧ core.entry other = (start.entry other).evicted false true
  keys : core.entries.keys = start.entries.keys
  config : core.config = start.config
  directory : core.directory = start.directory
  clock : start.directoryClock ≤ core.directoryClock
  drift : ∀ account, core.drift account = start.drift account

/-- The device copies that are gone. -/
def lost (start core : Core) (other : ExpertKey) : Bool :=
  (start.entry other).device.isSome && (core.entry other).device.isNone

/-- The directory gives up every device copy that no route pins. -/
structure Yielding (core : Core) : Prop where
  steady : core.SteadyDirectory
  retires : ∀ other, core.routePinned other = false → core.tryRetire other = true

theorem yielding_of_none (hnone : core.directory = none) : core.Yielding := by
  refine ⟨fun directory hdirectory => ?_, fun other _ => ?_⟩
  · rw [hnone] at hdirectory
    cases hdirectory
  · rw [tryRetire, hnone]
    rfl

namespace Relieved

theorem refl : Relieved key resident core core :=
  ⟨fun _ => Or.inl rfl, rfl, rfl, rfl, Nat.le_refl _, fun _ => rfl⟩

theorem atScan (h : Relieved key resident start core) (scans : Nat) :
    Relieved key resident start (core.atScan scans) :=
  { h with clock := h.clock.trans (Nat.le_add_right _ _) }

variable (h : Relieved key resident start core)
include h

theorem kept_or_lost (other : ExpertKey) :
    (lost start core other = false ∧ core.entry other = start.entry other) ∨
      (lost start core other = true ∧ start.replaceable key resident other ∧
        core.entry other = (start.entry other).evicted false true) := by
  rcases h.entry other with hsame | ⟨hreplaceable, hevicted⟩
  · left
    refine ⟨?_, hsame⟩
    rw [lost, hsame]
    cases (start.entry other).device <;> rfl
  · right
    refine ⟨?_, hreplaceable, hevicted⟩
    rw [lost, (replaceable_iff.1 hreplaceable).2.2.1, hevicted, Entry.evicted_taken.device]
    rfl

theorem entry_of_kept (hkept : lost start core other = false) :
    core.entry other = start.entry other := by
  rcases h.kept_or_lost other with ⟨-, hsame⟩ | ⟨hlost, -⟩
  · exact hsame
  · rw [hlost] at hkept
    cases hkept

theorem replaceable_of_lost (hlost : lost start core other = true) :
    start.replaceable key resident other := by
  rcases h.kept_or_lost other with ⟨hkept, -⟩ | ⟨-, hreplaceable, -⟩
  · rw [hkept] at hlost
    cases hlost
  · exact hreplaceable

theorem yielding (hyield : start.Yielding) : core.Yielding where
  steady := hyield.steady.of_later h.directory h.clock
  retires other hpinned := by
    obtain ⟨hpins, hretires⟩ := hyield.steady.later h.directory h.clock other
    rw [hretires]
    exact hyield.retires other (hpins ▸ hpinned)

theorem partitionFor : core.partitionFor = start.partitionFor := by
  funext other
  simp only [Core.partitionFor, h.config]

theorem replaceable_iff (hyield : start.Yielding) : core.replaceable key resident other ↔
    start.replaceable key resident other ∧ lost start core other = false := by
  have hpins := (hyield.steady.later h.directory h.clock other).1
  rcases h.kept_or_lost other with ⟨hkept, hsame⟩ | ⟨hlost, -, hevicted⟩
  · rw [Core.replaceable_iff, Core.replaceable_iff, hsame, hpins, and_iff_left hkept]
  · refine iff_of_false (fun hreplaceable => ?_) fun hboth => ?_
    · have hdevice := (Core.replaceable_iff.1 hreplaceable).2.2.1
      rw [hevicted, Entry.evicted_taken.device] at hdevice
      cases hdevice
    · rw [hlost] at hboth
      cases hboth.2

theorem load {account : Account} {chosen : ExpertKey → Bool}
    (hcharge : ∀ other, start.replaceable key resident other →
      ((start.entry other).charge (start.partitionFor other) account).toNat =
        if chosen other then (start.entry other).vramReserved.toNat else 0)
    (hnone : ∀ other home, ((start.entry other).evicted false true).vramReserved = 0 →
      ((start.entry other).evicted false true).charge home account = 0) :
    core.load account + start.reservedBy (fun other => lost start core other && chosen other) =
      start.load account := by
  unfold Core.load reservedBy Table.sum
  rw [h.keys, h.partitionFor, ← List.sum_map_add]
  refine congrArg List.sum (List.map_congr_left fun other _ => ?_)
  show ((core.entry other).charge (start.partitionFor other) account).toNat +
      (if start.lost core other && chosen other then (start.entry other).vramReserved.toNat else 0) =
    ((start.entry other).charge (start.partitionFor other) account).toNat
  rcases h.kept_or_lost other with ⟨hkept, hsame⟩ | ⟨hlost, hreplaceable, hevicted⟩
  · rw [hsame, hkept]
    rfl
  · have hzero : ((start.entry other).evicted false true).vramReserved = 0 := by
      rw [Entry.evicted_taken.vramReserved, (Core.replaceable_iff.1 hreplaceable).2.2.1]
      rfl
    rw [hevicted, hnone other _ hzero, hcharge other hreplaceable, hlost, Bool.true_and,
      UInt64.toNat_zero, Nat.zero_add]

theorem load_class : core.load (.vramClass resident) + start.reservedBy (lost start core) =
    start.load (.vramClass resident) := by
  have hload := @Relieved.load _ _ _ _ h (.vramClass resident) (fun _ => true)
    (fun other hreplaceable => by
      simp only [Entry.charge, (Core.replaceable_iff.1 hreplaceable).2.2.2.1, if_true])
    (fun other home hzero => by simp [Entry.charge, hzero])
  simpa using hload

end Relieved

theorem Relieved.load_partition (h : Relieved key true start core) (partition : Nat) :
    core.load (.vramPartition partition) + start.reservedBy (fun other =>
      lost start core other && start.partitionFor other = partition) =
      start.load (.vramPartition partition) :=
  h.load (fun other hreplaceable => by
      simp only [Entry.charge, (Core.replaceable_iff.1 hreplaceable).2.2.2.1, true_and,
        decide_eq_true_eq]
      split <;> rfl)
    (fun other home hzero => by simp [Entry.charge, hzero])

variable {request : EvictionRequest} {vramNeed need : UInt64}

theorem Relieved.evict (h : Relieved key resident start core)
    (hyield : start.Yielding) (hreplaceable : core.replaceable key resident victim)
    (honly : EvictsOnly request victim core core') (hram : request.needRam = false)
    (hvram : request.needVram = true) (hconfig : core'.config = core.config)
    (hdirectory : core'.directory = core.directory)
    (hclock : core.directoryClock ≤ core'.directoryClock) :
    Relieved key resident start core' ∧
      ∀ other, lost start core' other = (lost start core other || other = victim) := by
  obtain ⟨hstart, hkept⟩ := (h.replaceable_iff hyield).1 hreplaceable
  have hvictim : core'.entry victim = (start.entry victim).evicted false true := by
    rw [honly.evicted, hram, hvram, h.entry_of_kept hkept]
  refine ⟨⟨fun other => ?_, honly.keys.trans h.keys, hconfig.trans h.config,
    hdirectory.trans h.directory, h.clock.trans hclock,
    fun account => (honly.drift account).trans (h.drift account)⟩, fun other => ?_⟩
  · by_cases heq : other = victim
    · rw [heq]
      exact Or.inr ⟨hstart, hvictim⟩
    · rw [honly.others other heq]
      exact h.entry other
  · by_cases heq : other = victim
    · rw [heq, lost, hvictim, Entry.evicted_taken.device, (Core.replaceable_iff.1 hstart).2.2.1]
      simp
    · rw [lost, honly.others other heq, lost, decide_eq_false heq, Bool.or_false]

/-! ## Rounds -/

/-- The requests of `make_vram_class_capacity_locked`. -/
def classRequest (key : ExpertKey) (resident : Bool) (partition : Option Nat)
    (limit : Option UInt64) : EvictionRequest :=
  { needRam := false, needVram := true, excluded := some key, requiredPartition := partition,
    requiredVramClass := some resident, maximumTemperatureExclusive := limit }

/-- A copy that a round with this temperature limit can take. -/
def Takeable (core : Core) (key : ExpertKey) (resident : Bool) (limit : Option UInt64)
    (other : ExpertKey) : Prop :=
  core.replaceable key resident other ∧ ∀ bound ∈ limit, (core.entry other).temperature < bound

variable {partition : Option Nat} {limit : Option UInt64}

theorem passes_classRequest :
    core.Passes (classRequest key resident partition limit) other ↔
      core.Takeable key resident limit other ∧ ∀ home ∈ partition, core.partitionFor other = home := by
  rw [Takeable, replaceable_iff, evictable_iff]
  constructor
  · rintro ⟨-, hincluded, hreferences, hwaiters, hidle, hstate, hpinned, hwanted, hclass, -, hcolder,
      hpartition, -⟩
    have hdevice : (core.entry other).device.isSome := by simpa [classRequest] using hwanted
    refine ⟨⟨⟨fun heq => hincluded (congrArg some heq.symm), ⟨hreferences, hwaiters, hidle, hstate⟩,
      hdevice, (hclass rfl resident rfl).2, hpinned rfl hdevice⟩, hcolder⟩, hpartition⟩
  · rintro ⟨⟨⟨hne, ⟨hreferences, hwaiters, hidle, hstate⟩, hdevice, hclass, hpinned⟩, hcolder⟩,
      hpartition⟩
    refine ⟨?_, fun heq => hne (Option.some.inj heq).symm, hreferences, hwaiters, hidle, hstate,
      fun _ _ => hpinned, Or.inr ⟨rfl, hdevice⟩, fun _ _ hsome => ?_, by simp [classRequest], hcolder,
      hpartition, by simp [classRequest]⟩
    · by_contra habsent
      rw [entry_of_not_mem habsent] at hdevice
      cases hdevice
    · cases hsome
      exact ⟨hdevice, hclass⟩

theorem temperature_le_of_rank
    (h : core.victimRank request victim ≤ core.victimRank request other) :
    (core.entry victim).temperature ≤ (core.entry other).temperature := by
  rcases Prod.Lex.toLex_le_toLex.1 h with hless | ⟨hsame, -⟩
  · exact Nat.le_of_lt hless
  · exact Nat.le_of_eq hsame

theorem Yielding.evictOne (h : core.Yielding) :
    ((core.evictOneLocked (classRequest key resident partition limit)).1 = true ↔
      ∃ other, core.Takeable key resident limit other ∧
        ∀ home ∈ partition, core.partitionFor other = home) ∧
    ((core.evictOneLocked (classRequest key resident partition limit)).1 = true → ∃ victim,
      (core.Takeable key resident limit victim ∧
        ∀ home ∈ partition, core.partitionFor victim = home) ∧
      (∀ other, core.Takeable key resident limit other →
        (∀ home ∈ partition, core.partitionFor other = home) →
          (core.entry victim).temperature ≤ (core.entry other).temperature) ∧
      EvictsOnly (classRequest key resident partition limit) victim core
        (core.evictOneLocked (classRequest key resident partition limit)).2) := by
  have hretires : ∀ {other}, core.Passes (classRequest key resident partition limit) other →
      core.Retires (classRequest key resident partition limit) other :=
    fun hpasses hneed hdevice => h.retires _ (hpasses.unpinned hneed hdevice)
  obtain ⟨hfound, hvictim⟩ := @SteadyDirectory.evictOne _
    (classRequest key resident partition limit) h.steady
  constructor
  · rw [hfound]
    constructor
    · rintro ⟨other, hpasses, -⟩
      exact ⟨other, passes_classRequest.1 hpasses⟩
    · rintro ⟨other, htakeable⟩
      have hpasses := passes_classRequest.2 htakeable
      exact ⟨other, hpasses, hretires hpasses⟩
  · intro hsome
    obtain ⟨victim, hpasses, -, hleast, honly⟩ := hvictim hsome
    refine ⟨victim, passes_classRequest.1 hpasses, fun other htakeable hhome => ?_, honly⟩
    have hother := passes_classRequest.2 ⟨htakeable, hhome⟩
    exact temperature_le_of_rank (hleast other hother (hretires hother))

/-- The partition of the demand would be over its quota. -/
def crowded (core : Core) (vramNeed : UInt64) (key : ExpertKey) (resident : Bool) : Bool :=
  resident && core.config.placement.layerPartitionCount > 1 &&
    core.counters.vramPartitionBytes (core.partitionFor key) + vramNeed >
      core.partitionQuota core.config.vram core.config.placement.vramSharedBurstBytes

/-- What a round takes: the coldest copy at home while it is crowded there, else the coldest
copy of all. -/
structure Taking (core : Core) (vramNeed : UInt64) (key : ExpertKey) (resident : Bool)
    (limit : Option UInt64) (victim : ExpertKey) : Prop where
  takeable : core.Takeable key resident limit victim
  coldest : (core.crowded vramNeed key resident ∧ core.atHome key victim ∧
      ∀ other, core.Takeable key resident limit other → core.atHome key other →
        (core.entry victim).temperature ≤ (core.entry other).temperature) ∨
    (core.crowded vramNeed key resident → ∀ other, core.Takeable key resident limit other →
        core.atHome key other = false) ∧
      ∀ other, core.Takeable key resident limit other →
        (core.entry victim).temperature ≤ (core.entry other).temperature

theorem atHome_iff : core.atHome key other ↔ core.partitionFor other = core.partitionFor key :=
  decide_eq_true_iff

theorem evictVramClass_eq :
    core.evictVramClass vramNeed key resident limit =
      orElse (if core.crowded vramNeed key resident then
        core.evictOneLocked (classRequest key true (some (core.partitionFor key)) limit)
        else (false, core))
        fun core => core.evictOneLocked (classRequest key resident none limit) := rfl

section

variable {vramNeed : UInt64} (h : Relieved key resident start core) (hyield : start.Yielding)
include h hyield

theorem Relieved.taken {request : EvictionRequest} (hrequest : request = classRequest key resident
      partition limit) (htakeable : core.Takeable key resident limit victim)
    (honly : EvictsOnly request victim core (core.evictOneLocked request).2) :
    Relieved key resident start (core.evictOneLocked request).2 ∧
      ∀ other, lost start (core.evictOneLocked request).2 other =
        (lost start core other || other = victim) := by
  have hasks := @evictOne_asks core request
  have hconfig := (@evictOne_evictor request.excluded (fun _ => request) (fun _ => rfl) core).1.config
  exact h.evict hyield htakeable.1 honly (by rw [hrequest]; rfl) (by rw [hrequest]; rfl) hconfig
    hasks.1 hasks.2

theorem Relieved.round :
    ((core.evictVramClass vramNeed key resident limit).1 = false →
      ∀ other, ¬ core.Takeable key resident limit other) ∧
    ((core.evictVramClass vramNeed key resident limit).1 = true → ∃ victim,
      core.Taking vramNeed key resident limit victim ∧
      Relieved key resident start (core.evictVramClass vramNeed key resident limit).2 ∧
      ∀ other, lost start (core.evictVramClass vramNeed key resident limit).2 other =
        (lost start core other || other = victim)) := by
  have hcore := h.yielding hyield
  have hany : ∀ scans, (core.crowded vramNeed key resident → ∀ other,
      core.Takeable key resident limit other → core.atHome key other = false) →
      (((core.atScan scans).evictOneLocked (classRequest key resident none limit)).1 = false →
        ∀ other, ¬ core.Takeable key resident limit other) ∧
      (((core.atScan scans).evictOneLocked (classRequest key resident none limit)).1 = true →
        ∃ victim, core.Taking vramNeed key resident limit victim ∧
        Relieved key resident start
          ((core.atScan scans).evictOneLocked (classRequest key resident none limit)).2 ∧
        ∀ other, lost start
          ((core.atScan scans).evictOneLocked (classRequest key resident none limit)).2 other =
            (lost start core other || other = victim)) := by
    intro scans hempty
    have hscanned := h.atScan scans
    have htakeable : ∀ other, (core.atScan scans).Takeable key resident limit other ↔
        core.Takeable key resident limit other := by
      intro other
      rw [Takeable, Takeable, hscanned.replaceable_iff hyield, h.replaceable_iff hyield]
      exact Iff.rfl
    obtain ⟨hfound, hvictim⟩ := @Yielding.evictOne _ key resident none limit
      (hscanned.yielding hyield)
    constructor
    · intro hfalse other hother
      rw [← Bool.not_eq_true, hfound] at hfalse
      exact hfalse ⟨other, (htakeable other).2 hother, by simp⟩
    · intro htrue
      obtain ⟨victim, ⟨hvictim, -⟩, hleast, honly⟩ := hvictim htrue
      obtain ⟨hrelieved, hlost⟩ := hscanned.taken hyield rfl hvictim honly
      refine ⟨victim, ⟨(htakeable victim).1 hvictim, Or.inr ⟨hempty, fun other hother => ?_⟩⟩,
        hrelieved, hlost⟩
      exact hleast other ((htakeable other).2 hother) (by simp)
  rw [evictVramClass_eq]
  by_cases hcrowded : core.crowded vramNeed key resident
  · rw [if_pos hcrowded]
    have hresident : resident = true := by
      unfold crowded at hcrowded
      simp only [Bool.and_eq_true] at hcrowded
      exact hcrowded.1.1
    subst hresident
    obtain ⟨hfound, hvictim⟩ := @Yielding.evictOne _ key true (some (core.partitionFor key)) limit
      hcore
    cases hown : (core.evictOneLocked (classRequest key true (some (core.partitionFor key))
        limit)).1 with
    | true =>
      rw [orElse, if_pos hown]
      refine ⟨fun hfalse => ?_, fun _ => ?_⟩
      · rw [hown] at hfalse
        cases hfalse
      · obtain ⟨victim, ⟨htakeable, hhome⟩, hleast, honly⟩ := hvictim hown
        obtain ⟨hrelieved, hlost⟩ := h.taken hyield rfl htakeable honly
        refine ⟨victim, ⟨htakeable, Or.inl ⟨hcrowded, atHome_iff.2 (hhome _ rfl),
          fun other hother hthere => ?_⟩⟩, hrelieved, hlost⟩
        refine hleast other hother fun home hsome => ?_
        cases hsome
        exact atHome_iff.1 hthere
    | false =>
      obtain ⟨refused, -, -, -, hafter⟩ := core.evictOneLocked_least
        (classRequest key true (some (core.partitionFor key)) limit)
      rw [orElse, if_neg (by rw [hown]; simp), hafter hown]
      refine hany (refused.length + 1) fun _ other hother => ?_
      rw [← Bool.not_eq_true]
      intro hthere
      rw [← Bool.not_eq_true, hfound] at hown
      refine hown ⟨other, hother, fun home hsome => ?_⟩
      cases hsome
      exact atHome_iff.1 hthere
  · rw [if_neg hcrowded, orElse, if_neg (by simp)]
    exact hany 0 fun hyes => absurd hyes hcrowded

end

theorem lost_of_evicts {excluded : Option ExpertKey} (h : Evicts excluded core core')
    (hlost : lost start core other = true) : lost start core' other = true := by
  rw [lost, Bool.and_eq_true, Option.isNone_iff_eq_none] at hlost ⊢
  refine ⟨hlost.1, @Trace.lift _ _ _ (fun later => (later.entry other).device = none) h.trace ?_
    hlost.2⟩
  intro before after act hspare hact hnone
  rcases hspare with rfl | ⟨victim, needRam, needVram, rfl, -⟩
  · exact (Entry.field_of_body Entry.device (Noted.body hact other)).trans hnone
  · by_cases heq : other = victim
    · rw [heq] at hnone ⊢
      rw [hact.entry, Entry.moved, Entry.evicted_taken.device, hnone, ite_self]
    · rw [hact.others other heq, hnone]

/-- The copies that the demand can take in its own partition are cold. -/
def ownColdBytes (core : Core) (key : ExpertKey) : Nat :=
  core.reservedBy fun other =>
    core.replaceable key true other && core.colder key other && core.atHome key other

/-- The test of the loop of `make_vram_class_capacity_locked`. -/
def classPressed (limit : UInt64) (vramNeed : UInt64) (resident : Bool) (core : Core) : Bool :=
  core.counters.balance (.vramClass resident) + vramNeed > limit

theorem load_vramPartition_le {partition : Nat} :
    core.load (.vramPartition partition) ≤ core.load (.vramClass true) := by
  refine Table.sum_le_sum fun other _ => ?_
  simp only [Entry.charge]
  by_cases hclass : (core.entries.get other).vramResident
  · rw [if_pos hclass]
    split
    next => exact Nat.le_refl _
    next => exact Nat.zero_le _
  · rw [if_neg fun hboth => hclass hboth.1]
    exact Nat.zero_le _

section

variable {need : UInt64} (h : Relieved key resident start core) (hclassed : start.Classed)
  (hfits : start.load (.vramClass resident) + need.toNat < 2 ^ 64)
include h hclassed hfits

theorem Relieved.pressed_iff :
    classPressed (start.config.vramClassLimit resident) need resident core ↔
    (start.config.vramClassLimit resident).toNat + start.reservedBy (lost start core) <
      start.load (.vramClass resident) + need.toNat := by
  have hload := h.load_class
  have hbytes : (core.counters.balance (.vramClass resident)).toNat =
      core.load (.vramClass resident) := by
    refine balance_eq_load ?_ (by omega)
    rw [h.drift, hclassed.levels _ rfl]
  rw [classPressed, decide_eq_true_iff, gt_iff_lt, UInt64.lt_iff_toNat_lt, UInt64.toNat_add, hbytes,
    Nat.mod_eq_of_lt (by omega)]
  omega

end

theorem Relieved.crowded_iff (h : Relieved key true start core) (hclassed : start.Classed)
    (hfits : start.load (.vramClass true) + need.toNat < 2 ^ 64) :
    core.crowded need key true ↔ start.config.placement.layerPartitionCount > 1 ∧
      (start.partitionQuota start.config.vram start.config.placement.vramSharedBurstBytes).toNat +
          start.reservedBy (fun other => lost start core other && start.atHome key other) <
        start.load (.vramPartition (start.partitionFor key)) + need.toNat := by
  have hload := h.load_partition (start.partitionFor key)
  have hle := @load_vramPartition_le start (start.partitionFor key)
  have hbytes : (core.counters.vramPartitionBytes (start.partitionFor key)).toNat =
      core.load (.vramPartition (start.partitionFor key)) := by
    refine @balance_eq_load core (.vramPartition (start.partitionFor key)) ?_ (by omega)
    rw [h.drift, hclassed.levels _ rfl]
  have hquota : core.partitionQuota core.config.vram core.config.placement.vramSharedBurstBytes =
      start.partitionQuota start.config.vram start.config.placement.vramSharedBurstBytes := by
    simp only [partitionQuota, h.config]
  have hhome : (fun other => lost start core other && start.atHome key other) =
      fun other => lost start core other &&
        decide (start.partitionFor other = start.partitionFor key) := rfl
  rw [crowded, hquota, h.partitionFor, h.config, hhome]
  simp only [Bool.true_and, Bool.and_eq_true, decide_eq_true_eq]
  refine and_congr_right fun _ => ?_
  rw [gt_iff_lt, UInt64.lt_iff_toNat_lt, UInt64.toNat_add, hbytes, Nat.mod_eq_of_lt (by omega)]
  omega

/-! ## Loops -/

/-- The temperature limit of an admission to the class. -/
def admissionLimit (core : Core) (key : ExpertKey) (resident : Bool) : Option UInt64 :=
  if resident && core.config.placement.vramTransientBytes ≠ 0 then
    some (core.entry key).temperature
  else none

/-- The rounds of an admission of `key` that needs these bytes. -/
def relieve (core : Core) (vramNeed : UInt64) (key : ExpertKey) (resident : Bool) : Bool × Core :=
  core.evictWhile (classPressed (core.config.vramClassLimit resident) vramNeed resident)
    fun later => later.evictVramClass vramNeed key resident (core.admissionLimit key resident)

theorem makeVramClassCapacity_eq (hneed : vramNeed ≠ 0)
    (hlimit : vramNeed ≤ core.config.vramClassLimit resident) :
    core.makeVramClassCapacityLocked vramNeed key resident (core.entry key).temperature =
      core.relieve vramNeed key resident := by
  have hfits : ¬vramNeed > core.config.vramClassLimit resident := UInt64.not_lt.2 hlimit
  cases resident <;> exact (if_neg hneed).trans (if_neg hfits)

/-- Where the rounds look for the coldest copy, or have cold ones enough before them. -/
def Spared (core : Core) (vramNeed : UInt64) (key : ExpertKey) (resident : Bool) : Prop :=
  resident = false ∨ core.config.placement.vramTransientBytes ≠ 0 ∨
    core.config.placement.layerPartitionCount ≤ 1 ∨
    core.load (.vramClass true) + vramNeed.toNat ≤
      (core.config.vramClassLimit true).toNat + core.ownColdBytes key ∨
    core.load (.vramPartition (core.partitionFor key)) + vramNeed.toNat ≤
      (core.partitionQuota core.config.vram core.config.placement.vramSharedBurstBytes).toNat +
        core.ownColdBytes key ∨
    ∀ other, core.replaceable key true other → core.atHome key other → core.colder key other

theorem admissionLimit_eq {bound : UInt64} (h : bound ∈ core.admissionLimit key resident) :
    bound = (core.entry key).temperature := by
  unfold admissionLimit at h
  split at h
  next => exact (Option.some.inj h).symm
  next => cases h

theorem colder_iff : core.colder key other ↔
    (core.entry other).temperature < (core.entry key).temperature :=
  decide_eq_true_iff

section

variable (h : Relieved key resident start core)

include h

theorem Relieved.takeable_of_cold (hyield : start.Yielding)
    (hreplaceable : start.replaceable key resident other)
    (hcold : start.colder key other) (hkept : lost start core other = false) :
    core.Takeable key resident (start.admissionLimit key resident) other ∧
      (core.entry other).temperature < (start.entry key).temperature := by
  have hless := colder_iff.1 hcold
  refine ⟨⟨(h.replaceable_iff hyield).2 ⟨hreplaceable, hkept⟩, fun bound hbound => ?_⟩, ?_⟩
  · rw [admissionLimit_eq hbound, h.entry_of_kept hkept]
    exact hless
  · rw [h.entry_of_kept hkept]
    exact hless

theorem Relieved.cold_left
    (hclassed : start.Classed) (hfits : start.load (.vramClass resident) + need.toNat < 2 ^ 64)
    (hcovers : start.load (.vramClass resident) + need.toNat ≤
      (start.config.vramClassLimit resident).toNat + start.coldBytes key resident)
    (hpressed : classPressed (start.config.vramClassLimit resident) need resident core) :
    ∃ other, start.replaceable key resident other ∧ start.colder key other ∧
      lost start core other = false := by
  have hless := (h.pressed_iff hclassed hfits).1 hpressed
  by_contra hnone
  have hall : start.coldBytes key resident ≤ start.reservedBy (lost start core) := by
    refine reservedBy_le fun other hchosen => ?_
    rw [Bool.and_eq_true] at hchosen
    by_contra hkept
    exact hnone ⟨other, hchosen.1, hchosen.2, by simpa using hkept⟩
  omega

/-- A round takes a cold copy, as long as only cold ones are gone and the demand is spared. -/
theorem Relieved.takes_cold (hclassed : start.Classed) (hyield : start.Yielding)
    (hfits : start.load (.vramClass resident) + need.toNat < 2 ^ 64)
    (hcovers : start.load (.vramClass resident) + need.toNat ≤
      (start.config.vramClassLimit resident).toNat + start.coldBytes key resident)
    (hspared : start.Spared need key resident)
    (hpressed : classPressed (start.config.vramClassLimit resident) need resident core)
    (htaking : core.Taking need key resident (start.admissionLimit key resident) victim) :
    start.colder key victim := by
  obtain ⟨hreplaceable, hkept⟩ := (h.replaceable_iff hyield).1 htaking.takeable.1
  have hsame := h.entry_of_kept hkept
  have hcold_of_le : ∀ other, start.replaceable key resident other → start.colder key other →
      lost start core other = false →
      (core.entry victim).temperature ≤ (core.entry other).temperature →
        start.colder key victim := by
    intro other hother hcold hleft hle
    have hless := (h.takeable_of_cold hyield hother hcold hleft).2
    rw [colder_iff, ← hsame]
    exact UInt64.lt_of_le_of_lt hle hless
  rcases htaking.coldest with ⟨hcrowded, hhome, hleast⟩ | ⟨-, hleast⟩
  · have hresident : resident = true := by
      unfold crowded at hcrowded
      simp only [Bool.and_eq_true] at hcrowded
      exact hcrowded.1.1
    subst hresident
    have hhere : start.atHome key victim := by
      rw [atHome_iff] at hhome ⊢
      rw [h.partitionFor] at hhome
      exact hhome
    by_contra hhot
    have hown : ∀ other, start.replaceable key true other && start.colder key other &&
        start.atHome key other → lost start core other && start.atHome key other := by
      intro other hchosen
      simp only [Bool.and_eq_true] at hchosen
      obtain ⟨⟨hother, hcold⟩, hthere⟩ := hchosen
      by_contra hleft
      have hleft : lost start core other = false := by simpa [hthere] using hleft
      have htakeable := (h.takeable_of_cold hyield hother hcold hleft).1
      refine hhot (hcold_of_le other hother hcold hleft (hleast other htakeable ?_))
      rw [atHome_iff, h.partitionFor]
      exact atHome_iff.1 hthere
    have hgone : start.ownColdBytes key ≤
        start.reservedBy fun other => lost start core other && start.atHome key other :=
      reservedBy_le hown
    have hless := (h.pressed_iff hclassed hfits).1 hpressed
    obtain ⟨hcount, hquota⟩ := (h.crowded_iff hclassed hfits).1 hcrowded
    have hall : start.reservedBy (fun other => lost start core other && start.atHome key other) ≤
        start.reservedBy (lost start core) :=
      reservedBy_le fun other hboth => (Bool.and_eq_true _ _ ▸ hboth).1
    rcases hspared with hfalse | hring | hsingle | hclass | hpartition | hnone
    · cases hfalse
    · have hbound : (start.entry key).temperature ∈ start.admissionLimit key true := by
        simp [admissionLimit, hring]
      refine hhot (colder_iff.2 ?_)
      rw [← hsame]
      exact htaking.takeable.2 _ hbound
    · exact absurd hcount (UInt32.not_lt.2 hsingle)
    · omega
    · omega
    · exact hhot (hnone victim hreplaceable hhere)
  · obtain ⟨other, hother, hcold, hleft⟩ := h.cold_left hclassed hfits hcovers hpressed
    exact hcold_of_le other hother hcold hleft
      (hleast other (h.takeable_of_cold hyield hother hcold hleft).1)

end

section

variable {need : UInt64}

section

variable (hclassed : start.Classed) (hyield : start.Yielding)
  (hfits : start.load (.vramClass resident) + need.toNat < 2 ^ 64)

include hclassed hyield hfits

/-- A spared demand that the cold copies make room for takes only such copies, and gets room. -/
theorem relieve_cold (hcovers : start.load (.vramClass resident) + need.toNat ≤
      (start.config.vramClassLimit resident).toNat + start.coldBytes key resident)
    (hspared : start.Spared need key resident) :
    (start.relieve need key resident).1 = true ∧
      Relieved key resident start (start.relieve need key resident).2 ∧
      (∀ other, lost start (start.relieve need key resident).2 other → start.colder key other) ∧
      classPressed (start.config.vramClassLimit resident) need resident
        (start.relieve need key resident).2 = false := by
  let invariant (core : Core) : Prop :=
    Relieved key resident start core ∧ ∀ other, lost start core other → start.colder key other
  have hstart : invariant start := by
    refine ⟨.refl, fun other hlost => ?_⟩
    rw [lost] at hlost
    cases hdevice : (start.entry other).device <;> simp [hdevice] at hlost
  have hkeeps : ∀ core, invariant core →
      classPressed (start.config.vramClassLimit resident) need resident core = true →
      (core.evictVramClass need key resident (start.admissionLimit key resident)).1 = true →
      invariant (core.evictVramClass need key resident (start.admissionLimit key resident)).2 := by
    intro core ⟨hrelieved, hcold⟩ hpressed hround
    obtain ⟨victim, htaking, hnext, hlost⟩ := (hrelieved.round hyield).2 hround
    refine ⟨hnext, fun other hother => ?_⟩
    rw [hlost, Bool.or_eq_true, decide_eq_true_iff] at hother
    rcases hother with hbefore | rfl
    · exact hcold other hbefore
    · exact hrelieved.takes_cold hclassed hyield hfits hcovers hspared hpressed htaking
  rcases evictLoop_stops evictVramClass_evictor hkeeps (start.copies + 1) start
    (Nat.lt_succ_self _) hstart with ⟨htrue, hend, hrelaxed⟩ | ⟨last, hlast, hpressed, hstuck, -⟩
  · exact ⟨htrue, hend.1, hend.2, hrelaxed⟩
  · obtain ⟨other, hother, hcold, hleft⟩ := hlast.1.cold_left hclassed hfits hcovers hpressed
    have htakeable := (hlast.1.takeable_of_cold hyield hother hcold hleft).1
    exact absurd htakeable ((hlast.1.round hyield).1 hstuck other)

theorem relieve_hot (hspared : ¬ start.Spared need key resident) :
    ∃ other, lost start (start.relieve need key resident).2 other ∧ ¬ start.colder key other := by
  simp only [Spared, not_or, Bool.not_eq_false, not_not, not_le, not_forall] at hspared
  obtain ⟨hresident, hring, hcount, hclass, hpartition, hot, hhot, hhome, hwarm⟩ := hspared
  subst hresident
  have hlimit : start.admissionLimit key true = none := by
    simp [admissionLimit, hring]
  let invariant (core : Core) : Prop := Relieved key true start core ∧
    ((∃ other, lost start core other ∧ ¬ start.colder key other) ∨
      ∀ other, lost start core other → start.colder key other ∧ start.atHome key other)
  have hstill : ∀ core, Relieved key true start core →
      (∀ other, lost start core other → start.colder key other ∧ start.atHome key other) →
      classPressed (start.config.vramClassLimit true) need true core = true ∧
        core.crowded need key true = true ∧
        core.Takeable key true (start.admissionLimit key true) hot := by
    intro core hrelieved hown
    have hgone : start.reservedBy (lost start core) ≤ start.ownColdBytes key := by
      refine reservedBy_le fun other hlost => ?_
      rw [hrelieved.replaceable_of_lost hlost, (hown other hlost).1, (hown other hlost).2]
      rfl
    have hthere : start.reservedBy (fun other => lost start core other && start.atHome key other) ≤
        start.reservedBy (lost start core) :=
      reservedBy_le fun other hboth => (Bool.and_eq_true _ _ ▸ hboth).1
    refine ⟨(hrelieved.pressed_iff hclassed hfits).2 (by omega),
      (hrelieved.crowded_iff hclassed hfits).2 ⟨UInt32.not_le.1 hcount, by omega⟩, ?_, ?_⟩
    · refine (hrelieved.replaceable_iff hyield).2 ⟨hhot, ?_⟩
      by_contra hlost
      exact hwarm (hown hot (by simpa using hlost)).1
    · rw [hlimit]
      simp
  have hstart : invariant start := by
    refine ⟨.refl, Or.inr fun other hlost => ?_⟩
    rw [lost] at hlost
    cases hdevice : (start.entry other).device <;> simp [hdevice] at hlost
  have hkeeps : ∀ core, invariant core →
      classPressed (start.config.vramClassLimit true) need true core = true →
      (core.evictVramClass need key true (start.admissionLimit key true)).1 = true →
      invariant (core.evictVramClass need key true (start.admissionLimit key true)).2 := by
    intro core hkept hpressed hround
    obtain ⟨hrelieved, hgone⟩ := hkept
    obtain ⟨victim, htaking, hnext, hlost⟩ := (hrelieved.round hyield).2 hround
    refine ⟨hnext, ?_⟩
    rcases hgone with ⟨other, hother, hnotcold⟩ | hown
    · exact Or.inl ⟨other, by rw [hlost, hother]; rfl, hnotcold⟩
    · obtain ⟨-, hcrowded, htakeable⟩ := hstill core hrelieved hown
      rcases htaking.coldest with ⟨-, hvictim, -⟩ | ⟨hempty, -⟩
      · by_cases hcold : start.colder key victim
        · right
          intro other hother
          rw [hlost, Bool.or_eq_true, decide_eq_true_iff] at hother
          rcases hother with hbefore | rfl
          · exact hown other hbefore
          · rw [atHome_iff, hrelieved.partitionFor] at hvictim
            exact ⟨hcold, atHome_iff.2 hvictim⟩
        · exact Or.inl ⟨victim, by rw [hlost]; simp, hcold⟩
      · have haway := hempty hcrowded hot htakeable
        rw [← Bool.not_eq_true, atHome_iff, hrelieved.partitionFor] at haway
        exact absurd (atHome_iff.1 hhome) haway
  rcases evictLoop_stops evictVramClass_evictor hkeeps (start.copies + 1) start
    (Nat.lt_succ_self _) hstart with ⟨-, ⟨hrelieved, hgone⟩, hrelaxed⟩ |
      ⟨last, ⟨hrelieved, hgone⟩, -, hstuck, hresult⟩
  · rcases hgone with hfound | hown
    · exact hfound
    · rw [(hstill _ hrelieved hown).1] at hrelaxed
      cases hrelaxed
  · rcases hgone with ⟨other, hother, hnotcold⟩ | hown
    · refine ⟨other, ?_, hnotcold⟩
      rw [relieve, evictWhile, hresult]
      exact lost_of_evicts (evictVramClass_evictor last).1 hother
    · exact absurd (hstill last hrelieved hown).2.2 ((hrelieved.round hyield).1 hstuck hot)

end

end

/-! ## Admissions -/

theorem evictWhile_relaxed {pressed : Core → Bool} {evict : Core → Bool × Core}
    (h : pressed core = false) : core.evictWhile pressed evict = (true, core) := by
  simp [evictWhile, evictLoop, h]

section

variable {need temperature : UInt64}

theorem makeGlobalCapacity_eq (hclassed : core.Classed) :
    core.makeGlobalCapacity 0 need key =
      (decide (core.counters.vramBytes + need ≤ core.config.vram.highWatermarkBytes), core) := by
  have hram : core.counters.ramBytes + 0 ≤ core.config.ram.highWatermarkBytes := by
    rw [add_zero, UInt64.le_iff_toNat_le, hclassed.ramBytes]
    exact hclassed.ram
  have hrelaxed : decide (core.counters.ramBytes + 0 > core.config.ram.highWatermarkBytes) = false :=
    decide_eq_false (UInt64.not_lt.2 hram)
  have hloop := @evictWhile_relaxed core (fun core =>
    decide (core.counters.ramBytes + 0 > core.config.ram.highWatermarkBytes))
    (fun core => core.evictGlobalRam key) hrelaxed
  have hroomy : core.makeHeadroom key
      (decide (core.counters.ramBytes + 0 > core.config.ram.highWatermarkBytes)) = core := by
    rw [hrelaxed]
    rfl
  simp only [makeGlobalCapacity]
  rw [hloop]
  show (decide ((core.makeHeadroom key
      (decide (core.counters.ramBytes + 0 > core.config.ram.highWatermarkBytes))).counters.ramBytes +
        0 ≤ _) && _, _) = _
  rw [hroomy, decide_eq_true hram, Bool.true_and]

theorem makeCapacity_eq (hclassed : core.Classed)
    (hneed : need ≤ core.config.vram.highWatermarkBytes) :
    core.makeCapacityLocked 0 need key false resident temperature =
      andThen (core.makeVramClassCapacityLocked need key resident temperature) fun later =>
        later.makeGlobalCapacity 0 need key := by
  have hpartition : core.makePartitionCapacityLocked 0 key = (true, core) := by
    unfold makePartitionCapacityLocked
    split
    next => rfl
    next hcount =>
      refine (if_neg (UInt64.not_lt.2 UInt64.zero_le)).trans (evictWhile_relaxed ?_)
      have hle := hclassed.partitions hcount (core.partitionFor key)
      rw [← hclassed.partitionBytes hcount, ← UInt64.le_iff_toNat_le] at hle
      exact decide_eq_false (UInt64.not_lt.2 (by rw [add_zero]; exact hle))
  have hfits : ¬((decide (0 > core.config.ram.highWatermarkBytes) ||
      decide (need > core.config.vram.highWatermarkBytes)) = true) := by
    simp only [Bool.or_eq_true, decide_eq_true_eq, not_or, gt_iff_lt, UInt64.not_lt]
    exact ⟨UInt64.zero_le, hneed⟩
  unfold makeCapacityLocked
  rw [if_neg hfits, hpartition]
  rfl

theorem makeCapacity_oversize (hneed : core.config.vram.highWatermarkBytes < need) :
    core.makeCapacityLocked 0 need key false resident temperature = (false, core) := by
  exact if_pos (by simp [hneed])

/-- The first attempt of a device admission. -/
def firstAttempt (core : Core) (key : ExpertKey) : Bool × Core :=
  core.makeCapacityLocked 0 (deviceBytes (core.entry key).record) key false (core.demandClass key)
    (core.entry key).temperature

theorem makeDeviceCapacity_first (h : (core.firstAttempt key).1 = true) :
    core.makeDeviceCapacityLocked key 0 false =
      (some (core.demandClass key), (core.firstAttempt key).2) := by
  exact if_pos h

theorem makeDeviceCapacity_later : Evicts (some key) (core.firstAttempt key).2
    (core.makeDeviceCapacityLocked key 0 false).2 := by
  simp only [makeDeviceCapacityLocked]
  split
  next => exact .refl
  next =>
    split
    next => exact makeCapacity_evicts
    next =>
      split
      next => exact makeCapacity_evicts
      next => exact .refl

theorem makeDeviceCapacity_oversize
    (hneed : core.config.vram.highWatermarkBytes < deviceBytes (core.entry key).record) :
    (core.makeDeviceCapacityLocked key 0 false).1 = none := by
  simp only [makeDeviceCapacityLocked, makeCapacity_oversize hneed, Bool.false_eq_true, if_false]
  split
  next => rfl
  next => split <;> rfl

/-- The admission succeeds, and all it takes from device memory is unreferenced and strictly
colder than the demanded entry. -/
def AdmitsColder (core : Core) (key : ExpertKey) : Prop :=
  (core.makeDeviceCapacityLocked key 0 false).1.isSome ∧
    ∀ victim, lost core (core.makeDeviceCapacityLocked key 0 false).2 victim →
      (core.entry victim).references = 0 ∧
        (core.entry victim).temperature < (core.entry key).temperature

theorem classLimits (hclassed : core.Classed) :
    (core.config.vramClassLimit resident).toNat + (core.config.vramClassLimit !resident).toNat =
      core.config.vram.highWatermarkBytes.toNat := by
  have hplaced := hclassed.placed.1
  have hle := UInt64.le_iff_toNat_le.1 hplaced
  have htrue : (core.config.vramClassLimit true).toNat =
      core.config.vram.highWatermarkBytes.toNat -
        core.config.placement.vramTransientBytes.toNat := UInt64.toNat_sub_of_le _ _ hplaced
  have hfalse : (core.config.vramClassLimit false).toNat =
      core.config.placement.vramTransientBytes.toNat := rfl
  cases resident <;> simp only [Bool.not_true, Bool.not_false] <;> omega

theorem room_of_class (hclassed : core.Classed)
    (hroom : core.load (.vramClass resident) + need.toNat ≤
      (core.config.vramClassLimit resident).toNat) :
    core.counters.vramBytes + need ≤ core.config.vram.highWatermarkBytes := by
  have hother := hclassed.classes !resident
  have hlimits := @classLimits _ resident hclassed
  have hload := hclassed.vramBytes
  rw [load_vram] at hload
  rw [UInt64.le_iff_toNat_le, UInt64.toNat_add, hload]
  cases resident <;> simp only [Bool.not_true, Bool.not_false] at hother hlimits <;> omega

theorem makeVramClassCapacity_cold (hclassed : start.Classed) (hyield : start.Yielding)
    (hfits : start.load (.vramClass resident) + need.toNat < 2 ^ 64)
    (hcovers : start.load (.vramClass resident) + need.toNat ≤
      (start.config.vramClassLimit resident).toNat + start.coldBytes key resident)
    (hspared : start.Spared need key resident) :
    let made := start.makeVramClassCapacityLocked need key resident (start.entry key).temperature
    made.1 = true ∧ (∀ other, lost start made.2 other → start.replaceable key resident other ∧
        start.colder key other) ∧
      made.2.load (.vramClass resident) + need.toNat ≤
        (start.config.vramClassLimit resident).toNat := by
  have hload := hclassed.classes resident
  by_cases hzero : need = 0
  · have hmade : start.makeVramClassCapacityLocked need key resident
        (start.entry key).temperature = (true, start) := if_pos hzero
    rw [hmade]
    refine ⟨rfl, fun other hlost => ?_, by rw [hzero]; exact hload⟩
    rw [lost] at hlost
    cases hdevice : (start.entry other).device <;> simp [hdevice] at hlost
  · have hcold := @coldBytes_le start key resident
    have hlimit : need ≤ start.config.vramClassLimit resident := by
      rw [UInt64.le_iff_toNat_le]
      omega
    obtain ⟨htrue, hrelieved, hall, hrelaxed⟩ :=
      relieve_cold hclassed hyield hfits hcovers hspared
    have hroom := hrelieved.load_class
    rw [← Bool.not_eq_true, hrelieved.pressed_iff hclassed hfits, not_lt] at hrelaxed
    simp only [makeVramClassCapacity_eq hzero hlimit]
    exact ⟨htrue, fun other hlost => ⟨hrelieved.replaceable_of_lost hlost, hall other hlost⟩,
      by omega⟩

theorem admitsColder_of_spared (hsound : core.Sound) (hclassed : core.Classed)
    (hyield : core.Yielding)
    (hfits : core.load (.vramClass (core.demandClass key)) +
      (deviceBytes (core.entry key).record).toNat < 2 ^ 64)
    (hcovers : core.load (.vramClass (core.demandClass key)) +
        (deviceBytes (core.entry key).record).toNat ≤
      (core.config.vramClassLimit (core.demandClass key)).toNat +
        core.coldBytes key (core.demandClass key))
    (hspared : core.Spared (deviceBytes (core.entry key).record) key (core.demandClass key)) :
    core.AdmitsColder key := by
  obtain ⟨htrue, hcold, hroom⟩ := makeVramClassCapacity_cold hclassed hyield hfits hcovers hspared
  have hevicts := @makeVramClassCapacity_evicts core key (deviceBytes (core.entry key).record)
    (core.demandClass key) (core.entry key).temperature
  have hneed : deviceBytes (core.entry key).record ≤ core.config.vram.highWatermarkBytes := by
    have hlimit := hclassed.vramClassLimit_le (core.demandClass key)
    rw [UInt64.le_iff_toNat_le]
    omega
  have hafter := hevicts.classed hsound hclassed
  rw [← hevicts.config] at hroom
  have hfirst : core.firstAttempt key = (true, (core.makeVramClassCapacityLocked
      (deviceBytes (core.entry key).record) key (core.demandClass key)
      (core.entry key).temperature).2) := by
    rw [firstAttempt, makeCapacity_eq hclassed hneed, andThen, if_pos htrue,
      makeGlobalCapacity_eq hafter, decide_eq_true (room_of_class hafter hroom)]
  rw [AdmitsColder, makeDeviceCapacity_first (by rw [hfirst]), hfirst]
  refine ⟨rfl, fun victim hlost => ?_⟩
  obtain ⟨hreplaceable, hcolder⟩ := hcold victim hlost
  exact ⟨(evictable_iff.1 (replaceable_iff.1 hreplaceable).2.1).1, colder_iff.1 hcolder⟩

theorem not_admitsColder_of_oversize
    (hneed : core.config.vram.highWatermarkBytes < deviceBytes (core.entry key).record) :
    ¬ core.AdmitsColder key := by
  rintro ⟨hsome, -⟩
  rw [makeDeviceCapacity_oversize hneed] at hsome
  cases hsome

theorem not_admitsColder_of_hot (hclassed : core.Classed)
    (hyield : core.Yielding)
    (hfits : core.load (.vramClass (core.demandClass key)) +
      (deviceBytes (core.entry key).record).toNat < 2 ^ 64)
    (hneed : deviceBytes (core.entry key).record ≤
      core.config.vramClassLimit (core.demandClass key))
    (hspared : ¬ core.Spared (deviceBytes (core.entry key).record) key (core.demandClass key)) :
    ¬ core.AdmitsColder key := by
  rintro ⟨-, hcold⟩
  obtain ⟨other, hlost, hhot⟩ := relieve_hot hclassed hyield hfits hspared
  have hpos : deviceBytes (core.entry key).record ≠ 0 := by
    intro hzero
    have hload := hclassed.classes true
    simp only [Spared, not_or, not_le, hzero, UInt64.toNat_zero] at hspared
    omega
  have hhigh : deviceBytes (core.entry key).record ≤ core.config.vram.highWatermarkBytes := by
    exact hneed.trans (hclassed.vramClassLimit_le _)
  have hfirst : lost core (core.firstAttempt key).2 other := by
    rw [firstAttempt, makeCapacity_eq hclassed hhigh, makeVramClassCapacity_eq hpos hneed]
    rw [andThen]
    split
    next => exact lost_of_evicts makeGlobalCapacity_evicts hlost
    next => exact hlost
  exact hhot (colder_iff.2 (hcold other (lost_of_evicts makeDeviceCapacity_later hfirst)).2)

end

/-- No sum of the test wraps, and the rounds cannot meet a hot copy: they have a temperature
limit or one partition, or enough cold copies in the partition of the demand, or no hot one. -/
structure Agreeing (core : Core) (key : ExpertKey) : Prop where
  fits : (core.counters.balance (.vramClass (core.demandClass key))).toNat +
    (deviceBytes (core.entry key).record).toNat < 2 ^ 64
  spared : core.config.placement.vramTransientBytes ≠ 0 ∨
    core.config.placement.layerPartitionCount ≤ 1 ∨
    core.counters.vramResidentBytes.toNat + (deviceBytes (core.entry key).record).toNat ≤
      (core.config.vramClassLimit true).toNat + core.ownColdBytes key ∨
    (core.counters.vramPartitionBytes (core.partitionFor key)).toNat +
        (deviceBytes (core.entry key).record).toNat ≤
      (core.partitionQuota core.config.vram core.config.placement.vramSharedBurstBytes).toNat +
        core.ownColdBytes key ∨
    ∀ other, core.replaceable key true other → core.atHome key other → core.colder key other

theorem agreeing_iff (hclassed : core.Classed) : core.Agreeing key ↔
    core.load (.vramClass (core.demandClass key)) +
        (deviceBytes (core.entry key).record).toNat < 2 ^ 64 ∧
      core.Spared (deviceBytes (core.entry key).record) key (core.demandClass key) := by
  have hclass := hclassed.classBytes (core.demandClass key)
  have hresident : core.counters.vramResidentBytes.toNat = core.load (.vramClass true) :=
    hclassed.classBytes true
  have hpartition : (core.counters.vramPartitionBytes (core.partitionFor key)).toNat =
      core.load (.vramPartition (core.partitionFor key)) := by
    have hle := @load_vramPartition_le core (core.partitionFor key)
    have hload := hclassed.classes true
    have hlimit := hclassed.vramClassLimit_le true
    have hsmall := hclassed.small.2
    exact @balance_eq_load core (.vramPartition (core.partitionFor key)) (hclassed.levels _ rfl)
      (by omega)
  have hdemand : core.demandClass key = false → core.config.placement.vramTransientBytes ≠ 0 := by
    intro hfalse hring
    simp [demandClass, hring] at hfalse
  constructor
  · rintro ⟨hfits, hspared⟩
    rw [hclass] at hfits
    rw [hresident, hpartition] at hspared
    exact ⟨hfits, Or.inr hspared⟩
  · rintro ⟨hfits, hspared⟩
    refine ⟨by rw [hclass]; exact hfits, ?_⟩
    rw [hresident, hpartition]
    exact hspared.elim (fun hfalse => Or.inl (hdemand hfalse)) id

/-- Where the predictor says yes, the admission does as it says exactly on this condition. -/
theorem admitsColder_iff {record : PayloadRecord} (hsound : core.Sound) (hclassed : core.Classed)
    (hyield : core.Yielding) (hwould : core.vramAdmissionWouldImprove key record = true) :
    core.AdmitsColder key ↔ core.Agreeing key := by
  rw [agreeing_iff hclassed]
  have hload := hclassed.classes (core.demandClass key)
  have hlimit := hclassed.vramClassLimit_le (core.demandClass key)
  have hsmall := hclassed.small.2
  by_cases hfits : core.load (.vramClass (core.demandClass key)) +
      (deviceBytes (core.entry key).record).toNat < 2 ^ 64
  · have hcovers := wouldImprove_covers hsound hclassed hfits hwould
    constructor
    · intro hadmits
      refine ⟨hfits, ?_⟩
      by_contra hspared
      have hcold := @coldBytes_le core key (core.demandClass key)
      exact not_admitsColder_of_hot hclassed hyield hfits
        (UInt64.le_iff_toNat_le.2 (by omega)) hspared hadmits
    · exact fun hagrees => admitsColder_of_spared hsound hclassed hyield hfits hcovers hagrees.2
  · refine iff_of_false (not_admitsColder_of_oversize ?_) fun hboth => hfits hboth.1
    rw [UInt64.lt_iff_toNat_lt]
    omega

end Core

namespace CacheSystem

variable {sha256 : List UInt8 → Sha256Digest} {system start : CacheSystem}
  {config : ExpertCacheConfig} {directory : Option Directory} {slotCount : Nat}
  {slotBytes alignment : UInt64} {reservedDemandSlots : Nat}

/-- In every state of a run that keeps the classes, a prediction holds of the admission exactly
where the two agree on the copies to take. The predictor itself asks that the entry is in RAM
and not on the device. -/
theorem prediction_kept_iff (hboot : boot config directory slotCount slotBytes alignment
      reservedDemandSlots = some start) (hsmall : config.Small)
    (hreach : Reaches (step sha256) KeepsClasses start system) {key : ExpertKey}
    {record : PayloadRecord} (hwould : system.core.vramAdmissionWouldImprove key record = true)
    (hyield : system.core.Yielding) :
    system.core.AdmitsColder key ↔ system.core.Agreeing key :=
  Core.admitsColder_iff (Sound.of_reaches hreach (boot_sound hboot)).core
    (classed_of_reaches hboot hsmall hreach) hyield hwould

/-! ## Two layers in one cache -/

/-- Two blocks of device memory for two layer partitions, and no transient ring. -/
def layeredConfig : ExpertCacheConfig where
  ram := ⟨16384, 16384, 8192⟩
  vram := ⟨8192, 8192, 4096⟩
  placement := { layerPartitionCount := 2 }

def bootLayered : CacheSystem :=
  { core := { config := layeredConfig, directory := none
              buffers := ⟨[false, false], 4096, 4096, 1, 0, 0⟩ } }

theorem bootLayered_eq : boot layeredConfig none 2 4096 4096 1 = some bootLayered := rfl

/-- The record of `relu2Key` with 1 in the field of the layer. -/
def layerRecord : ByteSpan where
  bytes := assembleRecord
    [(2, 1), (2, 256), (4, 0x0d), (4, 4), (4, 1), (4, 0), (4, 32), (4, 32), (4, 32), (4, 0),
      (8, 4096), (8, 256), (8, 512), (8, 768), (8, 32), (8, 1024), (8, 512), (8, 1536), (8, 32)]
    [(652, 0), (32, 1), (736, 0), (32, 1), (2528, 0)]
  length_lt := by decide +kernel

/-- An expert in the partition of `relu2Key`. -/
def neighbourKey : ExpertKey := { relu2Key with modelId := 1 }

/-- An expert of the other partition. -/
def layerKey : ExpertKey := { relu2Key with layer := 1 }

def loadOf (key : ExpertKey) (record : ByteSpan) (id : OperationId) : List Action :=
  [.nextTask, .startRead key id, .recordRead ⟨id, key⟩,
    .readComplete ⟨id, key⟩ ⟨Status.success, 4096, 4096⟩, .popPreparation,
    .validate record, .checkPreparation, .copyRecord true, .finishPreparation]

def uploadOf (key : ExpertKey) (id : OperationId) : List Action :=
  [.nextTask, .startUpload key id, .recordUpload ⟨id, key⟩,
    .uploadComplete ⟨id, key⟩ ⟨Status.success, some ⟨7, 4096⟩, 4096⟩ Status.success]

/-- One use of an expert: a lease on its device copy, given back. -/
def useOf (key : ExpertKey) (record : ByteSpan) (waiter : WaiterId) (id : OperationId) :
    List Action :=
  [.acquire key relu2Manifest {} waiter] ++ loadOf key record id ++ uploadOf key (id + 1) ++
    [.releaseLease ⟨waiter, key, .device (some ⟨7, 4096⟩)⟩]

/-- The neighbour and the expert of the other layer fill the device, `relu2Key` comes to RAM;
then the neighbour is used often, and `relu2Key` as often as `accesses` says. -/
def fillLayers (neighbourAccesses accesses : Nat) : List Action :=
  useOf neighbourKey relu2Record 1 1 ++ useOf layerKey layerRecord 2 3 ++
    [.preloadHost relu2Key relu2Manifest {} 3] ++ loadOf relu2Key relu2Record 5 ++
    List.replicate neighbourAccesses (.recordAccess neighbourKey 1) ++
    List.replicate accesses (.recordAccess relu2Key 1)

theorem reaches_of_layered {expected : CacheSystem → Bool} {actions : List Action}
    (h : (runChecked (step fun _ => zeroDigest) keepsClasses bootLayered actions).any expected =
      true) :
    ∃ system, Reaches (step fun _ => zeroDigest) KeepsClasses bootLayered system ∧
      expected system = true := by
  rw [Option.any_eq_true] at h
  obtain ⟨system, hrun, hexpected⟩ := h
  exact ⟨system, Reaches.of_runChecked (fun _ _ => keepsClasses_spec) hrun, hexpected⟩

/-- The neighbour is colder, and is what the admission takes. -/
theorem colder_neighbour_displaced : ∃ system : CacheSystem,
    system.core.vramAdmissionWouldImprove relu2Key relu2Manifest = true ∧
      Core.lost system.core (system.core.makeDeviceCapacityLocked relu2Key 0 false).2 neighbourKey ∧
      (system.core.AdmitsColder relu2Key ↔ system.core.Agreeing relu2Key) := by
  let expected (system : CacheSystem) : Bool :=
    system.core.directory.isNone && system.core.vramAdmissionWouldImprove relu2Key relu2Manifest &&
      Core.lost system.core (system.core.makeDeviceCapacityLocked relu2Key 0 false).2 neighbourKey
  obtain ⟨system, hreach, hexpected⟩ := @reaches_of_layered expected (fillLayers 1 4)
    (by decide +kernel)
  simp only [expected, Bool.and_eq_true, Option.isNone_iff_eq_none] at hexpected
  obtain ⟨⟨hnone, hwould⟩, hlost⟩ := hexpected
  exact ⟨system, hwould, hlost,
    prediction_kept_iff bootLayered_eq (by decide) hreach hwould (Core.yielding_of_none hnone)⟩

/-- The expert of the other layer is colder and the predictor counts it, but the admission
starts at home and takes the hotter neighbour. -/
theorem hotter_neighbour_displaced : ∃ system : CacheSystem,
    Reaches (step fun _ => zeroDigest) KeepsClasses bootLayered system ∧
      ((system.core.entry relu2Key).state = .ramReady ∧
        (system.core.entry relu2Key).hostCopy.isSome ∧
        (system.core.entry relu2Key).device = none ∧
        (system.core.entry relu2Key).vramReserved = 0) ∧
      system.core.vramAdmissionWouldImprove relu2Key relu2Manifest = true ∧
      system.core.Yielding ∧
      Core.lost system.core (system.core.makeDeviceCapacityLocked relu2Key 0 false).2 neighbourKey ∧
      (system.core.entry relu2Key).temperature < (system.core.entry neighbourKey).temperature ∧
      ¬ system.core.AdmitsColder relu2Key := by
  let expected (system : CacheSystem) : Bool :=
    system.core.directory.isNone &&
      decide ((system.core.entry relu2Key).state = .ramReady ∧
        (system.core.entry relu2Key).hostCopy.isSome ∧
        (system.core.entry relu2Key).device = none ∧
        (system.core.entry relu2Key).vramReserved = 0) &&
      system.core.vramAdmissionWouldImprove relu2Key relu2Manifest &&
      Core.lost system.core (system.core.makeDeviceCapacityLocked relu2Key 0 false).2 neighbourKey &&
      decide ((system.core.entry relu2Key).temperature <
        (system.core.entry neighbourKey).temperature)
  obtain ⟨system, hreach, hexpected⟩ := @reaches_of_layered expected (fillLayers 3 2)
    (by decide +kernel)
  simp only [expected, Bool.and_eq_true, Option.isNone_iff_eq_none, decide_eq_true_eq] at hexpected
  obtain ⟨⟨⟨⟨hnone, hready⟩, hwould⟩, hlost⟩, hhotter⟩ := hexpected
  refine ⟨system, hreach, hready, hwould, Core.yielding_of_none hnone, hlost, hhotter, ?_⟩
  rintro ⟨-, hcold⟩
  exact UInt64.lt_asymm hhotter (hcold neighbourKey hlost).2

end CacheSystem

end QuantumLlm.Runtime
