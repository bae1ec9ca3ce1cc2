import QuantumLlm.Runtime.Cache.Budget
import QuantumLlm.Runtime.Cache.Victims

/-!
# Expert cache: trimming

`trim_to` evicts from both tiers while both are over their targets, and then from the
one that still is. The scan for both tiers passes over an entry whose device copy cannot
go, together with its copy in RAM.
-/

namespace QuantumLlm.Runtime

namespace Core

variable {core core' : Core} {key victim : ExpertKey} {request : EvictionRequest}
  {account : Account}

/-- Any entry that holds a copy in a wanted tier. -/
abbrev tierRequest (needRam needVram : Bool) : EvictionRequest := { needRam, needVram }

theorem passes_tier {needRam needVram : Bool} : core.Passes (tierRequest needRam needVram) key ↔
    key ∈ core.entries.keys ∧ (core.entry key).evictable ∧
      (core.entry key).useful needRam needVram ∧
      (needVram → (core.entry key).device.isSome → core.routePinned key = false) := by
  rw [useful_iff, evictable_iff]
  constructor
  · rintro ⟨h1, -, h3, h4, h5, h6, h7, h8, -, -, -, -, -⟩
    exact ⟨h1, ⟨h3, h4, h5, h6⟩, h8, h7⟩
  · rintro ⟨h1, ⟨h3, h4, h5, h6⟩, h8, h7⟩
    exact ⟨h1, by simp, h3, h4, h5, h6, h7, h8, by simp, by simp, by simp, by simp, by simp⟩

/-- A device copy that cannot go: it is pinned, or its retirement is refused. -/
def blocked (core : Core) (key : ExpertKey) : Bool :=
  (core.entry key).device.isSome && (core.routePinned key || !core.tryRetire key)

theorem accepts_tier {needRam needVram : Bool} :
    core.Passes (tierRequest needRam needVram) key ∧ core.Retires (tierRequest needRam needVram) key ↔
      key ∈ core.entries.keys ∧ (core.entry key).evictable ∧
        (core.entry key).useful needRam needVram ∧ (needVram → core.blocked key = false) := by
  rw [passes_tier, Retires, blocked]
  cases needVram with
  | false => simp
  | true =>
    cases (core.entry key).device.isSome with
    | false => simp
    | true => simp [and_assoc]

theorem EvictsOnly.balance (h : EvictsOnly request victim core core')
    (hkey : victim ∈ core.entries.keys)
    (hplacement : core'.config.placement = core.config.placement) :
    core'.counters.balance account + (core.entry victim).charge (core.partitionFor victim) account =
      core.counters.balance account +
        (core'.entry victim).charge (core.partitionFor victim) account := by
  have hpartition : core'.partitionFor = core.partitionFor := by
    funext other
    simp only [partitionFor, hplacement]
  have hexchange : core'.total account +
      (core.entry victim).charge (core.partitionFor victim) account =
      core.total account + (core'.entry victim).charge (core.partitionFor victim) account := by
    simp only [total, hpartition]
    exact Table.sum_exchange hkey h.keys h.others
  have hdrift := h.drift account
  rw [Core.drift, Core.drift, eq_sub_of_add_eq hexchange] at hdrift
  rw [sub_eq_iff_eq_add.1 hdrift]
  abel

/-- A core later in the same trim. -/
structure Trims (start core : Core) : Prop where
  directory : core.directory = start.directory
  clock : start.directoryClock ≤ core.directoryClock
  config : core.config = start.config
  keys : core.entries.keys = start.entries.keys
  sound : core.Sound
  level : core.drift .ram = 0 ∧ core.drift .vram = 0

variable {start : Core}

theorem Trims.evict (h : Trims start core) (request : EvictionRequest) :
    Trims start (core.evictOneLocked request).2 := by
  have hevicts := (@evictOne_evictor request.excluded (fun _ => request) (fun _ => rfl) core).1
  obtain ⟨hdirectory, hclock⟩ := @evictOne_asks core request
  exact ⟨hdirectory.trans h.directory, h.clock.trans hclock, hevicts.config.trans h.config,
    hevicts.keys.trans h.keys, hevicts.trace.sound h.sound, hevicts.drift.trans h.level.1,
    hevicts.drift.trans h.level.2⟩

theorem Trims.blocked (h : Trims start core) (hsteady : start.SteadyDirectory)
    (hdevice : (core.entry key).device = (start.entry key).device) :
    core.blocked key = start.blocked key := by
  obtain ⟨hpinned, hretires⟩ := hsteady.later h.directory h.clock key
  rw [Core.blocked, Core.blocked, hdevice, hpinned, hretires]

/-- So far both copies have gone, of entries that can go. -/
def Stripped (start core : Core) : Prop :=
  ∀ key, core.entry key = start.entry key ∨ (start.entry key).evictable ∧
    start.blocked key = false ∧ core.entry key = (start.entry key).evicted true true

theorem Stripped.evict (h : Stripped start core) (htrims : Trims start core)
    (hsteady : start.SteadyDirectory)
    (hfound : (core.evictOneLocked (tierRequest true true)).1 = true) :
    Stripped start (core.evictOneLocked (tierRequest true true)).2 := by
  have hlater := hsteady.of_later htrims.directory htrims.clock
  obtain ⟨victim, hpasses, hretires, -, honly⟩ := hlater.evictOne.2 hfound
  obtain ⟨-, hevictable, huseful, hblocked⟩ := accepts_tier.1 ⟨hpasses, hretires⟩
  intro key
  by_cases hkey : key = victim
  · subst hkey
    rcases h key with hsame | ⟨-, -, hgone⟩
    · right
      rw [honly.evicted, ← htrims.blocked hsteady (congrArg Entry.device hsame), ← hsame]
      exact ⟨hevictable, hblocked rfl, rfl⟩
    · obtain ⟨hhost, hdevice, -⟩ := @Entry.evicted_taken (start.entry key) true true
      rw [← hgone] at hhost hdevice
      simp [useful_iff, hhost, hdevice] at huseful
  · rw [honly.others key hkey]
    exact h key

/-- The bytes that stay in RAM when both copies of every entry that can go are gone. -/
def ramLeft (core : Core) : UInt64 :=
  core.entries.sum fun key entry =>
    if entry.evictable && !core.blocked key then 0 else entry.ramReserved

/-- The same on the device. A reservation without a device copy is no copy. -/
def vramLeft (core : Core) : UInt64 :=
  core.entries.sum fun key entry =>
    if entry.evictable && !core.blocked key && entry.device.isSome then 0 else entry.vramReserved

theorem Stripped.exhausted (h : Stripped start core) (htrims : Trims start core)
    (hsteady : start.SteadyDirectory) (hsound : start.Sound)
    (hnone : (core.evictOneLocked (tierRequest true true)).1 = false) :
    core.counters.ramBytes = start.ramLeft ∧ core.counters.vramBytes = start.vramLeft := by
  have hlater := hsteady.of_later htrims.directory htrims.clock
  have hbare : ∀ key ∈ start.entries.keys, core.entry key = start.entry key →
      (start.entry key).evictable → start.blocked key = false →
      (start.entry key).hasHostBytes = false ∧ (start.entry key).device = none := by
    intro key hkey hsame hevictable hfree
    have hstuck := mt hlater.evictOne.1.2 (by rw [hnone]; exact Bool.false_ne_true)
    have huseless : ¬(start.entry key).useful true true := by
      intro huseful
      refine hstuck ⟨key, accepts_tier.2 ⟨htrims.keys ▸ hkey, ?_, ?_, fun _ => ?_⟩⟩
      · rw [hsame]
        exact hevictable
      · rw [hsame]
        exact huseful
      · rw [htrims.blocked hsteady (congrArg Entry.device hsame)]
        exact hfree
    simpa [useful_iff] using huseless
  constructor
  · rw [show core.counters.ramBytes = core.total .ram from sub_eq_zero.1 htrims.level.1]
    refine Table.sum_congr htrims.keys fun key hkey => ?_
    show (core.entry key).ramReserved = _
    rcases h key with hsame | ⟨hevictable, hfree, hgone⟩
    · rw [hsame]
      split
      next hcan =>
        simp only [Bool.and_eq_true, Bool.not_eq_true'] at hcan
        exact (hsound.ok key).unreserved (hbare key hkey hsame hcan.1 hcan.2).1
      next => rfl
    · have hreserved := (@Entry.evicted_taken (start.entry key) true true).ramReserved
      have hzero : ((start.entry key).evicted true true).ramReserved = 0 := by
        rw [hreserved]
        cases hhost : (start.entry key).hasHostBytes with
        | true => rfl
        | false => exact (hsound.ok key).unreserved hhost
      rw [hgone, hzero]
      simp [hevictable, hfree]
  · rw [show core.counters.vramBytes = core.total .vram from sub_eq_zero.1 htrims.level.2]
    refine Table.sum_congr htrims.keys fun key hkey => ?_
    show (core.entry key).vramReserved = _
    rcases h key with hsame | ⟨hevictable, hfree, hgone⟩
    · rw [hsame]
      split
      next hcan =>
        simp only [Bool.and_eq_true, Bool.not_eq_true'] at hcan
        have hnodevice := (hbare key hkey hsame hcan.1.1 hcan.1.2).2
        rw [hnodevice] at hcan
        cases hcan.2
      next => rfl
    · have hreserved := (@Entry.evicted_taken (start.entry key) true true).vramReserved
      rw [hgone, hreserved]
      simp [hevictable, hfree]

/-- A tier over its target has nothing left that an eviction for it alone would accept. -/
def Trimmed (core : Core) (ramTarget vramTarget : UInt64) : Prop :=
  (core.counters.ramBytes ≤ ramTarget ∨
      (core.evictOneLocked (tierRequest true false)).1 = false) ∧
    (core.counters.vramBytes ≤ vramTarget ∨
      (core.evictOneLocked (tierRequest false true)).1 = false)

/-- No copy in RAM is held up by its own device copy, or the tiers do not both stay over
their targets. -/
def Untangled (core : Core) (ramTarget vramTarget : UInt64) : Prop :=
  (∀ key ∈ core.entries.keys, (core.entry key).evictable → (core.entry key).hasHostBytes →
      core.blocked key = false) ∨
    core.ramLeft ≤ ramTarget ∨ core.vramLeft ≤ vramTarget

variable {ramTarget vramTarget : UInt64}

theorem trimTo_cases {invariant : Core → Prop}
    (hkeeps : ∀ core, invariant core →
      core.counters.ramBytes > ramTarget ∨ core.counters.vramBytes > vramTarget →
      (core.evictOneLocked (tierRequest (core.counters.ramBytes > ramTarget)
        (core.counters.vramBytes > vramTarget))).1 = true →
      invariant (core.evictOneLocked (tierRequest (core.counters.ramBytes > ramTarget)
        (core.counters.vramBytes > vramTarget))).2)
    (h : invariant start) :
    (invariant (start.trimTo ramTarget vramTarget) ∧
        (start.trimTo ramTarget vramTarget).counters.ramBytes ≤ ramTarget ∧
        (start.trimTo ramTarget vramTarget).counters.vramBytes ≤ vramTarget) ∨
      ∃ last needRam needVram, invariant last ∧
        (needRam = true ↔ last.counters.ramBytes > ramTarget) ∧
        (needVram = true ↔ last.counters.vramBytes > vramTarget) ∧
        (needRam || needVram) = true ∧
        (last.evictOneLocked (tierRequest needRam needVram)).1 = false ∧
        start.trimTo ramTarget vramTarget =
          (last.evictOneLocked (tierRequest needRam needVram)).2 := by
  have hevictor : Evictor none fun core => core.evictOneLocked
      (tierRequest (core.counters.ramBytes > ramTarget) (core.counters.vramBytes > vramTarget)) :=
    evictOne_evictor _ fun _ => rfl
  have hstops := @evictLoop_stops none (fun core =>
      core.counters.ramBytes > ramTarget || core.counters.vramBytes > vramTarget) _ invariant
    hevictor (fun core hbefore hpressed => hkeeps core hbefore (by simpa using hpressed))
    (start.copies + 1) start (Nat.lt_succ_self _) h
  rcases hstops with ⟨-, hafter, hrelaxed⟩ | ⟨last, hlast, hpressed, hnone, hresult⟩
  · left
    simp only [gt_iff_lt, Bool.or_eq_false_iff, decide_eq_false_iff_not, UInt64.not_lt] at hrelaxed
    exact ⟨hafter, hrelaxed⟩
  · right
    exact ⟨last, _, _, hlast, by simp, by simp, by simpa using hpressed, hnone,
      congrArg Prod.snd hresult⟩

theorem evictOne_balance (hsteady : core.SteadyDirectory)
    (hfound : (core.evictOneLocked request).1 = true)
    (hcharge : ∀ (entry : Entry) home,
      (entry.evicted request.needRam request.needVram).charge home account =
        entry.charge home account) :
    (core.evictOneLocked request).2.counters.balance account = core.counters.balance account := by
  obtain ⟨victim, hpasses, -, -, honly⟩ := hsteady.evictOne.2 hfound
  have hplacement := congrArg ExpertCacheConfig.placement
    (@evictOne_evictor request.excluded (fun _ => request) (fun _ => rfl) core).1.config
  have hbalance := @EvictsOnly.balance _ _ _ _ account honly hpasses.present hplacement
  rw [honly.evicted, hcharge] at hbalance
  exact add_right_cancel hbalance

theorem ramBytes_evictVram (hsteady : core.SteadyDirectory)
    (hfound : (core.evictOneLocked (tierRequest false true)).1 = true) :
    (core.evictOneLocked (tierRequest false true)).2.counters.ramBytes = core.counters.ramBytes :=
  @evictOne_balance _ _ .ram hsteady hfound fun _ _ => Entry.evicted_taken.ramReserved

theorem vramBytes_evictRam (hsteady : core.SteadyDirectory)
    (hfound : (core.evictOneLocked (tierRequest true false)).1 = true) :
    (core.evictOneLocked (tierRequest true false)).2.counters.vramBytes = core.counters.vramBytes :=
  @evictOne_balance _ _ .vram hsteady hfound fun _ _ => Entry.evicted_taken.vramReserved

theorem evictOne_none (hnone : (core.evictOneLocked request).1 = false) :
    ∃ scan, (core.evictOneLocked request).2 = core.atScan scan := by
  obtain ⟨found, refused, -, houtcome⟩ := core.evictOne_settled request
  rw [houtcome] at hnone ⊢
  cases found with
  | none => exact ⟨_, rfl⟩
  | some victim => cases hnone

theorem evictOne_atScan (hsteady : core.SteadyDirectory) (scan : Nat) :
    ((core.atScan scan).evictOneLocked request).1 = true ↔
      ∃ key, core.Passes request key ∧ core.Retires request key := by
  have hlater : (core.atScan scan).SteadyDirectory :=
    hsteady.of_later rfl (Nat.le_add_right _ _)
  rw [hlater.evictOne.1]
  simp only [hsteady.passes_iff, hsteady.retires_iff]

theorem trimTo_ends (hsteady : start.SteadyDirectory) (htrims : Trims start start) :
    Trimmed (start.trimTo ramTarget vramTarget) ramTarget vramTarget ∨
      ∃ last scan, Trims start last ∧ Stripped start last ∧
        last.counters.ramBytes > ramTarget ∧ last.counters.vramBytes > vramTarget ∧
        (last.evictOneLocked (tierRequest true true)).1 = false ∧
        start.trimTo ramTarget vramTarget = last.atScan scan := by
  have hends := @trimTo_cases start ramTarget vramTarget
    (fun core => Trims start core ∧ (core.counters.ramBytes ≤ ramTarget ∨
      core.counters.vramBytes ≤ vramTarget ∨ Stripped start core)) ?_
    ⟨htrims, Or.inr (Or.inr fun _ => Or.inl rfl)⟩
  · rcases hends with ⟨-, hram, hvram⟩ |
      ⟨last, needRam, needVram, ⟨hlast, hmode⟩, hneedRam, hneedVram, hneed, hnone, hresult⟩
    · exact Or.inl ⟨Or.inl hram, Or.inl hvram⟩
    · have hlater := hsteady.of_later hlast.directory hlast.clock
      obtain ⟨scan, hscan⟩ := evictOne_none hnone
      have hstill : ((last.atScan scan).evictOneLocked (tierRequest needRam needVram)).1 =
          false := by
        rw [← Bool.not_eq_true, evictOne_atScan hlater, ← hlater.evictOne.1, hnone]
        exact Bool.false_ne_true
      rw [hresult, hscan]
      cases needRam with
      | false =>
        have hram : last.counters.ramBytes ≤ ramTarget :=
          UInt64.not_lt.1 fun hover => Bool.false_ne_true (hneedRam.2 hover)
        cases needVram with
        | false => cases hneed
        | true => exact Or.inl ⟨Or.inl hram, Or.inr hstill⟩
      | true =>
        cases needVram with
        | false =>
          have hvram : last.counters.vramBytes ≤ vramTarget :=
            UInt64.not_lt.1 fun hover => Bool.false_ne_true (hneedVram.2 hover)
          exact Or.inl ⟨Or.inr hstill, Or.inl hvram⟩
        | true =>
          have hram := hneedRam.1 rfl
          have hvram := hneedVram.1 rfl
          refine Or.inr ⟨last, scan, hlast, ?_, hram, hvram, hnone, rfl⟩
          rcases hmode with hless | hless | hstripped
          · exact absurd hram (UInt64.not_lt.2 hless)
          · exact absurd hvram (UInt64.not_lt.2 hless)
          · exact hstripped
  · -- A tier that is on target stays there; until then every scan is for both.
    rintro core ⟨hcore, hmode⟩ hover hfound
    have hlater := hsteady.of_later hcore.directory hcore.clock
    refine ⟨hcore.evict _, ?_⟩
    cases hram : decide (core.counters.ramBytes > ramTarget) with
    | false =>
      have hle := UInt64.not_lt.1 (of_decide_eq_false hram)
      have hvram : decide (core.counters.vramBytes > vramTarget) = true :=
        decide_eq_true (hover.resolve_left (of_decide_eq_false hram))
      rw [hram, hvram] at hfound
      rw [hvram, ramBytes_evictVram hlater hfound]
      exact Or.inl hle
    | true =>
      cases hvram : decide (core.counters.vramBytes > vramTarget) with
      | false =>
        have hle := UInt64.not_lt.1 (of_decide_eq_false hvram)
        rw [hram, hvram] at hfound
        rw [vramBytes_evictRam hlater hfound]
        exact Or.inr (Or.inl hle)
      | true =>
        rw [hram, hvram] at hfound
        refine Or.inr (Or.inr ?_)
        rcases hmode with hless | hless | hstripped
        · exact absurd (of_decide_eq_true hram) (UInt64.not_lt.2 hless)
        · exact absurd (of_decide_eq_true hvram) (UInt64.not_lt.2 hless)
        · exact hstripped.evict hcore hsteady hfound

theorem trimTo_of_untangled (hsteady : start.SteadyDirectory) (htrims : Trims start start)
    (h : start.Untangled ramTarget vramTarget) :
    Trimmed (start.trimTo ramTarget vramTarget) ramTarget vramTarget := by
  rcases trimTo_ends hsteady htrims with htrimmed |
    ⟨last, scan, hlast, hstripped, hram, hvram, hnone, hresult⟩
  · exact htrimmed
  · have hlater := hsteady.of_later hlast.directory hlast.clock
    obtain ⟨hramLeft, hvramLeft⟩ := hstripped.exhausted hlast hsteady htrims.sound hnone
    have hfree : ∀ key ∈ start.entries.keys, (start.entry key).evictable →
        (start.entry key).hasHostBytes → start.blocked key = false := by
      rcases h with hfree | hless | hless
      · exact hfree
      · exact absurd hram (UInt64.not_lt.2 (hramLeft ▸ hless))
      · exact absurd hvram (UInt64.not_lt.2 (hvramLeft ▸ hless))
    have hstuck := mt hlater.evictOne.1.2 (by rw [hnone]; exact Bool.false_ne_true)
    rw [hresult]
    refine ⟨Or.inr ?_, Or.inr ?_⟩
    · rw [← Bool.not_eq_true, evictOne_atScan hlater]
      rintro ⟨key, haccepts⟩
      obtain ⟨hkey, hevictable, huseful, -⟩ := accepts_tier.1 haccepts
      have hbytes : (last.entry key).hasHostBytes := by simpa [useful_iff] using huseful
      have hsame : last.entry key = start.entry key := by
        rcases hstripped key with hsame | ⟨-, -, hgone⟩
        · exact hsame
        · rw [hgone, (@Entry.evicted_taken (start.entry key) true true).host] at hbytes
          simp at hbytes
      have hblocked := hfree key (hlast.keys ▸ hkey) (hsame ▸ hevictable) (hsame ▸ hbytes)
      rw [← hlast.blocked hsteady (congrArg Entry.device hsame)] at hblocked
      exact hstuck ⟨key, accepts_tier.2 ⟨hkey, hevictable,
        useful_iff.2 (Or.inl ⟨rfl, hbytes⟩), fun _ => hblocked⟩⟩
    · rw [← Bool.not_eq_true, evictOne_atScan hlater]
      rintro ⟨key, haccepts⟩
      obtain ⟨hkey, hevictable, huseful, hblocked⟩ := accepts_tier.1 haccepts
      have hdevice : (last.entry key).device.isSome := by simpa [useful_iff] using huseful
      exact hstuck ⟨key, accepts_tier.2 ⟨hkey, hevictable,
        useful_iff.2 (Or.inr ⟨rfl, hdevice⟩), fun _ => hblocked rfl⟩⟩

/-- What the entries have reserved fits the counters. -/
def Unwrapped (core : Core) : Prop := core.load .ram < 2 ^ 64 ∧ core.load .vram < 2 ^ 64

theorem left_le_balance {left : ExpertKey → Entry → UInt64} (htrims : Trims start core)
    (hlevel : core.drift account = 0) (hfits : start.load account < 2 ^ 64)
    (hbounds : ∀ key,
      (left key (start.entry key)).toNat ≤
        ((core.entry key).charge (core.partitionFor key) account).toNat ∧
      ((core.entry key).charge (core.partitionFor key) account).toNat ≤
        ((start.entry key).charge (start.partitionFor key) account).toNat) :
    start.entries.sum left ≤ core.counters.balance account := by
  have hload : core.load account = start.entries.sum fun key _ =>
      ((core.entry key).charge (core.partitionFor key) account).toNat :=
    Table.sum_congr htrims.keys fun _ _ => rfl
  have hless : core.load account ≤ start.load account := by
    rw [hload]
    exact Table.sum_le_sum fun key _ => (hbounds key).2
  have hleft : (start.entries.sum fun key entry => (left key entry).toNat) ≤ core.load account := by
    rw [hload]
    exact Table.sum_le_sum fun key _ => (hbounds key).1
  rw [UInt64.le_iff_toNat_le, Table.toNat_sum, balance_eq_load hlevel (by omega)]
  exact (Nat.mod_le _ _).trans hleft

theorem Stripped.over (h : Stripped start core) (htrims : Trims start core)
    (hunwrapped : start.Unwrapped) :
    start.ramLeft ≤ core.counters.ramBytes ∧ start.vramLeft ≤ core.counters.vramBytes := by
  constructor
  · refine @left_le_balance core .ram start _ htrims htrims.level.1 hunwrapped.1 fun key => ?_
    simp only [Entry.charge]
    rcases h key with hsame | ⟨hevictable, hfree, hgone⟩
    · rw [hsame]
      split <;> simp
    · rw [if_pos (by simp [hevictable, hfree]), hgone, Entry.evicted_taken.ramReserved]
      split <;> simp
  · refine @left_le_balance core .vram start _ htrims htrims.level.2 hunwrapped.2 fun key => ?_
    simp only [Entry.charge]
    rcases h key with hsame | ⟨hevictable, hfree, hgone⟩
    · rw [hsame]
      split <;> simp
    · rw [hgone, Entry.evicted_taken.vramReserved]
      cases (start.entry key).device.isSome <;> simp [hevictable, hfree]

theorem untangled_of_trimTo (hsteady : start.SteadyDirectory) (htrims : Trims start start)
    (hunwrapped : start.Unwrapped)
    (h : Trimmed (start.trimTo ramTarget vramTarget) ramTarget vramTarget) :
    start.Untangled ramTarget vramTarget := by
  by_contra htangled
  simp only [Untangled, not_or, UInt64.not_le, not_forall] at htangled
  obtain ⟨⟨key, hkey, hevictable, hbytes, hblocked⟩, hramLeft, hvramLeft⟩ := htangled
  have hover : ∀ core, Trims start core ∧ Stripped start core →
      ramTarget < core.counters.ramBytes ∧ vramTarget < core.counters.vramBytes := by
    rintro core ⟨hcore, hstripped⟩
    obtain ⟨hram, hvram⟩ := hstripped.over hcore hunwrapped
    exact ⟨UInt64.lt_of_lt_of_le hramLeft hram, UInt64.lt_of_lt_of_le hvramLeft hvram⟩
  have hends := @trimTo_cases start ramTarget vramTarget
    (fun core => Trims start core ∧ Stripped start core) ?_ ⟨htrims, fun _ => Or.inl rfl⟩
  · rcases hends with ⟨hafter, hram, -⟩ |
      ⟨last, needRam, needVram, hlast, hneedRam, hneedVram, -, hnone, hresult⟩
    · exact absurd (hover _ hafter).1 (UInt64.not_lt.2 hram)
    · have hlater := hsteady.of_later hlast.1.directory hlast.1.clock
      obtain ⟨scan, hscan⟩ := evictOne_none hnone
      rw [hresult, hscan] at h
      rcases h.1 with hram | hstuck
      · exact absurd (hover _ hlast).1 (UInt64.not_lt.2 hram)
      · rw [← Bool.not_eq_true, evictOne_atScan hlater] at hstuck
        have hsame : last.entry key = start.entry key := by
          rcases hlast.2 key with hsame | ⟨-, hfree, -⟩
          · exact hsame
          · exact absurd hfree hblocked
        refine hstuck ⟨key, accepts_tier.2 ⟨hlast.1.keys ▸ hkey, ?_, ?_, by simp⟩⟩
        · rw [hsame]
          exact hevictable
        · rw [hsame]
          exact useful_iff.2 (Or.inl ⟨rfl, hbytes⟩)
  · rintro core hcore - hfound
    obtain ⟨hram, hvram⟩ := hover core hcore
    rw [decide_eq_true hram, decide_eq_true hvram] at hfound ⊢
    exact ⟨hcore.1.evict _, hcore.2.evict hcore.1 hsteady hfound⟩

theorem trimTo_finishes (hsteady : start.SteadyDirectory) (htrims : Trims start start) :
    let trimmed := start.trimTo ramTarget vramTarget
    (trimmed.counters.ramBytes ≤ ramTarget ∧ trimmed.counters.vramBytes ≤ vramTarget) ∨
      (trimmed.evictOneLocked (tierRequest (trimmed.counters.ramBytes > ramTarget)
        (trimmed.counters.vramBytes > vramTarget))).1 = false := by
  have hends := @trimTo_cases start ramTarget vramTarget (Trims start)
    (fun core hcore _ _ => hcore.evict _) htrims
  rcases hends with ⟨-, hrelaxed⟩ |
    ⟨last, needRam, needVram, hlast, hneedRam, hneedVram, -, hnone, hresult⟩
  · exact Or.inl hrelaxed
  · right
    have hlater := hsteady.of_later hlast.directory hlast.clock
    obtain ⟨scan, hscan⟩ := evictOne_none hnone
    have hram : decide (last.counters.ramBytes > ramTarget) = needRam :=
      Bool.eq_iff_iff.2 (by rw [decide_eq_true_iff, hneedRam])
    have hvram : decide (last.counters.vramBytes > vramTarget) = needVram :=
      Bool.eq_iff_iff.2 (by rw [decide_eq_true_iff, hneedVram])
    rw [hresult, hscan]
    show ((last.atScan scan).evictOneLocked (tierRequest (last.counters.ramBytes > ramTarget)
      (last.counters.vramBytes > vramTarget))).1 = false
    rw [hram, hvram, ← Bool.not_eq_true, evictOne_atScan hlater, ← hlater.evictOne.1, hnone]
    exact Bool.false_ne_true

end Core

namespace CacheSystem

variable {sha256 : List UInt8 → Sha256Digest} {system start : CacheSystem}
  {config : ExpertCacheConfig} {directory : Option Directory} {slotCount : Nat}
  {slotBytes alignment : UInt64} {reservedDemandSlots : Nat}

/-- A trim takes each tier to its target or to the end of its victims, except where both tiers
stay over their targets while a device copy that cannot go stands before its copy in RAM. -/
theorem trimTo_trims_iff (hboot : boot config directory slotCount slotBytes alignment
      reservedDemandSlots = some start)
    (hreach : Reaches (step sha256) (fun _ _ => True) start system)
    (hsteady : system.core.SteadyDirectory) (ramTarget vramTarget : UInt64) :
    let trimmed := system.core.trimTo ramTarget vramTarget
    ((trimmed.counters.ramBytes ≤ ramTarget ∧ trimmed.counters.vramBytes ≤ vramTarget) ∨
      (trimmed.evictOneLocked (Core.tierRequest (trimmed.counters.ramBytes > ramTarget)
        (trimmed.counters.vramBytes > vramTarget))).1 = false) ∧
    (system.core.Untangled ramTarget vramTarget → trimmed.Trimmed ramTarget vramTarget) ∧
    (system.core.Unwrapped →
      (trimmed.Trimmed ramTarget vramTarget ↔ system.core.Untangled ramTarget vramTarget)) := by
  have htrims : Core.Trims system.core system.core :=
    ⟨rfl, Nat.le_refl _, rfl, rfl, (Sound.of_reaches hreach (boot_sound hboot)).core,
      level_of_reaches hboot hreach⟩
  exact ⟨Core.trimTo_finishes hsteady htrims, Core.trimTo_of_untangled hsteady htrims,
    fun hunwrapped => ⟨Core.untangled_of_trimTo hsteady htrims hunwrapped,
      Core.trimTo_of_untangled hsteady htrims⟩⟩

/-- One record in both tiers. -/
def storeRelu2 : List Action :=
  [.acquire relu2Key relu2Manifest {} 1] ++ loadRelu2 ++ uploadRelu2 ++
    [.releaseLease ⟨1, relu2Key, .device (some ⟨7, 4096⟩)⟩]

/-- Without a directory the record goes from both tiers. -/
theorem stored_record_trimmed : ∃ system : CacheSystem,
    system.core.counters.ramBytes = 4096 ∧ (system.core.trimTo 0 0).Trimmed 0 0 := by
  have hrun : (runChecked (step fun _ => zeroDigest) (fun _ _ => true) (bootSmall none)
      storeRelu2).any (fun system => decide (system.core.counters.ramBytes = 4096 ∧
        system.core.directory.isNone)) = true := by
    decide +kernel
  obtain ⟨system, hreach, hexpected⟩ := reaches_of_small (fun _ _ _ => True.intro) hrun
  obtain ⟨hbytes, hnone⟩ := of_decide_eq_true hexpected
  rw [Option.isNone_iff_eq_none] at hnone
  have hsteady : system.core.SteadyDirectory := by
    intro directory hdirectory
    rw [hnone] at hdirectory
    cases hdirectory
  refine ⟨system, hbytes, (trimTo_trims_iff (bootSmall_eq none) hreach hsteady 0 0).2.1
    (Or.inl fun key _ _ _ => ?_)⟩
  simp [Core.blocked, Core.routePinned, Core.tryRetire, hnone]

/-- While the directory pins the record, its copy in RAM stays as well. -/
theorem pinned_record_not_trimmed : ∃ system : CacheSystem,
    Reaches (step fun _ => zeroDigest) (fun _ _ => True)
      (bootSmall (some ⟨fun _ _ => true, fun _ _ => true⟩)) system ∧
    system.core.SteadyDirectory ∧ ¬(system.core.trimTo 0 0).Trimmed 0 0 := by
  let pinning : Directory := ⟨fun _ _ => true, fun _ _ => true⟩
  let expected (system : CacheSystem) : Bool :=
    let trimmed := system.core.trimTo 0 0
    !decide (trimmed.counters.ramBytes ≤ 0) &&
      (trimmed.evictOneLocked (Core.tierRequest true false)).1
  have hrun : (runChecked (step fun _ => zeroDigest) (fun _ _ => true) (bootSmall (some pinning))
      storeRelu2).any expected = true := by
    decide +kernel
  obtain ⟨system, hreach, hexpected⟩ := reaches_of_small (fun _ _ _ => True.intro) hrun
  have hdirectory : system.core.directory = some pinning :=
    @holds_of_reaches _ _ _ (fun _ _ => True) (fun core => core.directory = some pinning)
      (fun _ _ _ hacts hbefore => hacts.directory.trans hbefore) hreach
      (boot_sound (bootSmall_eq _)) rfl
  refine ⟨system, hreach, ?_, ?_⟩
  · intro directory hsome
    rw [hdirectory, Option.mem_some_iff] at hsome
    subst hsome
    exact fun _ _ _ => ⟨rfl, rfl⟩
  · rintro ⟨hram, -⟩
    rw [Bool.and_eq_true, Bool.not_eq_true', decide_eq_false_iff_not] at hexpected
    rcases hram with hram | hnone
    · exact hexpected.1 hram
    · rw [hexpected.2] at hnone
      cases hnone

end CacheSystem

end QuantumLlm.Runtime
