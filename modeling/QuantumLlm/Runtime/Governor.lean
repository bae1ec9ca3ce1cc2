import QuantumLlm.Lib.Greedy
import QuantumLlm.Lib.Run
import QuantumLlm.Runtime.Storage

/-!
# Memory resource governor

One admission authority over trimmable memory tiers: a reservation first asks the
tiers of its domain to yield, in eviction order, and fails closed if the live
bytes still exceed the budget.
-/

namespace QuantumLlm.Runtime

open List UInt64

inductive MemoryDomain where
  | host
  | device
  deriving DecidableEq, Repr

/-- A trimmable tier; `id` stands for the identity of the object. -/
structure MemoryTier where
  id : Nat
  name : String
  domain : MemoryDomain
  protectedBytes : UInt64 := 0
  usedBytes : UInt64 := 0
  /-- Actual usage after trimming, from the usage before and the target. -/
  trim : UInt64 → UInt64 → UInt64

def MemoryTier.trimTo (tier : MemoryTier) (targetBytes : UInt64) : UInt64 × MemoryTier :=
  let after := tier.trim tier.usedBytes targetBytes
  (after, { tier with usedBytes := after })

/-- Nothing live protects storage above the target. -/
def MemoryTier.Exact (tier : MemoryTier) : Prop :=
  ∀ used target, tier.trim used target = min used target

structure MemoryTierRegistration where
  tier : MemoryTier
  evictionPriority : UInt32 := 0

structure MemoryGovernorConfig where
  hostBudgetBytes : UInt64 := 0
  deviceBudgetBytes : UInt64 := 0
  hostEmergencyReserveBytes : UInt64 := 0
  deviceEmergencyReserveBytes : UInt64 := 0

/-! ## The governor -/

structure MemoryResourceGovernor where
  config : MemoryGovernorConfig
  tiers : List MemoryTierRegistration := []
  hostReserved : UInt64 := 0
  deviceReserved : UInt64 := 0
  trimCalls : UInt64 := 0
  trimmedBytes : UInt64 := 0
  rejected : UInt64 := 0

def saturatingAdd (left right : UInt64) : UInt64 :=
  if right > 0xffffffffffffffff - left then 0xffffffffffffffff else left + right

namespace MemoryResourceGovernor

/-- The constructor; an invalid configuration throws. -/
def create (config : MemoryGovernorConfig) : Option MemoryResourceGovernor :=
  if config.hostBudgetBytes = 0 ∨ config.deviceBudgetBytes = 0 ∨
      config.hostEmergencyReserveBytes ≥ config.hostBudgetBytes ∨
      config.deviceEmergencyReserveBytes ≥ config.deviceBudgetBytes then none
  else some { config }

def budget (governor : MemoryResourceGovernor) : MemoryDomain → UInt64
  | .host => governor.config.hostBudgetBytes
  | .device => governor.config.deviceBudgetBytes

def emergency (governor : MemoryResourceGovernor) : MemoryDomain → UInt64
  | .host => governor.config.hostEmergencyReserveBytes
  | .device => governor.config.deviceEmergencyReserveBytes

def reserved (governor : MemoryResourceGovernor) : MemoryDomain → UInt64
  | .host => governor.hostReserved
  | .device => governor.deviceReserved

def setReserved (governor : MemoryResourceGovernor) (domain : MemoryDomain) (bytes : UInt64) :
    MemoryResourceGovernor :=
  match domain with
  | .host => { governor with hostReserved := bytes }
  | .device => { governor with deviceReserved := bytes }

def tierBytes (governor : MemoryResourceGovernor) (domain : MemoryDomain) : UInt64 :=
  governor.tiers.foldl (fun total registration =>
    if registration.tier.domain = domain then
      saturatingAdd total registration.tier.usedBytes
    else total) 0

/-- The loop of `rebalance_locked` over the tiers still to visit: whether the
request fits now, `trimmed_bytes`, and the visited and remaining tiers. -/
def trimTiers (domain : MemoryDomain) (limit required : UInt64) :
    UInt64 → UInt64 → List MemoryTierRegistration →
      Bool × UInt64 × List MemoryTierRegistration
  | _, trimmedBytes, [] => (false, trimmedBytes, [])
  | tiersUsed, trimmedBytes, registration :: rest =>
    if registration.tier.domain ≠ domain then
      let (fits, trimmed, rest') := trimTiers domain limit required tiersUsed trimmedBytes rest
      (fits, trimmed, registration :: rest')
    else
      let used := registration.tier.usedBytes
      let other := if tiersUsed ≥ used then tiersUsed - used else 0
      let available := if required ≤ limit then limit - required else 0
      let target := if other < available then available - other else 0
      let protectedTarget := max target registration.tier.protectedBytes
      let (after, tier) := registration.tier.trimTo protectedTarget
      let trimmed := if used > after then trimmedBytes + (used - after) else trimmedBytes
      let tiersUsed := saturatingAdd other after
      if required ≤ limit ∧ tiersUsed ≤ limit - required then
        (true, trimmed, { registration with tier } :: rest)
      else
        let (fits, trimmed, rest') := trimTiers domain limit required tiersUsed trimmed rest
        (fits, trimmed, { registration with tier } :: rest')

def exhaustedStatus : MemoryDomain → Status
  | .host => ⟨.backpressure, "host memory budget remains exhausted after trimming"⟩
  | .device => ⟨.backpressure, "device memory budget remains exhausted after trimming"⟩

def rebalanceLocked (governor : MemoryResourceGovernor) (domain : MemoryDomain)
    (additional : UInt64) : Status × MemoryResourceGovernor :=
  let limit := governor.budget domain - governor.emergency domain
  let required := saturatingAdd (governor.reserved domain) additional
  let tiersUsed := governor.tierBytes domain
  if required ≤ limit ∧ tiersUsed ≤ limit - required then (.success, governor)
  else
    let (fits, trimmedBytes, tiers) :=
      trimTiers domain limit required tiersUsed governor.trimmedBytes governor.tiers
    let governor := { governor with trimCalls := governor.trimCalls + 1, trimmedBytes, tiers }
    if fits then (.success, governor)
    else (exhaustedStatus domain, { governor with rejected := governor.rejected + 1 })

/-- Registers a tier behind those of its priority; a nameless or known tier throws. -/
def registerTier (governor : MemoryResourceGovernor) (registration : MemoryTierRegistration) :
    Option MemoryResourceGovernor :=
  if registration.tier.name.isEmpty then none
  else if governor.tiers.any (·.tier.id = registration.tier.id) then none
  else some { governor with
    tiers := (governor.tiers ++ [registration]).mergeSort
      fun left right => left.evictionPriority ≤ right.evictionPriority }

def zeroReservationStatus : Status := ⟨.invalidArgument, "zero-byte reservation"⟩

def reserve (governor : MemoryResourceGovernor) (domain : MemoryDomain) (bytes : UInt64) :
    Status × MemoryResourceGovernor :=
  if bytes = 0 then (zeroReservationStatus, governor)
  else
    let rebalanced := governor.rebalanceLocked domain bytes
    if !rebalanced.1.ok then rebalanced
    else (.success,
      rebalanced.2.setReserved domain (rebalanced.2.reserved domain + bytes))

def release (governor : MemoryResourceGovernor) (domain : MemoryDomain) (bytes : UInt64) :
    MemoryResourceGovernor :=
  let reserved := governor.reserved domain
  governor.setReserved domain (if bytes ≤ reserved then reserved - bytes else 0)

def rebalance (governor : MemoryResourceGovernor) (domain : MemoryDomain)
    (additionalBytes : UInt64) : Status × MemoryResourceGovernor :=
  governor.rebalanceLocked domain additionalBytes

end MemoryResourceGovernor

/-! ## Sums and floors in exact arithmetic -/

theorem toNat_min (left right : UInt64) : (min left right).toNat = min left.toNat right.toNat := by
  simp only [min_def, Nat.min_def, le_iff_toNat_le]
  split <;> rfl

theorem toNat_max (left right : UInt64) : (max left right).toNat = max left.toNat right.toNat := by
  simp only [max_def, Nat.max_def, le_iff_toNat_le]
  split <;> rfl

theorem saturatingAdd_toNat {left right : UInt64} (h : left.toNat + right.toNat < 2 ^ 64) :
    (saturatingAdd left right).toNat = left.toNat + right.toNat := by
  have hroom : ¬ right > 0xffffffffffffffff - left := by
    rw [gt_iff_lt, UInt64.lt_iff_toNat_lt, UInt64.toNat_sub_of_le _ _ (by
      rw [UInt64.le_iff_toNat_le]
      have hlast : (0xffffffffffffffff : UInt64).toNat = 2 ^ 64 - 1 := rfl
      omega)]
    have hlast : (0xffffffffffffffff : UInt64).toNat = 2 ^ 64 - 1 := rfl
    omega
  rw [saturatingAdd, if_neg hroom, UInt64.toNat_add, Nat.mod_eq_of_lt h]

namespace MemoryTierRegistration

variable {registration : MemoryTierRegistration} {domain : MemoryDomain}

/-- What the tier holds of the domain's memory. -/
def used (domain : MemoryDomain) (registration : MemoryTierRegistration) : Nat :=
  if registration.tier.domain = domain then registration.tier.usedBytes.toNat else 0

/-- What the tier never gives up. -/
def floor (domain : MemoryDomain) (registration : MemoryTierRegistration) : Nat :=
  if registration.tier.domain = domain then
    min registration.tier.usedBytes.toNat registration.tier.protectedBytes.toNat
  else 0

def spare (domain : MemoryDomain) (registration : MemoryTierRegistration) : Nat :=
  registration.used domain - registration.floor domain

/-- The tier after it has released `bytes`. -/
def yield (registration : MemoryTierRegistration) (bytes : Nat) : MemoryTierRegistration :=
  { registration with tier := { registration.tier with
    usedBytes := registration.tier.usedBytes - UInt64.ofNat bytes } }

theorem floor_le_used : registration.floor domain ≤ registration.used domain := by
  unfold floor used
  split
  · exact Nat.min_le_left _ _
  · exact Nat.le_refl _

theorem yield_zero : registration.yield 0 = registration := by
  simp [yield]

theorem used_yield {bytes : Nat} (h : bytes ≤ registration.used domain) :
    (registration.yield bytes).used domain = registration.used domain - bytes := by
  unfold used at h ⊢
  show (if registration.tier.domain = domain then
    (registration.tier.usedBytes - UInt64.ofNat bytes).toNat else 0) = _
  split
  next hdomain =>
    rw [if_pos hdomain] at h
    have hsize := registration.tier.usedBytes.toNat_lt
    have hbytes : (UInt64.ofNat bytes).toNat = bytes :=
      UInt64.toNat_ofNat_of_lt' (Nat.lt_of_le_of_lt h hsize)
    rw [UInt64.toNat_sub_of_le _ _ (by rw [UInt64.le_iff_toNat_le, hbytes]; exact h), hbytes]
  next => simp

end MemoryTierRegistration

namespace MemoryResourceGovernor

variable {domain : MemoryDomain}

section

variable {limit required tiersUsed trimmedBytes : UInt64}

/-- Bytes over the limit. -/
def excess (limit required tiersUsed : UInt64) : Nat :=
  required.toNat + tiersUsed.toNat - limit.toNat

theorem fits_iff :
    (required ≤ limit ∧ tiersUsed ≤ limit - required) ↔ excess limit required tiersUsed = 0 := by
  unfold excess
  by_cases hrequired : required ≤ limit
  · have hle := UInt64.le_iff_toNat_le.1 hrequired
    rw [UInt64.le_iff_toNat_le, UInt64.le_iff_toNat_le, UInt64.toNat_sub_of_le _ _ hrequired]
    omega
  · have hlt : limit.toNat < required.toNat := by
      exact UInt64.not_le.1 hrequired
    simp only [hrequired, false_and, false_iff]
    omega

theorem trimTarget_toNat {used protectedBytes : UInt64} (hused : used ≤ tiersUsed)
    (hexcess : 0 < excess limit required tiersUsed) :
    let other := tiersUsed - used
    let available := if required ≤ limit then limit - required else 0
    let target := if other < available then available - other else 0
    (min used (max target protectedBytes)).toNat =
      used.toNat - min (excess limit required tiersUsed)
        (used.toNat - min used.toNat protectedBytes.toNat) := by
  intro other available target
  have hother : other.toNat = tiersUsed.toNat - used.toNat := UInt64.toNat_sub_of_le _ _ hused
  have hle : used.toNat ≤ tiersUsed.toNat := UInt64.le_iff_toNat_le.1 hused
  have htarget : target.toNat = used.toNat - excess limit required tiersUsed := by
    unfold excess at hexcess ⊢
    by_cases hrequired : required ≤ limit
    · have havailable : available.toNat = limit.toNat - required.toNat := by
        show (if required ≤ limit then limit - required else 0).toNat = _
        rw [if_pos hrequired, UInt64.toNat_sub_of_le _ _ hrequired]
      show (if other < available then available - other else 0).toNat = _
      by_cases hroom : other < available
      · have hlt := UInt64.lt_iff_toNat_lt.1 hroom
        rw [if_pos hroom, UInt64.toNat_sub_of_le _ _ (UInt64.le_of_lt hroom)]
        omega
      · have hge := UInt64.le_iff_toNat_le.1 (UInt64.not_lt.1 hroom)
        rw [if_neg hroom, UInt64.toNat_zero]
        omega
    · have havailable : available = 0 := if_neg hrequired
      have hlt := UInt64.lt_iff_toNat_lt.1 (UInt64.not_le.1 hrequired)
      show (if other < available then available - other else 0).toNat = _
      rw [havailable, if_neg (UInt64.not_lt_zero), UInt64.toNat_zero]
      omega
  rw [toNat_min, toNat_max, htarget]
  omega

/-- The tiers of the domain hold what the running total says. -/
def Holds (domain : MemoryDomain) (held : Nat) (tiersUsed : UInt64)
    (tiers : List MemoryTierRegistration) : Prop :=
  tiersUsed.toNat = held + (tiers.map (·.used domain)).sum

theorem trimmed_tier {registration : MemoryTierRegistration} {after : UInt64}
    (hdomain : registration.tier.domain = domain)
    (hused : registration.tier.usedBytes ≤ tiersUsed)
    (hafter : after.toNat = registration.tier.usedBytes.toNat -
      min (excess limit required tiersUsed) (registration.spare domain)) :
    let given := min (excess limit required tiersUsed) (registration.spare domain)
    let tier : MemoryTier := { registration.tier with usedBytes := after }
    ({ registration with tier } : MemoryTierRegistration) = registration.yield given ∧
      (if registration.tier.usedBytes > after then
        trimmedBytes + (registration.tier.usedBytes - after) else trimmedBytes) =
        trimmedBytes + UInt64.ofNat given ∧
      (saturatingAdd (tiersUsed - registration.tier.usedBytes) after).toNat =
        tiersUsed.toNat - given ∧
      excess limit required (saturatingAdd (tiersUsed - registration.tier.usedBytes) after) =
        excess limit required tiersUsed - given := by
  intro given tier
  have hgiven : given ≤ registration.tier.usedBytes.toNat := by
    have hspare : registration.spare domain ≤ registration.tier.usedBytes.toNat := by
      simp [MemoryTierRegistration.spare, MemoryTierRegistration.used, hdomain]
    exact Nat.le_trans (Nat.min_le_right _ _) hspare
  have hle := UInt64.le_iff_toNat_le.1 hused
  have hsize := tiersUsed.toNat_lt
  have hbytes : (UInt64.ofNat given).toNat = given :=
    UInt64.toNat_ofNat_of_lt' (by show given < 2 ^ 64; omega)
  have hleft : after = registration.tier.usedBytes - UInt64.ofNat given := by
    apply UInt64.toNat_inj.1
    rw [hafter, UInt64.toNat_sub_of_le _ _ (by rw [UInt64.le_iff_toNat_le, hbytes]; exact hgiven),
      hbytes]
  have htotal : (saturatingAdd (tiersUsed - registration.tier.usedBytes) after).toNat =
      tiersUsed.toNat - given := by
    have hother : (tiersUsed - registration.tier.usedBytes).toNat =
        tiersUsed.toNat - registration.tier.usedBytes.toNat := UInt64.toNat_sub_of_le _ _ hused
    rw [saturatingAdd_toNat (by omega), hother, hafter]
    omega
  refine ⟨?_, ?_, htotal, ?_⟩
  · rw [MemoryTierRegistration.yield, ← hleft]
  · by_cases hshrunk : registration.tier.usedBytes > after
    · rw [if_pos hshrunk]
      congr 1
      apply UInt64.toNat_inj.1
      rw [UInt64.toNat_sub_of_le _ _ (UInt64.le_of_lt hshrunk), hafter, hbytes]
      omega
    · have hge := UInt64.le_iff_toNat_le.1 (UInt64.not_lt.1 hshrunk)
      have hzero : given = 0 := by omega
      rw [if_neg hshrunk, hzero]
      simp
  · have hover : given ≤ excess limit required tiersUsed := Nat.min_le_left _ _
    unfold excess at hover ⊢
    omega

theorem trimTiers_spec {tiers : List MemoryTierRegistration} {held : Nat}
    (hexact : ∀ registration ∈ tiers, registration.tier.Exact)
    (hholds : Holds domain held tiersUsed tiers)
    (hexcess : 0 < excess limit required tiersUsed) :
    let given := greedyRelease (·.spare domain) (excess limit required tiersUsed) tiers
    trimTiers domain limit required tiersUsed trimmedBytes tiers =
      (decide (excess limit required tiersUsed ≤ (tiers.map (·.spare domain)).sum),
        trimmedBytes + UInt64.ofNat (given.map Prod.snd).sum,
        given.map fun pair => pair.1.yield pair.2) := by
  induction tiers generalizing tiersUsed trimmedBytes held with
  | nil =>
    have hnot : ¬ excess limit required tiersUsed ≤ 0 := by omega
    simp [trimTiers, greedyRelease, hnot]
  | cons registration rest ih =>
    have hrest : ∀ other ∈ rest, other.tier.Exact :=
      fun other hother => hexact other (mem_cons_of_mem _ hother)
    simp only [Holds, map_cons, sum_cons] at hholds
    by_cases hdomain : registration.tier.domain = domain
    · subst hdomain
      have hownUsed : registration.used registration.tier.domain =
          registration.tier.usedBytes.toNat := by simp [MemoryTierRegistration.used]
      have hused : registration.tier.usedBytes ≤ tiersUsed := by
        rw [le_iff_toNat_le]
        omega
      have hspare : registration.spare registration.tier.domain =
          registration.tier.usedBytes.toNat -
            min registration.tier.usedBytes.toNat registration.tier.protectedBytes.toNat := by
        simp [MemoryTierRegistration.spare, MemoryTierRegistration.used,
          MemoryTierRegistration.floor]
      have htarget := @trimTarget_toNat limit required tiersUsed _
        registration.tier.protectedBytes hused hexcess
      rw [← hspare] at htarget
      simp only [trimTiers, ne_eq, not_true_eq_false, if_false, ge_iff_le, hused, if_true,
        MemoryTier.trimTo, hexact registration mem_cons_self _ _] at htarget ⊢
      generalize min registration.tier.usedBytes _ = after at htarget ⊢
      obtain ⟨hyield, htrimmed, htotal, hleft⟩ :=
        @trimmed_tier registration.tier.domain limit required tiersUsed trimmedBytes _ _ rfl
          hused htarget
      rw [hyield, htrimmed]
      generalize hnow : saturatingAdd (tiersUsed - registration.tier.usedBytes) after = now
        at htotal hleft ⊢
      simp only [map_cons, sum_cons, greedyRelease, ← hleft]
      by_cases hfits : required ≤ limit ∧ now ≤ limit - required
      · have hmet := fits_iff.1 hfits
        have henough : excess limit required tiersUsed ≤
            registration.spare registration.tier.domain +
              (rest.map (·.spare registration.tier.domain)).sum := by omega
        simp [hfits, hmet, henough, greedyRelease_zero, MemoryTierRegistration.yield_zero,
          Function.comp_def]
      · have hmore : 0 < excess limit required now :=
          Nat.pos_of_ne_zero fun hzero => hfits (fits_iff.2 hzero)
        have hholds' : Holds registration.tier.domain
            (held + (registration.used registration.tier.domain -
              min (excess limit required tiersUsed)
                (registration.spare registration.tier.domain))) now rest := by
          rw [Holds, htotal, hholds]
          omega
        have hloop := @ih now (trimmedBytes + UInt64.ofNat (min (excess limit required tiersUsed)
          (registration.spare registration.tier.domain))) _ hrest hholds' hmore
        have hdecide : decide (excess limit required now ≤
              (rest.map (·.spare registration.tier.domain)).sum) =
            decide (excess limit required tiersUsed ≤
              registration.spare registration.tier.domain +
                (rest.map (·.spare registration.tier.domain)).sum) :=
          decide_eq_decide.2 (by omega)
        rw [if_neg hfits, hloop, hdecide, ofNat_add, add_assoc]
    · have hnone : registration.spare domain = 0 := by
        simp [MemoryTierRegistration.spare, MemoryTierRegistration.used, hdomain]
      have hheld : registration.used domain = 0 := by
        simp [MemoryTierRegistration.used, hdomain]
      have hholds' : Holds domain held tiersUsed rest := by
        rw [Holds, hholds, hheld, Nat.zero_add]
      have hloop := @ih tiersUsed trimmedBytes held hrest hholds' hexcess
      simp [trimTiers, hdomain, greedyRelease, hnone, hloop, MemoryTierRegistration.yield_zero]

end

/-! ## Rebalancing -/

def usage (governor : MemoryResourceGovernor) (domain : MemoryDomain) : Nat :=
  (governor.tiers.map (·.used domain)).sum

def floors (governor : MemoryResourceGovernor) (domain : MemoryDomain) : Nat :=
  (governor.tiers.map (·.floor domain)).sum

def limit (governor : MemoryResourceGovernor) (domain : MemoryDomain) : Nat :=
  (governor.budget domain).toNat - (governor.emergency domain).toNat

/-- Bytes over the limit once `bytes` more are reserved. -/
def need (governor : MemoryResourceGovernor) (domain : MemoryDomain) (bytes : UInt64) : Nat :=
  (governor.reserved domain).toNat + bytes.toNat + governor.usage domain - governor.limit domain

/-- The byte sums of a request stay below `2 ^ 64`. -/
def Bounded (governor : MemoryResourceGovernor) (domain : MemoryDomain) (bytes : UInt64) : Prop :=
  (governor.reserved domain).toNat + bytes.toNat + governor.usage domain < 2 ^ 64

instance (governor : MemoryResourceGovernor) (domain : MemoryDomain) (bytes : UInt64) :
    Decidable (governor.Bounded domain bytes) := inferInstanceAs (Decidable (_ < _))

/-- What every governor keeps: a limit below its budget, exact tiers in eviction order. -/
structure WellFormed (governor : MemoryResourceGovernor) : Prop where
  emergency : ∀ domain, governor.emergency domain < governor.budget domain
  exact : ∀ registration ∈ governor.tiers, registration.tier.Exact
  sorted : governor.tiers.Pairwise fun ahead behind =>
    ahead.evictionPriority ≤ behind.evictionPriority

variable {governor : MemoryResourceGovernor} {bytes : UInt64}

theorem foldl_tierBytes {tiers : List MemoryTierRegistration} {total : UInt64}
    (h : total.toNat + (tiers.map (·.used domain)).sum < 2 ^ 64) :
    (tiers.foldl (fun total registration =>
      if registration.tier.domain = domain then
        saturatingAdd total registration.tier.usedBytes
      else total) total).toNat = total.toNat + (tiers.map (·.used domain)).sum := by
  induction tiers generalizing total with
  | nil => simp
  | cons registration rest ih =>
    simp only [map_cons, sum_cons] at h ⊢
    simp only [foldl_cons]
    by_cases hdomain : registration.tier.domain = domain
    · have hused : registration.used domain = registration.tier.usedBytes.toNat := by
        simp [MemoryTierRegistration.used, hdomain]
      have hadd := @saturatingAdd_toNat total registration.tier.usedBytes (by omega)
      rw [if_pos hdomain, ih (by omega), hadd]
      omega
    · have hused : registration.used domain = 0 := by
        simp [MemoryTierRegistration.used, hdomain]
      rw [if_neg hdomain, ih (by omega), hused]
      omega

theorem tierBytes_toNat (h : governor.usage domain < 2 ^ 64) :
    (governor.tierBytes domain).toNat = governor.usage domain := by
  have hfold := @foldl_tierBytes domain governor.tiers 0 (by simpa [usage] using h)
  rw [tierBytes, hfold, usage, UInt64.toNat_zero, Nat.zero_add]

theorem floors_add_spare : governor.floors domain +
    (governor.tiers.map (·.spare domain)).sum = governor.usage domain := by
  unfold floors usage
  induction governor.tiers with
  | nil => rfl
  | cons registration rest ih =>
    have hfloor := @MemoryTierRegistration.floor_le_used registration domain
    simp only [map_cons, sum_cons, MemoryTierRegistration.spare] at ih ⊢
    omega

section

variable (hwell : governor.WellFormed) (hbounded : governor.Bounded domain bytes)

include hwell hbounded

theorem rebalanceLocked_spec :
    let given := greedyRelease (·.spare domain) (governor.need domain bytes) governor.tiers
    let result := governor.rebalanceLocked domain bytes
    (result.1.ok ↔ governor.need domain bytes ≤ (governor.tiers.map (·.spare domain)).sum) ∧
      result.2.tiers = given.map (fun pair => pair.1.yield pair.2) ∧
      result.2.trimmedBytes = governor.trimmedBytes + UInt64.ofNat (given.map Prod.snd).sum ∧
      result.2.config = governor.config ∧ result.2.hostReserved = governor.hostReserved ∧
      result.2.deviceReserved = governor.deviceReserved := by
  unfold Bounded at hbounded
  have hlimit : (governor.budget domain - governor.emergency domain).toNat =
      governor.limit domain :=
    UInt64.toNat_sub_of_le _ _ (UInt64.le_of_lt (hwell.emergency domain))
  have hrequired := @saturatingAdd_toNat (governor.reserved domain) bytes (by omega)
  have hused := @tierBytes_toNat domain governor (by omega)
  have hneed : excess (governor.budget domain - governor.emergency domain)
      (saturatingAdd (governor.reserved domain) bytes) (governor.tierBytes domain) =
        governor.need domain bytes := by
    rw [excess, hlimit, hrequired, hused, need]
  simp only [rebalanceLocked]
  by_cases hfits : saturatingAdd (governor.reserved domain) bytes ≤
        governor.budget domain - governor.emergency domain ∧
      governor.tierBytes domain ≤ governor.budget domain - governor.emergency domain -
        saturatingAdd (governor.reserved domain) bytes
  · have hzero := fits_iff.1 hfits
    rw [hneed] at hzero
    rw [if_pos hfits, hzero]
    simp [greedyRelease_zero, MemoryTierRegistration.yield_zero, Function.comp_def]
  · have hpos : 0 < governor.need domain bytes := by
      rw [← hneed]
      exact Nat.pos_of_ne_zero fun hzero => hfits (fits_iff.2 hzero)
    have hholds : Holds domain 0 (governor.tierBytes domain) governor.tiers := by
      rw [Holds, hused, Nat.zero_add, usage]
    have hloop := @trimTiers_spec domain _ _ _ governor.trimmedBytes governor.tiers 0 hwell.exact
      hholds (hneed ▸ hpos)
    simp only [hneed] at hloop
    rw [if_neg hfits, hloop]
    by_cases henough : governor.need domain bytes ≤ (governor.tiers.map (·.spare domain)).sum
    · simp [henough]
    · have hfailed : (exhaustedStatus domain).ok = false := by cases domain <;> rfl
      simp [henough, hfailed]

theorem rebalanceLocked_ok_iff :
    (governor.rebalanceLocked domain bytes).1.ok ↔
      (governor.reserved domain).toNat + bytes.toNat + governor.floors domain ≤
        governor.limit domain := by
  have hsplit := @floors_add_spare domain governor
  rw [(rebalanceLocked_spec hwell hbounded).1, need]
  omega

end

/-- The tiers after a trim: `given` names every tier with the bytes it released. -/
structure TrimmedInOrder (domain : MemoryDomain) (need : Nat)
    (tiers tiers' : List MemoryTierRegistration)
    (given : List (MemoryTierRegistration × Nat)) : Prop where
  before : given.map Prod.fst = tiers
  after : tiers' = given.map fun pair => pair.1.yield pair.2
  /-- The other domain is not touched. -/
  other : ∀ pair ∈ given, pair.1.tier.domain ≠ domain → pair.2 = 0
  /-- No tier goes below the smaller of its usage and its protected bytes. -/
  floor : ∀ pair ∈ given, pair.2 + pair.1.floor domain ≤ pair.1.used domain
  /-- A tier gives only if every tier of lower priority is at its floor. -/
  order : ∀ ahead ∈ given, ∀ behind ∈ given,
    ahead.1.evictionPriority < behind.1.evictionPriority → 0 < behind.2 →
      ahead.2 + ahead.1.floor domain = ahead.1.used domain
  /-- A tier gives at most what the tiers before it left needed. -/
  needed : ∀ before pair after, given = before ++ pair :: after →
    (before.map Prod.snd).sum + pair.2 ≤ need

variable {given : List (MemoryTierRegistration × Nat)} {other : MemoryResourceGovernor}
  {status : Status} {registration : MemoryTierRegistration}

theorem rel_of_priority_lt
    {rel : MemoryTierRegistration × Nat → MemoryTierRegistration × Nat → Prop}
    (hsorted : given.Pairwise fun ahead behind =>
      ahead.1.evictionPriority ≤ behind.1.evictionPriority)
    (hrel : given.Pairwise rel) {ahead behind : MemoryTierRegistration × Nat}
    (hahead : ahead ∈ given) (hbehind : behind ∈ given)
    (hlt : ahead.1.evictionPriority < behind.1.evictionPriority) : rel ahead behind := by
  induction given with
  | nil => cases hahead
  | cons head rest ih =>
    obtain ⟨hfirst, hsorted⟩ := pairwise_cons.1 hsorted
    obtain ⟨hrelFirst, hrel⟩ := pairwise_cons.1 hrel
    rcases mem_cons.1 hahead with rfl | haheadRest
    · rcases mem_cons.1 hbehind with rfl | hbehindRest
      · exact absurd hlt (UInt32.lt_irrefl _)
      · exact hrelFirst behind hbehindRest
    · rcases mem_cons.1 hbehind with rfl | hbehindRest
      · exact absurd hlt (UInt32.not_lt.2 (hfirst ahead haheadRest))
      · exact ih hsorted hrel haheadRest hbehindRest

theorem trimmedInOrder_greedy {tiers : List MemoryTierRegistration} {need : Nat}
    (hsorted : tiers.Pairwise fun ahead behind =>
      ahead.evictionPriority ≤ behind.evictionPriority) :
    let given := greedyRelease (·.spare domain) need tiers
    TrimmedInOrder domain need tiers (given.map fun pair => pair.1.yield pair.2) given := by
  intro given
  have hbefore : given.map Prod.fst = tiers := greedyRelease_holders
  have hspare : ∀ pair ∈ given, pair.2 ≤ pair.1.spare domain := greedyRelease_le_spare
  have hfloor : ∀ registration : MemoryTierRegistration,
      registration.spare domain + registration.floor domain = registration.used domain :=
    fun registration => Nat.sub_add_cancel MemoryTierRegistration.floor_le_used
  refine ⟨hbefore, rfl, fun pair hpair hother => ?_, fun pair hpair => ?_,
    fun ahead hahead behind hbehind hlt hgives => ?_, fun before pair after hsplit => ?_⟩
  · have hle := hspare pair hpair
    have hnone : pair.1.spare domain = 0 := by
      simp [MemoryTierRegistration.spare, MemoryTierRegistration.used, hother]
    omega
  · have hle := hspare pair hpair
    have hsum := hfloor pair.1
    omega
  · have hgivenSorted : given.Pairwise fun ahead behind =>
        ahead.1.evictionPriority ≤ behind.1.evictionPriority := by
      rw [← hbefore] at hsorted
      exact List.Pairwise.of_map Prod.fst (fun _ _ hle => hle) hsorted
    have hall := rel_of_priority_lt hgivenSorted greedyRelease_ordered hahead hbehind hlt hgives
    rw [hall]
    exact hfloor ahead.1
  · exact greedyRelease_needed hsplit

theorem sum_used_yield (h : ∀ pair ∈ given, pair.2 ≤ pair.1.used domain) :
    ((given.map fun pair => pair.1.yield pair.2).map (·.used domain)).sum +
        (given.map Prod.snd).sum =
      ((given.map Prod.fst).map (·.used domain)).sum := by
  induction given with
  | nil => rfl
  | cons pair rest ih =>
    have hpair := MemoryTierRegistration.used_yield (h pair mem_cons_self)
    have hle := h pair mem_cons_self
    have hrest := ih fun other hother => h other (mem_cons_of_mem _ hother)
    simp only [map_cons, sum_cons] at hrest ⊢
    omega

theorem TrimmedInOrder.usage {need : Nat} {tiers tiers' : List MemoryTierRegistration}
    (h : TrimmedInOrder domain need tiers tiers' given) :
    (tiers'.map (·.used domain)).sum + (given.map Prod.snd).sum =
      (tiers.map (·.used domain)).sum := by
  rw [h.after, ← h.before]
  refine sum_used_yield fun pair hpair => ?_
  have hfloor := h.floor pair hpair
  omega

theorem TrimmedInOrder.usage_other {need : Nat} {tiers tiers' : List MemoryTierRegistration}
    {given : List (MemoryTierRegistration × Nat)} {other : MemoryDomain}
    (h : TrimmedInOrder domain need tiers tiers' given) (hne : other ≠ domain) :
    (tiers'.map (·.used other)).sum = (tiers.map (·.used other)).sum := by
  rw [h.after, ← h.before, map_map, map_map]
  congr 1
  refine map_congr_left fun pair hpair => ?_
  by_cases hdomain : pair.1.tier.domain = domain
  · have hown : pair.1.tier.domain ≠ other := fun heq => hne (heq.symm.trans hdomain)
    simp [Function.comp, MemoryTierRegistration.used, MemoryTierRegistration.yield, hown]
  · simp [Function.comp, h.other pair hpair hdomain, MemoryTierRegistration.yield_zero]

/-! ## Requests -/

/-- What a request for `bytes` of the domain does, and when it succeeds. -/
structure Answers (domain : MemoryDomain) (bytes : UInt64) (governor : MemoryResourceGovernor)
    (status : Status) (governor' : MemoryResourceGovernor) : Prop where
  ok_iff : status.ok ↔ (governor.reserved domain).toNat + bytes.toNat +
    governor.floors domain ≤ governor.limit domain
  fits : status.ok → (governor.reserved domain).toNat + bytes.toNat +
    governor'.usage domain ≤ governor.limit domain
  trimmed : ∃ given, TrimmedInOrder domain (governor.need domain bytes) governor.tiers
      governor'.tiers given ∧
    governor'.trimmedBytes = governor.trimmedBytes + UInt64.ofNat (given.map Prod.snd).sum
  reserved : ∀ other, other ≠ domain → governor'.reserved other = governor.reserved other
  config : governor'.config = governor.config

theorem reserved_congr (hhost : other.hostReserved = governor.hostReserved)
    (hdevice : other.deviceReserved = governor.deviceReserved) :
    other.reserved domain = governor.reserved domain := by
  cases domain
  · exact hhost
  · exact hdevice

theorem rebalance_answers (hwell : governor.WellFormed)
    (hbounded : governor.Bounded domain bytes) :
    Answers domain bytes governor (governor.rebalance domain bytes).1
      (governor.rebalance domain bytes).2 := by
  obtain ⟨hok, htiers, htrimmed, hconfig, hhost, hdevice⟩ :=
    rebalanceLocked_spec hwell hbounded
  have horder := @trimmedInOrder_greedy domain _ (governor.need domain bytes) hwell.sorted
  simp only at horder
  rw [← htiers] at horder
  refine ⟨rebalanceLocked_ok_iff hwell hbounded, fun hstatus => ?_, ⟨_, horder, htrimmed⟩,
    fun _ _ => reserved_congr hhost hdevice, hconfig⟩
  have henough := hok.1 hstatus
  have husage := horder.usage
  rw [greedyRelease_sum, Nat.min_eq_left henough] at husage
  simp only [rebalance, MemoryResourceGovernor.usage, need] at husage henough ⊢
  omega

section

@[simp] theorem reserved_setReserved :
    (governor.setReserved domain bytes).reserved domain = bytes := by
  cases domain <;> rfl

theorem reserved_setReserved_ne {other : MemoryDomain} (hne : other ≠ domain) :
    (governor.setReserved domain bytes).reserved other = governor.reserved other := by
  cases domain <;> cases other <;> first | rfl | exact absurd rfl hne

@[simp] theorem tiers_setReserved :
    (governor.setReserved domain bytes).tiers = governor.tiers := by
  cases domain <;> rfl

@[simp] theorem trimmedBytes_setReserved :
    (governor.setReserved domain bytes).trimmedBytes = governor.trimmedBytes := by
  cases domain <;> rfl

@[simp] theorem config_setReserved :
    (governor.setReserved domain bytes).config = governor.config := by
  cases domain <;> rfl

end

theorem reserved_add (hbounded : governor.Bounded domain bytes) :
    (governor.reserved domain + bytes).toNat =
      (governor.reserved domain).toNat + bytes.toNat := by
  unfold Bounded at hbounded
  have hlt : (governor.reserved domain).toNat + bytes.toNat < 2 ^ 64 := by omega
  rw [UInt64.toNat_add, Nat.mod_eq_of_lt hlt]

theorem reserve_cases (hpositive : bytes ≠ 0) :
    (governor.rebalanceLocked domain bytes).1.ok = false ∧
        governor.reserve domain bytes = governor.rebalanceLocked domain bytes ∨
      (governor.rebalanceLocked domain bytes).1.ok = true ∧
        governor.reserve domain bytes = (.success,
          (governor.rebalanceLocked domain bytes).2.setReserved domain
            ((governor.rebalanceLocked domain bytes).2.reserved domain + bytes)) := by
  unfold reserve
  rw [if_neg hpositive]
  generalize governor.rebalanceLocked domain bytes = rebalanced
  by_cases hok : rebalanced.1.ok
  · exact Or.inr ⟨hok, by simp [hok]⟩
  · exact Or.inl ⟨by simpa using hok, by simp [hok]⟩

theorem reserve_answers (hwell : governor.WellFormed) (hbounded : governor.Bounded domain bytes)
    (hpositive : bytes ≠ 0) :
    Answers domain bytes governor (governor.reserve domain bytes).1
        (governor.reserve domain bytes).2 ∧
      ((governor.reserve domain bytes).1.ok →
        ((governor.reserve domain bytes).2.reserved domain).toNat =
          (governor.reserved domain).toNat + bytes.toNat) := by
  have hanswers := rebalance_answers hwell hbounded
  obtain ⟨-, -, -, -, hhost, hdevice⟩ := rebalanceLocked_spec hwell hbounded
  have hreserved : (governor.rebalanceLocked domain bytes).2.reserved domain =
      governor.reserved domain := reserved_congr hhost hdevice
  unfold rebalance at hanswers
  rcases @reserve_cases domain governor bytes hpositive with ⟨hok, hsame⟩ | ⟨hok, hrecorded⟩
  · rw [hsame]
    exact ⟨hanswers, fun htrue => by rw [hok] at htrue; cases htrue⟩
  · rw [hrecorded]
    refine ⟨⟨iff_of_true rfl (hanswers.ok_iff.1 hok), fun _ => ?_, ?_, fun other hne => ?_, ?_⟩,
      fun _ => ?_⟩
    · simpa only [usage, tiers_setReserved] using hanswers.fits hok
    · simpa only [tiers_setReserved, trimmedBytes_setReserved] using hanswers.trimmed
    · rw [reserved_setReserved_ne hne]
      exact hanswers.reserved other hne
    · simpa only [config_setReserved] using hanswers.config
    · rw [reserved_setReserved, hreserved, reserved_add hbounded]

/-! ## Runs -/

/-- A run also lets a tier's own usage change between two requests. -/
inductive Call where
  | registerTier (registration : MemoryTierRegistration)
  | reserve (domain : MemoryDomain) (bytes : UInt64)
  | release (domain : MemoryDomain) (bytes : UInt64)
  | rebalance (domain : MemoryDomain) (additionalBytes : UInt64)
  | useBytes (id : Nat) (bytes : UInt64)

def setUsage (governor : MemoryResourceGovernor) (id : Nat) (bytes : UInt64) :
    MemoryResourceGovernor :=
  { governor with tiers := governor.tiers.map fun registration =>
      if registration.tier.id = id then
        { registration with tier := { registration.tier with usedBytes := bytes } }
      else registration }

/-- A governor and the bytes its tiers have released to it so far. -/
structure Run where
  governor : MemoryResourceGovernor
  released : Nat := 0

namespace Run

/-- The run after a request: what left the tiers is what they released. -/
def after (run : Run) (governor : MemoryResourceGovernor) : Run where
  governor := governor
  released := run.released + (run.governor.usage .host + run.governor.usage .device -
    (governor.usage .host + governor.usage .device))

def step (run : Run) : Call → Option Run
  | .registerTier registration =>
    (run.governor.registerTier registration).map fun governor => { run with governor }
  | .reserve domain bytes => some (run.after (run.governor.reserve domain bytes).2)
  | .release domain bytes => some { run with governor := run.governor.release domain bytes }
  | .rebalance domain additionalBytes =>
    some (run.after (run.governor.rebalance domain additionalBytes).2)
  | .useBytes id bytes => some { run with governor := run.governor.setUsage id bytes }

/-- Tiers trim to the target they are given, and no byte sum wraps. -/
def Allowed (run : Run) : Call → Prop
  | .registerTier registration => registration.tier.Exact
  | .reserve domain bytes | .rebalance domain bytes => run.governor.Bounded domain bytes
  | .release _ _ | .useBytes _ _ => True

/-- The governor is well formed, and `trimmed_bytes` counts what was released. -/
structure Accounted (run : Run) : Prop where
  wellFormed : run.governor.WellFormed
  trimmed : run.governor.trimmedBytes = UInt64.ofNat run.released

end Run

section

variable (hwell : governor.WellFormed)

include hwell

theorem WellFormed.congr (hconfig : other.config = governor.config)
    (hexact : ∀ registration ∈ other.tiers, registration.tier.Exact)
    (hsorted : other.tiers.Pairwise fun ahead behind =>
      ahead.evictionPriority ≤ behind.evictionPriority) : other.WellFormed := by
  refine ⟨fun domain => ?_, hexact, hsorted⟩
  have hold := hwell.emergency domain
  unfold MemoryResourceGovernor.emergency MemoryResourceGovernor.budget at hold ⊢
  rw [hconfig]
  exact hold

theorem WellFormed.of_map {α : Type} {items : List α} {old new : α → MemoryTierRegistration}
    (hconfig : other.config = governor.config) (hold : items.map old = governor.tiers)
    (hnew : other.tiers = items.map new)
    (htrim : ∀ item, (new item).tier.trim = (old item).tier.trim)
    (hpriority : ∀ item, (new item).evictionPriority = (old item).evictionPriority) :
    other.WellFormed := by
  refine hwell.congr hconfig ?_ ?_
  · intro registration hmem
    rw [hnew] at hmem
    obtain ⟨item, hitem, rfl⟩ := mem_map.1 hmem
    have hexact := hwell.exact (old item) (hold ▸ mem_map_of_mem hitem)
    unfold MemoryTier.Exact at hexact ⊢
    rw [htrim]
    exact hexact
  · have hsorted := hwell.sorted
    rw [← hold, pairwise_map] at hsorted
    rw [hnew, pairwise_map]
    simpa only [hpriority] using hsorted

theorem WellFormed.of_answers (h : Answers domain bytes governor status other) :
    other.WellFormed := by
  obtain ⟨given, horder, -⟩ := h.trimmed
  exact hwell.of_map h.config horder.before horder.after (fun _ => rfl) fun _ => rfl

theorem WellFormed.setReserved :
    (governor.setReserved domain bytes).WellFormed :=
  hwell.congr config_setReserved (by rw [tiers_setReserved]; exact hwell.exact)
    (by rw [tiers_setReserved]; exact hwell.sorted)

theorem WellFormed.setUsage {id : Nat} :
    (governor.setUsage id bytes).WellFormed := by
  refine hwell.of_map rfl (map_id governor.tiers) rfl (fun registration => ?_)
    fun registration => ?_
  all_goals
    split <;> rfl

theorem WellFormed.registerTier (hexact : registration.tier.Exact)
    (h : governor.registerTier registration = some other) : other.WellFormed := by
  unfold MemoryResourceGovernor.registerTier at h
  split at h
  next => cases h
  next =>
    split at h
    next => cases h
    next =>
      cases h
      refine hwell.congr rfl (fun member hmember => ?_) ?_
      · rcases mem_append.1 (mem_mergeSort.1 hmember) with hold | hnew
        · exact hwell.exact member hold
        · rw [mem_singleton.1 hnew]
          exact hexact
      · have hsorted := @pairwise_mergeSort _
          (fun left right : MemoryTierRegistration =>
            decide (left.evictionPriority ≤ right.evictionPriority))
          (fun _ _ _ hfirst hsecond => by
            simp only [decide_eq_true_eq] at hfirst hsecond ⊢
            exact UInt32.le_trans hfirst hsecond)
          (fun left right => by
            simpa using UInt32.le_total left.evictionPriority right.evictionPriority)
          (governor.tiers ++ [registration])
        exact hsorted.imp fun hle => by simpa using hle

end

theorem Answers.released (h : Answers domain bytes governor status other) :
    other.trimmedBytes = governor.trimmedBytes + UInt64.ofNat
      (governor.usage .host + governor.usage .device -
        (other.usage .host + other.usage .device)) := by
  obtain ⟨given, horder, htrimmed⟩ := h.trimmed
  have hown := horder.usage
  rw [htrimmed]
  congr 2
  unfold usage
  cases domain
  · have hdevice := @TrimmedInOrder.usage_other _ _ _ _ _ .device horder (by decide)
    omega
  · have hhost := @TrimmedInOrder.usage_other _ _ _ _ _ .host horder (by decide)
    omega

theorem reserve_zero : governor.reserve domain 0 = (zeroReservationStatus, governor) :=
  if_pos rfl

theorem registerTier_trimmedBytes (h : governor.registerTier registration = some other) :
    other.trimmedBytes = governor.trimmedBytes := by
  unfold registerTier at h
  split at h
  next => cases h
  next =>
    split at h
    next => cases h
    next =>
      cases h
      rfl

namespace Run

variable {run run' : Run} {call : Call}

theorem accounted_after {status : Status} {other : MemoryResourceGovernor}
    (h : run.Accounted) (hanswers : Answers domain bytes run.governor status other) :
    (run.after other).Accounted where
  wellFormed := h.wellFormed.of_answers hanswers
  trimmed := by
    show other.trimmedBytes = UInt64.ofNat (run.released + _)
    rw [hanswers.released, h.trimmed, ofNat_add]

theorem step_accounted (h : run.Accounted) (hallowed : run.Allowed call)
    (hstep : run.step call = some run') : run'.Accounted := by
  cases call with
  | registerTier registration =>
    obtain ⟨other, hother, rfl⟩ := Option.map_eq_some_iff.1 hstep
    exact ⟨h.wellFormed.registerTier hallowed hother,
      (registerTier_trimmedBytes hother).trans h.trimmed⟩
  | reserve domain bytes =>
    cases hstep
    by_cases hpositive : bytes = 0
    · rw [hpositive, reserve_zero]
      exact ⟨h.wellFormed, by simpa [after] using h.trimmed⟩
    · exact accounted_after h (reserve_answers h.wellFormed hallowed hpositive).1
  | release domain bytes =>
    cases hstep
    exact ⟨h.wellFormed.setReserved, (trimmedBytes_setReserved).trans h.trimmed⟩
  | rebalance domain additionalBytes =>
    cases hstep
    exact accounted_after h (rebalance_answers h.wellFormed hallowed)
  | useBytes id bytes =>
    cases hstep
    exact ⟨h.wellFormed.setUsage, h.trimmed⟩

theorem start_accounted {config : MemoryGovernorConfig} {start : MemoryResourceGovernor}
    (hstart : create config = some start) : Accounted ⟨start, 0⟩ := by
  unfold create at hstart
  split at hstart
  next => cases hstart
  next hvalid =>
    cases hstart
    simp only [not_or, ge_iff_le, UInt64.not_le] at hvalid
    refine ⟨⟨fun domain => ?_, fun _ hmem => absurd hmem not_mem_nil,
      List.Pairwise.nil⟩, rfl⟩
    cases domain
    · exact hvalid.2.2.1
    · exact hvalid.2.2.2

end Run

/-- In every run, a positive reservation is admitted exactly when it fits beside the
floors, and every request trims its own domain in order and only as far as needed.
A reservation of nothing is refused. -/
theorem governor_admits_and_trims {config : MemoryGovernorConfig}
    {start : MemoryResourceGovernor} {run : Run} (hstart : create config = some start)
    (hreach : Reaches Run.step Run.Allowed ⟨start, 0⟩ run) :
    (∀ domain bytes, bytes ≠ 0 → run.governor.Bounded domain bytes →
      Answers domain bytes run.governor (run.governor.reserve domain bytes).1
          (run.governor.reserve domain bytes).2 ∧
        ((run.governor.reserve domain bytes).1.ok →
          ((run.governor.reserve domain bytes).2.reserved domain).toNat =
            (run.governor.reserved domain).toNat + bytes.toNat)) ∧
      (∀ domain, run.governor.reserve domain 0 = (zeroReservationStatus, run.governor)) ∧
      (∀ domain additionalBytes, run.governor.Bounded domain additionalBytes →
        Answers domain additionalBytes run.governor
          (run.governor.rebalance domain additionalBytes).1
          (run.governor.rebalance domain additionalBytes).2) ∧
      (run.released < 2 ^ 64 → run.governor.trimmedBytes.toNat = run.released) := by
  have haccounted : run.Accounted := hreach.invariant (Run.start_accounted hstart)
    fun _ h hallowed hstep => Run.step_accounted h hallowed hstep
  refine ⟨fun domain bytes hpositive hbounded => ?_, fun _ => reserve_zero,
    fun domain bytes hbounded => ?_, fun hreleased => ?_⟩
  · exact reserve_answers haccounted.wellFormed hbounded hpositive
  · exact rebalance_answers haccounted.wellFormed hbounded
  · rw [haccounted.trimmed]
    exact toNat_ofNat_of_lt' hreleased

def smallConfig : MemoryGovernorConfig := { hostBudgetBytes := 100, deviceBudgetBytes := 100 }

/-- A host cache of 60 bytes that keeps 20. -/
def cacheTier : MemoryTierRegistration where
  tier := { id := 0, name := "expert-cache-host", domain := .host, protectedBytes := 20,
            usedBytes := 60, trim := min }

/-- Nothing would fit any governor, and is still refused. -/
theorem zero_reservation_fits_and_fails :
    ∃ governor, create smallConfig = some governor ∧
      (governor.reserved .host).toNat + (0 : UInt64).toNat + governor.floors .host ≤
        governor.limit .host ∧
      (governor.reserve .host 0).1.ok = false :=
  ⟨{ config := smallConfig }, if_neg (by decide), by decide +kernel, by decide +kernel⟩

/-- Reserving 70 bytes beside the cache trims it by 30. -/
theorem cache_yields_to_reservation :
    ∃ governor, create smallConfig = some governor ∧
      ∃ run, Run.step ⟨governor, 0⟩ (.registerTier cacheTier) = some run ∧
        (run.governor.reserve .host 70).1.ok ∧
        (run.governor.reserve .host 90).1.ok = false := by
  have hstart : create smallConfig = some { config := smallConfig } := if_neg (by decide)
  refine ⟨{ config := smallConfig }, hstart,
    ⟨{ config := smallConfig, tiers := [cacheTier] }, 0⟩, ?_, ?_⟩
  · simp [Run.step, registerTier, cacheTier]
  · have hexact : Run.Allowed ⟨{ config := smallConfig }, 0⟩ (.registerTier cacheTier) :=
      fun _ _ => rfl
    have hreach : Reaches Run.step Run.Allowed ⟨{ config := smallConfig }, 0⟩
        ⟨{ config := smallConfig, tiers := [cacheTier] }, 0⟩ :=
      Reaches.refl.next hexact (by simp [Run.step, registerTier, cacheTier])
    have hresult := (governor_admits_and_trims hstart hreach).1 .host
    have hless := (hresult 70 (by decide) (by decide +kernel)).1.ok_iff
    have hmore := (hresult 90 (by decide) (by decide +kernel)).1.ok_iff
    refine ⟨hless.2 (by decide +kernel), ?_⟩
    by_contra hok
    exact absurd (hmore.1 (by simpa using hok)) (by decide +kernel)

end MemoryResourceGovernor

end QuantumLlm.Runtime
