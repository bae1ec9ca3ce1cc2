import Mathlib.Order.OrderDual
import QuantumLlm.Lib.Offers
import QuantumLlm.Runtime.Cache.Evictions

/-!
# Expert cache: the victim of an eviction

`evict_one_locked` offers its entries to the directory, least first, until one may
be retired. That entry alone is touched.
-/

namespace QuantumLlm.Runtime

namespace Core

/-- The core at a later scan of the same eviction. -/
def atScan (core : Core) (scan : Nat) : Core :=
  { core with directoryClock := core.directoryClock + scan }

/-- The order of victims: colder, then further over quota, then older, then by key. -/
def victimRank (core : Core) (request : EvictionRequest) (key : ExpertKey) :
    ℕ ×ₗ ℕᵒᵈ ×ₗ ℕ ×ₗ ExpertKey :=
  toLex ((core.entry key).temperature.toNat,
    toLex (OrderDual.toDual (core.excess request key).toNat,
      toLex ((core.entry key).lastAccess.toNat, key)))

/-- The filters of a request, for the entry of `key`. -/
structure Passes (core : Core) (request : EvictionRequest) (key : ExpertKey) : Prop where
  present : key ∈ core.entries.keys
  included : request.excluded ≠ some key
  unreferenced : (core.entry key).references = 0
  unwaited : (core.entry key).waiters = [] ∧ (core.entry key).hostWaiters = []
  unprepared : (core.entry key).preparingHost = false
  settled : (core.entry key).state ≠ .ssdLoading ∧ (core.entry key).state ≠ .gpuUploading ∧
    (core.entry key).state ≠ .failed
  unpinned : request.needVram → (core.entry key).device.isSome → core.routePinned key = false
  wanted : request.needRam ∧ (core.entry key).hasHostBytes ∨
    request.needVram ∧ (core.entry key).device.isSome
  vramClass : request.needVram → ∀ resident ∈ request.requiredVramClass,
    (core.entry key).device.isSome ∧ (core.entry key).vramResident = resident
  ramClass : request.needRam → ∀ protectedClass ∈ request.requiredRamClass,
    (core.entry key).hasHostBytes ∧ (core.entry key).ramProtected = protectedClass
  colder : ∀ limit ∈ request.maximumTemperatureExclusive, (core.entry key).temperature < limit
  partitioned : ∀ partition ∈ request.requiredPartition, core.partitionFor key = partition
  overQuota : request.overQuotaOnly → core.excess request key ≠ 0

/-- The directory gives the device copy up, if that copy is wanted. -/
def Retires (core : Core) (request : EvictionRequest) (key : ExpertKey) : Prop :=
  request.needVram → (core.entry key).device.isSome → core.tryRetire key = true

variable {core : Core} {request : EvictionRequest} {key other : ExpertKey}

variable {entry : Entry} {needRam needVram : Bool}

theorem evictable_iff : entry.evictable ↔
    entry.references = 0 ∧ (entry.waiters = [] ∧ entry.hostWaiters = []) ∧
      entry.preparingHost = false ∧ entry.state ≠ .ssdLoading ∧ entry.state ≠ .gpuUploading ∧
        entry.state ≠ .failed := by
  simp only [Entry.evictable, Bool.and_eq_true, decide_eq_true_eq, Bool.not_eq_true',
    Entry.hasWaiters_eq_false_iff]
  tauto

theorem useful_iff : entry.useful needRam needVram ↔
    needRam ∧ entry.hasHostBytes ∨ needVram ∧ entry.device.isSome := by
  simp [Entry.useful]

theorem matchesRequest_iff : entry.matchesRequest request ↔
    (request.needVram → ∀ resident ∈ request.requiredVramClass,
      entry.device.isSome ∧ entry.vramResident = resident) ∧
    (request.needRam → ∀ protectedClass ∈ request.requiredRamClass,
      entry.hasHostBytes ∧ entry.ramProtected = protectedClass) ∧
    ∀ limit ∈ request.maximumTemperatureExclusive, entry.temperature < limit := by
  simp only [Entry.matchesRequest, Bool.and_eq_true, Bool.or_eq_true, Bool.not_eq_true',
    Option.all_eq_true, decide_eq_true_eq, Option.mem_def, and_assoc, ← Bool.not_eq_true,
    ← imp_iff_not_or]

theorem passes_iff : core.Passes request key ↔
    key ∈ core.entries.keys ∧ core.eligible request [] key := by
  have hpinned : (!(request.needVram && (core.entry key).device.isSome && core.routePinned key)) ↔
      (request.needVram → (core.entry key).device.isSome → core.routePinned key = false) := by
    cases request.needVram <;> cases (core.entry key).device.isSome <;> simp
  have hquota : (!(request.overQuotaOnly && decide (core.excess request key = 0))) ↔
      (request.overQuotaOnly → core.excess request key ≠ 0) := by
    cases request.overQuotaOnly <;> simp
  have hpartition : request.requiredPartition.all (core.partitionFor key = ·) ↔
      ∀ partition ∈ request.requiredPartition, core.partitionFor key = partition := by
    simp [Option.all_eq_true]
  simp only [eligible, Bool.and_eq_true, hpinned, hquota, hpartition, useful_iff,
    matchesRequest_iff, evictable_iff, decide_eq_true_eq, List.not_mem_nil, not_false_eq_true,
    and_true]
  constructor
  · rintro ⟨h1, h2, h3, h4, h5, h6, h7, h8, h9, h10, h11, h12, h13⟩
    exact ⟨h1, ⟨⟨⟨⟨⟨h2, h3, h4, h5, h6⟩, h7⟩, h8⟩, h9, h10, h11⟩, h12⟩, h13⟩
  · rintro ⟨h1, ⟨⟨⟨⟨⟨h2, h3, h4, h5, h6⟩, h7⟩, h8⟩, h9, h10, h11⟩, h12⟩, h13⟩
    exact ⟨h1, h2, h3, h4, h5, h6, h7, h8, h9, h10, h11, h12, h13⟩

/-- What a scan sees of the core does not change while victims are refused. -/
def offers (core : Core) (request : EvictionRequest) :
    Offers ExpertKey (ℕ ×ₗ ℕᵒᵈ ×ₗ ℕ ×ₗ ExpertKey) where
  keys := core.entries.keys.items
  rank := core.victimRank request
  passes := fun scan key => (core.atScan scan).eligible request [] key
  accepts := fun scan key =>
    !(request.needVram && (core.entry key).device.isSome && !(core.atScan scan).tryRetire key)

/-- The end of an eviction after these refusals. -/
def evictOutcome (core : Core) (request : EvictionRequest) (found : Option ExpertKey)
    (refused : List ExpertKey) : Bool × Core :=
  match found with
  | none => (false, core.atScan (refused.length + 1))
  | some victim =>
    (true, (core.atScan (refused.length + 1)).evictVictim victim request.needRam
      request.needVram)

theorem precedes_iff : core.precedes request key other ↔
    core.victimRank request key < core.victimRank request other := by
  simp only [precedes, victimRank, Prod.Lex.toLex_lt_toLex, OrderDual.toDual_lt_toDual,
    OrderDual.toDual_inj, UInt64.lt_iff_toNat_lt, UInt64.toNat_inj, gt_iff_lt, Bool.or_eq_true,
    Bool.and_eq_true, decide_eq_true_eq]

theorem eligible_busy {busy : List ExpertKey} : core.eligible request busy key =
    (core.eligible request [] key && decide (key ∉ busy)) := by
  simp only [eligible]
  cases decide (key ∉ busy) <;> simp

theorem evictionScan_eq :
    (core.atScan refused.length).evictionScan request refused =
      (core.offers request).candidate refused := by
  have hbefore : ∀ key other, (core.atScan refused.length).precedes request key other ↔
      (core.offers request).rank key < (core.offers request).rank other := fun _ _ => precedes_iff
  exact Offers.foldl_eq_candidate (fun _ => eligible_busy) hbefore

theorem evictRetry_eq {fuel : Nat} (h : (core.offers request).Refusals refused)
    (hfuel : core.entries.keys.items.length < fuel + refused.length) :
    let settled := (core.offers request).settle fuel refused
    evictRetry request fuel refused (core.atScan refused.length) =
      core.evictOutcome request settled.1 settled.2 := by
  induction fuel generalizing refused with
  | zero =>
    have := h.length_le
    simp only [offers] at this
    omega
  | succ fuel ih =>
    simp only [evictRetry, Offers.settle]
    rw [evictionScan_eq]
    cases hcandidate : (core.offers request).candidate refused with
    | none => rfl
    | some victim =>
      have haccepts : (core.offers request).accepts refused.length victim =
          !(request.needVram && (core.entry victim).device.isSome &&
            !(core.atScan refused.length).tryRetire victim) := rfl
      have hentry : (core.atScan refused.length).entry victim = core.entry victim := rfl
      simp only [haccepts, hentry]
      cases hbusy : request.needVram && (core.entry victim).device.isSome &&
          !(core.atScan refused.length).tryRetire victim with
      | false => rfl
      | true =>
        refine ih (h.refuse (Offers.candidate_some hcandidate) ?_) ?_
        · rw [haccepts, hbusy]
          rfl
        · rw [List.length_cons]
          omega

/-! ## The victim -/

/-- The least of the entries that pass and have not been refused. -/
structure Least (core : Core) (request : EvictionRequest) (refused : List ExpertKey)
    (key : ExpertKey) : Prop where
  passes : (core.atScan refused.length).Passes request key
  fresh : key ∉ refused
  least : ∀ other, (core.atScan refused.length).Passes request other → other ∉ refused →
    core.victimRank request key ≤ core.victimRank request other

/-- The victims whose retirement the directory refused, the last one first. -/
inductive Refused (core : Core) (request : EvictionRequest) : List ExpertKey → Prop where
  | none : Refused core request []
  | busy {earlier : List ExpertKey} {key : ExpertKey} : Refused core request earlier →
      core.Least request earlier key → ¬ (core.atScan earlier.length).Retires request key →
      Refused core request (key :: earlier)

/-- The victim is evicted, and nothing else is touched. -/
structure EvictsOnly (request : EvictionRequest) (victim : ExpertKey) (core core' : Core) :
    Prop where
  evicted : core'.entry victim = (core.entry victim).evicted request.needRam request.needVram
  others : ∀ other, other ≠ victim → core'.entry other = core.entry other
  keys : core'.entries.keys = core.entries.keys
  drift : ∀ account, core'.drift account = core.drift account

variable {scan : Nat} {refused : List ExpertKey}

theorem offers_passes_iff : key ∈ (core.offers request).keys ∧
    (core.offers request).passes scan key ↔ (core.atScan scan).Passes request key :=
  (@passes_iff (core.atScan scan) request key).symm

theorem offers_accepts_iff : (core.offers request).accepts scan key ↔
    (core.atScan scan).Retires request key := by
  have hentry : (core.atScan scan).entry key = core.entry key := rfl
  simp only [offers, Retires, hentry]
  cases request.needVram <;> cases (core.entry key).device.isSome <;> simp

theorem offers_least (h : (core.offers request).Least refused key) :
    core.Least request refused key where
  passes := offers_passes_iff.1 ⟨h.mem, h.passes⟩
  fresh := h.fresh
  least other hother hfresh :=
    h.least other (offers_passes_iff.2 hother).1 (offers_passes_iff.2 hother).2 hfresh

theorem offers_refused (h : (core.offers request).Refusals refused) :
    core.Refused request refused := by
  induction h with
  | none => exact .none
  | refuse _ hleast hrefuses ih =>
    refine .busy ih (offers_least hleast) fun hretires => ?_
    rw [offers_accepts_iff.2 hretires] at hrefuses
    cases hrefuses

theorem evictVictim_only (hpasses : (core.atScan scan).Passes request key) (later : Nat) :
    EvictsOnly request key core
      ((core.atScan later).evictVictim key request.needRam request.needVram) := by
  obtain ⟨hkey, heligible⟩ := passes_iff.1 hpasses
  have hmoves := @evictVictim_moves (core.atScan later) key _ _ hkey (eligible_spec heligible).2
  exact ⟨hmoves.entry, hmoves.others, hmoves.keys, fun account => hmoves.drift account trivial⟩

theorem evictOne_settled (core : Core) (request : EvictionRequest) :
    ∃ found refused, (core.offers request).Settled found refused ∧
      core.evictOneLocked request = core.evictOutcome request found refused := by
  have hfuel : core.entries.keys.items.length <
      core.entries.keys.items.length + 1 + ([] : List ExpertKey).length := by
    simp
  exact ⟨_, _, Offers.settle_settled .none hfuel, evictRetry_eq .none hfuel⟩

/-- The victim is the least entry that passes and is not refused; there is one exactly when
an entry that passes is granted retirement, and everything else is left alone. -/
theorem evictOneLocked_least (core : Core) (request : EvictionRequest) :
    ∃ refused, core.Refused request refused ∧
      ((core.evictOneLocked request).1 = true ↔ ∃ key, key ∉ refused ∧
        (core.atScan refused.length).Passes request key ∧
        (core.atScan refused.length).Retires request key) ∧
      ((core.evictOneLocked request).1 = true → ∃ victim,
        core.Least request refused victim ∧
        (core.atScan refused.length).Retires request victim ∧
        EvictsOnly request victim core (core.evictOneLocked request).2) ∧
      ((core.evictOneLocked request).1 = false →
        (core.evictOneLocked request).2 = core.atScan (refused.length + 1)) := by
  obtain ⟨found, refused, hsettled, houtcome⟩ := core.evictOne_settled request
  refine ⟨refused, offers_refused hsettled.refusals, ?_⟩
  rw [houtcome]
  cases found with
  | none =>
    refine ⟨⟨nofun, ?_⟩, nofun, fun _ => rfl⟩
    rintro ⟨key, hfresh, hpasses, -⟩
    obtain ⟨hkey, hpasses⟩ := offers_passes_iff.2 hpasses
    rw [hsettled.nobody rfl key hkey hfresh] at hpasses
    cases hpasses
  | some victim =>
    obtain ⟨hleast, haccepts⟩ := hsettled.accepted victim rfl
    have hvictim := offers_least hleast
    have hretires := offers_accepts_iff.1 haccepts
    refine ⟨⟨fun _ => ⟨victim, hvictim.fresh, hvictim.passes, hretires⟩, fun _ => rfl⟩,
      fun _ => ⟨victim, hvictim, hretires, evictVictim_only hvictim.passes _⟩, nofun⟩

theorem evictLoop_stops {excluded : Option ExpertKey} {pressed : Core → Bool}
    {evict : Core → Bool × Core} {invariant : Core → Prop} (hevict : Evictor excluded evict)
    (hkeeps : ∀ core, invariant core → pressed core = true → (evict core).1 = true →
      invariant (evict core).2)
    (fuel : Nat) (core : Core) (hfuel : core.copies < fuel) (h : invariant core) :
    ((evictLoop pressed evict fuel core).1 = true ∧
        invariant (evictLoop pressed evict fuel core).2 ∧
        pressed (evictLoop pressed evict fuel core).2 = false) ∨
      ∃ last, invariant last ∧ pressed last = true ∧ (evict last).1 = false ∧
        evictLoop pressed evict fuel core = evict last := by
  induction fuel generalizing core with
  | zero => omega
  | succ fuel ih =>
    simp only [evictLoop]
    split
    next hpressed =>
      have hless := (hevict core).2
      have hnext := hkeeps core h hpressed
      cases hresult : evict core with
      | mk evicted after =>
        rw [hresult] at hless hnext
        cases evicted with
        | false => exact Or.inr ⟨core, h, hpressed, by rw [hresult], by rw [hresult]⟩
        | true =>
          refine ih after ?_ (hnext rfl)
          have := hless rfl
          simp only at this
          omega
    next hrelaxed => exact Or.inl ⟨rfl, h, by simpa using hrelaxed⟩

/-! ## Steady directories -/

/-- From now on the directory gives the same answers. -/
def SteadyDirectory (core : Core) : Prop :=
  ∀ directory ∈ core.directory, ∀ clock, core.directoryClock ≤ clock → ∀ key,
    directory.routePinned clock key = directory.routePinned core.directoryClock key ∧
      directory.tryRetire clock key = directory.tryRetire core.directoryClock key

theorem directoryClock_transition {next : CacheState} :
    (core.transitionLocked key next).directoryClock = core.directoryClock := by
  simp only [transitionLocked]
  split <;> rfl

theorem directoryClock_evictVictim :
    (core.evictVictim key needRam needVram).directoryClock = core.directoryClock := by
  have hhost : ∀ core : Core, (core.evictHost key needRam).directoryClock = core.directoryClock := by
    intro core
    unfold evictHost
    split <;> rfl
  have hdevice : ∀ core : Core,
      (core.evictDevice key needVram).directoryClock = core.directoryClock := by
    intro core
    simp only [evictDevice]
    split
    next =>
      split
      next => exact directoryClock_transition
      next => rfl
    next => rfl
  have hempty : ∀ core : Core, (core.evictEmpty key).directoryClock = core.directoryClock := by
    intro core
    simp only [evictEmpty]
    split
    next => exact directoryClock_transition
    next => rfl
  rw [evictVictim, hempty, hdevice, hhost]

theorem evictOne_asks : (core.evictOneLocked request).2.directory = core.directory ∧
    core.directoryClock ≤ (core.evictOneLocked request).2.directoryClock := by
  constructor
  · have htrace := (@evictOne_evictor request.excluded (fun _ => request) (fun _ => rfl) core).1.trace
    exact htrace.lift (fun _ hact hbefore => hact.directory.trans hbefore) rfl
  · obtain ⟨found, refused, -, houtcome⟩ := core.evictOne_settled request
    rw [houtcome]
    cases found with
    | none => exact Nat.le_add_right _ _
    | some victim =>
      simp only [evictOutcome, directoryClock_evictVictim]
      exact Nat.le_add_right _ _

namespace SteadyDirectory

variable {core' : Core} (h : core.SteadyDirectory)
include h

theorem later (hdirectory : core'.directory = core.directory)
    (hclock : core.directoryClock ≤ core'.directoryClock) (key : ExpertKey) :
    core'.routePinned key = core.routePinned key ∧ core'.tryRetire key = core.tryRetire key := by
  unfold routePinned tryRetire
  rw [hdirectory]
  cases hsome : core.directory with
  | none => exact ⟨rfl, rfl⟩
  | some directory => exact h directory hsome _ hclock key

theorem of_later (hdirectory : core'.directory = core.directory)
    (hclock : core.directoryClock ≤ core'.directoryClock) : core'.SteadyDirectory := by
  intro directory hsome clock hlater key
  rw [hdirectory] at hsome
  obtain ⟨hpinned, hretires⟩ := h directory hsome clock (hclock.trans hlater) key
  obtain ⟨hpinned', hretires'⟩ := h directory hsome _ hclock key
  exact ⟨hpinned.trans hpinned'.symm, hretires.trans hretires'.symm⟩

theorem passes_iff : (core.atScan scan).Passes request key ↔ core.Passes request key := by
  have hpinned := (@later core (core.atScan scan) h rfl (Nat.le_add_right _ _) key).1
  exact ⟨fun h => { h with unpinned := hpinned ▸ h.unpinned },
    fun h => { h with unpinned := hpinned.symm ▸ h.unpinned }⟩

theorem retires_iff : (core.atScan scan).Retires request key ↔ core.Retires request key := by
  have hretires := (@later core (core.atScan scan) h rfl (Nat.le_add_right _ _) key).2
  unfold Retires
  rw [hretires]
  exact Iff.rfl

theorem steady_offers : (core.offers request).Steady where
  passes round key := by
    have hround := (@later core (core.atScan round) h rfl (Nat.le_add_right _ _) key).1
    have hfirst := (@later core (core.atScan 0) h rfl (Nat.le_add_right _ _) key).1
    simp only [offers, eligible, hround, hfirst]
    rfl
  accepts round key := by
    rw [Bool.eq_iff_iff, offers_accepts_iff, offers_accepts_iff, h.retires_iff, h.retires_iff]

/-- Where the answers are steady there is a victim exactly when some entry passes and is given
up, and the victim is the least of these. -/
theorem evictOne : ((core.evictOneLocked request).1 = true ↔
      ∃ key, core.Passes request key ∧ core.Retires request key) ∧
    ((core.evictOneLocked request).1 = true → ∃ victim, core.Passes request victim ∧
      core.Retires request victim ∧
      (∀ other, core.Passes request other → core.Retires request other →
        core.victimRank request victim ≤ core.victimRank request other) ∧
      EvictsOnly request victim core (core.evictOneLocked request).2) := by
  obtain ⟨found, refused, hsettled, houtcome⟩ := core.evictOne_settled request
  have hsteady := @steady_offers core request h
  have hsome := hsettled.isSome_iff hsteady
  have hexists : (∃ key ∈ (core.offers request).keys, (core.offers request).passes 0 key ∧
      (core.offers request).accepts 0 key) ↔
      ∃ key, core.Passes request key ∧ core.Retires request key := by
    simp only [← and_assoc, offers_passes_iff, offers_accepts_iff, h.passes_iff, h.retires_iff]
  rw [hexists] at hsome
  rw [houtcome]
  cases found with
  | none =>
    refine ⟨⟨nofun, fun hkey => ?_⟩, nofun⟩
    cases hsome.2 hkey
  | some victim =>
    obtain ⟨hleast, haccepts⟩ := hsettled.accepted victim rfl
    have hvictim := offers_least hleast
    have hretires := offers_accepts_iff.1 haccepts
    refine ⟨⟨fun _ => hsome.1 rfl, fun _ => rfl⟩, fun _ => ⟨victim, h.passes_iff.1 hvictim.passes,
      h.retires_iff.1 hretires, fun other hother hgranted => ?_,
      evictVictim_only hvictim.passes _⟩⟩
    refine hvictim.least other (h.passes_iff.2 hother) fun hrefused => ?_
    have hrefuses := hsettled.refusals.refuses hsteady hrefused
    rw [offers_accepts_iff.2 (h.retires_iff.2 hgranted)] at hrefuses
    cases hrefuses

end SteadyDirectory

end Core

end QuantumLlm.Runtime
