import QuantumLlm.Runtime.Slots.Pages

/-!
# Who owns slots and bytes

What one call leaves as it was: its slot and its share of the byte counters
change together with what the provider has written down.
-/

namespace QuantumLlm.Runtime.Slots

variable {config : Config} {provider provider' : Provider config} {state state' : RequestState}
  {request request' : Request}

/-! ## Shares -/

/-- The slot that a live state names. -/
def Request.slots (request : Request) : List Nat :=
  match request.status with
  | .live => request.state.slot.toList
  | _ => []

def RequestState.parkedBytes (state : RequestState) : Nat := state.parkedState.elim 0 (·.bytes)

def RequestState.reportedBytes (state : RequestState) : Nat :=
  state.parkedState.elim 0 (·.reportedBytes)

structure RequestState.Sound (config : Config) (state : RequestState) : Prop where
  host : state.hostKvBytes = state.hostKvPages * config.hostFp16TargetPageBytes
  ordered : ∀ parked, state.parkedState = some parked → parked.pageIndices.Pairwise (· < ·)

/-- A live state is parked exactly when it has no slot. -/
def Request.Fits (config : Config) (request : Request) : Prop :=
  match request.status with
  | .live => request.state.parkedState.isSome = true ↔ request.state.slot = none
  | .installing snapshot => snapshot.valid config = true ∧ request.state.parkedState = none ∧
      request.state.hostKvBytes = 0
  | .dropping => True
  | .gone => request.state.parkedState = none ∧ request.state.hostKvBytes = 0

structure Request.Sound (config : Config) (request : Request) : Prop where
  state : request.state.Sound config
  status : request.Fits config

/-- The counters and the shares of one state change together. -/
structure Ledger (provider provider' : Provider config) (state state' : RequestState) : Prop where
  parked : provider'.parkedRequestBytes + state.parkedBytes =
    provider.parkedRequestBytes + state'.parkedBytes
  session : provider'.parkedSessionBytes + state.reportedBytes =
    provider.parkedSessionBytes + state'.reportedBytes
  host : provider'.hostKvBytes + state.hostKvBytes = provider.hostKvBytes + state'.hostKvBytes

theorem Ledger.refl (provider : Provider config) (state : RequestState) :
    Ledger provider provider state state :=
  ⟨rfl, rfl, rfl⟩

theorem Ledger.trans {provider'' : Provider config} {state'' : RequestState}
    (h : Ledger provider provider' state state') (h' : Ledger provider' provider'' state' state'') :
    Ledger provider provider'' state state'' := by
  obtain ⟨hparked, hsession, hhost⟩ := h
  obtain ⟨hparked', hsession', hhost'⟩ := h'
  exact ⟨by omega, by omega, by omega⟩

/-- The tables, and that everything in host memory has room. -/
structure Provider.Sound (provider : Provider config) : Prop where
  paged : provider.Paged
  bounded : provider.allKvPages ≤ config.kvPageCapacity
  room : provider.hostKvBytes + provider.parkedRequestBytes ≤ config.parkingRamCapacityBytes

/-- What one section of a call keeps. -/
structure Turned (provider provider' : Provider config) (request request' : Request) : Prop where
  ledger : Ledger provider provider' request.state request'.state
  inUse : ∀ slot, provider'.slotInUse[slot]? = some true ↔
    provider.slotInUse[slot]? = some true ∧ slot ∉ request.slots ∨ slot ∈ request'.slots
  fresh : ∀ slot ∈ request'.slots,
    slot ∈ request.slots ∨ provider.slotInUse[slot]? = some false
  provider : provider'.Sound
  request : request'.Sound config

/-- What a failed call leaves as it was: all but the pages that it has put into the free list. -/
structure Unchanged (provider provider' : Provider config) (state state' : RequestState) : Prop where
  state : state' = state
  slotInUse : provider'.slotInUse = provider.slotInUse
  slotPages : provider'.slotPages = provider.slotPages
  hostKvBytes : provider'.hostKvBytes = provider.hostKvBytes
  parkedRequestBytes : provider'.parkedRequestBytes = provider.parkedRequestBytes
  parkedSessionBytes : provider'.parkedSessionBytes = provider.parkedSessionBytes

theorem Unchanged.refl (provider : Provider config) (state : RequestState) :
    Unchanged provider provider state state :=
  ⟨rfl, rfl, rfl, rfl, rfl, rfl⟩

/-- What a call finds. -/
structure Ready (provider : Provider config) (request : Request) : Prop where
  used : ∀ slot ∈ request.slots, provider.slotInUse[slot]? = some true
  parked : request.state.parkedBytes ≤ provider.parkedRequestBytes
  session : request.state.reportedBytes ≤ provider.parkedSessionBytes
  host : request.state.hostKvBytes ≤ provider.hostKvBytes
  provider : provider.Sound
  request : request.Sound config

theorem Turned.of_slots {status' : Status} (hledger : Ledger provider provider' request.state state')
    (hinUse : provider'.slotInUse = provider.slotInUse)
    (hslots : Request.slots ⟨status', state'⟩ = request.slots)
    (hused : ∀ slot ∈ request.slots, provider.slotInUse[slot]? = some true)
    (hprovider : provider'.Sound) (hrequest : Request.Sound config ⟨status', state'⟩) :
    Turned provider provider' request ⟨status', state'⟩ where
  ledger := hledger
  inUse := by
    intro slot
    rw [hinUse, hslots]
    constructor
    · intro hslot
      by_cases hown : slot ∈ request.slots
      · exact .inr hown
      · exact .inl ⟨hslot, hown⟩
    · rintro (⟨hslot, -⟩ | hown)
      · exact hslot
      · exact hused slot hown
  fresh := fun slot hslot => .inl (hslots ▸ hslot)
  provider := hprovider
  request := hrequest

theorem growHostKv_spec {missing : Nat} : ∀ {provider : Provider config} {state : RequestState}
    {allocations : Nat}, provider.Sound → state.Sound config →
    let grown := provider.growHostKv state allocations missing
    grown.1.Sound ∧ grown.2.1.Sound config ∧ Ledger provider grown.1 state grown.2.1 ∧
      grown.1.slotInUse = provider.slotInUse ∧ grown.2.1.slot = state.slot ∧
      grown.2.1.parkedState = state.parkedState := by
  induction missing with
  | zero =>
    intro provider state allocations hprovider hstate
    exact ⟨hprovider, hstate, Ledger.refl _ _, rfl, rfl, rfl⟩
  | succ missing ih =>
    intro provider state allocations hprovider hstate
    rw [Provider.growHostKv]
    split
    next => exact ⟨hprovider, hstate, Ledger.refl _ _, rfl, rfl, rfl⟩
    next hroom =>
      split
      next => exact ⟨hprovider, hstate, Ledger.refl _ _, rfl, rfl, rfl⟩
      next =>
        have hprovider' : ({ provider with
            hostKvBytes := provider.hostKvBytes + config.hostFp16TargetPageBytes } :
              Provider config).Sound := by
          refine ⟨⟨hprovider.paged.pages, hprovider.paged.tables, hprovider.paged.slots,
            hprovider.paged.sizes, hprovider.paged.unused⟩, hprovider.bounded, ?_⟩
          simp only
          omega
        have hstate' : ({ state with
            hostKvPages := state.hostKvPages + 1
            hostKvBytes := state.hostKvBytes + config.hostFp16TargetPageBytes } :
              RequestState).Sound config := by
          refine ⟨?_, hstate.ordered⟩
          simp only [hstate.host, Nat.add_mul, Nat.one_mul]
        obtain ⟨hgrown, hgrownState, hledger, hinUse, hslot, hparked⟩ :=
          @ih _ _ (allocations - 1) hprovider' hstate'
        refine ⟨hgrown, hgrownState, Ledger.trans ?_ hledger, hinUse, hslot, hparked⟩
        refine ⟨rfl, rfl, ?_⟩
        simp only
        omega

theorem trimHostKv_spec {surplus : Nat} : ∀ {provider : Provider config} {state : RequestState},
    provider.Sound → state.Sound config → surplus ≤ state.hostKvPages →
    state.hostKvBytes ≤ provider.hostKvBytes →
    let trimmed := provider.trimHostKv state surplus
    trimmed.1.Sound ∧ trimmed.2.Sound config ∧ Ledger provider trimmed.1 state trimmed.2 ∧
      trimmed.1.slotInUse = provider.slotInUse ∧ trimmed.2.slot = state.slot ∧
      trimmed.2.parkedState = state.parkedState := by
  induction surplus with
  | zero =>
    intro provider state hprovider hstate _ _
    exact ⟨hprovider, hstate, Ledger.refl _ _, rfl, rfl, rfl⟩
  | succ surplus ih =>
    intro provider state hprovider hstate hsurplus hcovered
    have hbytes : config.hostFp16TargetPageBytes ≤ state.hostKvBytes := by
      rw [hstate.host]
      exact Nat.le_mul_of_pos_left _ (by omega)
    simp only [Provider.trimHostKv, if_pos hbytes, if_pos (hbytes.trans hcovered)]
    have hprovider' : ({ provider with
        hostKvBytes := provider.hostKvBytes - config.hostFp16TargetPageBytes } :
          Provider config).Sound := by
      refine ⟨⟨hprovider.paged.pages, hprovider.paged.tables, hprovider.paged.slots,
        hprovider.paged.sizes, hprovider.paged.unused⟩, hprovider.bounded, ?_⟩
      have hroom := hprovider.room
      simp only
      omega
    have hstate' : ({ state with
        hostKvPages := state.hostKvPages - 1
        hostKvBytes := state.hostKvBytes - config.hostFp16TargetPageBytes } :
          RequestState).Sound config := by
      refine ⟨?_, hstate.ordered⟩
      simp only [hstate.host, Nat.sub_mul, Nat.one_mul]
    obtain ⟨htrimmed, htrimmedState, hledger, hinUse, hslot, hparked⟩ :=
      @ih _ _ hprovider' hstate' (by simp only; omega) (by simp only; omega)
    refine ⟨htrimmed, htrimmedState, Ledger.trans ?_ hledger, hinUse, hslot, hparked⟩
    refine ⟨rfl, rfl, ?_⟩
    simp only
    omega

/-! ## Execution -/

theorem ensurePages_spec {addresses : List Address} : ∀ {provider : Provider config}
    {state : RequestState}, provider.Sound → state.Sound config →
    (∀ slot ∈ state.slot, provider.slotInUse[slot]? = some true) →
    let ensured := provider.ensurePages state addresses
    ensured.1.Sound ∧ ensured.2.1.Sound config ∧ Ledger provider ensured.1 state ensured.2.1 ∧
      ensured.1.slotInUse = provider.slotInUse ∧ ensured.2.1.slot = state.slot ∧
      ensured.2.1.parkedState = state.parkedState := by
  induction addresses with
  | nil =>
    intro provider state hprovider hstate _
    exact ⟨hprovider, hstate, Ledger.refl _ _, rfl, rfl, rfl⟩
  | cons address rest ih =>
    intro provider state hprovider hstate hused
    cases address with
    | page cachePosition allocated published =>
      rw [Provider.ensurePages]
      split
      next => exact ⟨hprovider, hstate, Ledger.refl _ _, rfl, rfl, rfl⟩
      next slot hslot =>
        obtain ⟨hpaged, hbounded, hlocal⟩ := Provider.ensurePage_spec hprovider.paged
          (hused slot hslot) hprovider.bounded cachePosition allocated published
        have hensured : (provider.ensurePage slot cachePosition allocated published).1.Sound := by
          refine ⟨hpaged, hbounded, ?_⟩
          rw [hlocal.hostKvBytes, hlocal.parkedRequestBytes]
          exact hprovider.room
        have hledger : Ledger provider
            (provider.ensurePage slot cachePosition allocated published).1 state state :=
          ⟨by rw [hlocal.parkedRequestBytes], by rw [hlocal.parkedSessionBytes],
            by rw [hlocal.hostKvBytes]⟩
        simp only
        split
        next =>
          obtain ⟨hafter, hafterState, hledger', hinUse, hkept, hparked⟩ :=
            ih hensured hstate (by rw [hlocal.inUse]; exact hused)
          exact ⟨hafter, hafterState, hledger.trans hledger', hinUse.trans hlocal.inUse, hkept,
            hparked⟩
        next => exact ⟨hensured, hstate, hledger, hlocal.inUse, rfl, rfl⟩
    | hostPage cachePosition allocations =>
      rw [Provider.ensurePages]
      have hgrown : let ensured := provider.ensureHostKvPage state cachePosition allocations
          ensured.1.Sound ∧ ensured.2.1.Sound config ∧
            Ledger provider ensured.1 state ensured.2.1 ∧
            ensured.1.slotInUse = provider.slotInUse ∧ ensured.2.1.slot = state.slot ∧
            ensured.2.1.parkedState = state.parkedState := by
        rw [Provider.ensureHostKvPage]
        split
        next => exact ⟨hprovider, hstate, Ledger.refl _ _, rfl, rfl, rfl⟩
        next =>
          split
          next => exact ⟨hprovider, hstate, Ledger.refl _ _, rfl, rfl, rfl⟩
          next => exact growHostKv_spec hprovider hstate
      obtain ⟨hensured, hensuredState, hledger, hinUse, hkept, hparked⟩ := hgrown
      split
      next =>
        obtain ⟨hafter, hafterState, hledger', hinUse', hkept', hparked'⟩ :=
          ih hensured hensuredState (by rw [hinUse, hkept]; exact hused)
        exact ⟨hafter, hafterState, hledger.trans hledger', hinUse'.trans hinUse,
          hkept'.trans hkept, hparked'.trans hparked⟩
      next => exact ⟨hensured, hensuredState, hledger, hinUse, hkept, hparked⟩

theorem execute_turned (hready : Ready provider ⟨.live, state⟩) (addresses : List Address)
    (finished : Bool) (progress : Progress) :
    Turned provider (provider.execute state addresses finished progress).1 ⟨.live, state⟩
      ⟨.live, (provider.execute state addresses finished progress).2.1⟩ := by
  obtain ⟨hensured, hensuredState, hledger, hinUse, hslot, hparked⟩ :=
    @ensurePages_spec config addresses provider state hready.provider hready.request.state
      fun slot hslot => hready.used slot (Option.mem_toList.2 hslot)
  have hfits : Request.Fits config ⟨.live, (provider.ensurePages state addresses).2.1⟩ := by
    have hstatus := hready.request.status
    simp only [Request.Fits] at hstatus ⊢
    rw [hslot, hparked]
    exact hstatus
  simp only [Provider.execute]
  split
  next =>
    exact Turned.of_slots ⟨hledger.parked, hledger.session, hledger.host⟩ hinUse
      (by simp [Request.slots, hslot]) hready.used hensured
      ⟨⟨hensuredState.host, hensuredState.ordered⟩, hfits⟩
  next =>
    exact Turned.of_slots hledger hinUse (by simp [Request.slots, hslot]) hready.used hensured
      ⟨hensuredState, hfits⟩

/-- The page of an address is there. -/
def Provider.resident (provider : Provider config) (state : RequestState) : Address → Bool
  | .page cachePosition _ _ =>
    match state.slot with
    | none => false
    | some slot =>
      slot < config.capacity && cachePosition < config.maxContext &&
        (provider.slotPages[slot]?.getD [])[cachePosition / config.kvPageTokens]? ≠ some none
  | .hostPage cachePosition _ =>
    ¬ config.hostAuthoritativeFp16Kv || cachePosition < config.maxContext &&
      cachePosition / config.kvPageTokens < state.hostKvPages

/-- Nothing can be taken for an address whose page is not there. -/
def Provider.refuses (provider : Provider config) (state : RequestState) : Address → Bool
  | .page cachePosition allocated _ =>
    match state.slot with
    | none => true
    | some slot =>
      config.capacity ≤ slot || config.maxContext ≤ cachePosition ||
        provider.freeKvPages = [] &&
          (config.kvPageCapacity ≤ provider.allKvPages || !allocated)
  | .hostPage cachePosition allocations =>
    config.maxContext ≤ cachePosition || config.hostFp16TargetPageBytes = 0 ||
      config.parkingRamCapacityBytes < config.hostFp16TargetPageBytes ||
      config.parkingRamCapacityBytes - config.hostFp16TargetPageBytes <
        provider.hostKvBytes + provider.parkedRequestBytes || allocations = 0

/-- The first page that is not there is refused. -/
def Provider.failsEarly (provider : Provider config) (state : RequestState)
    (addresses : List Address) : Bool :=
  (addresses.find? fun address => !provider.resident state address).all (provider.refuses state)

variable {cachePosition allocations : Nat} {allocated published : Bool} {addresses : List Address}

theorem ensurePage_resident (hslot : state.slot = some slot)
    (h : provider.resident state (.page cachePosition allocated published) = true) :
    provider.ensurePage slot cachePosition allocated published = (provider, true) := by
  simp only [Provider.resident, hslot, Bool.and_eq_true, decide_eq_true_eq] at h
  rw [Provider.ensurePage, if_neg (by omega)]
  simp only
  split
  next hempty => exact absurd hempty h.2
  next => rfl

theorem ensurePage_refused (hslot : state.slot = some slot)
    (habsent : provider.resident state (.page cachePosition allocated published) = false)
    (h : provider.refuses state (.page cachePosition allocated published) = true) :
    provider.ensurePage slot cachePosition allocated published = (provider, false) := by
  simp only [Provider.refuses, hslot, Bool.or_eq_true, Bool.and_eq_true, decide_eq_true_eq,
    Bool.not_eq_true'] at h
  rw [Provider.ensurePage]
  split
  next => rfl
  next hin =>
    simp only [not_or, Nat.not_le] at hin
    have hempty : (provider.slotPages[slot]?.getD [])[cachePosition / config.kvPageTokens]? =
        some none := by
      simpa [Provider.resident, hslot, hin.1, hin.2] using habsent
    have hfull : provider.freeKvPages = [] ∧
        (config.kvPageCapacity ≤ provider.allKvPages ∨ allocated = false) := by
      rcases h with (hout | hout) | hfull
      · omega
      · omega
      · exact hfull
    simp only
    rw [hempty]
    simp only
    split
    next => rfl
    next hbudget =>
      have hdenied : allocated = false := hfull.2.resolve_left fun hle => hbudget ⟨hfull.1, hle⟩
      rw [Provider.takePage_eq_none.2 ⟨hfull.1, hdenied⟩]

theorem ensureHostKvPage_resident
    (h : provider.resident state (.hostPage cachePosition allocations) = true) :
    provider.ensureHostKvPage state cachePosition allocations = (provider, state, true) := by
  simp only [Provider.resident, Bool.or_eq_true, Bool.and_eq_true, decide_eq_true_eq] at h
  rw [Provider.ensureHostKvPage]
  split
  next => rfl
  next hhost =>
    have hthere := h.resolve_left hhost
    rw [if_neg (by omega), Nat.sub_eq_zero_of_le (by omega), Provider.growHostKv]

theorem ensureHostKvPage_refused
    (habsent : provider.resident state (.hostPage cachePosition allocations) = false)
    (h : provider.refuses state (.hostPage cachePosition allocations) = true) :
    provider.ensureHostKvPage state cachePosition allocations = (provider, state, false) := by
  simp only [Provider.resident, Bool.or_eq_false_iff, Bool.and_eq_false_iff, decide_eq_false_iff_not,
    not_not, Nat.not_lt] at habsent
  simp only [Provider.refuses, Bool.or_eq_true, decide_eq_true_eq] at h
  rw [Provider.ensureHostKvPage, if_neg (not_not.2 habsent.1)]
  split
  next => rfl
  next hin =>
    obtain ⟨missing, hmissing⟩ := Nat.exists_eq_add_of_lt
      (show state.hostKvPages < cachePosition / config.kvPageTokens + 1 by omega)
    rw [hmissing, Nat.add_assoc, Nat.add_sub_cancel_left, Provider.growHostKv]
    split
    next => rfl
    next hroom => rw [if_pos (by omega)]

theorem ensurePages_failsEarly (h : provider.failsEarly state addresses = true) :
    (provider.ensurePages state addresses).1 = provider ∧
      (provider.ensurePages state addresses).2.1 = state := by
  induction addresses with
  | nil => exact ⟨rfl, rfl⟩
  | cons address rest ih =>
    rw [Provider.failsEarly, List.find?_cons] at h
    cases hresident : provider.resident state address with
    | true =>
      rw [hresident] at h
      have hrest := ih h
      cases address with
      | page cachePosition allocated published =>
        rw [Provider.ensurePages]
        split
        next => exact ⟨rfl, rfl⟩
        next slot hslot =>
          rw [ensurePage_resident hslot hresident]
          exact hrest
      | hostPage cachePosition allocations =>
        rw [Provider.ensurePages, ensureHostKvPage_resident hresident]
        exact hrest
    | false =>
      rw [hresident] at h
      have hrefused : provider.refuses state address = true := h
      cases address with
      | page cachePosition allocated published =>
        rw [Provider.ensurePages]
        split
        next => exact ⟨rfl, rfl⟩
        next slot hslot =>
          rw [ensurePage_refused hslot hresident hrefused]
          exact ⟨rfl, rfl⟩
      | hostPage cachePosition allocations =>
        rw [Provider.ensurePages, ensureHostKvPage_refused hresident hrefused]
        exact ⟨rfl, rfl⟩

theorem execute_unchanged {finished : Bool} {progress : Progress}
    (hearly : provider.failsEarly state addresses = true)
    (hfailed : (provider.execute state addresses finished progress).2.2 = false) :
    Unchanged provider (provider.execute state addresses finished progress).1 state
      (provider.execute state addresses finished progress).2.1 := by
  obtain ⟨hprovider, hstate⟩ := ensurePages_failsEarly hearly
  simp only [Provider.execute] at hfailed ⊢
  split at hfailed
  next => cases hfailed
  next hnot =>
    rw [if_neg hnot, hprovider, hstate]
    exact Unchanged.refl _ _

end QuantumLlm.Runtime.Slots
