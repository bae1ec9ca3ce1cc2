import QuantumLlm.Runtime.Slots.Parking

/-!
# Conservation of slots, pages and bytes

Whatever the order of the sections, a slot in use has one owner and the counters
are the sums over the states, as long as no creation fails with its slot marked
and every load that gave its slot up finds room.
-/

namespace QuantumLlm.Runtime.Slots

open List

variable {config : Config} {provider provider' : Provider config} {request request' : Request}
  {service service' : Service config}

/-- Not a load onto a state with host pages, nor one whose second section finds no room. -/
def Request.settles (provider : Provider config) (request : Request) (choice : Choice) : Bool :=
  match request.status, choice with
  | .live, .load _ => request.state.hostKvBytes = 0
  | .installing snapshot, .install => provider.hasRoomFor snapshot
  | _, _ => true

/-- Not an execution that fails after it took a page. -/
def Request.rollsBack (provider : Provider config) (request : Request) (choice : Choice) : Bool :=
  match choice with
  | .execute addresses _ _ => provider.failsEarly request.state addresses
  | _ => true

theorem Request.call_turned {choice : Choice} {succeeded : Bool} (hready : Ready provider request)
    (hsettles : request.settles provider choice = true)
    (h : Request.call provider request choice = some (provider', request', succeeded)) :
    Turned provider provider' request request' ∧
      (succeeded = false → request.rollsBack provider choice = true →
        request'.status = request.status ∧
          Unchanged provider provider' request.state request'.state) := by
  obtain ⟨status, state⟩ := request
  unfold Request.call at h
  simp only at h
  split at h
  next addresses finished progress =>
    cases h
    exact ⟨execute_turned hready addresses finished progress,
      fun hfailed hearly => ⟨rfl, execute_unchanged hearly hfailed⟩⟩
  next nextPosition copied =>
    cases h
    obtain ⟨hturned, hfailed⟩ := park_turned hready nextPosition copied
    exact ⟨hturned, fun hfalse _ => ⟨rfl, hfailed hfalse⟩⟩
  next allocations copies finished =>
    cases h
    obtain ⟨hturned, hfailed⟩ := restore_turned hready allocations copies finished
    exact ⟨hturned, fun hfalse _ => ⟨rfl, hfailed hfalse⟩⟩
  next nextPosition copied =>
    cases h
    obtain ⟨hturned, hfailed⟩ := rewind_turned hready nextPosition copied
    exact ⟨hturned, fun hfalse _ => ⟨rfl, hfailed hfalse⟩⟩
  next snapshot =>
    split at h
    next slot snapshot hunparked hslot =>
      split at h
      next hvalid =>
        cases h
        have hempty : state.hostKvBytes = 0 := by simpa [Request.settles] using hsettles
        exact ⟨releaseSlot_turned hready hslot (by simp)
          ⟨hready.request.state, hvalid.2, hunparked, hempty⟩, by simp⟩
      next =>
        cases h
        exact ⟨Turned.refl hready, fun _ _ => ⟨rfl, Unchanged.refl _ _⟩⟩
    next =>
      cases h
      exact ⟨Turned.refl hready, fun _ _ => ⟨rfl, Unchanged.refl _ _⟩⟩
  next snapshot =>
    cases h
    obtain ⟨hturned, hsucceeded⟩ := install_turned hready hsettles
    exact ⟨hturned, fun hfalse => by rw [hsucceeded] at hfalse; cases hfalse⟩
  next =>
    split at h
    next slot hunparked hslot =>
      cases h
      exact ⟨releaseSlot_turned hready hslot (by simp) ⟨hready.request.state, trivial⟩, by simp⟩
    next hparked =>
      cases h
      have hslot : state.slot = none := by
        have hfits : state.parkedState.isSome = true ↔ state.slot = none := hready.request.status
        cases hstate : state.parkedState with
        | none =>
          cases hslot : state.slot with
          | none => rfl
          | some slot => exact absurd hslot (hparked slot hstate)
        | some parked => exact hfits.1 (by rw [hstate]; rfl)
      exact ⟨Turned.of_slots (Ledger.refl _ _) rfl (by simp [Request.slots, hslot]) hready.used
        hready.provider ⟨hready.request.state, trivial⟩, by simp⟩
  next =>
    cases h
    exact ⟨releaseRequestState_turned hready, by simp⟩
  next => cases h

namespace Service

/-- The states that are not gone. -/
def states (service : Service config) : List RequestState :=
  (service.threads.filter fun request => request.status ≠ .gone).map fun request => request.state

/-- No step marks a slot for a state that is not there, or gives one up for good. -/
def Settles (service : Service config) : Action → Prop
  | .create valid cleared =>
    valid = true → cleared = false → service.shared.slotInUse.findIdx? (!·) = none
  | .turn index choice => ∀ request ∈ service.threads[index]?,
      request.settles service.shared choice = true

instance (service : Service config) (action : Action) : Decidable (service.Settles action) :=
  match action with
  | .create valid cleared => inferInstanceAs
      (Decidable (valid = true → cleared = false → service.shared.slotInUse.findIdx? (!·) = none))
  | .turn index choice => inferInstanceAs (Decidable (∀ request ∈ service.threads[index]?,
      request.settles service.shared choice = true))

structure Sound (service : Service config) : Prop where
  provider : service.shared.Sound
  requests : ∀ request ∈ service.threads, request.Sound config
  distinct : (service.threads.flatMap Request.slots).Nodup
  inUse : ∀ slot, service.shared.slotInUse[slot]? = some true ↔
    slot ∈ service.threads.flatMap Request.slots
  parked : service.shared.parkedRequestBytes =
    Interleaved.total (fun request => request.state.parkedBytes) service.threads
  session : service.shared.parkedSessionBytes =
    Interleaved.total (fun request => request.state.reportedBytes) service.threads
  host : service.shared.hostKvBytes =
    Interleaved.total (fun request => request.state.hostKvBytes) service.threads

theorem Sound.start : (start : Service config).Sound where
  provider := by
    refine ⟨⟨?_, ?_, ?_, ?_, ?_⟩, Nat.zero_le _, Nat.zero_le _⟩
    · simp [Service.start, Provider.tablePages, List.reduceOption]
    · simp [Service.start]
    · simp [Service.start]
    · intro table htable
      rw [Service.start, mem_replicate] at htable
      rw [htable.2, length_replicate]
    · intro slot hslot entry hentry
      simp only [Service.start, Provider.table, getElem?_replicate] at hentry hslot
      split at hslot
      next hless =>
        rw [if_pos hless, Option.getD_some, mem_replicate] at hentry
        exact hentry.2
      next => cases hslot
  requests := by simp [Service.start]
  distinct := by simp [Service.start]
  inUse := by
    simp [Service.start, getElem?_replicate]
  parked := rfl
  session := rfl
  host := rfl

theorem Sound.create (hsound : service.Sound) {valid cleared : Bool}
    (hsettles : service.Settles (.create valid cleared)) :
    (service.create valid cleared).1.Sound ∧
      ((service.create valid cleared).2 = false → (service.create valid cleared).1 = service) := by
  rw [Service.create]
  split
  next => exact ⟨hsound, fun _ => rfl⟩
  next hvalid =>
    split
    next => exact ⟨hsound, fun _ => rfl⟩
    next slot hfound =>
      have hfree := free_of_findIdx? hfound
      have hlength : slot < service.shared.slotInUse.length := (List.getElem?_eq_some_iff.1 hfree).1
      split
      next =>
        refine ⟨⟨⟨(marked_restoring hsound.provider.paged hfree).1.paged, hsound.provider.bounded,
          hsound.provider.room⟩, ?_, ?_, ?_, ?_, ?_, ?_⟩, by simp⟩
        · intro request hrequest
          rcases List.mem_append.1 hrequest with hold | hnew
          · exact hsound.requests request hold
          · rw [List.mem_singleton.1 hnew]
            exact ⟨⟨by simp, by simp⟩, by simp [Request.Fits]⟩
        · rw [List.flatMap_append, List.nodup_append']
          refine ⟨hsound.distinct, by simp [Request.slots], ?_⟩
          intro other hother hnew
          have hsame : other = slot := by simpa [Request.slots] using hnew
          have hused := (hsound.inUse other).2 hother
          rw [hsame, hfree] at hused
          cases hused
        · intro other
          rw [getElem?_set_mark hlength, List.flatMap_append, List.mem_append, hsound.inUse]
          constructor
          · rintro (⟨hused, -⟩ | ⟨hsame, -⟩)
            · exact .inl hused
            · exact .inr (by simp [Request.slots, hsame])
          · rintro (hused | hnew)
            · refine .inl ⟨hused, ?_⟩
              rintro rfl
              rw [← hsound.inUse, hfree] at hused
              cases hused
            · exact .inr ⟨by simpa [Request.slots] using hnew, rfl⟩
        · simp [hsound.parked, Interleaved.total, RequestState.parkedBytes]
        · simp [hsound.session, Interleaved.total, RequestState.reportedBytes]
        · simp [hsound.host, Interleaved.total]
      next hcleared =>
        have hnone := hsettles (by simpa using hvalid) (by simpa using hcleared)
        rw [hfound] at hnone
        cases hnone

theorem Sound.ready (hsound : service.Sound) (hrequest : request ∈ service.threads) :
    Ready service.shared request where
  used := fun slot hslot => (hsound.inUse slot).2 (mem_flatMap.2 ⟨request, hrequest, hslot⟩)
  parked := by
    rw [hsound.parked]
    exact Interleaved.weight_le_total (fun request => request.state.parkedBytes) hrequest
  session := by
    rw [hsound.session]
    exact Interleaved.weight_le_total (fun request => request.state.reportedBytes) hrequest
  host := by
    rw [hsound.host]
    exact Interleaved.weight_le_total (fun request => request.state.hostKvBytes) hrequest
  provider := hsound.provider
  request := hsound.requests request hrequest

theorem Sound.turn (hsound : service.Sound) {index : Nat} {choice : Choice}
    (hsettles : service.Settles (.turn index choice))
    (h : service.turn Request.step index choice = some service') : service'.Sound := by
  obtain ⟨before, request, after, shared', request', hthreads, hindex, -, hstep, rfl⟩ :=
    Interleaved.turn_spec h
  have hmem : request ∈ service.threads := by
    rw [hthreads]
    exact mem_append_right _ mem_cons_self
  rw [Request.step, Option.map_eq_some_iff] at hstep
  obtain ⟨⟨provider', called, succeeded⟩, hcall, hpair⟩ := hstep
  cases hpair
  have hturned := (Request.call_turned (hsound.ready hmem) (hsettles request hindex) hcall).1
  have hdistinct := hsound.distinct
  have hinUse := hsound.inUse
  have hperm := fun request => Interleaved.split_perm Request.slots [] before request after
  simp only [nil_append] at hperm
  rw [hthreads] at hdistinct
  have hothers : ∀ slot, slot ∈ before.flatMap Request.slots ++ after.flatMap Request.slots →
      slot ∉ request.slots := by
    intro slot hslot hown
    have hsplit := (hperm request).nodup_iff.1 hdistinct
    rw [nodup_append'] at hsplit
    exact hsplit.2.2 hown hslot
  have hmember : ∀ slot, slot ∈ service.threads.flatMap Request.slots ↔
      slot ∈ request.slots ∨
        slot ∈ before.flatMap Request.slots ++ after.flatMap Request.slots := by
    intro slot
    rw [hthreads, (hperm request).mem_iff, mem_append]
  refine ⟨hturned.provider, ?_, ?_, ?_, ?_, ?_, ?_⟩
  · intro other hother
    rcases mem_append.1 hother with hbefore | hafter
    · exact hsound.requests other (hthreads ▸ mem_append_left _ hbefore)
    · rcases mem_cons.1 hafter with rfl | hafter
      · exact hturned.request
      · exact hsound.requests other
          (hthreads ▸ mem_append_right _ (mem_cons_of_mem _ hafter))
  · rw [(hperm called).nodup_iff, nodup_append']
    have hsplit := (hperm request).nodup_iff.1 hdistinct
    rw [nodup_append'] at hsplit
    refine ⟨?_, hsplit.2.1, ?_⟩
    · rw [Request.slots]
      split
      next => cases called.state.slot <;> simp
      next => exact nodup_nil
    · intro slot hslot hrest
      rcases hturned.fresh slot hslot with hown | hfree
      · exact hothers slot hrest hown
      · have hused := (hinUse slot).2 ((hmember slot).2 (.inr hrest))
        rw [hfree] at hused
        cases hused
  · intro slot
    rw [hturned.inUse, hinUse, hmember, (hperm called).mem_iff, @mem_append _ slot called.slots]
    constructor
    · rintro (⟨hown | hrest, hnot⟩ | hnew)
      · exact absurd hown hnot
      · exact .inr hrest
      · exact .inl hnew
    · rintro (hnew | hrest)
      · exact .inr hnew
      · exact .inl ⟨.inr hrest, hothers slot hrest⟩
  · have hledger := hturned.ledger.parked
    have hbefore := hsound.parked
    rw [hthreads, Interleaved.total_split] at hbefore
    simp only [Interleaved.total_split]
    omega
  · have hledger := hturned.ledger.session
    have hbefore := hsound.session
    rw [hthreads, Interleaved.total_split] at hbefore
    simp only [Interleaved.total_split]
    omega
  · have hledger := hturned.ledger.host
    have hbefore := hsound.host
    rw [hthreads, Interleaved.total_split] at hbefore
    simp only [Interleaved.total_split]
    omega

theorem Sound.of_reaches (h : Reaches Service.step Service.Settles Service.start service) :
    service.Sound := by
  refine h.invariant Sound.start fun {service service' action} _ hsound hsettles hstep => ?_
  cases action with
  | create valid cleared =>
    cases hstep
    exact (hsound.create hsettles).1
  | turn index choice => exact hsound.turn hsettles hstep

theorem Sound.total_states (hsound : service.Sound) (weight : RequestState → Nat)
    (hweight : ∀ state : RequestState, state.parkedState = none → state.hostKvBytes = 0 →
      weight state = 0) :
    Interleaved.total (fun request => weight request.state) service.threads =
      (service.states.map weight).sum := by
  rw [states, map_map, Interleaved.total]
  have hrequests := hsound.requests
  generalize service.threads = threads at hrequests
  induction threads with
  | nil => rfl
  | cons request rest ih =>
    have hrest := ih fun other hother => hrequests other (mem_cons_of_mem _ hother)
    by_cases hgone : request.status = .gone
    · have hfits := (hrequests request mem_cons_self).status
      rw [Request.Fits, hgone] at hfits
      rw [filter_cons_of_neg (by simpa using hgone), map_cons, sum_cons, hrest,
        hweight _ hfits.1 hfits.2, Nat.zero_add]
    · rw [filter_cons_of_pos (by simpa using hgone), map_cons, map_cons, sum_cons, sum_cons, hrest]
      rfl

end Service

/-- Pages, slots and bytes are conserved over every order of sections, and what fails leaves
everything as it was. -/
theorem slots_conserved (h : Reaches Service.step Service.Settles Service.start service) :
    (service.shared.freeKvPages ++ service.shared.tablePages).Perm
        (List.range service.shared.allKvPages) ∧
      (∀ slot, service.shared.slotInUse[slot]? = some true ↔
        ∃ request ∈ service.threads, request.status = .live ∧
          request.state.parkedState = none ∧ request.state.slot = some slot) ∧
      (service.threads.flatMap Request.slots).Nodup ∧
      service.shared.parkedRequestBytes = (service.states.map RequestState.parkedBytes).sum ∧
      service.shared.parkedSessionBytes = (service.states.map RequestState.reportedBytes).sum ∧
      service.shared.hostKvBytes = (service.states.map RequestState.hostKvBytes).sum ∧
      (∀ request ∈ service.threads, request.status = .live →
        (request.state.parkedState.isSome = true ↔ request.state.slot = none)) ∧
      (∀ valid cleared, service.Settles (.create valid cleared) →
        (service.create valid cleared).2 = false → (service.create valid cleared).1 = service) ∧
      ∀ (index : Nat) (choice : Choice) (request request' : Request) (provider' : Provider config),
        service.threads[index]? = some request →
        Request.call service.shared request choice = some (provider', request', false) →
        request.settles service.shared choice = true →
        request.rollsBack service.shared choice = true →
        request'.status = request.status ∧
          Unchanged service.shared provider' request.state request'.state := by
  have hsound := Service.Sound.of_reaches h
  have hfits : ∀ request ∈ service.threads, request.status = .live →
      (request.state.parkedState.isSome = true ↔ request.state.slot = none) := by
    intro request hrequest hlive
    have hstatus := (hsound.requests request hrequest).status
    rw [Request.Fits, hlive] at hstatus
    exact hstatus
  refine ⟨hsound.provider.paged.pages, ?_, hsound.distinct, ?_, ?_, ?_, hfits, ?_, ?_⟩
  · intro slot
    rw [hsound.inUse, mem_flatMap]
    constructor
    · rintro ⟨request, hrequest, hslot⟩
      rw [Request.slots] at hslot
      split at hslot
      next hlive =>
        have hnamed : request.state.slot = some slot := Option.mem_toList.1 hslot
        refine ⟨request, hrequest, hlive, ?_, hnamed⟩
        cases hparked : request.state.parkedState with
        | none => rfl
        | some parked =>
          have hnone := (hfits request hrequest hlive).1 (by rw [hparked]; rfl)
          rw [hnamed] at hnone
          cases hnone
      next => cases hslot
    · rintro ⟨request, hrequest, hlive, -, hslot⟩
      exact ⟨request, hrequest, by simp [Request.slots, hlive, hslot]⟩
  · rw [hsound.parked]
    exact hsound.total_states RequestState.parkedBytes fun state hparked _ => by
      rw [RequestState.parkedBytes, hparked, Option.elim_none]
  · rw [hsound.session]
    exact hsound.total_states RequestState.reportedBytes fun state hparked _ => by
      rw [RequestState.reportedBytes, hparked, Option.elim_none]
  · rw [hsound.host]
    exact hsound.total_states RequestState.hostKvBytes fun _ _ hhost => hhost
  · exact fun valid cleared hsettles => (hsound.create hsettles).2
  · intro index choice request request' provider' hindex hcall hsettles hrolls
    exact (Request.call_turned (hsound.ready (mem_of_getElem? hindex)) hsettles hcall).2 rfl
      hrolls

/-- One slot and room for one parked request. -/
def smallConfig : Config where
  capacity := 1
  maxContext := 4
  kvPageTokens := 2
  kvPageTokens_pos := by decide
  kvPageCapacity := 2
  kvPageBytes := 8
  windowKvBytesPerSlot := 1
  stateBytes := 1
  hostFp16TargetPageBytes := 16
  parkingRamCapacityBytes := 10
  hostAuthoritativeFp16Kv := false

/-- A request that has read two tokens, and parks. -/
def turnOfTwo : List Action :=
  [.create true true,
    .turn 0 (.execute [.page 0 true true, .page 1 true true] true
      { currentPosition := 1, retentionPosition := 2, retentionValid := true }),
    .turn 0 (.park 2 true)]

/-- What was saved of it. -/
def snapshotOfTwo : Snapshot where
  parked :=
    { pageIndices := [0], logicalPages := 1, pagePayloadBytes := 8, windowPayloadBytes := 1
      bytes := 10, reportedBytes := 10 }
  hostPageCount := 0
  progress := { currentPosition := 1, retentionPosition := 2, retentionValid := true }

theorem parked_bytes_counted : ∃ service : Service smallConfig,
    Reaches Service.step Service.Settles Service.start service ∧
      service.shared.freeKvPages = [0] ∧ service.shared.parkedRequestBytes = 10 ∧
      service.shared.parkedRequestBytes = (service.states.map RequestState.parkedBytes).sum := by
  have hrun : ∃ service : Service smallConfig,
      runChecked Service.step (fun service action => decide (service.Settles action))
        Service.start turnOfTwo = some service ∧ service.shared.freeKvPages = [0] ∧
        service.shared.parkedRequestBytes = 10 := by
    decide
  obtain ⟨service, hservice, hfree, hbytes⟩ := hrun
  have hreaches : Reaches Service.step Service.Settles Service.start service :=
    Reaches.of_runChecked (fun _ _ => of_decide_eq_true) hservice
  exact ⟨service, hreaches, hfree, hbytes, (slots_conserved hreaches).2.2.2.1⟩

/-- A load that gives its slot up and then finds no room keeps naming it: the next request gets
the same slot. -/
theorem failed_load_shares_slot : ∃ service : Service smallConfig,
    Reaches Service.step (fun _ _ => True) Service.start service ∧
      service.threads.map (fun request => (request.status, request.state.parkedState,
        request.state.slot)) = [(.live, some snapshotOfTwo.parked, none),
          (.live, none, some 0), (.live, none, some 0)] ∧
      ¬ (service.threads.flatMap Request.slots).Nodup := by
  have hrun : ∃ service : Service smallConfig,
      runActions Service.step Service.start (turnOfTwo ++
        [.create true true, .turn 1 (.load (some snapshotOfTwo)), .turn 1 .install,
          .create true true]) = some service ∧
      service.threads.map (fun request => (request.status, request.state.parkedState,
        request.state.slot)) = [(.live, some snapshotOfTwo.parked, none),
          (.live, none, some 0), (.live, none, some 0)] ∧
      ¬ (service.threads.flatMap Request.slots).Nodup := by
    decide
  obtain ⟨service, hservice, hshared⟩ := hrun
  exact ⟨service, Reaches.of_runActions hservice, hshared⟩

end QuantumLlm.Runtime.Slots
