import QuantumLlm.Runtime.Slots.Ownership

/-!
# Calls that move states between slots and host memory

A parked or destroyed state gives its slot and its pages back; a restored one gets
them from what is free. A failed park, restore or rewind leaves everything as it was.
-/

namespace QuantumLlm.Runtime.Slots

open Option

variable {config : Config} {provider provider' : Provider config} {state : RequestState}
  {request : Request} {slot : Nat}

theorem getElem?_set_mark {marks : List Bool} {slot : Nat} {mark : Bool} (hslot : slot < marks.length)
    (other : Nat) : (marks.set slot mark)[other]? = some true ↔
      marks[other]? = some true ∧ other ≠ slot ∨ other = slot ∧ mark = true := by
  by_cases hsame : slot = other
  · rw [← hsame, List.getElem?_set_self hslot]
    simp
  · rw [List.getElem?_set_ne hsame]
    simp [Ne.symm hsame]

theorem fits_iff {bytes : Nat} : provider.fits bytes = true ↔
    bytes ≤ config.parkingRamCapacityBytes ∧
      provider.hostKvBytes + provider.parkedRequestBytes ≤
        config.parkingRamCapacityBytes - bytes := by
  simp [Provider.fits]

theorem Turned.refl (hready : Ready provider request) : Turned provider provider request request :=
  Turned.of_slots (Ledger.refl _ _) rfl rfl hready.used hready.provider hready.request

theorem park_turned (hready : Ready provider ⟨.live, state⟩) (nextPosition : Nat) (copied : Bool) :
    Turned provider (provider.park state nextPosition copied).1 ⟨.live, state⟩
        ⟨.live, (provider.park state nextPosition copied).2.1⟩ ∧
      ((provider.park state nextPosition copied).2.2 = false →
        Unchanged provider (provider.park state nextPosition copied).1 state
          (provider.park state nextPosition copied).2.1) := by
  have hnone : Turned provider provider ⟨.live, state⟩ ⟨.live, state⟩ ∧
      (false = false → Unchanged provider provider state state) :=
    ⟨Turned.refl hready, fun _ => Unchanged.refl _ _⟩
  rw [Provider.park]
  split
  next slot hunparked hslot =>
    simp only
    split
    next => exact hnone
    next hguard =>
      split
      next => exact hnone
      next =>
        split
        next => exact hnone
        next =>
          split
          next => exact hnone
          next hfits =>
            split
            next => exact hnone
            next =>
              simp only [not_or, not_not] at hguard hfits
              have hused : provider.slotInUse[slot]? = some true := hguard.2.1
              have hlength : slot < provider.slotInUse.length :=
                (List.getElem?_eq_some_iff.1 hused).1
              have hpaged := Provider.freePages_spec hready.provider.paged hused
              rw [fits_iff] at hfits
              refine ⟨⟨⟨?_, ?_, rfl⟩, ?_, ?_, ⟨?_, hready.provider.bounded, ?_⟩, ⟨⟨?_, ?_⟩, ?_⟩⟩,
                by simp⟩
              · simp [RequestState.parkedBytes, hunparked]
              · simp [RequestState.reportedBytes, hunparked]
              · intro other
                simp only [getElem?_set_mark hlength, Request.slots, hslot, toList_some,
                  List.mem_singleton, toList_none, List.not_mem_nil, Bool.false_eq_true,
                  and_false, or_false, ne_eq]
              · simp [Request.slots]
              · exact { hpaged with }
              · simp only [Provider.freePages]
                omega
              · exact hready.request.state.host
              · intro parked hparked
                cases hparked
                exact List.pairwise_lt_range.filter _
              · simp [Request.Fits]
  next => exact hnone

theorem free_of_findIdx? {marks : List Bool} (h : marks.findIdx? (!·) = some slot) :
    marks[slot]? = some false := by
  obtain ⟨hlength, hfree, -⟩ := List.findIdx?_eq_some_iff_getElem.1 h
  rw [List.getElem?_eq_getElem hlength, Option.some.injEq]
  simpa using hfree

section

variable (h : provider.Paged) (hfree : provider.slotInUse[slot]? = some false)

include h hfree

theorem marked_restoring :
    let marked : Provider config :=
      { provider with slotInUse := provider.slotInUse.set slot true }
    marked.Restoring marked slot [] ∧ marked.slotInUse[slot]? = some true := by
  have hlength : slot < provider.slotInUse.length := (List.getElem?_eq_some_iff.1 hfree).1
  have hpaged : ({ provider with slotInUse := provider.slotInUse.set slot true } :
      Provider config).Paged := by
    refine ⟨h.pages, h.tables, ?_, h.sizes, ?_⟩
    · rw [List.length_set]
      exact h.slots
    · intro other hother
      have hne : slot ≠ other := by
        rintro rfl
        rw [List.getElem?_set_self hlength] at hother
        cases hother
      rw [List.getElem?_set_ne hne] at hother
      exact h.unused other hother
  refine ⟨⟨hpaged, Provider.Local.refl _ _, ?_⟩, List.getElem?_set_self hlength⟩
  intro index page hentry
  have hnone := h.unused slot hfree (some page) (List.mem_of_getElem? hentry)
  cases hnone

theorem rolledBack_spec {rolledBack : Provider config} (hpaged : rolledBack.Paged)
    (hlocal : Provider.Local { provider with slotInUse := provider.slotInUse.set slot true }
      rolledBack slot)
    (hempty : ∀ entry ∈ rolledBack.table slot, entry = none) :
    ({ rolledBack with slotInUse := rolledBack.slotInUse.set slot false } :
        Provider config).Paged ∧
      rolledBack.slotInUse.set slot false = provider.slotInUse ∧
      rolledBack.slotPages = provider.slotPages := by
  obtain ⟨hlength, hget⟩ := List.getElem?_eq_some_iff.1 hfree
  have hslot : slot < provider.slotPages.length := h.slot_lt hfree
  have hmarks : rolledBack.slotInUse.set slot false = provider.slotInUse := by
    rw [hlocal.inUse, List.set_set]
    conv => lhs; rw [← hget]
    exact List.set_getElem_self hlength
  have htable : ∀ other, rolledBack.table other = provider.table other := by
    intro other
    by_cases hsame : other = slot
    · rw [hsame, List.eq_replicate_of_mem hempty,
        List.eq_replicate_of_mem (h.unused slot hfree), h.table_length hslot,
        hpaged.table_length (by rw [hpaged.tables, ← h.tables]; exact hslot)]
    · exact hlocal.others other hsame
  refine ⟨⟨hpaged.pages, hpaged.tables, ?_, hpaged.sizes, ?_⟩, hmarks, ?_⟩
  · rw [List.length_set]
    exact hpaged.slots
  · intro other hother
    change ∀ entry ∈ rolledBack.table other, entry = none
    rw [htable other]
    exact h.unused other (hmarks ▸ hother)
  · apply List.ext_getElem (hpaged.tables.trans h.tables.symm)
    intro other hother hother'
    have heach := htable other
    rw [Provider.table, Provider.table, List.getElem?_eq_getElem hother,
      List.getElem?_eq_getElem hother'] at heach
    exact heach

end

theorem restore_turned (hready : Ready provider ⟨.live, state⟩) (allocations copies : Nat)
    (finished : Bool) :
    Turned provider (provider.restore state allocations copies finished).1 ⟨.live, state⟩
        ⟨.live, (provider.restore state allocations copies finished).2.1⟩ ∧
      ((provider.restore state allocations copies finished).2.2 = false →
        Unchanged provider (provider.restore state allocations copies finished).1 state
          (provider.restore state allocations copies finished).2.1) := by
  have hnone : Turned provider provider ⟨.live, state⟩ ⟨.live, state⟩ ∧
      (false = false → Unchanged provider provider state state) :=
    ⟨Turned.refl hready, fun _ => Unchanged.refl _ _⟩
  rw [Provider.restore]
  split
  next parked hparked hslot =>
    split
    next => exact hnone
    next slot hfound =>
      simp only
      split
      next => exact hnone
      next hgeometry =>
        split
        next => exact hnone
        next hcounted =>
          split
          next => exact hnone
          next hbudget =>
            simp only [not_or, Nat.not_lt] at hgeometry hcounted hbudget
            have hfree := free_of_findIdx? hfound
            have hlength : slot < provider.slotInUse.length :=
              (List.getElem?_eq_some_iff.1 hfree).1
            have hbounded := hready.provider.bounded
            have hroom := hready.provider.room
            obtain ⟨hrestoring, hmarked⟩ := marked_restoring hready.provider.paged hfree
            obtain ⟨hrestored, hwithin⟩ := @restorePages_spec config slot _ parked.logicalPages
              parked.pageIndices hgeometry.1 _ allocations copies [] hrestoring hmarked
              (hready.request.state.ordered parked hparked) (by simp) (by simp only; omega)
            have hkept := hrestored.isLocal
            split
            next =>
              refine ⟨⟨⟨?_, ?_, ?_⟩, ?_, ?_, ⟨?_, hwithin, ?_⟩, ⟨⟨?_, ?_⟩, ?_⟩⟩, by simp⟩
              · simp only [RequestState.parkedBytes, hparked, elim_some, elim_none]
                omega
              · simp only [RequestState.reportedBytes, hparked, elim_some, elim_none]
                omega
              · simp only [hkept.hostKvBytes]
              · intro other
                simp only [hkept.inUse, getElem?_set_mark hlength, Request.slots, hslot,
                  toList_none, List.not_mem_nil, not_false_eq_true, and_true,
                  toList_some, List.mem_singleton]
                constructor
                · rintro (⟨hused, -⟩ | hsame)
                  · exact .inl hused
                  · exact .inr hsame
                · rintro (hused | hsame)
                  · by_cases hsame : other = slot
                    · exact .inr hsame
                    · exact .inl ⟨hused, hsame⟩
                  · exact .inr hsame
              · intro other hother
                simp only [Request.slots, toList_some, List.mem_singleton] at hother
                exact .inr (hother ▸ hfree)
              · exact ⟨hrestored.paged.pages, hrestored.paged.tables, hrestored.paged.slots,
                  hrestored.paged.sizes, hrestored.paged.unused⟩
              · simp only [hkept.hostKvBytes]
                omega
              · exact hready.request.state.host
              · exact nofun
              · simp [Request.Fits]
            next =>
              obtain ⟨hrolled, hlocal, hall, hempty⟩ := unpublish_spec hrestored
                (by rw [hkept.inUse]; exact hmarked)
              obtain ⟨hpaged, hmarks, htables⟩ := rolledBack_spec hready.provider.paged hfree hrolled
                hlocal hempty
              refine ⟨?_, fun _ => ⟨rfl, hmarks, htables, hlocal.hostKvBytes,
                hlocal.parkedRequestBytes, hlocal.parkedSessionBytes⟩⟩
              refine Turned.of_slots ⟨?_, ?_, ?_⟩ hmarks rfl hready.used ⟨hpaged, ?_, ?_⟩
                hready.request
              · simp only [hlocal.parkedRequestBytes]
              · simp only [hlocal.parkedSessionBytes]
              · simp only [hlocal.hostKvBytes]
              · exact hall.trans_le hwithin
              · simp only [hlocal.hostKvBytes, hlocal.parkedRequestBytes]
                exact hroom
  next => exact hnone

theorem rewind_turned (hready : Ready provider ⟨.live, state⟩) (nextPosition : Nat)
    (copied : Bool) :
    Turned provider (provider.rewind state nextPosition copied).1 ⟨.live, state⟩
        ⟨.live, (provider.rewind state nextPosition copied).2.1⟩ ∧
      ((provider.rewind state nextPosition copied).2.2 = false →
        Unchanged provider (provider.rewind state nextPosition copied).1 state
          (provider.rewind state nextPosition copied).2.1) := by
  rw [Provider.rewind]
  simp only
  split
  next => exact ⟨Turned.refl hready, fun _ => Unchanged.refl _ _⟩
  next =>
    refine ⟨?_, by simp⟩
    split
    next =>
      obtain ⟨htrimmed, htrimmedState, hledger, hinUse, hslot, hparked⟩ :=
        @trimHostKv_spec config (state.hostKvPages - config.pagesOf nextPosition) provider state
          hready.provider hready.request.state (Nat.sub_le _ _) hready.host
      refine Turned.of_slots ⟨hledger.parked, hledger.session, hledger.host⟩ hinUse
        (by simp [Request.slots, hslot]) hready.used htrimmed
        ⟨⟨htrimmedState.host, htrimmedState.ordered⟩, ?_⟩
      have hstatus := hready.request.status
      rw [hslot, hparked]
      exact hstatus
    next =>
      exact Turned.of_slots ⟨rfl, rfl, rfl⟩ rfl rfl hready.used hready.provider
        ⟨⟨hready.request.state.host, hready.request.state.ordered⟩, hready.request.status⟩

/-- What a load needs in its second section. -/
def Provider.hasRoomFor (provider : Provider config) (snapshot : Snapshot) : Bool :=
  provider.fits snapshot.parked.bytes &&
    snapshot.hostBytes config ≤ config.parkingRamCapacityBytes - snapshot.parked.bytes -
      provider.hostKvBytes - provider.parkedRequestBytes

theorem install_turned {snapshot : Snapshot} (hready : Ready provider ⟨.installing snapshot, state⟩)
    (hroom : provider.hasRoomFor snapshot = true) :
    Turned provider (provider.install state snapshot).1 ⟨.installing snapshot, state⟩
        ⟨.live, (provider.install state snapshot).2.1⟩ ∧
      (provider.install state snapshot).2.2 = true := by
  simp only [Provider.hasRoomFor, Bool.and_eq_true, decide_eq_true_eq] at hroom
  obtain ⟨hfits, hhost⟩ := hroom
  have hordered : snapshot.parked.pageIndices.Pairwise (· < ·) := by
    have hvalid := hready.request.status.1
    simp only [Snapshot.valid, Bool.and_eq_true, decide_eq_true_eq] at hvalid
    exact hvalid.2
  obtain ⟨-, hunparked, hempty⟩ := hready.request.status
  have hpaged := hready.provider.paged
  simp only at hunparked hempty
  rw [Provider.install]
  rw [if_neg (by rw [hfits]; simpa using hhost)]
  rw [fits_iff] at hfits
  refine ⟨⟨⟨?_, ?_, ?_⟩, ?_, ?_, ⟨{ hpaged with }, hready.provider.bounded, ?_⟩, ⟨⟨rfl, ?_⟩, ?_⟩⟩, rfl⟩
  · simp [RequestState.parkedBytes, hunparked]
  · simp [RequestState.reportedBytes, hunparked]
  · simp [hempty]
  · simp [Request.slots]
  · simp [Request.slots]
  · simp only
    omega
  · intro parked hparked
    cases hparked
    exact hordered
  · simp [Request.Fits]

theorem releaseSlot_turned (hready : Ready provider ⟨.live, state⟩) (hslot : state.slot = some slot)
    {status : Status} (hstatus : status ≠ .live)
    (hrequest : Request.Sound config ⟨status, state⟩) :
    Turned provider (provider.releaseSlot slot) ⟨.live, state⟩ ⟨status, state⟩ := by
  obtain ⟨hpaged, hinUse, hall, hhost, hparked, hsession⟩ :=
    Provider.releaseSlot_spec hready.provider.paged slot
  have hused : provider.slotInUse[slot]? = some true :=
    hready.used slot (by simp [Request.slots, hslot])
  have hslots : Request.slots ⟨status, state⟩ = [] := by
    cases status with
    | live => exact absurd rfl hstatus
    | installing snapshot => rfl
    | dropping => rfl
    | gone => rfl
  refine ⟨⟨by rw [hparked], by rw [hsession], by rw [hhost]⟩, ?_, ?_, ⟨hpaged, ?_, ?_⟩, hrequest⟩
  · intro other
    rw [hinUse, getElem?_set_mark (List.getElem?_eq_some_iff.1 hused).1, hslots]
    simp [Request.slots, hslot]
  · rw [hslots]
    intro other hother
    cases hother
  · rw [hall]
    exact hready.provider.bounded
  · rw [hhost, hparked]
    exact hready.provider.room

theorem releaseRequestState_turned (hready : Ready provider ⟨.dropping, state⟩) :
    Turned provider (provider.releaseRequestState state).1 ⟨.dropping, state⟩
      ⟨.gone, (provider.releaseRequestState state).2⟩ := by
  have hparkedLe := hready.parked
  have hsessionLe := hready.session
  have hhostLe := hready.host
  have hpaged := hready.provider.paged
  have hroom := hready.provider.room
  simp only [RequestState.parkedBytes, RequestState.reportedBytes] at hparkedLe hsessionLe hhostLe
  cases hparked : state.parkedState with
  | none =>
    simp only [Provider.releaseRequestState, hparked, Provider.releaseHostKv, if_pos hhostLe]
    refine ⟨⟨?_, ?_, ?_⟩, ?_, ?_, ⟨{ hpaged with }, hready.provider.bounded, ?_⟩, ⟨⟨?_, ?_⟩, ?_⟩⟩
    · simp [RequestState.parkedBytes, hparked]
    · simp [RequestState.reportedBytes, hparked]
    · simp only
      omega
    · simp [Request.slots]
    · simp [Request.slots]
    · simp only
      omega
    · simp
    · simp
    · simp [Request.Fits]
  | some parked =>
    rw [hparked, elim_some] at hparkedLe hsessionLe
    simp only [Provider.releaseRequestState, hparked, Provider.releaseHostKv, if_pos hhostLe,
      if_pos hparkedLe, if_pos hsessionLe]
    refine ⟨⟨?_, ?_, ?_⟩, ?_, ?_, ⟨{ hpaged with }, hready.provider.bounded, ?_⟩, ⟨⟨?_, ?_⟩, ?_⟩⟩
    · simp only [RequestState.parkedBytes, hparked, elim_some, elim_none]
      omega
    · simp only [RequestState.reportedBytes, hparked, elim_some, elim_none]
      omega
    · simp only
      omega
    · simp [Request.slots]
    · simp [Request.slots]
    · simp only
      omega
    · simp
    · simp
    · simp [Request.Fits]

end QuantumLlm.Runtime.Slots
