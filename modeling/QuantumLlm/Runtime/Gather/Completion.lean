import QuantumLlm.Runtime.Gather.Runs

/-!
# Extent gather storage: completions

What the storage makes of one call of `read`, in every run: the caller's
completion is invoked exactly once, last, and with a truthful result.
-/

namespace QuantumLlm.Runtime.Gather

open List

/-! ## Steps of the storage -/

theorem Flight.step_request {flight flight' : Flight} {move : FlightMove}
    (hstep : flight.step move = some flight') : flight'.request = flight.request := by
  cases move <;> simp only [step] at hstep
  case finishLock =>
    split at hstep
    · split at hstep <;> cases hstep <;> rfl
    · cases hstep
  case cancelFound =>
    cases hstep
    rfl
  all_goals
    split at hstep
    · cases hstep
      rfl
    · cases hstep

namespace Storage

variable {storage storage' : Storage} {action : Action} {id other : Nat}

/-- Operations are numbered below the counter. -/
structure Numbered (storage : Storage) : Prop where
  flights : ∀ id, storage.nextId ≤ id → storage.flights.find? id = none
  refused : ∀ entry ∈ storage.refused, entry.1 < storage.nextId

/-- What one step makes of the operation `id`. -/
structure Kept (storage storage' : Storage) (id : Nat) : Prop where
  refused : storage'.refused.filter (·.1 = id) = storage.refused.filter (·.1 = id)
  flight : storage'.flights.find? id = storage.flights.find? id ∨
    ∃ flight move flight', storage.flights.find? id = some flight ∧
      flight.step move = some flight' ∧ storage'.flights.find? id = some flight'

theorem Kept.refl : Kept storage storage id := ⟨rfl, Or.inl rfl⟩

theorem find?_setFlight_self {flight flight' : Flight}
    (hflight : storage.flights.find? id = some flight) :
    (storage.setFlight id flight').flights.find? id = some flight' := by
  rw [setFlight, OrderedMap.find?_modify_self, hflight]
  rfl

theorem find?_setFlight_ne {flight : Flight} (hne : other ≠ id) :
    (storage.setFlight id flight).flights.find? other = storage.flights.find? other :=
  OrderedMap.find?_modify_ne hne

theorem kept_setFlight {flight flight' : Flight} {move : FlightMove}
    (hflight : storage.flights.find? id = some flight) (hstep : flight.step move = some flight') :
    Kept storage (storage.setFlight id flight') other := by
  refine ⟨rfl, ?_⟩
  by_cases hother : other = id
  · subst hother
    exact Or.inr ⟨flight, move, flight', hflight, hstep, find?_setFlight_self hflight⟩
  · exact Or.inl (find?_setFlight_ne hother)

theorem kept_findCancel : Kept storage (storage.findCancel id) other := by
  unfold findCancel
  split
  next => exact Kept.refl
  next flight hflight =>
    split
    next => exact @kept_setFlight _ _ _ _ _ .cancelFound hflight rfl
    next => exact Kept.refl

theorem findCancel_nextId : (storage.findCancel id).nextId = storage.nextId := by
  unfold findCancel
  split
  next => rfl
  next => split <;> rfl

theorem move_cases {made : FlightMove} (hstep : storage.step (.move id made) = some storage') :
    storage' = storage.findCancel id ∨
      ∃ flight flight', storage.flights.find? id = some flight ∧
        flight.step made = some flight' ∧ storage'.flights = (storage.setFlight id flight').flights ∧
        storage'.refused = storage.refused ∧ storage'.nextId = storage.nextId := by
  by_cases hcancel : made = .cancelFound
  · subst hcancel
    exact Or.inl (Option.some.inj hstep).symm
  · simp only [step] at hstep
    right
    split at hstep
    next => cases hstep
    next flight hflight =>
      split at hstep
      next => cases hstep
      next flight' hmove =>
        refine ⟨flight, flight', hflight, hmove, ?_⟩
        split at hstep <;> cases hstep <;> exact ⟨rfl, rfl, rfl⟩

theorem read_cases {request : ReadRequest} {hasCompletion : Bool}
    (hstep : storage.step (.read request hasCompletion) = some storage') :
    storage'.nextId = storage.nextId + 1 ∧
      (storage'.flights = storage.flights ∨
        storage'.flights = storage.flights.emplace storage.nextId (Flight.start request)) ∧
      (storage'.refused = storage.refused ∨
        ∃ result, storage'.refused = storage.refused ++ [(storage.nextId, result)]) := by
  simp only [step] at hstep
  split at hstep
  next =>
    cases hstep
    exact ⟨rfl, .inl rfl, .inl rfl⟩
  next =>
    split at hstep
    next =>
      cases hstep
      exact ⟨rfl, .inl rfl, .inr ⟨_, rfl⟩⟩
    next =>
      cases hstep
      exact ⟨rfl, .inr rfl, .inl rfl⟩

theorem stopNext_cases (hstep : storage.step .stopNext = some storage') :
    ∃ next rest, storage' = { storage with stopping := rest }.findCancel next := by
  simp only [step] at hstep
  split at hstep
  next => cases hstep
  next next rest _ => exact ⟨next, rest, (Option.some.inj hstep).symm⟩

theorem step_kept (hstep : storage.step action = some storage') (hid : id < storage.nextId) :
    Kept storage storage' id := by
  cases action with
  | read request hasCompletion =>
    have hne : storage.nextId ≠ id := by omega
    obtain ⟨-, hflights, hrefused⟩ := read_cases hstep
    constructor
    · rcases hrefused with hsame | ⟨result, hmore⟩
      · rw [hsame]
      · simp [hmore, filter_append, hne]
    · left
      rcases hflights with hsame | hmore
      · rw [hsame]
      · rw [hmore, OrderedMap.find?_emplace_ne hne.symm]
  | move other made =>
    rcases move_cases hstep with rfl | ⟨flight, flight', hflight, hmove, hflights, hrefused, -⟩
    · exact kept_findCancel
    · have hkept := @kept_setFlight _ _ id _ _ _ hflight hmove
      exact ⟨by rw [hrefused], by rw [hflights]; exact hkept.flight⟩
  | shutdown =>
    cases hstep
    exact ⟨rfl, Or.inl rfl⟩
  | stopNext =>
    obtain ⟨next, rest, rfl⟩ := stopNext_cases hstep
    have hkept := @kept_findCancel { storage with stopping := rest } next id
    exact ⟨hkept.refused, hkept.flight⟩

theorem Numbered.of_kept (h : storage.Numbered) (hnext : storage'.nextId = storage.nextId)
    (hrefused : storage'.refused = storage.refused)
    (hkept : ∀ id, Kept storage storage' id) : storage'.Numbered := by
  refine ⟨fun id hid => ?_, fun entry hentry => ?_⟩
  · rw [hnext] at hid
    rcases (hkept id).flight with hsame | ⟨flight, move, flight', hflight, -, -⟩
    · rw [hsame, h.flights id hid]
    · rw [h.flights id hid] at hflight
      cases hflight
  · rw [hnext]
    exact h.refused entry (hrefused ▸ hentry)

theorem findCancel_refused : (storage.findCancel id).refused = storage.refused := by
  unfold findCancel
  split
  next => rfl
  next => split <;> rfl

theorem Numbered.step (h : storage.Numbered) (hstep : storage.step action = some storage') :
    storage'.Numbered := by
  cases action with
  | read request hasCompletion =>
    obtain ⟨hnext, hflights, hrefused⟩ := read_cases hstep
    refine ⟨fun id hid => ?_, fun entry hentry => ?_⟩
    · rw [hnext] at hid
      rcases hflights with hsame | hmore
      · rw [hsame]
        exact h.flights id (by omega)
      · rw [hmore, OrderedMap.find?_emplace_ne (by omega)]
        exact h.flights id (by omega)
    · rw [hnext]
      rcases hrefused with hsame | ⟨result, hmore⟩
      · rw [hsame] at hentry
        exact Nat.lt_succ_of_lt (h.refused entry hentry)
      · rw [hmore] at hentry
        rcases mem_append.1 hentry with hold | hnew
        · exact Nat.lt_succ_of_lt (h.refused entry hold)
        · rw [mem_singleton.1 hnew]
          exact Nat.lt_succ_self _
  | move other made =>
    rcases move_cases hstep with rfl | ⟨flight, flight', hflight, hmove, hflights, hrefused, hnext⟩
    · exact h.of_kept findCancel_nextId findCancel_refused fun _ => kept_findCancel
    · refine h.of_kept hnext hrefused fun id => ?_
      have hkept := @kept_setFlight _ _ id _ _ _ hflight hmove
      exact ⟨by rw [hrefused], by rw [hflights]; exact hkept.flight⟩
  | shutdown =>
    cases hstep
    exact ⟨h.flights, h.refused⟩
  | stopNext =>
    obtain ⟨next, rest, rfl⟩ := stopNext_cases hstep
    exact h.of_kept (@findCancel_nextId { storage with stopping := rest } next)
      (@findCancel_refused { storage with stopping := rest } next)
      fun id => by
        have hkept := @kept_findCancel { storage with stopping := rest } next id
        exact ⟨hkept.refused, hkept.flight⟩

theorem step_nextId (hstep : storage.step action = some storage') :
    storage.nextId ≤ storage'.nextId := by
  cases action with
  | read request hasCompletion =>
    rw [(read_cases hstep).1]
    exact Nat.le_succ _
  | move other made =>
    rcases move_cases hstep with rfl | ⟨_, _, -, -, -, -, hnext⟩
    · exact Nat.le_of_eq findCancel_nextId.symm
    · exact Nat.le_of_eq hnext.symm
  | shutdown =>
    cases hstep
    exact Nat.le_refl _
  | stopNext =>
    obtain ⟨next, rest, rfl⟩ := stopNext_cases hstep
    exact Nat.le_of_eq (@findCancel_nextId { storage with stopping := rest } next).symm

theorem Numbered.of_reaches (h : Reaches Storage.step (fun _ _ => True) {} storage) :
    storage.Numbered :=
  h.invariant ⟨fun _ _ => rfl, by simp⟩ fun _ hnumbered _ hstep => hnumbered.step hstep

end Storage

/-! ## One call of read -/

/-- What is promised of the caller's completion, however the threads interleave. -/
structure Flight.Guarantees (flight : Flight) : Prop where
  once : (calls flight.history).length ≤ 1
  /-- It follows `finish`'s decision, and that one follows every child. -/
  last : ∀ before result after, flight.history = before ++ .called result :: after →
    ∃ earlier later, before = earlier ++ .decided result :: later ∧
      Truthful flight.request earlier result
  /-- No schedule gets stuck. -/
  progress : flight.work ≠ 0 → ∃ move, isCancel move = false ∧ (flight.step move).isSome
  descends : ∀ move flight', flight.step move = some flight' →
    if isCancel move then flight'.work = flight.work else flight'.work < flight.work
  called : flight.work = 0 → (calls flight.history).length = 1

theorem Flight.Sound.guarantees {flight : Flight} (h : flight.Sound) : flight.Guarantees where
  once := by
    have htally := h.tally
    by_cases hclosed : flight.Closed
    · rw [if_pos hclosed] at htally
      omega
    · rw [if_neg hclosed] at htally
      omega
  last before result after hsplit := by
    have hdecided : .decided result ∈ before := h.chronicle before (.called result) after hsplit
    obtain ⟨earlier, later, hbefore⟩ := append_of_mem hdecided
    refine ⟨earlier, later, hbefore, ?_⟩
    apply h.chronicle earlier (.decided result) (later ++ .called result :: after)
    rw [hsplit, hbefore, append_assoc, cons_append]
  progress := h.progress
  descends move flight' hstep := by
    cases hmove : isCancel move with
    | true => exact work_eq hstep hmove
    | false => simpa using work_lt h hstep hmove
  called := h.called

/-- How the read numbered `id` stands: refused at once, or under way. -/
def Answered (holds : Flight → Prop) (storage : Storage) (id : Nat) (request : ReadRequest) :
    Prop :=
  if (validateGather request).ok then
    storage.refused.filter (·.1 = id) = [] ∧
      ∃ flight, storage.flights.find? id = some flight ∧ flight.request = request ∧ holds flight
  else
    storage.refused.filter (·.1 = id) =
        [(id, ⟨validateGather request, request.record.storedBytes, 0⟩)] ∧
      storage.flights.find? id = none

section

variable {holds weaker : Flight → Prop} {storage storage' : Storage} {id : Nat}
  {request : ReadRequest}

theorem Answered.mono (h : Answered holds storage id request)
    (himp : ∀ flight, holds flight → weaker flight) : Answered weaker storage id request := by
  unfold Answered at h ⊢
  split
  next hok =>
    rw [if_pos hok] at h
    obtain ⟨hrefused, flight, hflight, hrequest, hholds⟩ := h
    exact ⟨hrefused, flight, hflight, hrequest, himp flight hholds⟩
  next hbad =>
    rw [if_neg hbad] at h
    exact h

theorem Answered.kept (h : Answered Flight.Sound storage id request)
    (hkept : Storage.Kept storage storage' id) : Answered Flight.Sound storage' id request := by
  unfold Answered at h ⊢
  rw [hkept.refused]
  split
  next hok =>
    rw [if_pos hok] at h
    obtain ⟨hrefused, flight, hflight, hrequest, hsound⟩ := h
    refine ⟨hrefused, ?_⟩
    rcases hkept.flight with hsame | ⟨other, move, flight', hother, hstep, hflight'⟩
    · exact ⟨flight, hsame.trans hflight, hrequest, hsound⟩
    · have hsame : other = flight := Option.some.inj (hother.symm.trans hflight)
      subst hsame
      exact ⟨flight', hflight', (Flight.step_request hstep).trans hrequest, hsound.step hstep⟩
  next hbad =>
    rw [if_neg hbad] at h
    refine ⟨h.1, ?_⟩
    rcases hkept.flight with hsame | ⟨other, move, flight', hother, -, -⟩
    · exact hsame.trans h.2
    · rw [h.2] at hother
      cases hother

theorem Answered.later (h : Answered Flight.Sound storage id request)
    (hid : id < storage.nextId)
    (hreach : Reaches Storage.step (fun _ _ => True) storage storage') :
    Answered Flight.Sound storage' id request := by
  suffices hkeeps : id < storage'.nextId ∧ Answered Flight.Sound storage' id request from hkeeps.2
  induction hreach with
  | refl => exact ⟨hid, h⟩
  | next _ _ hnext ih =>
    obtain ⟨hlt, hold⟩ := ih
    exact ⟨Nat.lt_of_lt_of_le hlt (Storage.step_nextId hnext),
      hold.kept (Storage.step_kept hnext hlt)⟩

theorem read_answered (h : storage.Numbered) :
    ∃ storage', storage.step (.read request true) = some storage' ∧
      storage.nextId < storage'.nextId ∧
      Answered Flight.Sound storage' storage.nextId request := by
  have hnew : storage.flights.find? storage.nextId = none := h.flights _ (Nat.le_refl _)
  have hnone : storage.refused.filter (·.1 = storage.nextId) = [] := by
    apply filter_eq_nil_iff.2
    intro entry hentry
    have hlt := h.refused entry hentry
    simp only [decide_eq_true_eq]
    omega
  by_cases hok : (validateGather request).ok
  · refine ⟨_, by simp only [Storage.step, hok]; rfl, Nat.lt_succ_self _, ?_⟩
    rw [Answered, if_pos hok]
    exact ⟨hnone, Flight.start request, OrderedMap.find?_emplace_self hnew, rfl,
      Flight.start_sound request⟩
  · refine ⟨_, by simp only [Storage.step, hok]; rfl, Nat.lt_succ_self _, ?_⟩
    rw [Answered, if_neg hok]
    refine ⟨?_, hnew⟩
    simp [filter_append, hnone]

end

/-- Every call of `read` with a completion is answered, in every later state of
every run, and the lists `validate_gather` accepts are the partitions of the
destination by named, non-wrapping extents. -/
theorem gather_answers_every_read :
    (∀ storage, Reaches Storage.step (fun _ _ => True) {} storage → ∀ request,
      ∃ storage', storage.step (.read request true) = some storage' ∧
        ∀ later, Reaches Storage.step (fun _ _ => True) storage' later →
          Answered Flight.Guarantees later storage.nextId request) ∧
    ∀ request, (validateGather request).ok ↔
      (request.destination.data.isSome ∧ request.record.storedBytes ≠ 0 ∧
        request.record.storedBytes ≤ request.destination.capacity) ∧
      Partitions start size 0 request.record.storedBytes.toNat request.record.extents ∧
        ∀ extent ∈ request.record.extents, Readable extent := by
  refine ⟨fun storage hreach request => ?_, fun request => validateGather_ok_iff⟩
  obtain ⟨storage', hstep, hlt, hanswered⟩ :=
    @read_answered storage request (Storage.Numbered.of_reaches hreach)
  exact ⟨storage', hstep, fun later hlater =>
    (hanswered.later hlt hlater).mono fun _ hsound => hsound.guarantees⟩

def pairRequest : ReadRequest where
  record := { extents := [⟨"b", 0, 4, 2⟩, ⟨"a", 8, 0, 4⟩], storedBytes := 6 }
  destination := ⟨some 64, 6⟩

/-- The first child completes inside `read`, the second one after it. -/
def pairMoves : List Action :=
  [.move 1 .callRead, .move 1 (.complete 0 ⟨.success, 2, 2⟩), .move 1 (.recordChild 7),
    .move 1 .callRead, .move 1 (.recordChild 8), .move 1 .close,
    .move 1 (.complete 1 ⟨.success, 4, 4⟩), .move 1 .finishLock,
    .move 1 (.finishErase ⟨.success, 6, 6⟩), .move 1 (.finishCall ⟨.success, 6, 6⟩)]

def historyOf (storage : Option Storage) (id : Nat) : Option (List Moment) :=
  (storage.bind (·.flights.find? id)).map (·.history)

theorem pairRequest_answered : ∃ storage', Storage.step {} (.read pairRequest true) = some storage' ∧
    ∃ later, runActions Storage.step storage' pairMoves = some later ∧
      Answered Flight.Guarantees later 1 pairRequest := by
  obtain ⟨storage', hstep, hlater⟩ := gather_answers_every_read.1 {} .refl pairRequest
  refine ⟨storage', hstep, ?_⟩
  have hrun : ((Storage.step {} (.read pairRequest true)).bind fun storage =>
      runActions Storage.step storage pairMoves).isSome := by decide +kernel
  rw [hstep] at hrun
  obtain ⟨later, hdone⟩ := Option.isSome_iff_exists.1 hrun
  exact ⟨later, hdone, hlater later (.of_runActions hdone)⟩

def wholeRequest : ReadRequest where
  record := { extents := [⟨"a", 0, 0, 4⟩], storedBytes := 4 }
  destination := ⟨some 64, 4⟩

/-- A cancel lands between `finish` fixing the result and the completion. -/
def lateCancel : List Action :=
  [.read wholeRequest true, .move 1 .callRead, .move 1 (.recordChild 7), .move 1 .close,
    .move 1 (.complete 0 ⟨.success, 4, 4⟩), .move 1 .finishLock, .move 1 .cancelFound,
    .move 1 .cancelLock, .move 1 (.finishErase ⟨.success, 4, 4⟩),
    .move 1 (.finishCall ⟨.success, 4, 4⟩)]

def unnamedRequest : ReadRequest where
  record := { extents := [⟨"", 0, 0, 4⟩], storedBytes := 4 }
  destination := ⟨some 64, 4⟩

/-- A completion is ok although a cancel was recorded, and a partition of the
destination is refused because an extent names no source. -/
theorem late_cancel_and_unnamed_extent :
    historyOf (runActions Storage.step {} lateCancel) 1 =
      some [.completed 0 ⟨.success, 4, 4⟩, .decided ⟨.success, 4, 4⟩, .cancelled,
        .called ⟨.success, 4, 4⟩] ∧
    Partitions start size 0 unnamedRequest.record.storedBytes.toNat unnamedRequest.record.extents ∧
      (∀ extent ∈ unnamedRequest.record.extents,
        extent.sourceOffset.toNat + extent.bytes.toNat < 2 ^ 64) ∧
      (validateGather unnamedRequest).ok = false := by
  refine ⟨by decide +kernel, ?_, by decide, by decide +kernel⟩
  exact Tiles.partitions ⟨rfl, by decide, rfl⟩

end QuantumLlm.Runtime.Gather
