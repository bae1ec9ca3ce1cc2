import QuantumLlm.Runtime.Executor.Retention

/-!
# When a failed retention operation changes nothing

For each of the five operations, the exact condition on the provider answers and
on the session under which a reported failure leaves every provider's request
state and the session as they were.
-/

namespace QuantumLlm.Runtime.Executor

open List

/-- Parked or not, the position and the bound request context. -/
def ProviderSlot.view (slot : ProviderSlot) : UInt32 × Bool × UInt32 × ProgramRequestContext :=
  (slot.registryIndex, slot.state.parked, slot.state.position, slot.state.context)

inductive RetentionCall where
  | park (nextPosition : UInt32) (answers : UInt32 → ProviderAnswer RequestStateParkingResult)
  | restore (answers : UInt32 → ProviderAnswer RequestStateParkingResult)
  | rebind (now : Int) (replacement : ProgramRequestContext)
      (answers : UInt32 → ProviderAnswer Status)
  | checkpoint (nextPosition : UInt32) (answers : UInt32 → ProviderAnswer Status)
  | rewind (nextPosition : UInt32) (answers : UInt32 → ProviderAnswer Status)

namespace RetentionSession

/-- The status that is reported and the session afterwards. -/
def perform (session : RetentionSession) : RetentionCall → Option (Status × RetentionSession)
  | .park nextPosition answers =>
    let (result, after) := session.parkRetention nextPosition answers
    some (result.status, after)
  | .restore answers =>
    let (result, after) := session.restoreRetention answers
    some (result.status, after)
  | .rebind now replacement answers => session.rebind now replacement answers
  | .checkpoint nextPosition answers => some (session.checkpointRetention nextPosition answers)
  | .rewind nextPosition answers => some (session.rewindRetention nextPosition answers)

structure SameState (session after : RetentionSession) : Prop where
  parked : after.parked = session.parked
  parkedPosition : after.parkedPosition = session.parkedPosition
  parkedPages : after.parkedPages = session.parkedPages
  parkedBytes : after.parkedBytes = session.parkedBytes
  request : after.request = session.request
  providerStates : after.providerStates.map ProviderSlot.view =
    session.providerStates.map ProviderSlot.view

/-- A reported failure leaves everything as it was. -/
def AllOrNothing (session : RetentionSession) (call : RetentionCall) : Prop :=
  ∀ status after, session.perform call = some (status, after) → status.ok = false →
    SameState session after

/-- The operation gets as far as the providers. -/
def idle (session : RetentionSession) : Bool := !session.closed && !session.active

/-- What has to hold of the providers called before the one whose call fails: a
park or restore that is undone finds them in the state the undo leads to, and a
failure that nothing undoes finds them where the call leads to. -/
def FailsCleanly (session : RetentionSession) : RetentionCall → Prop
  | .park _ answers => session.idle = true → session.parked = false →
      ∀ before slot after,
        (∀ message, Stops (parkCall answers) (0, 0) session.providerStates before slot after
          (.threw message) → ∀ earlier ∈ before, earlier.state.parked = true) ∧
        (∀ result, Stops (parkCall answers) (0, 0) session.providerStates before slot after
          (.failed result) → ∀ earlier ∈ before, earlier.state.parked = false) ∧
        ∀ result, Stops (parkCall answers) (0, 0) session.providerStates before slot after
          (.spoiled result) → ∀ earlier ∈ before ++ [slot], earlier.state.parked = false
  | .restore answers => session.idle = true → session.parked = true →
      ∀ before slot after,
        (∀ message, Stops (restoreCall answers) () session.providerStates before slot after
          (.threw message) → ∀ earlier ∈ before, earlier.state.parked = false) ∧
        ∀ result, Stops (restoreCall answers) () session.providerStates before slot after
          (.failed result) → ∀ earlier ∈ before, earlier.state.parked = true
  | .rebind now replacement answers =>
    session.idle = true → replacement.requestId ≠ 0 → now ≤ replacement.deadline →
    ∀ before slot after status,
      Stops (statusCall "" answers) () session.providerStates before slot after
        (.failed status) →
      ∀ earlier ∈ before, earlier.state.context = session.merged replacement
  | .checkpoint _ _ => True
  | .rewind nextPosition answers => session.idle = true →
      ∀ before slot after,
        (∀ message, Stops (statusCall "retention rewind failed" answers) () session.providerStates
          before slot after (.threw message) →
            ∀ earlier ∈ before, earlier.state.position = nextPosition) ∧
        ∀ status, Stops (statusCall "retention rewind failed" answers) () session.providerStates
          before slot after (.failed status) →
            ∀ earlier ∈ before, earlier.state.position = nextPosition

end RetentionSession

variable {answers : UInt32 → ProviderAnswer RequestStateParkingResult} {slot : ProviderSlot}

theorem parkCall_failed {total : UInt64 × UInt64} {result : RequestStateParkingResult}
    (h : parkCall answers total slot = .failed result ∨
      parkCall answers total slot = .spoiled result) : result.status.ok = false := by
  unfold parkCall at h
  split at h
  next => rcases h with h | h <;> cases h; rfl
  next =>
    split at h
    next => rcases h with h | h <;> cases h
    next =>
      split at h
      next hfailed =>
        rcases h with h | h <;> cases h
        simpa using hfailed
      next =>
        split at h
        next => rcases h with h | h <;> cases h; rfl
        next => rcases h with h | h <;> cases h

theorem restoreCall_cases :
    (∀ result, restoreCall answers () slot ≠ .spoiled result) ∧
      ∀ result, restoreCall answers () slot = .failed result → result.status.ok = false := by
  unfold restoreCall
  split
  next => exact ⟨nofun, nofun⟩
  next result _ =>
    split
    next => exact ⟨nofun, nofun⟩
    next hfailed =>
      refine ⟨nofun, ?_⟩
      rintro result' ⟨⟩
      simpa using hfailed

theorem statusCall_cases {operation : String} {answers : UInt32 → ProviderAnswer Status} :
    (∀ status, statusCall operation answers () slot ≠ .spoiled status) ∧
      ∀ status, statusCall operation answers () slot = .failed status → status.ok = false := by
  unfold statusCall
  split
  next => exact ⟨nofun, nofun⟩
  next status _ =>
    split
    next => exact ⟨nofun, nofun⟩
    next hfailed =>
      refine ⟨nofun, ?_⟩
      rintro status' ⟨⟩
      simpa using hfailed

namespace RetentionSession

variable {session : RetentionSession} {providers : List ProviderSlot} {status : Status}

theorem sameState_refl : SameState session session := ⟨rfl, rfl, rfl, rfl, rfl, rfl⟩

variable {call : RetentionCall}

/-- A failure that leaves the providers `done` with `effect` is judged by their states. -/
theorem allOrNothing_iff_same {effect : ProviderRequestState → ProviderRequestState}
    {done rest : List ProviderSlot} (hproviders : session.providerStates = done ++ rest)
    (h : session.perform call = some (status,
      session.withProviders (done.map (.withState effect) ++ rest)))
    (hstatus : status.ok = false) : AllOrNothing session call ↔
      ∀ earlier ∈ done, earlier.state.parked = (effect earlier.state).parked ∧
        earlier.state.position = (effect earlier.state).position ∧
        earlier.state.context = (effect earlier.state).context := by
  have hviews : AllOrNothing session call ↔ (done.map (ProviderSlot.withState effect) ++ rest).map
      ProviderSlot.view = session.providerStates.map ProviderSlot.view := by
    constructor
    · exact fun hall => (hall status _ h hstatus).providerStates
    · intro hsame status' after h' _
      rw [h] at h'
      cases h'
      exact ⟨rfl, rfl, rfl, rfl, rfl, hsame⟩
  rw [hviews, hproviders, map_append, map_append, append_left_inj, map_map, map_inj_left]
  refine forall₂_congr fun earlier _ => ?_
  rw [Function.comp_apply, eq_comm]
  simp only [ProviderSlot.view, ProviderSlot.withState, Prod.mk.injEq, true_and]

theorem allOrNothing_of_unchanged
    (h : ∃ status, session.perform call = some (status, session)) : AllOrNothing session call := by
  obtain ⟨status, h⟩ := h
  intro status' after h' _
  rw [h] at h'
  cases h'
  exact sameState_refl

theorem idle_iff : session.idle = true ↔ session.closed = false ∧ session.active = false := by
  simp [idle]

theorem perform_of_not_idle (call : RetentionCall) (h : ¬ session.idle = true) :
    ∃ status, session.perform call = some (status, session) := by
  have hbusy : session.closed = true ∨ session.closed = false ∧ session.active = true := by
    rw [idle_iff] at h
    cases hclosed : session.closed <;> cases hactive : session.active <;> simp_all
  rcases hbusy with hclosed | ⟨hclosed, hactive⟩
  · cases call with
    | park | restore | checkpoint | rewind =>
      simp only [perform, parkRetention, restoreRetention, checkpointRetention, rewindRetention,
        controlRetention, hclosed, if_true]
      exact ⟨_, rfl⟩
    | rebind now replacement answers =>
      simp only [perform, rebind, hclosed, if_true]
      split <;> exact ⟨_, rfl⟩
  · cases call with
    | park | restore | checkpoint | rewind =>
      simp only [perform, parkRetention, restoreRetention, checkpointRetention, rewindRetention,
        controlRetention, hclosed, hactive, Bool.false_eq_true, if_false, if_true]
      exact ⟨_, rfl⟩
    | rebind now replacement answers =>
      simp only [perform, rebind, hclosed, hactive, Bool.false_eq_true, if_false, if_true]
      split <;> exact ⟨_, rfl⟩

section

variable {nextPosition : UInt32} {answers : UInt32 → ProviderAnswer RequestStateParkingResult}
  {before after : List ProviderSlot} {slot : ProviderSlot} {message : String}
  {result : RequestStateParkingResult}

/-- Where the loop stops decides which providers have to be in which state. -/
theorem park_stops {ending : ParkingEnd} (hidle : session.idle = true)
    (hparked : session.parked = false)
    (h : Stops (parkCall answers) (0, 0) session.providerStates before slot after ending) :
    AllOrNothing session (.park nextPosition answers) ↔
      match ending with
      | .next _ => AllOrNothing session (.park nextPosition answers)
      | .threw _ => ∀ earlier ∈ before, earlier.state.parked = true
      | .failed _ => ∀ earlier ∈ before, earlier.state.parked = false
      | .spoiled _ => ∀ earlier ∈ before ++ [slot], earlier.state.parked = false := by
  obtain ⟨hclosed, hactive⟩ := idle_iff.1 hidle
  obtain ⟨reached, -, hcall⟩ := h.2
  cases ending with
  | next reached => exact Iff.rfl
  | threw message =>
    have hperform : session.perform (.park nextPosition answers) = some (⟨.internal, message⟩,
        session.withProviders (before.map (.withState parkState) ++ slot :: after)) := by
      simp only [perform, parkRetention, hclosed, hactive, hparked, runPass_threw h,
        Bool.false_eq_true, if_false]
    simpa [parkState] using allOrNothing_iff_same h.1 hperform rfl
  | failed result =>
    have hperform : session.perform (.park nextPosition answers) = some (result.status,
        session.withProviders (before.map (.withState (restoreState ∘ parkState)) ++
          slot :: after)) := by
      simp only [perform, parkRetention, hclosed, hactive, hparked, runPass_failed h,
        Bool.false_eq_true, if_false, map_map]
      rfl
    simpa [restoreState, parkState] using
      allOrNothing_iff_same h.1 hperform (parkCall_failed (.inl hcall))
  | spoiled result =>
    have hperform : session.perform (.park nextPosition answers) = some (result.status,
        session.withProviders ((before ++ [slot]).map (.withState (restoreState ∘ parkState)) ++
          after)) := by
      simp only [perform, parkRetention, hclosed, hactive, hparked, runPass_spoiled h,
        Bool.false_eq_true, if_false, map_append, map_map]
      rfl
    have hentries : session.providerStates = (before ++ [slot]) ++ after := by
      rw [h.1, append_assoc, singleton_append]
    simpa [restoreState, parkState] using
      allOrNothing_iff_same hentries hperform (parkCall_failed (.inr hcall))

theorem park_completed {reached : UInt64 × UInt64} (hidle : session.idle = true)
    (hparked : session.parked = false)
    (h : runPass (parkCall answers) (.withState parkState) (0, 0) session.providerStates =
      ⟨session.providerStates.map (.withState parkState), [], .completed reached⟩) :
    AllOrNothing session (.park nextPosition answers) := by
  obtain ⟨hclosed, hactive⟩ := idle_iff.1 hidle
  intro status after hperform hstatus
  simp only [perform, parkRetention, hclosed, hactive, hparked, h, Bool.false_eq_true, if_false,
    Option.some.injEq, Prod.mk.injEq] at hperform
  rw [← hperform.1] at hstatus
  cases hstatus

theorem park_allOrNothing : AllOrNothing session (.park nextPosition answers) ↔
    FailsCleanly session (.park nextPosition answers) := by
  by_cases hidle : session.idle = true
  case neg =>
    exact iff_of_true (allOrNothing_of_unchanged (perform_of_not_idle _ hidle))
      fun h => absurd h hidle
  cases hparked : session.parked with
  | true =>
    refine iff_of_true (allOrNothing_of_unchanged ?_) fun _ h => by rw [hparked] at h; cases h
    obtain ⟨hclosed, hactive⟩ := idle_iff.1 hidle
    simp only [perform, parkRetention, hclosed, hactive, hparked, if_true, Bool.false_eq_true,
      if_false]
    exact ⟨_, rfl⟩
  | false =>
    constructor
    · intro hall _ _ before slot after
      exact ⟨fun message h => (park_stops hidle hparked h).1 hall,
        fun result h => (park_stops hidle hparked h).1 hall,
        fun result h => (park_stops hidle hparked h).1 hall⟩
    · intro hclean
      rcases runPass_cases (parkCall answers) (.withState parkState) (0, 0)
        session.providerStates with ⟨reached, -, hrun⟩ | ⟨before, slot, after, ending, hstops, hend⟩
      · exact park_completed hidle hparked hrun
      · obtain ⟨hthrew, hfailed, hspoiled⟩ := hclean hidle hparked before slot after
        rw [park_stops hidle hparked hstops]
        cases ending with
        | next reached => exact absurd rfl (hend reached)
        | failed result => exact hfailed result hstops
        | spoiled result => exact hspoiled result hstops
        | threw message => exact hthrew message hstops

end

section

variable {answers : UInt32 → ProviderAnswer RequestStateParkingResult}
  {before after : List ProviderSlot} {slot : ProviderSlot} {message : String}
  {result : RequestStateParkingResult} (hidle : session.idle = true)
  (hparked : session.parked = true)

section

include hidle hparked

theorem restore_stops {ending : CallEnd Unit RequestStateParkingResult}
    (h : Stops (restoreCall answers) () session.providerStates before slot after ending) :
    AllOrNothing session (.restore answers) ↔
      match ending with
      | .next _ => AllOrNothing session (.restore answers)
      | .threw _ => ∀ earlier ∈ before, earlier.state.parked = false
      | .failed _ => ∀ earlier ∈ before, earlier.state.parked = true
      | .spoiled _ => False := by
  obtain ⟨hclosed, hactive⟩ := idle_iff.1 hidle
  obtain ⟨reached, -, hcall⟩ := h.2
  cases ending with
  | next reached => exact Iff.rfl
  | threw message =>
    have hperform : session.perform (.restore answers) = some (⟨.internal, message⟩,
        session.withProviders (before.map (.withState restoreState) ++ slot :: after)) := by
      simp only [perform, restoreRetention, hclosed, hactive, hparked, runPass_threw h,
        Bool.false_eq_true, if_false, not_true_eq_false]
    simpa [restoreState] using allOrNothing_iff_same h.1 hperform rfl
  | failed result =>
    have hperform : session.perform (.restore answers) = some (result.status,
        session.withProviders (before.map (.withState (parkState ∘ restoreState)) ++
          slot :: after)) := by
      simp only [perform, restoreRetention, hclosed, hactive, hparked, runPass_failed h,
        Bool.false_eq_true, if_false, not_true_eq_false, map_map]
      rfl
    simpa [restoreState, parkState] using
      allOrNothing_iff_same h.1 hperform (restoreCall_cases.2 result hcall)
  | spoiled result => exact absurd hcall (restoreCall_cases.1 result)

theorem restore_completed
    (h : runPass (restoreCall answers) (.withState restoreState) () session.providerStates =
      ⟨session.providerStates.map (.withState restoreState), [], .completed ()⟩) :
    AllOrNothing session (.restore answers) := by
  obtain ⟨hclosed, hactive⟩ := idle_iff.1 hidle
  intro status after hperform hstatus
  simp only [perform, restoreRetention, hclosed, hactive, hparked, h, Bool.false_eq_true, if_false,
    not_true_eq_false, Option.some.injEq, Prod.mk.injEq] at hperform
  rw [← hperform.1] at hstatus
  cases hstatus

end

theorem restore_allOrNothing : AllOrNothing session (.restore answers) ↔
    FailsCleanly session (.restore answers) := by
  by_cases hidle : session.idle = true
  case neg =>
    exact iff_of_true (allOrNothing_of_unchanged (perform_of_not_idle _ hidle))
      fun h => absurd h hidle
  cases hparked : session.parked with
  | false =>
    refine iff_of_true (allOrNothing_of_unchanged ?_) fun _ h => by rw [hparked] at h; cases h
    obtain ⟨hclosed, hactive⟩ := idle_iff.1 hidle
    simp only [perform, restoreRetention, hclosed, hactive, hparked, if_true, Bool.false_eq_true,
      if_false, not_false_eq_true]
    exact ⟨_, rfl⟩
  | true =>
    constructor
    · intro hall _ _ before slot after
      exact ⟨fun message h => (restore_stops hidle hparked h).1 hall,
        fun result h => (restore_stops hidle hparked h).1 hall⟩
    · intro hclean
      rcases runPass_cases (restoreCall answers) (.withState restoreState) ()
        session.providerStates with ⟨reached, -, hrun⟩ | ⟨before, slot, after, ending, hstops, hend⟩
      · exact restore_completed hidle hparked hrun
      · obtain ⟨hthrew, hfailed⟩ := hclean hidle hparked before slot after
        have hstop := restore_stops hidle hparked hstops
        cases ending with
        | next reached => exact absurd rfl (hend reached)
        | failed result => exact hstop.2 (hfailed result hstops)
        | spoiled result =>
          obtain ⟨reached, -, hcall⟩ := hstops.2
          exact absurd hcall (restoreCall_cases.1 result)
        | threw message => exact hstop.2 (hthrew message hstops)

end

section

variable {operation : String} {effect : ProviderRequestState → ProviderRequestState}
  {answers : UInt32 → ProviderAnswer Status} {before after : List ProviderSlot}
  {slot : ProviderSlot}

/-- Nothing undoes a checkpoint or a rewind: where the loop stops, the providers
before keep what was done to them. -/
theorem controlRetention_stops {ending : CallEnd Unit Status} (hidle : session.idle = true)
    (h : Stops (statusCall operation answers) () session.providerStates before slot after ending)
    (hend : ending ≠ .next ()) :
    ∃ status, status.ok = false ∧ controlRetention operation effect session answers =
      (status, session.withProviders (before.map (.withState effect) ++ slot :: after)) := by
  obtain ⟨hclosed, hactive⟩ := idle_iff.1 hidle
  obtain ⟨reached, -, hcall⟩ := h.2
  cases ending with
  | next => exact absurd rfl hend
  | failed status =>
    refine ⟨status, statusCall_cases.2 status hcall, ?_⟩
    simp only [controlRetention, hclosed, hactive, runPass_failed h, Bool.false_eq_true, if_false]
  | spoiled status => exact absurd hcall (statusCall_cases.1 status)
  | threw message =>
    refine ⟨⟨.internal, message⟩, rfl, ?_⟩
    simp only [controlRetention, hclosed, hactive, runPass_threw h, Bool.false_eq_true, if_false]

theorem controlRetention_cases (hidle : session.idle = true) :
    (controlRetention operation effect session answers).1.ok = true ∨
      ∃ before slot after ending,
        Stops (statusCall operation answers) () session.providerStates before slot after ending ∧
        ending ≠ .next () := by
  obtain ⟨hclosed, hactive⟩ := idle_iff.1 hidle
  rcases runPass_cases (statusCall operation answers) (.withState effect) ()
    session.providerStates with ⟨reached, -, hrun⟩ | ⟨before, slot, after, ending, hstops, hend⟩
  · refine .inl ?_
    simp only [controlRetention, hclosed, hactive, hrun, Bool.false_eq_true, if_false]
    rfl
  · exact .inr ⟨before, slot, after, ending, hstops, hend ()⟩

variable {nextPosition : UInt32}

theorem rewind_allOrNothing :
    AllOrNothing session (.rewind nextPosition answers) ↔
      FailsCleanly session (.rewind nextPosition answers) := by
  by_cases hidle : session.idle = true
  case neg =>
    exact iff_of_true (allOrNothing_of_unchanged (perform_of_not_idle _ hidle))
      fun h => absurd h hidle
  have hstop : ∀ {before slot after ending}, Stops (statusCall "retention rewind failed" answers) ()
      session.providerStates before slot after ending → ending ≠ .next () →
      (AllOrNothing session (.rewind nextPosition answers) ↔
        ∀ earlier ∈ before, earlier.state.position = nextPosition) := by
    intro before slot after ending h hend
    obtain ⟨status, hstatus, hrun⟩ :=
      @controlRetention_stops session "retention rewind failed" (rewindState nextPosition) answers
        before after slot ending hidle h hend
    have hperform : session.perform (.rewind nextPosition answers) = some (status, _) :=
      congrArg some hrun
    simpa [rewindState] using allOrNothing_iff_same h.1 hperform hstatus
  constructor
  · intro hall _ before slot after
    exact ⟨fun message h => (hstop h nofun).1 hall, fun status h => (hstop h nofun).1 hall⟩
  · intro hclean
    rcases @controlRetention_cases session "retention rewind failed" (rewindState nextPosition)
      answers hidle with hok | ⟨before, slot, after, ending, h, hend⟩
    · intro status after hperform hstatus
      have hsame : controlRetention "retention rewind failed" (rewindState nextPosition) session
        answers = (status, after) := Option.some.inj hperform
      rw [hsame, hstatus] at hok
      cases hok
    · obtain ⟨hthrew, hfailed⟩ := hclean hidle before slot after
      apply (hstop h hend).2
      cases ending with
      | next => exact absurd rfl hend
      | failed status => exact hfailed status h
      | spoiled status =>
        obtain ⟨reached, -, hcall⟩ := h.2
        exact absurd hcall (statusCall_cases.1 status)
      | threw message => exact hthrew message h

theorem checkpoint_allOrNothing :
    AllOrNothing session (.checkpoint nextPosition answers) := by
  by_cases hidle : session.idle = true
  case neg => exact allOrNothing_of_unchanged (perform_of_not_idle _ hidle)
  rcases @controlRetention_cases session "retention checkpoint failed"
    (checkpointState nextPosition) answers hidle with hok | ⟨before, slot, after, ending, h, hend⟩
  · intro status after hperform hstatus
    have hsame : controlRetention "retention checkpoint failed" (checkpointState nextPosition)
      session answers = (status, after) := Option.some.inj hperform
    rw [hsame, hstatus] at hok
    cases hok
  · obtain ⟨status, hstatus, hrun⟩ :=
      @controlRetention_stops session "retention checkpoint failed" (checkpointState nextPosition)
        answers before after slot ending hidle h hend
    have hperform : session.perform (.checkpoint nextPosition answers) = some (status, _) :=
      congrArg some hrun
    exact (allOrNothing_iff_same h.1 hperform hstatus).2 fun earlier _ => ⟨rfl, rfl, rfl⟩

end

section

variable {now : Int} {replacement : ProgramRequestContext}
  {answers : UInt32 → ProviderAnswer Status} {before after : List ProviderSlot}
  {slot : ProviderSlot}

theorem rebind_failed (hidle : session.idle = true) (hid : replacement.requestId ≠ 0)
    (hdeadline : now ≤ replacement.deadline)
    (h : Stops (statusCall "" answers) () session.providerStates before slot after
      (.failed status)) : AllOrNothing session (.rebind now replacement answers) ↔
      ∀ earlier ∈ before, earlier.state.context = session.merged replacement := by
  obtain ⟨hclosed, hactive⟩ := idle_iff.1 hidle
  obtain ⟨reached, -, hcall⟩ := h.2
  have hvalid : ¬ (replacement.requestId = 0 ∨ now > replacement.deadline) := by
    rintro (hzero | hlate)
    · exact hid hzero
    · omega
  have hperform : session.perform (.rebind now replacement answers) = some (status,
      session.withProviders (before.map (.withState (rebindState (session.merged replacement))) ++
        slot :: after)) := by
    simp only [perform, rebind, hclosed, hactive, if_neg hvalid, runPass_failed h,
      Bool.false_eq_true, if_false]
  simpa [rebindState] using
    allOrNothing_iff_same h.1 hperform (statusCall_cases.2 status hcall)

theorem rebind_allOrNothing : AllOrNothing session (.rebind now replacement answers) ↔
    FailsCleanly session (.rebind now replacement answers) := by
  by_cases hidle : session.idle = true
  case neg =>
    exact iff_of_true (allOrNothing_of_unchanged (perform_of_not_idle _ hidle))
      fun h => absurd h hidle
  obtain ⟨hclosed, hactive⟩ := idle_iff.1 hidle
  by_cases hvalid : replacement.requestId = 0 ∨ now > replacement.deadline
  · refine iff_of_true (allOrNothing_of_unchanged ?_) fun _ hid hdeadline => ?_
    · simp only [perform, rebind, if_pos hvalid]
      exact ⟨_, rfl⟩
    · rcases hvalid with hzero | hlate
      · exact absurd hzero hid
      · omega
  rw [not_or, gt_iff_lt, not_lt] at hvalid
  constructor
  · exact fun hall _ _ _ before slot after status h =>
      (rebind_failed hidle hvalid.1 hvalid.2 h).1 hall
  · intro hclean
    rcases runPass_cases (statusCall "" answers)
      (.withState (rebindState (session.merged replacement))) () session.providerStates with
      ⟨reached, -, hrun⟩ | ⟨before, slot, after, ending, hstops, hend⟩
    · intro status after hperform hstatus
      simp only [perform, rebind, hclosed, hactive, hrun, Bool.false_eq_true, if_false] at hperform
      split at hperform
      next hbad => exact absurd hbad (by rw [not_or, gt_iff_lt, not_lt]; exact hvalid)
      next =>
        cases hperform
        cases hstatus
    · cases ending with
      | next reached => exact absurd rfl (hend reached)
      | failed status =>
        exact (rebind_failed hidle hvalid.1 hvalid.2 hstops).2
          (hclean hidle hvalid.1 hvalid.2 before slot after status hstops)
      | spoiled status =>
        obtain ⟨reached, -, hcall⟩ := hstops.2
        exact absurd hcall (statusCall_cases.1 status)
      | threw message =>
        -- the process ends, nothing is reported
        intro status after hperform hstatus
        simp only [perform, rebind, hclosed, hactive, runPass_threw hstops, Bool.false_eq_true,
          if_false] at hperform
        split at hperform
        next hbad => exact absurd hbad (by rw [not_or, gt_iff_lt, not_lt]; exact hvalid)
        next => cases hperform

end

/-- A reported failure changes nothing exactly when the operation fails cleanly. -/
theorem allOrNothing_iff_failsCleanly (session : RetentionSession) (call : RetentionCall) :
    AllOrNothing session call ↔ FailsCleanly session call := by
  cases call with
  | park nextPosition answers => exact park_allOrNothing
  | restore answers => exact restore_allOrNothing
  | rebind now replacement answers => exact rebind_allOrNothing
  | checkpoint nextPosition answers => exact iff_of_true checkpoint_allOrNothing trivial
  | rewind nextPosition answers => exact rewind_allOrNothing

/-- Two providers of an idle session at position 7. -/
def twoProviders : RetentionSession where
  request := { requestId := 1 }
  providerStates :=
    [{ registryIndex := 0, state := { position := 7, context := { requestId := 1 } } },
     { registryIndex := 1, state := { position := 7, context := { requestId := 1 } } }]

/-- The second provider refuses. -/
def secondRefuses : UInt32 → ProviderAnswer Status := fun index =>
  .returned (if index = 0 then .success else ⟨.ioFailed, "provider failed"⟩)

/-- The second provider throws. -/
def secondThrows : UInt32 → ProviderAnswer RequestStateParkingResult := fun index =>
  if index = 0 then .returned ⟨.success, 1, 4096⟩ else .threw (some "provider failed")

theorem second_provider_fails :
    ¬ AllOrNothing twoProviders (.rebind 0 { requestId := 2 } secondRefuses) ∧
    ¬ AllOrNothing twoProviders (.rewind 3 secondRefuses) ∧
    ¬ AllOrNothing twoProviders (.park 7 secondThrows) := by
  refine ⟨fun h => ?_, fun h => ?_, fun h => ?_⟩
  · have hsame := (h _ _ rfl (by decide)).providerStates
    have hid := congrArg (fun views => views.map fun view => view.2.2.2.requestId) hsame
    revert hid
    decide
  · have hsame := (h _ _ rfl (by decide)).providerStates
    have hposition := congrArg (fun views => views.map fun view => view.2.2.1) hsame
    revert hposition
    decide
  · have hsame := (h _ _ rfl (by decide)).providerStates
    have hparked := congrArg (fun views => views.map fun view => view.2.1) hsame
    revert hparked
    decide

end RetentionSession

end QuantumLlm.Runtime.Executor
