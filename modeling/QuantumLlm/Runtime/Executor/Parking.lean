import QuantumLlm.Lib.History
import QuantumLlm.Runtime.Executor.Lifecycle

/-!
# Parked sessions

The calls that read or change the provider states of a session, against the times
it was parked. Six entry points look at `closed` and `active` only.
-/

namespace QuantumLlm.Runtime.Executor

open List

/-- Parked after these events, a park or a loaded snapshot being the last of its kind. -/
def parkedAfter (history : List SessionEvent) : Bool :=
  history.foldl (fun parked event =>
    match event with
    | .parked => true
    | .restored => false
    | _ => parked) false

@[simp] theorem parkedAfter_snoc (history : List SessionEvent) (event : SessionEvent) :
    parkedAfter (history ++ [event]) =
      match event with
      | .parked => true
      | .restored => false
      | _ => parkedAfter history := by
  cases event <;> simp [parkedAfter]

/-- No call while parked, and only parked states are saved. -/
def FrozenAt (before : List SessionEvent) : SessionEvent → Prop
  | .call _ => parkedAfter before = false
  | .parked => parkedAfter before = false
  | .restored | .saved => parkedAfter before = true

def Frozen (history : List SessionEvent) : Prop := Chronicle FrozenAt history

theorem Frozen.since_park {history : List SessionEvent} (h : Frozen history)
    (hparked : parkedAfter history = true) :
    ∃ before since, history = before ++ .parked :: since ∧ ∀ event ∈ since, event = .saved := by
  induction history using List.reverseRecOn with
  | nil => cases hparked
  | append_singleton history event ih =>
    have hevent : FrozenAt history event := h history event [] rfl
    have hbefore : Frozen history := by
      intro before other after hsplit
      exact h before other (after ++ [event]) (by rw [hsplit]; simp)
    cases event with
    | call call =>
      rw [parkedAfter_snoc] at hparked
      exact absurd (hparked.symm.trans hevent) (by simp)
    | parked => exact ⟨history, [], rfl, by simp⟩
    | restored => cases (parkedAfter_snoc history .restored).symm.trans hparked
    | saved =>
      obtain ⟨before, since, rfl, hsaves⟩ := ih hbefore hevent
      refine ⟨before, since ++ [.saved], by simp, ?_⟩
      intro event hmem
      rcases mem_append.1 hmem with hold | hnew
      · exact hsaves event hold
      · exact mem_singleton.1 hnew

namespace SessionState

variable {session session' : SessionState} {program : SessionProgram} {action : SessionAction}

/-- The entry points that work on the provider states. -/
def Enters : SessionAction → Prop
  | .start _ _ | .reserveSequence _ | .reserveExact _ | .reserveSynchronize _ |
    .checkpointRetention _ | .rewindRetention _ => True
  | _ => False

/-- None of them is called on an open session that is parked. -/
def EntersUnparked (session : SessionState) (action : SessionAction) : Prop :=
  Enters action → session.closed = false → session.parked = false

/-- What keeps the calls apart from the parked times. -/
structure Apart (session : SessionState) : Prop where
  flag : session.parked = parkedAfter session.history
  steps : ∀ (index : Nat) (step : ExecutionStep), session.steps[index]? = some step →
    step.running = true ∨ step.unissued = true → session.parked = false
  synchronizing : session.synchronizing = true → session.parked = false
  frozen : Frozen session.history

theorem apart_begun (program : SessionProgram) (loaded : Bool) : Apart (begun program loaded) where
  flag := by cases loaded <;> rfl
  steps := by
    intro index step hstep
    simp [begun] at hstep
  synchronizing := by simp [begun]
  frozen := by
    cases loaded with
    | false => exact Chronicle.nil
    | true => exact Chronicle.nil.snoc rfl

theorem parkedAfter_calls {history : List SessionEvent} (calls : List ProviderCall) :
    parkedAfter (history ++ calls.map .call) = parkedAfter history := by
  induction calls using List.reverseRecOn with
  | nil => simp
  | append_singleton calls call ih =>
    rw [map_append, map_singleton, ← append_assoc, parkedAfter_snoc, ih]

theorem Frozen.calls {history : List SessionEvent} (h : Frozen history)
    (hunparked : parkedAfter history = false) (calls : List ProviderCall) :
    Frozen (history ++ calls.map .call) := by
  induction calls using List.reverseRecOn with
  | nil => simpa using h
  | append_singleton calls call ih =>
    rw [map_append, map_singleton, ← append_assoc]
    exact Chronicle.snoc ih ((parkedAfter_calls calls).trans hunparked)

theorem Apart.called (h : Apart session) (hunparked : session.parked = false)
    (calls : List ProviderCall) : Apart (session.record (calls.map .call)) where
  flag := h.flag.trans (parkedAfter_calls calls).symm
  steps := h.steps
  synchronizing := h.synchronizing
  frozen := Frozen.calls h.frozen (h.flag.symm.trans hunparked) calls

theorem Apart.transfer (h : Apart session) (hparked : session'.parked = session.parked)
    (hhistory : session'.history = session.history)
    (hsteps : ∀ (index : Nat) (step : ExecutionStep), session'.steps[index]? = some step →
      step.running = true ∨ step.unissued = true →
      session.parked = false ∨ ∃ before, session.steps[index]? = some before ∧
        (before.running = true ∨ before.unissued = true))
    (hsync : session'.synchronizing = true →
      session.parked = false ∨ session.synchronizing = true) : Apart session' where
  flag := by rw [hparked, hhistory, h.flag]
  steps := by
    intro index step hstep hmay
    rw [hparked]
    rcases hsteps index step hstep hmay with hunparked | ⟨before, hbefore, hmayBefore⟩
    · exact hunparked
    · exact h.steps index before hbefore hmayBefore
  synchronizing := by
    intro hset
    rw [hparked]
    rcases hsync hset with hunparked | hbefore
    · exact hunparked
    · exact h.synchronizing hbefore
  frozen := hhistory ▸ h.frozen

theorem Sound.idle_none (h : Sound session) (hidle : session.idle = true) :
    (∀ (index : Nat) (step : ExecutionStep), session.steps[index]? = some step →
      ¬ (step.running = true ∨ step.unissued = true)) ∧ session.synchronizing = false := by
  obtain ⟨hopen, hinactive⟩ : session.closed = false ∧ session.active = false := by
    simpa [idle] using hidle
  constructor
  · rintro index step hstep (hrunning | hunissued)
    · exact absurd ((h.stopped hinactive index step hstep).symm.trans hrunning) Bool.false_ne_true
    · have hlive : step.alive = true := by
        simp only [ExecutionStep.unissued, Bool.and_eq_true] at hunissued
        exact hunissued.1
      cases hterminal : step.terminal with
      | true =>
        have hclosed := (h.steps index step hstep).cancelled hunissued hterminal
        exact absurd (hopen.symm.trans hclosed) Bool.false_ne_true
      | false =>
        have hrunning := running_iff.2 ⟨hlive, hterminal⟩
        exact absurd ((h.stopped hinactive index step hstep).symm.trans hrunning)
          Bool.false_ne_true
  · by_contra hsync
    have hstate := (h.synchronizing (by simpa using hsync)).1
    simp [hopen, hinactive] at hstate

theorem Apart.setStep {index : Nat} {step step' : ExecutionStep} (h : Apart session)
    (hstep : session.steps[index]? = some step)
    (hmay : step'.running = true ∨ step'.unissued = true →
      step.running = true ∨ step.unissued = true) : Apart (session.setStep index step') := by
  refine h.transfer rfl rfl ?_ .inr
  intro other found hfound hfoundMay
  rcases getElem?_set_cases hfound with ⟨rfl, rfl⟩ | ⟨-, hfound⟩
  · exact .inr ⟨step, hstep, hmay hfoundMay⟩
  · exact .inr ⟨found, hfound, hfoundMay⟩

theorem Apart.ended {index : Nat} {step step' : ExecutionStep} {success : Bool} (h : Apart session)
    (hstep : session.steps[index]? = some step) (hrunning : step.running = true) :
    Apart (session.ended index step' success) := by
  refine h.transfer rfl rfl ?_ .inr
  exact fun _ _ _ _ => .inl (h.steps index step hstep (.inl hrunning))

theorem Effect.apart (h : Apart session) (hsound : Sound session)
    (hunparked : EntersUnparked session action) (heffect : Effect session action session') :
    Apart session' := by
  have hopen : session.idle = true → session.closed = false := by
    intro hidle
    have hboth : session.closed = false ∧ session.active = false := by simpa [idle] using hidle
    exact hboth.1
  cases heffect with
  | refused => exact h
  | transaction => exact h.transfer rfl rfl (fun _ step hstep hmay => .inr ⟨step, hstep, hmay⟩) .inr
  | parked hidle hflag =>
    obtain ⟨hnone, hsync⟩ := hsound.idle_none hidle
    constructor
    case flag => exact (parkedAfter_snoc session.history .parked).symm
    case steps => exact fun index step hstep hmay => absurd hmay (hnone index step hstep)
    case synchronizing => exact fun hset => absurd (hsync.symm.trans hset) Bool.false_ne_true
    case frozen => exact Chronicle.snoc h.frozen (h.flag.symm.trans hflag)
  | restored hidle hflag =>
    constructor
    case flag => exact (parkedAfter_snoc session.history .restored).symm
    case steps => exact fun _ _ _ _ => rfl
    case synchronizing => exact fun _ => rfl
    case frozen => exact Chronicle.snoc h.frozen (h.flag.symm.trans hflag)
  | saved hidle hflag =>
    constructor
    case flag => exact h.flag.trans (parkedAfter_snoc session.history .saved).symm
    case steps => exact h.steps
    case synchronizing => exact h.synchronizing
    case frozen => exact Chronicle.snoc h.frozen (h.flag.symm.trans hflag)
  | checkpointed calls hidle =>
    rw [← map_replicate]
    exact h.called (hunparked trivial (hopen hidle)) _
  | rewound calls hidle =>
    rw [← map_replicate]
    exact h.called (hunparked trivial (hopen hidle)) _
  | @started action step hidle hstarts hfresh =>
    have henters : Enters action := by
      cases action <;> first | exact hstarts | exact hstarts.elim
    have hflag := hunparked henters (hopen hidle)
    exact h.transfer rfl rfl (fun _ _ _ _ => .inl hflag) .inr
  | synchronizing hidle =>
    have hflag := hunparked trivial (hopen hidle)
    exact h.transfer rfl rfl (fun _ _ _ _ => .inl hflag) fun _ => .inl hflag
  | synchronized ok hsync =>
    have hcalled := h.called (h.synchronizing hsync) [.synchronizeExactDecodeBatch]
    cases ok with
    | true =>
      exact hcalled.transfer rfl rfl (fun _ step hstep hmay => .inr ⟨step, hstep, hmay⟩)
        (by simp [finishSynchronize])
    | false =>
      exact hcalled.transfer rfl rfl (fun _ step hstep hmay => .inr ⟨step, hstep, hmay⟩)
        (by simp [finishSynchronize])
  | @accepted index step call hstep hunissued =>
    exact (h.called (h.steps index step hstep (.inr hunissued)) [call]).setStep hstep
      fun _ => .inr hunissued
  | @threw index step call hstep hunissued =>
    exact (h.called (h.steps index step hstep (.inr hunissued)) [call]).setStep hstep
      fun _ => .inr hunissued
  | @turnedDown index step call states hstep hunissued hdone hstates =>
    have hset := @Apart.setStep _ _ _ { step with handle := .done, terminal := true, alive := false }
      (h.called (h.steps index step hstep (.inr hunissued)) [call]) hstep fun _ => .inr hunissued
    exact hset.transfer rfl rfl (fun _ step hstep hmay => .inr ⟨step, hstep, hmay⟩) .inr
  | @polled index step operations hstep hrunning =>
    obtain ⟨calls, hcalls⟩ := step.calls_eq operations
    rw [hcalls]
    exact h.called (h.steps index step hstep (.inl hrunning)) calls
  | published hstep hvalid hpending =>
    exact h.setStep hstep fun hmay => hmay.imp id fun hset => by
      simp [ExecutionStep.unissued] at hset
  | dropped hstep hvalid hdone =>
    exact h.setStep hstep fun hmay => hmay.imp id fun hset => by
      simp [ExecutionStep.unissued] at hset
  | @succeeded index step operations hstep hrunning hvalid =>
    obtain ⟨calls, hcalls⟩ := step.calls_eq operations
    have hcalled := h.called (h.steps index step hstep (.inl hrunning)) calls
    rw [hcalls]
    have hended := @Apart.ended _ index step step.answered true hcalled hstep hrunning
    split
    next => exact hended.transfer rfl rfl (fun _ step hstep hmay => .inr ⟨step, hstep, hmay⟩) .inr
    next => exact hended
  | @failed action index step step' calls hstep hrunning =>
    exact (h.called (h.steps index step hstep (.inl hrunning)) calls).ended hstep hrunning
  | @cancelled index rest step hcancelling hstep hrunning =>
    have hpopped : Apart { session with cancelling := rest } :=
      h.transfer rfl rfl (fun _ step hstep hmay => .inr ⟨step, hstep, hmay⟩) .inr
    exact hpopped.ended hstep hrunning
  | popped => exact h.transfer rfl rfl (fun _ step hstep hmay => .inr ⟨step, hstep, hmay⟩) .inr
  | closedIdle => exact h.transfer rfl rfl (fun _ step hstep hmay => .inr ⟨step, hstep, hmay⟩) .inr
  | closing => exact h.transfer rfl rfl (fun _ step hstep hmay => .inr ⟨step, hstep, hmay⟩) .inr

/-- No run calls into parked states whose every step enters an open session unparked: what a
save finds is what the last park left. -/
theorem frozen_when_entered_unparked (program : SessionProgram) (loaded : Bool)
    {session : SessionState}
    (hreach : Reaches (SessionState.step program) EntersUnparked (begun program loaded) session) :
    Frozen session.history ∧ ∀ before after, session.history = before ++ .saved :: after →
      ∃ earlier since, before = earlier ++ .parked :: since ∧ ∀ event ∈ since, event = .saved := by
  have hboth : Sound session ∧ Apart session := by
    refine @Reaches.invariant _ _ _ _ _ _ (fun state => Sound state ∧ Apart state) hreach
      ⟨sound_begun program loaded, apart_begun program loaded⟩ ?_
    intro state state' action _ hstate hallowed hstep
    have heffect := hstate.1.effect hstep
    exact ⟨heffect.sound hstate.1, heffect.apart hstate.2 hstate.1 hallowed⟩
  refine ⟨hboth.2.frozen, ?_⟩
  intro before after hsplit
  have hbefore : Frozen before := by
    intro earlier event later hearlier
    refine hboth.2.frozen earlier event (later ++ .saved :: after) ?_
    rw [hsplit, hearlier]
    simp
  exact hbefore.since_park (hboth.2.frozen before .saved after hsplit)

theorem parked_session_is_frozen : ∃ session,
    Reaches (SessionState.step soleProvider) EntersUnparked (begun soleProvider false) session ∧
      session.history = [.parked, .saved] ∧ Frozen session.history := by
  have hbegun := @Reaches.refl SessionState SessionAction (SessionState.step soleProvider)
    EntersUnparked (begun soleProvider false)
  have hparked := hbegun.next (show EntersUnparked _ (.parkRetention true) from fun h => h.elim) rfl
  have hsaved := hparked.next (show EntersUnparked _ .saveSnapshot from fun h => h.elim) rfl
  exact ⟨_, hsaved, rfl, (frozen_when_entered_unparked soleProvider false hsaved).1⟩

/-- A parked session still runs steps, synchronizes, checkpoints and rewinds. -/
theorem parked_session_is_entered :
    (∀ entry ∈ [([SessionAction.start true false, .poll 0 1 .pending], ProviderCall.execute),
        ([.reserveSequence true, .issue 0 .handle], .executeProgramSequence),
        ([.reserveExact true, .issue 0 .handle], .executeExactDecode),
        ([.reserveSynchronize true, .finishSynchronize true], .synchronizeExactDecodeBatch),
        ([.checkpointRetention 1], .checkpointRequestState),
        ([.rewindRetention 1], .rewindRequestState)],
      (runActions (SessionState.step soleProvider) (begun soleProvider false)
        (.parkRetention true :: entry.1)).map (·.history) = some [.parked, .call entry.2]) ∧
    ∀ call, ¬ Frozen [.parked, .call call] :=
  ⟨by decide, fun call h => absurd (h [.parked] (.call call) [] rfl) (by simp [FrozenAt, parkedAfter])⟩

end SessionState

end QuantumLlm.Runtime.Executor
