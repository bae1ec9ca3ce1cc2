import QuantumLlm.Runtime.Executor.Sound

/-!
# The life of a session

How the sections of starts, polls and cancels end steps, and with them the
session: one step at a time, closed for good, the provider states given up once.
-/

namespace QuantumLlm.Runtime.Executor

open Option

namespace ExecutionStep

/-- The step after the result that ends it. -/
def answered (step : ExecutionStep) : ExecutionStep :=
  { step with
    terminal := true
    cancelledResultPending := false
    handle := .done
    results := step.results + 1 }

end ExecutionStep

theorem ExecutionStep.calls_eq (step : ExecutionStep) (operations : Nat) :
    ∃ calls : List ProviderCall, step.calls operations = calls.map .call := by
  unfold ExecutionStep.calls
  split
  next => exact ⟨List.replicate operations .execute, by simp⟩
  next => exact ⟨[], rfl⟩

namespace SessionState

variable {session session' : SessionState} {index : Nat} {step : ExecutionStep}
  {program : SessionProgram} {action : SessionAction}

@[simp] theorem record_nil : session.record [] = session := by
  simp [record]

variable {operations : Nat} {answer : PollAnswer} {pointer : Option Nat} {loaded : Bool}
  {allowed : SessionState → SessionAction → Prop}

theorem poll_running (hstep : session.steps[index]? = some step)
    (hpointer : session.pointer step.isExact = some index) (hvalid : step.handle = .valid)
    (hunpublished : step.cancelledResultPending = false) (hgoing : step.terminal = false) :
    session.poll index step operations answer =
      match answer with
      | .pending => session.record (step.calls operations)
      | .failed | .threw => (session.record (step.calls operations)).ended index step.answered false
      | .succeeded =>
        if step.kind = .interpreted true then
          ((session.record (step.calls operations)).ended index step.answered true).close
        else (session.record (step.calls operations)).ended index step.answered true := by
  have hlt : index < session.steps.length := lt_of_step hstep
  have hended : ∀ success : Bool,
      (((session.record (step.calls operations)).setStep index
        { step with terminal := true, cancelledResultPending := false }).finish index step.isExact
          success).yielded index =
      (session.record (step.calls operations)).ended index step.answered success := by
    intro success
    have hfinish := @finish_setStep (session.record (step.calls operations)) index
      { step with terminal := true, cancelledResultPending := false } success hpointer
    rw [show step.isExact = ExecutionStep.isExact
      { step with terminal := true, cancelledResultPending := false } from rfl, hfinish]
    exact @yielded_ended (session.record (step.calls operations)) index _ hlt success
  have hclose : ∀ ending : SessionState,
      ending.close.yielded index = (ending.yielded index).close := by
    intro ending
    cases hactive : ending.active <;> simp [close, yielded, hactive]
  unfold poll
  rw [if_neg (by simp [hvalid]), if_neg (by simp [hunpublished]), if_neg (by simp [hgoing])]
  cases answer with
  | pending => rfl
  | failed => simpa only [hunpublished] using hended false
  | threw =>
    simpa only [cancelled, hgoing, Bool.false_eq_true, if_false, Bool.false_and] using hended false
  | succeeded =>
    simp only [hunpublished]
    by_cases hcloses : step.kind = .interpreted true
    · rw [if_pos hcloses, if_pos hcloses, hclose, hended]
    · rw [if_neg hcloses, if_neg hcloses, hended]

theorem cancelled_running {publish : Bool} (hpointer : session.pointer step.isExact = some index)
    (hgoing : step.terminal = false) :
    session.cancelled index step publish =
      session.ended index { step with
        terminal := true, cancelledResultPending := publish && !step.isExact } false := by
  rw [cancelled, if_neg (by simp [hgoing])]
  exact @finish_setStep session index
    { step with terminal := true, cancelledResultPending := publish && !step.isExact } false hpointer

theorem cancelled_terminal {publish : Bool} (hdone : step.terminal = true) :
    session.cancelled index step publish = session := by
  rw [cancelled, if_pos hdone]

theorem cancelHandle_running (hstep : session.steps[index]? = some step)
    (hpointer : session.pointer step.isExact = some index) (hvalid : step.handle = .valid)
    (hgoing : step.terminal = false) :
    session.cancelHandle index step =
      session.ended index { step with
        terminal := true, cancelledResultPending := false, handle := .done } false := by
  have hlt : index < session.steps.length := lt_of_step hstep
  simp only [cancelHandle, hvalid, ne_eq, not_true_eq_false, if_false]
  rw [cancelled_running hpointer hgoing]
  simp only [ended, List.modify_eq_set_getElem?, List.getElem?_set_self hlt,
    map_eq_map, map_some, getD_some, List.set_set, Bool.false_and]
  rfl

theorem cancelHandle_terminal (hstep : session.steps[index]? = some step)
    (hvalid : step.handle = .valid) (hdone : step.terminal = true) :
    session.cancelHandle index step = session.setStep index { step with handle := .done } := by
  simp only [cancelHandle, hvalid, ne_eq, not_true_eq_false, if_false]
  rw [cancelled_terminal hdone]
  simp only [setStep, List.modify_eq_set_getElem?, hstep,
    map_eq_map, map_some, getD_some]

theorem issue_invalid_running (hpointer : session.pointer step.isExact = some index)
    (hgoing : step.terminal = false) :
    ∃ call, session.issue index step .invalid =
      (session.record [.call call]).ended index { step with
        handle := .done, terminal := true, alive := false } false := by
  cases hexact : step.isExact with
  | true =>
    refine ⟨.executeExactDecode, ?_⟩
    have hfinish := @finish_setStep (session.record [.call .executeExactDecode]) index
      { step with handle := .done, terminal := true, alive := false } false hpointer
    simp only [issue, hexact, if_true]
    have hkind : ExecutionStep.isExact
        { step with handle := .done, terminal := true, alive := false } = true := hexact
    rw [hkind] at hfinish
    exact hfinish
  | false =>
    refine ⟨.executeProgramSequence, ?_⟩
    have hpointer' :
        (session.record [.call .executeProgramSequence]).pointer step.isExact = some index := hpointer
    simp only [issue, hexact, Bool.false_eq_true, if_false]
    rw [cancelled_running hpointer' hgoing]
    simp only [ended, setStep, List.set_set]
    rfl

theorem issue_invalid_terminal (h : Sound session) (hstep : session.steps[index]? = some step)
    (hunissued : step.unissued = true) (hdone : step.terminal = true) :
    ∃ call states, (states = session.providerStates ∨ states = []) ∧
      session.issue index step .invalid =
        { (session.record [.call call]).setStep index { step with
            handle := .done, terminal := true, alive := false } with providerStates := states } := by
  have hclosed : session.closed = true := (h.steps index step hstep).cancelled hunissued hdone
  have hlive : step.alive = true := by
    simp only [ExecutionStep.unissued, Bool.and_eq_true] at hunissued
    exact hunissued.1
  cases hexact : step.isExact with
  | true =>
    have hpointer : session.activeExact ≠ some index := by
      intro hpointer
      have hgoing := (h.locked true index step hpointer hstep hlive).1
      rw [hdone] at hgoing
      cases hgoing
    simp [issue, hexact, finish, released, closedIf, cleared, setStep, record, hpointer, hclosed]
  | false =>
    refine ⟨.executeProgramSequence, session.providerStates, .inl rfl, ?_⟩
    simp only [issue, hexact, Bool.false_eq_true, if_false]
    rw [cancelled_terminal hdone]
    rfl

/-! ## What an action does -/

/-- The action ends a step without success: a failed poll, a cancel by the handle, a start or
a synchronization that the provider turns down. -/
inductive Fails (session : SessionState) : SessionAction → Prop
  | poll {index operations : Nat} {step : ExecutionStep} {answer : PollAnswer} :
      session.steps[index]? = some step → step.running = true → step.handle = .valid →
      answer = .failed ∨ answer = .threw → Fails session (.poll index operations answer)
  | cancelHandle {index : Nat} {step : ExecutionStep} : session.steps[index]? = some step →
      step.running = true → step.handle = .valid → Fails session (.cancelHandle index)
  | issue {index : Nat} {step : ExecutionStep} : session.steps[index]? = some step →
      step.running = true → step.unissued = true → Fails session (.issue index .invalid)
  | synchronize : session.synchronizing = true → Fails session (.finishSynchronize false)

/-- The session with a new step under way. -/
def reserved (session : SessionState) (step : ExecutionStep) : SessionState :=
  { session.addStep step with
    active := true
    activeStep := if step.isExact then session.activeStep else some session.steps.length
    activeExact := if step.isExact then some session.steps.length else session.activeExact }

/-- The entry points that start something on the provider states. -/
def Starts : SessionAction → Prop
  | .start _ _ | .reserveSequence _ | .reserveExact _ | .reserveSynchronize _ => True
  | _ => False

/-- What an action does to a sound session. -/
inductive Effect (session : SessionState) : SessionAction → SessionState → Prop
  | refused {action : SessionAction} : ¬ Fails session action →
      (action = .cancelSession → session.closed = true) → Effect session action session
  | transaction {action : SessionAction} (transaction : Bool) : ¬ Fails session action →
      action ≠ .cancelSession →
      Effect session action { session with retentionTransaction := transaction }
  | parked : session.idle = true → session.parked = false →
      Effect session (.parkRetention true) { session.record [.parked] with parked := true }
  | restored : session.idle = true → session.parked = true →
      Effect session (.restoreRetention true) { session.record [.restored] with parked := false }
  | saved : session.idle = true → session.parked = true →
      Effect session .saveSnapshot (session.record [.saved])
  | checkpointed (calls : Nat) : session.idle = true →
      Effect session (.checkpointRetention calls)
        (session.record (List.replicate calls (.call .checkpointRequestState)))
  | rewound (calls : Nat) : session.idle = true →
      Effect session (.rewindRetention calls)
        (session.record (List.replicate calls (.call .rewindRequestState)))
  | started {action : SessionAction} {step : ExecutionStep} : session.idle = true →
      Starts action → step.alive = true ∧ step.terminal = false ∧
        step.cancelledResultPending = false ∧ step.results = 0 →
      Effect session action (session.reserved step)
  | synchronizing : session.idle = true →
      Effect session (.reserveSynchronize true) { session with active := true, synchronizing := true }
  | synchronized (ok : Bool) : session.synchronizing = true →
      Effect session (.finishSynchronize ok) (session.finishSynchronize ok)
  | accepted {index : Nat} {step : ExecutionStep} (call : ProviderCall) :
      session.steps[index]? = some step → step.unissued = true →
      Effect session (.issue index .handle)
        ((session.record [.call call]).setStep index { step with handle := .valid })
  | threw {index : Nat} {step : ExecutionStep} (call : ProviderCall) :
      session.steps[index]? = some step → step.unissued = true →
      Effect session (.issue index .threw)
        ((session.record [.call call]).setStep index { step with
          handle := .done, alive := decide (index ∈ session.cancelling) })
  | turnedDown {index : Nat} {step : ExecutionStep} (call : ProviderCall) (states : List UInt32) :
      session.steps[index]? = some step → step.unissued = true → step.terminal = true →
      states = session.providerStates ∨ states = [] →
      Effect session (.issue index .invalid)
        { (session.record [.call call]).setStep index { step with
            handle := .done, terminal := true, alive := false } with providerStates := states }
  | polled {index : Nat} {step : ExecutionStep} (operations : Nat) :
      session.steps[index]? = some step → step.running = true →
      Effect session (.poll index operations .pending) (session.record (step.calls operations))
  | published {index operations : Nat} {step : ExecutionStep} {answer : PollAnswer} :
      session.steps[index]? = some step → step.handle = .valid →
      step.cancelledResultPending = true →
      Effect session (.poll index operations answer)
        (session.setStep index { step with
          cancelledResultPending := false, handle := .done, results := step.results + 1 })
  | dropped {index : Nat} {step : ExecutionStep} : session.steps[index]? = some step →
      step.handle = .valid → step.terminal = true →
      Effect session (.cancelHandle index) (session.setStep index { step with handle := .done })
  | succeeded {index : Nat} {step : ExecutionStep} (operations : Nat) :
      session.steps[index]? = some step → step.running = true → step.handle = .valid →
      Effect session (.poll index operations .succeeded)
        (let ending := (session.record (step.calls operations)).ended index step.answered true
        if step.kind = .interpreted true then ending.close else ending)
  | failed {action : SessionAction} {index : Nat} {step step' : ExecutionStep}
      (calls : List ProviderCall) : session.steps[index]? = some step → step.running = true →
      Fails session action → step'.isExact = step.isExact → step'.terminal = true →
      step'.handle = .done → step'.cancelledResultPending = false →
      step.results = 0 → step'.results ≤ 1 →
      Effect session action ((session.record (calls.map .call)).ended index step' false)
  | cancelled {index : Nat} {rest : List Nat} {step : ExecutionStep} :
      session.cancelling = index :: rest → session.steps[index]? = some step →
      step.running = true →
      Effect session .cancelStep
        (ended { session with cancelling := rest } index
          { step with terminal := true, cancelledResultPending := !step.isExact } false)
  | popped {index : Nat} {rest : List Nat} : session.cancelling = index :: rest →
      Effect session .cancelStep { session with cancelling := rest }
  | closedIdle : (∀ (index : Nat) (step : ExecutionStep), session.steps[index]? = some step →
        step.running = false) →
      Effect session .cancelSession
        { session with closed := true, active := false, providerStates := [] }
  | closing {index : Nat} {step : ExecutionStep} (found : List Nat) :
      session.steps[index]? = some step → step.running = true →
      (∀ other ∈ found, ∀ (held : ExecutionStep), session.steps[other]? = some held →
        held.alive = true) →
      Effect session .cancelSession
        { session with closed := true, cancelling := session.cancelling ++ found }

theorem Sound.record (h : Sound session) (events : List SessionEvent) :
    Sound (session.record events) :=
  h.withRecord _ _ _

theorem Sound.unresulted (h : Sound session) (hstep : session.steps[index]? = some step)
    (hopen : step.handle ≠ .done) : step.results = 0 := by
  rcases (h.steps index step hstep).results with hnone | ⟨-, hdone⟩
  · exact hnone
  · exact absurd hdone hopen

theorem Sound.close (h : Sound session) (hinactive : session.active = false) :
    Sound session.close := by
  have hclose : session.close = { session with closed := true, providerStates := [] } := by
    simp [SessionState.close, hinactive]
  rw [hclose]
  exact h.emptied

theorem Sound.emptiedClosed (h : Sound session) (hclosed : session.closed = true) :
    Sound { session with providerStates := [] } := by
  have hempty := h.emptied
  cases session
  subst hclosed
  exact hempty

theorem Effect.sound (h : Sound session) (heffect : Effect session action session') :
    Sound session' := by
  cases heffect with
  | refused => exact h
  | transaction opened => exact h.withRecord _ _ _
  | parked => exact h.withRecord _ _ _
  | restored => exact h.withRecord _ _ _
  | saved => exact h.record _
  | checkpointed calls => exact h.record _
  | rewound calls => exact h.record _
  | started hidle hstarts hfresh => exact h.reserved hidle _ hfresh
  | synchronizing hidle => exact h.synchronized hidle
  | synchronized ok hsync =>
    have hdone := (h.record [.call .synchronizeExactDecodeBatch]).unsynchronized hsync
    cases ok with
    | true => exact hdone
    | false => exact hdone.emptied
  | @accepted index step call hstep hunissued =>
    have hopen : step.handle = .pending ∧ step.alive = true := by
      simpa [ExecutionStep.unissued, and_comm] using hunissued
    have hnone := h.unresulted hstep (by simp [hopen.1])
    refine (h.record [.call call]).setStep hstep rfl id rfl ?_ ?_ id ?_ (.inl hnone)
    · exact fun hmem => (h.cancelling index hmem).2 step hstep
    · intro hset
      simp [ExecutionStep.unissued] at hset
    · exact fun _ => hopen.2
  | @threw index step call hstep hunissued =>
    have hopen : step.handle = .pending ∧ step.alive = true := by
      simpa [ExecutionStep.unissued, and_comm] using hunissued
    have hnone := h.unresulted hstep (by simp [hopen.1])
    exact (h.record [.call call]).setStep_done hstep rfl (fun _ => hopen.2) rfl
      (fun hmem => .inl (decide_eq_true hmem)) id rfl (by simp [hnone])
  | @turnedDown index step call states hstep hunissued hdone hstates =>
    have hopen : step.handle = .pending ∧ step.alive = true := by
      simpa [ExecutionStep.unissued, and_comm] using hunissued
    have hnone := h.unresulted hstep (by simp [hopen.1])
    have hclosed := (h.steps index step hstep).cancelled hunissued hdone
    have hset : Sound ((session.record [.call call]).setStep index { step with
        handle := .done, terminal := true, alive := false }) :=
      (h.record [.call call]).setStep_done hstep rfl (by simp) hdone.symm (fun _ => .inr rfl) id rfl
        (by simp [hnone])
    rcases hstates with rfl | rfl
    · exact hset
    · exact hset.emptiedClosed hclosed
  | polled operations hstep hrunning => exact h.record _
  | @published index operations step answer hstep hvalid hpending =>
    have hnone := h.unresulted hstep (by simp [hvalid])
    exact h.setStep_done hstep rfl id rfl (fun hmem => (h.cancelling index hmem).2 step hstep)
      (by simp)
      rfl (by simp [hnone])
  | @dropped index step hstep hvalid hdone =>
    have hnone := h.unresulted hstep (by simp [hvalid])
    exact h.setStep_done hstep rfl id rfl (fun hmem => (h.cancelling index hmem).2 step hstep) id rfl
      (by simp [hnone])
  | @succeeded index step operations hstep hrunning hvalid =>
    have hnone := h.unresulted hstep (by simp [hvalid])
    have hended : Sound ((session.record (step.calls operations)).ended index step.answered true) :=
      (h.record (step.calls operations)).ended_done hstep hrunning rfl rfl rfl rfl
        (by simp [ExecutionStep.answered, hnone])
    split
    next => exact hended.close rfl
    next => exact hended
  | @failed action index step step' calls hstep hrunning hfails hkind hterminal hdone hunpublished hnone
      hresults =>
      exact (h.record (calls.map .call)).ended_done hstep hrunning hkind hterminal hdone hunpublished
        hresults
  | @cancelled index rest step hcancelling hstep hrunning =>
    have hclosed := (h.cancelling index (by simp [hcancelling])).1
    refine (h.popped hcancelling).ended hstep hrunning rfl rfl ?_ ?_ ?_ ?_
    · exact fun _ => by simp [hclosed]
    · exact fun _ => by simp [hclosed]
    · exact (h.steps index step hstep).valid
    · exact (h.steps index step hstep).results
  | popped hcancelling => exact h.popped hcancelling
  | closedIdle hstopped => exact h.cancelledIdle hstopped
  | closing found hstep hrunning halive => exact h.closing hstep hrunning found halive

/-- The actions that may end a step without success. -/
def Ends : SessionAction → Bool
  | .poll _ _ _ | .cancelHandle _ | .issue _ .invalid | .finishSynchronize false => true
  | _ => false

theorem not_fails (h : Ends action = false) : ¬ Fails session action := by
  intro hfails
  cases hfails <;> simp [Ends] at h

theorem not_fails_poll (h : answer = .pending ∨ answer = .succeeded ∨
      ∀ step, session.steps[index]? = some step → step.running = true → step.handle ≠ .valid) :
    ¬ Fails session (.poll index operations answer) := by
  intro hfails
  cases hfails with
  | poll hstep hrunning hvalid hanswer =>
    rcases h with hpending | hsucceeded | hnever
    · simp [hpending] at hanswer
    · simp [hsucceeded] at hanswer
    · exact hnever _ hstep hrunning hvalid

theorem not_fails_cancelHandle (h : ∀ step, session.steps[index]? = some step →
    step.running = true → step.handle ≠ .valid) : ¬ Fails session (.cancelHandle index) := by
  intro hfails
  cases hfails with
  | cancelHandle hstep hrunning hvalid => exact h _ hstep hrunning hvalid

theorem Effect.none (hends : Ends action = false) (hcancel : action ≠ .cancelSession) :
    Effect session action session :=
  .refused (not_fails hends) fun h => absurd h hcancel

theorem start_eq {closes : Bool} (hidle : session.idle = true) :
    session.start closes =
      session.reserved { kind := .interpreted closes, handle := .valid } := by
  rw [SessionState.start, if_pos hidle]
  rfl

section

variable (h : Sound session) (hstep : session.steps[index]? = some step)

include h hstep

theorem Sound.poll_effect :
    Effect session (.poll index operations answer)
      (session.poll index step operations answer) := by
  have hother : ∀ other, session.steps[index]? = some other → other = step :=
    fun other hother => Option.some.inj (hother.symm.trans hstep)
  by_cases hvalid : step.handle = .valid
  case neg =>
    rw [poll, if_pos hvalid]
    refine .refused (not_fails_poll (.inr (.inr ?_))) (by simp)
    exact fun other hget _ => hother other hget ▸ hvalid
  have hlive : step.alive = true := (h.steps index step hstep).valid hvalid
  rcases Bool.eq_false_or_eq_true step.cancelledResultPending with hpending | hpending
  · have hlt := lt_of_step hstep
    rw [poll, if_neg (by simp [hvalid]), if_pos hpending, yielded_setStep hlt]
    exact @Effect.published session index operations step answer hstep hvalid hpending
  · cases hterminal : step.terminal with
    | true =>
      rw [poll, if_neg (by simp [hvalid]), if_neg (by simp [hpending]), if_pos hterminal]
      refine .refused (not_fails_poll (.inr (.inr fun other hget hrunning => ?_))) (by simp)
      rw [hother other hget, running_iff, hterminal] at hrunning
      cases hrunning.2
    | false =>
      have hrunning : step.running = true := running_iff.2 ⟨hlive, hterminal⟩
      have hpointer := ((h.steps index step hstep).pointer hrunning).2
      have hnone := h.unresulted hstep (by simp [hvalid])
      rw [poll_running hstep hpointer hvalid hpending hterminal]
      cases answer with
      | pending => exact .polled operations hstep hrunning
      | succeeded => exact .succeeded operations hstep hrunning hvalid
      | failed | threw =>
        obtain ⟨calls, hcalls⟩ := step.calls_eq operations
        rw [hcalls]
        exact .failed calls hstep hrunning (.poll hstep hrunning hvalid (by simp)) rfl rfl rfl rfl
          hnone (by simp [ExecutionStep.answered, hnone])

theorem Sound.cancelHandle_effect :
    Effect session (.cancelHandle index) (session.cancelHandle index step) := by
  have hother : ∀ other, session.steps[index]? = some other → other = step :=
    fun other hother => Option.some.inj (hother.symm.trans hstep)
  by_cases hvalid : step.handle = .valid
  case neg =>
    rw [cancelHandle, if_pos hvalid]
    refine .refused (not_fails_cancelHandle fun other hget _ => ?_) (by simp)
    exact hother other hget ▸ hvalid
  cases hterminal : step.terminal with
  | true =>
    rw [cancelHandle_terminal hstep hvalid hterminal]
    exact .dropped hstep hvalid hterminal
  | false =>
    have hlive : step.alive = true := (h.steps index step hstep).valid hvalid
    have hrunning : step.running = true := running_iff.2 ⟨hlive, hterminal⟩
    have hpointer := ((h.steps index step hstep).pointer hrunning).2
    have hnone := h.unresulted hstep (by simp [hvalid])
    rw [cancelHandle_running hstep hpointer hvalid hterminal]
    have hfailed := @Effect.failed session (.cancelHandle index) index step
      { step with terminal := true, cancelledResultPending := false, handle := .done } [] hstep
      hrunning (.cancelHandle hstep hrunning hvalid) rfl rfl rfl rfl hnone (by simp [hnone])
    simpa using hfailed

theorem Sound.issue_effect {answer : IssueAnswer} (hunissued : step.unissued = true) :
    Effect session (.issue index answer) (session.issue index step answer) := by
  have hlive : step.handle = .pending ∧ step.alive = true := by
    simpa [ExecutionStep.unissued, and_comm] using hunissued
  cases answer with
  | handle => exact .accepted _ hstep hunissued
  | threw => exact .threw _ hstep hunissued
  | invalid =>
    rcases Bool.eq_false_or_eq_true step.terminal with hterminal | hterminal
    · obtain ⟨call, states, hstates, heq⟩ := issue_invalid_terminal h hstep hunissued hterminal
      rw [heq]
      exact .turnedDown call states hstep hunissued hterminal hstates
    · have hrunning : step.running = true := running_iff.2 ⟨hlive.2, hterminal⟩
      have hsound := h.steps index step hstep
      have hunpublished : step.cancelledResultPending = false := by
        by_contra hset
        have hdone := (hsound.pending (by simpa using hset)).2.2
        rw [hterminal] at hdone
        cases hdone
      have hnone := h.unresulted hstep (by simp [hlive.1])
      obtain ⟨call, heq⟩ := issue_invalid_running (hsound.pointer hrunning).2 hterminal
      rw [heq]
      exact .failed [call] hstep hrunning (.issue hstep hrunning hunissued) rfl rfl rfl
        hunpublished hnone (by simp [hnone])

end

theorem Sound.cancelStep_effect (h : Sound session) {rest : List Nat}
    (hcancelling : session.cancelling = index :: rest)
    (hstep : session.steps[index]? = some step) :
    Effect session .cancelStep
      (SessionState.cancelled { session with cancelling := rest } index step true) := by
  rcases Bool.eq_false_or_eq_true step.terminal with hterminal | hterminal
  · rw [cancelled_terminal hterminal]
    exact .popped hcancelling
  · have hlive : step.alive = true := by
      rcases (h.cancelling index (by simp [hcancelling])).2 step hstep with hlive | hdone
      · exact hlive
      · rw [hterminal] at hdone
        cases hdone
    have hrunning : step.running = true := running_iff.2 ⟨hlive, hterminal⟩
    have hpointer := ((h.steps index step hstep).pointer hrunning).2
    rw [@cancelled_running { session with cancelling := rest } index step true hpointer hterminal]
    exact .cancelled hcancelling hstep hrunning

theorem mem_locked (h : session.locked pointer = some index) :
    pointer = some index ∧ ∃ step, session.steps[index]? = some step ∧ step.alive = true := by
  rw [SessionState.locked, filter_eq_some_iff] at h
  refine ⟨h.1, ?_⟩
  cases hstep : session.steps[index]? with
  | none => simp [hstep] at h
  | some step => exact ⟨step, rfl, by simpa [hstep] using h.2⟩

theorem locked_of (hpointer : pointer = some index)
    (hstep : session.steps[index]? = some step) (hlive : step.alive = true) :
    session.locked pointer = some index := by
  simp [SessionState.locked, hpointer, hstep, hlive, Option.filter]

theorem Sound.cancelSession_effect (h : Sound session) :
    Effect session .cancelSession session.cancelSession := by
  unfold SessionState.cancelSession
  split
  next hdone => exact .refused (not_fails rfl) fun _ => hdone.1
  next =>
    have hlocked : ∀ isExact other, session.locked (session.pointer isExact) = some other →
        ∃ held, session.steps[other]? = some held ∧ held.running = true := by
      intro isExact other hfound
      obtain ⟨hpointer, held, hheld, hlive⟩ := mem_locked hfound
      exact ⟨held, hheld, running_iff.2 ⟨hlive, (h.locked isExact other held hpointer hheld hlive).1⟩⟩
    have hfound : ∀ other ∈ (session.locked session.activeStep).toList ++
        (session.locked session.activeExact).toList,
        ∃ held, session.steps[other]? = some held ∧ held.running = true := by
      intro other hother
      rcases List.mem_append.1 hother with hstep | hexact
      · exact hlocked false other (mem_toList.1 hstep)
      · exact hlocked true other (mem_toList.1 hexact)
    have halive : ∀ other ∈ (session.locked session.activeStep).toList ++
        (session.locked session.activeExact).toList,
        ∀ held, session.steps[other]? = some held → held.alive = true := by
      intro other hother held hheld
      obtain ⟨before, hbefore, hrunning⟩ := hfound other hother
      rw [← Option.some.inj (hbefore.symm.trans hheld)]
      exact (running_iff.1 hrunning).1
    have hsame : ∀ found : Option Nat,
        SessionState.locked { session with closed := true } found = session.locked found :=
      fun _ => rfl
    simp only [hsame]
    cases hactive : session.locked session.activeStep with
    | none =>
      cases hexact : session.locked session.activeExact with
      | none =>
        refine .closedIdle fun other held hheld => ?_
        by_contra hset
        have hrunning : held.running = true := by simpa using hset
        have hpointer := ((h.steps other held hheld).pointer hrunning).2
        have hlive := (running_iff.1 hrunning).1
        cases hkind : held.isExact <;> rw [hkind] at hpointer
        · simpa using hactive.symm.trans (locked_of hpointer hheld hlive)
        · simpa using hexact.symm.trans (locked_of hpointer hheld hlive)
      | some other =>
        rw [hactive, hexact] at hfound halive
        obtain ⟨held, hheld, hrunning⟩ := hfound other (by simp)
        simp only [List.append_assoc]
        exact .closing _ hheld hrunning halive
    | some other =>
      rw [hactive] at hfound halive
      obtain ⟨held, hheld, hrunning⟩ := hfound other (by simp)
      simp only [List.append_assoc]
      exact .closing _ hheld hrunning halive

theorem Sound.effect (h : Sound session) (hstep : session.step program action = some session') :
    Effect session action session' := by
  cases action with
  | start validInputs closes =>
    cases hstep
    split
    next =>
      by_cases hidle : session.idle = true
      · rw [start_eq hidle]
        exact .started hidle trivial ⟨rfl, rfl, rfl, rfl⟩
      · rw [SessionState.start, if_neg hidle]
        exact .none rfl (by simp)
    next => exact .none rfl (by simp)
  | reserveSequence validInputs =>
    cases hstep
    split
    next =>
      unfold reserveSequence
      split
      next hready => exact .started hready.1 trivial ⟨rfl, rfl, rfl, rfl⟩
      next => exact .none rfl (by simp)
    next => exact .none rfl (by simp)
  | reserveExact validInvocation =>
    cases hstep
    split
    next =>
      unfold reserveExact
      split
      next hready => exact .started hready.1 trivial ⟨rfl, rfl, rfl, rfl⟩
      next => exact .none rfl (by simp)
    next => exact .none rfl (by simp)
  | issue index answer =>
    simp only [SessionState.step] at hstep
    split at hstep
    next found hfound =>
      split at hstep
      next hunissued =>
        cases hstep
        exact h.issue_effect hfound hunissued
      next => cases hstep
    next => cases hstep
  | reserveSynchronize validBatch =>
    cases hstep
    cases validBatch with
    | false => exact .none rfl (by simp)
    | true =>
      simp only [if_true]
      unfold SessionState.reserveSynchronize
      split
      next hready => exact .synchronizing hready.1
      next => exact .none rfl (by simp)
  | finishSynchronize ok =>
    simp only [SessionState.step] at hstep
    split at hstep
    next hsync =>
      cases hstep
      exact .synchronized ok hsync
    next => cases hstep
  | poll index operations answer =>
    obtain ⟨found, hfound, rfl⟩ := map_eq_some_iff.1 hstep
    exact h.poll_effect hfound
  | cancelHandle index =>
    obtain ⟨found, hfound, rfl⟩ := map_eq_some_iff.1 hstep
    exact h.cancelHandle_effect hfound
  | cancelSession =>
    cases hstep
    exact h.cancelSession_effect
  | cancelStep =>
    simp only [SessionState.step] at hstep
    split at hstep
    next => cases hstep
    next index rest hcancelling =>
      obtain ⟨found, hfound, rfl⟩ := map_eq_some_iff.1 hstep
      exact h.cancelStep_effect hcancelling hfound
  | beginTransaction =>
    cases hstep
    split
    next => exact .transaction true (not_fails rfl) (by simp)
    next => exact .none rfl (by simp)
  | endTransaction =>
    cases hstep
    split
    next => exact .transaction false (not_fails rfl) (by simp)
    next => exact .none rfl (by simp)
  | parkRetention ok =>
    cases hstep
    unfold SessionState.parkRetention
    split
    next hready =>
      obtain ⟨hidle, hunparked, rfl⟩ := hready
      exact .parked hidle (by simpa using hunparked)
    next => exact .none rfl (by simp)
  | restoreRetention ok =>
    cases hstep
    unfold SessionState.restoreRetention
    split
    next hready =>
      obtain ⟨hidle, hparked, rfl⟩ := hready
      exact .restored hidle hparked
    next => exact .none rfl (by simp)
  | checkpointRetention calls =>
    cases hstep
    unfold SessionState.controlRetention
    split
    next hidle => exact .checkpointed calls hidle
    next => exact .none rfl (by simp)
  | rewindRetention calls =>
    cases hstep
    unfold SessionState.controlRetention
    split
    next hidle => exact .rewound calls hidle
    next => exact .none rfl (by simp)
  | saveSnapshot =>
    cases hstep
    split
    next hready => exact .saved hready.1 hready.2
    next => exact .none rfl (by simp)

theorem sound_of_reaches
    (hreach : Reaches (SessionState.step program) allowed (begun program loaded) session) : Sound session :=
  hreach.invariant (sound_begun program loaded) fun _ hsound _ hstep =>
    (hsound.effect hstep).sound hsound

theorem ended_providerStates {index : Nat} {step : ExecutionStep} {success : Bool}
    (hopen : (session.ended index step success).closed = false) :
    session.closed = false ∧ (session.ended index step success).providerStates =
      session.providerStates := by
  have hclosed : (session.closed || (!success && !session.retentionTransaction)) = false := hopen
  refine ⟨(Bool.or_eq_false_iff.1 hclosed).1, ?_⟩
  simp [ended, hclosed]

theorem Effect.providerStates (h : Sound session) (heffect : Effect session action session')
    (hopen : session'.closed = false) :
    session.closed = false ∧ session'.providerStates = session.providerStates := by
  cases heffect with
  | synchronized ok _ =>
    cases ok with
    | true => exact ⟨hopen, rfl⟩
    | false => cases hopen
  | turnedDown _ states hstep hunissued hdone _ =>
    have hclosed := (h.steps _ _ hstep).cancelled hunissued hdone
    exact absurd (hclosed.symm.trans hopen) (by simp)
  | @succeeded index step operations hstep hrunning hvalid =>
    split at hopen
    next => cases hopen
    next hkind =>
      rw [if_neg hkind]
      exact @ended_providerStates (session.record (step.calls operations)) index step.answered
        true hopen
  | @failed action index step step' calls hstep hrunning hfails =>
    exact @ended_providerStates (session.record (calls.map .call)) index step' false hopen
  | @cancelled index rest step hcancelling hstep hrunning =>
    exact @ended_providerStates { session with cancelling := rest } index
      { step with terminal := true, cancelledResultPending := !step.isExact } false hopen
  | closedIdle hstopped => cases hopen
  | closing found hstep hrunning halive => cases hopen
  | _ => exact ⟨hopen, rfl⟩

theorem providerStates_of_reaches
    (hreach : Reaches (SessionState.step program) allowed (begun program loaded) session)
    (hopen : session.closed = false) :
    session.providerStates = (begun program loaded).providerStates := by
  induction hreach with
  | refl => rfl
  | next hreach _ hstep ih =>
    have hsound := sound_of_reaches hreach
    obtain ⟨hbefore, hstates⟩ := (hsound.effect hstep).providerStates hsound hopen
    rw [hstates, ih hbefore]

/-! ## One step at a time, closed for good -/

/-- No provider throws out of a start, and none fails to synchronize inside a transaction. -/
def Clean (session : SessionState) : SessionAction → Prop
  | .issue _ .threw => False
  | .finishSynchronize false => session.retentionTransaction = false
  | _ => True

/-- What holds between two actions. -/
structure Settled (session : SessionState) : Prop where
  single : ∀ (left right : Nat) (leftStep rightStep : ExecutionStep),
    session.steps[left]? = some leftStep → session.steps[right]? = some rightStep →
    leftStep.running = true → rightStep.running = true → left = right
  active : ∀ (index : Nat) (step : ExecutionStep), session.steps[index]? = some step →
    step.running = true → session.active = true ∧ session.synchronizing = false
  opened : session.closed = false → session.providerStates ≠ []
  shut : session.closed = true → session.active = false → session.providerStates = []
  results : ∀ (index : Nat) (step : ExecutionStep), session.steps[index]? = some step →
    step.results ≤ 1

/-- How an action changes the session. -/
structure Orderly (session : SessionState) (action : SessionAction) (session' : SessionState) :
    Prop where
  absorbing : session.closed = true → session'.closed = true
  rejected : session.closed = true → session'.steps.length = session.steps.length ∧
    (session'.active = true → session.active = true) ∧
    (session'.synchronizing = true → session.synchronizing = true)
  emptied : session'.providerStates = session.providerStates ∨
    session'.closed = true ∧ session'.providerStates = []
  failed : Fails session action → session'.active = false ∧
    session'.retentionTransaction = session.retentionTransaction ∧
    session'.closed = (session.closed || !session.retentionTransaction) ∧
    (session'.closed = false → session'.providerStates = session.providerStates)
  cancelled : action = .cancelSession → session'.closed = true
  /-- Nothing else closes a session but the success of a step that was started to close it. -/
  closed : session.closed = false → session'.closed = true →
    Fails session action ∨ action = .cancelSession ∨
      ∃ (index operations : Nat) (step : ExecutionStep),
        action = .poll index operations .succeeded ∧ session.steps[index]? = some step ∧
          step.kind = .interpreted true
  answered : ∀ (index : Nat) (before after : ExecutionStep),
    session.steps[index]? = some before → session'.steps[index]? = some after →
    before.results < after.results → after.results = 1 ∧ session'.active = false

theorem Sound.settled (h : Sound session) : Settled session where
  single := h.single
  active index step hstep hrunning := by
    refine ⟨((h.steps index step hstep).pointer hrunning).1, ?_⟩
    by_contra hsync
    have hidle := (h.synchronizing (by simpa using hsync)).2 index step hstep
    exact absurd (hidle.symm.trans hrunning) Bool.false_ne_true
  opened := h.opened
  shut := h.shut
  results index step hstep := by
    rcases (h.steps index step hstep).results with hnone | ⟨hone, -⟩ <;> omega

theorem answered_of_steps (hsteps : session'.steps = session.steps) (index : Nat)
    (before after : ExecutionStep) (hbefore : session.steps[index]? = some before)
    (hafter : session'.steps[index]? = some after) (hmore : before.results < after.results) :
    after.results = 1 ∧ session'.active = false := by
  rw [hsteps, hbefore] at hafter
  cases hafter
  exact absurd hmore (Nat.lt_irrefl _)

theorem answered_of_set {step' : ExecutionStep} (hstep : session.steps[index]? = some step)
    (hsteps : session'.steps = session.steps.set index step')
    (hresults : step.results < step'.results → step'.results = 1 ∧ session'.active = false)
    (other : Nat) (before after : ExecutionStep) (hbefore : session.steps[other]? = some before)
    (hafter : session'.steps[other]? = some after) (hmore : before.results < after.results) :
    after.results = 1 ∧ session'.active = false := by
  rw [hsteps] at hafter
  rcases getElem?_set_cases hafter with ⟨rfl, rfl⟩ | ⟨-, hafter⟩
  · rw [hstep] at hbefore
    cases hbefore
    exact hresults hmore
  · rw [hbefore] at hafter
    cases hafter
    exact absurd hmore (Nat.lt_irrefl _)

theorem Orderly.quiet (hsteps : session'.steps = session.steps)
    (hactive : session'.active = session.active) (hsync : session'.synchronizing = session.synchronizing)
    (hclosed : session'.closed = session.closed)
    (hstates : session'.providerStates = session.providerStates) (hfails : ¬ Fails session action)
    (hcancel : action = .cancelSession → session.closed = true) :
    Orderly session action session' := by
  constructor
  case absorbing => exact fun hshut => hclosed.trans hshut
  case rejected => exact fun _ => ⟨by rw [hsteps], fun h => hactive ▸ h, fun h => hsync ▸ h⟩
  case emptied => exact .inl hstates
  case failed => exact fun h => absurd h hfails
  case cancelled => exact fun h => hclosed.trans (hcancel h)
  case closed =>
    intro hopen hshut
    exact absurd (hopen.symm.trans (hclosed.symm.trans hshut)) Bool.false_ne_true
  case answered => exact answered_of_steps hsteps

theorem Orderly.updated {step' : ExecutionStep} (hstep : session.steps[index]? = some step)
    (hsteps : session'.steps = session.steps.set index step')
    (hactive : session'.active = session.active) (hsync : session'.synchronizing = session.synchronizing)
    (hclosed : session'.closed = session.closed)
    (hstates : session'.providerStates = session.providerStates ∨
      session'.closed = true ∧ session'.providerStates = [])
    (hfails : ¬ Fails session action) (hcancel : action ≠ .cancelSession)
    (hresults : step.results < step'.results → step'.results = 1 ∧ session'.active = false) :
    Orderly session action session' := by
  constructor
  case absorbing => exact fun hshut => hclosed.trans hshut
  case rejected => exact fun _ => ⟨by simp [hsteps], fun h => hactive ▸ h, fun h => hsync ▸ h⟩
  case emptied => exact hstates
  case failed => exact fun h => absurd h hfails
  case cancelled => exact fun h => absurd h hcancel
  case closed =>
    intro hopen hshut
    exact absurd (hopen.symm.trans (hclosed.symm.trans hshut)) Bool.false_ne_true
  case answered => exact answered_of_set hstep hsteps hresults

theorem Orderly.ended {base : SessionState} {step' : ExecutionStep} {success : Bool}
    (hstep : session.steps[index]? = some step) (hsteps : base.steps = session.steps)
    (hsync : base.synchronizing = session.synchronizing) (hclosed : base.closed = session.closed)
    (hstates : base.providerStates = session.providerStates)
    (htransaction : base.retentionTransaction = session.retentionTransaction)
    (hfails : success = false → Fails session action ∨ session.closed = true)
    (hsucceeds : success = true → ¬ Fails session action) (hcancel : action ≠ .cancelSession)
    (hresults : step.results < step'.results → step'.results = 1) :
    Orderly session action (base.ended index step' success) := by
  constructor
  case absorbing =>
    intro hshut
    simp [SessionState.ended, hclosed, hshut]
  case rejected => exact fun _ => ⟨by simp [SessionState.ended, hsteps],
    fun h => absurd h.symm Bool.false_ne_true.symm, fun h => hsync ▸ h⟩
  case emptied =>
    simp only [SessionState.ended, hstates]
    split
    next hshut => exact .inr ⟨hshut, rfl⟩
    next => exact .inl rfl
  case failed =>
    intro hfailed
    cases success with
    | true => exact absurd hfailed (hsucceeds rfl)
    | false =>
      refine ⟨rfl, htransaction, ?_, ?_⟩
      · simp [SessionState.ended, hclosed, htransaction]
      · intro hopen
        simp only [SessionState.ended] at hopen ⊢
        rw [hopen, if_neg Bool.false_ne_true, hstates]
  case cancelled => exact fun h => absurd h hcancel
  case closed =>
    intro hopen hshut
    cases success with
    | true => simp [SessionState.ended, hclosed, hopen] at hshut
    | false =>
      rcases hfails rfl with hfailed | hclosed'
      · exact .inl hfailed
      · exact absurd (hopen.symm.trans hclosed') Bool.false_ne_true
  case answered =>
    exact answered_of_set hstep (by rw [SessionState.ended, hsteps]) fun h => ⟨hresults h, rfl⟩

theorem Orderly.started (hidle : session.idle = true) (hstarts : Starts action) :
    Orderly session action (session.reserved step) := by
  have hopen : session.closed = false := by
    have hboth : session.closed = false ∧ session.active = false := by simpa [idle] using hidle
    exact hboth.1
  have hnever : ¬ session.closed = true := by simp [hopen]
  constructor
  case absorbing => exact id
  case rejected => exact fun hshut => absurd hshut hnever
  case emptied => exact .inl rfl
  case failed =>
    intro hfails
    cases hfails <;> exact hstarts.elim
  case cancelled =>
    rintro rfl
    exact hstarts.elim
  case closed => exact fun _ hshut => absurd hshut hnever
  case answered =>
    intro index before after hbefore hafter hmore
    rw [reserved, addStep, List.getElem?_append_left (lt_of_step hbefore), hbefore] at hafter
    cases hafter
    exact absurd hmore (Nat.lt_irrefl _)

theorem Effect.orderly (h : Sound session) (hclean : Clean session action)
    (heffect : Effect session action session') : Orderly session action session' := by
  cases heffect with
  | refused hfails hcancel => exact .quiet rfl rfl rfl rfl rfl hfails hcancel
  | transaction opened hfails hcancel =>
    exact .quiet rfl rfl rfl rfl rfl hfails fun h => absurd h hcancel
  | parked => exact .quiet rfl rfl rfl rfl rfl (not_fails rfl) (by simp)
  | restored => exact .quiet rfl rfl rfl rfl rfl (not_fails rfl) (by simp)
  | saved => exact .quiet rfl rfl rfl rfl rfl (not_fails rfl) (by simp)
  | checkpointed calls => exact .quiet rfl rfl rfl rfl rfl (not_fails rfl) (by simp)
  | rewound calls => exact .quiet rfl rfl rfl rfl rfl (not_fails rfl) (by simp)
  | polled operations => exact .quiet rfl rfl rfl rfl rfl (not_fails_poll (.inl rfl)) (by simp)
  | popped => exact .quiet rfl rfl rfl rfl rfl (not_fails rfl) (by simp)
  | @accepted index step call hstep hunissued =>
    refine .updated hstep rfl rfl rfl rfl (.inl rfl) (not_fails rfl) (by simp) fun hmore => ?_
    exact absurd hmore (Nat.lt_irrefl _)
  | threw => exact hclean.elim
  | @turnedDown index step call states hstep hunissued hdone hstates =>
    have hshut := (h.steps index step hstep).cancelled hunissued hdone
    refine .updated hstep rfl rfl rfl rfl ?_ ?_ (by simp) fun hmore => ?_
    · exact hstates.imp_right fun hempty => ⟨hshut, hempty⟩
    · intro hfails
      cases hfails with
      | issue hget hrunning =>
        rw [hstep] at hget
        cases hget
        rw [running_iff, hdone] at hrunning
        cases hrunning.2
    · exact absurd hmore (Nat.lt_irrefl _)
  | @published index operations step answer hstep hvalid hpending =>
    have hsettled := (h.steps index step hstep).pending hpending
    have hnone := h.unresulted hstep (by simp [hvalid])
    refine .updated hstep rfl rfl rfl rfl (.inl rfl)
      (not_fails_poll (.inr (.inr fun other hother hrunning => ?_))) (by simp)
      fun _ => ⟨by simp [hnone], hsettled.2.1⟩
    rw [hstep] at hother
    cases hother
    rw [running_iff, hsettled.2.2] at hrunning
    cases hrunning.2
  | @dropped index step hstep hvalid hdone =>
    refine .updated hstep rfl rfl rfl rfl (.inl rfl)
      (not_fails_cancelHandle fun other hother hrunning => ?_) (by simp)
      fun hmore => absurd hmore (Nat.lt_irrefl _)
    rw [hstep] at hother
    cases hother
    rw [running_iff, hdone] at hrunning
    cases hrunning.2
  | @started action step hidle hstarts hfresh => exact .started hidle hstarts
  | synchronizing hidle =>
    have hopen : session.closed = false ∧ session.active = false := by simpa [idle] using hidle
    have hnever : ¬ session.closed = true := by simp [hopen.1]
    constructor
    case absorbing => exact id
    case rejected => exact fun hshut => absurd hshut hnever
    case emptied => exact .inl rfl
    case failed => exact fun h => absurd h (not_fails rfl)
    case cancelled => simp
    case closed => exact fun _ hshut => absurd hshut hnever
    case answered => exact answered_of_steps rfl
  | synchronized ok hsync =>
    have hsteps : (session.finishSynchronize ok).steps = session.steps := by
      cases ok <;> rfl
    constructor
    case absorbing => cases ok <;> simp [finishSynchronize, record]
    case rejected =>
      refine fun _ => ⟨by rw [hsteps], ?_, ?_⟩ <;> cases ok <;> simp [finishSynchronize, record]
    case emptied => cases ok <;> simp [finishSynchronize, record]
    case failed =>
      intro hfails
      cases hfails
      have htransaction : session.retentionTransaction = false := hclean
      simp [finishSynchronize, record, htransaction]
    case cancelled => simp
    case closed =>
      intro hopen hshut
      cases ok with
      | true => simp [finishSynchronize, record, hopen] at hshut
      | false => exact .inl (.synchronize hsync)
    case answered => exact answered_of_steps hsteps
  | @succeeded index step operations hstep hrunning hvalid =>
    have hnone := h.unresulted hstep (by simp [hvalid])
    have hfails : ¬ Fails session (.poll index operations .succeeded) := by
      exact not_fails_poll (.inr (.inl rfl))
    have hended : Orderly session (.poll index operations .succeeded)
        ((session.record (step.calls operations)).ended index step.answered true) :=
      .ended hstep rfl rfl rfl rfl rfl (by simp) (fun _ => hfails) (by simp)
        fun _ => by simp [ExecutionStep.answered, hnone]
    split
    next hcloses =>
      constructor
      case absorbing => exact fun _ => rfl
      case rejected => exact hended.rejected
      case emptied => exact .inr ⟨rfl, rfl⟩
      case failed => exact fun hfailed => absurd hfailed hfails
      case cancelled => simp
      case closed => exact fun _ _ => .inr (.inr ⟨index, operations, step, rfl, hstep, hcloses⟩)
      case answered => exact hended.answered
    next => exact hended
  | failed calls hstep hrunning hfails hkind hterminal hdone hunpublished hnone hresults =>
    refine .ended hstep rfl rfl rfl rfl rfl (fun _ => .inl hfails) (by simp) ?_ fun hmore => ?_
    · rintro rfl
      cases hfails
    · omega
  | @cancelled index rest step hcancelling hstep hrunning =>
    have hshut := (h.cancelling index (by simp [hcancelling])).1
    exact .ended hstep rfl rfl rfl rfl rfl (fun _ => .inr hshut) (by simp) (by simp)
      fun hmore =>
      absurd hmore (Nat.lt_irrefl _)
  | closedIdle hstopped =>
    constructor
    case absorbing => exact fun _ => rfl
    case rejected => simp
    case emptied => exact .inr ⟨rfl, rfl⟩
    case failed => exact fun h => absurd h (not_fails rfl)
    case cancelled => exact fun _ => rfl
    case closed => exact fun _ _ => .inr (.inl rfl)
    case answered => exact answered_of_steps rfl
  | closing found hstep hrunning halive =>
    constructor
    case absorbing => exact fun _ => rfl
    case rejected => exact fun _ => ⟨rfl, id, id⟩
    case emptied => exact .inl rfl
    case failed => exact fun h => absurd h (not_fails rfl)
    case cancelled => exact fun _ => rfl
    case closed => exact fun _ _ => .inr (.inl rfl)
    case answered => exact answered_of_steps rfl

/-- In every run whose provider calls come back, one step runs at a time, a failed or cancelled
step closes its session exactly outside transactions, a session cancel closes it always, and
the provider states are given up once. -/
theorem one_step_at_a_time (program : SessionProgram) (loaded : Bool) {session : SessionState}
    (hreach : Reaches (SessionState.step program) Clean (begun program loaded) session) :
    Settled session ∧
      ∀ (action : SessionAction) (session' : SessionState), Clean session action →
        session.step program action = some session' → Orderly session action session' := by
  have hsound := sound_of_reaches hreach
  exact ⟨hsound.settled, fun action session' hclean hstep =>
    (hsound.effect hstep).orderly hsound hclean⟩

/-- One provider for one operation, sequences and exact decodes. -/
def soleProvider : SessionProgram where
  prepared := [0]
  prepared_ne_nil := by decide
  sequence := some 0
  exactDecode := some 0

theorem failed_step_settles : ∃ session,
    Reaches (SessionState.step soleProvider) Clean (begun soleProvider false) session ∧
      session.closed = true ∧ Settled session := by
  have hbegun := @Reaches.refl SessionState SessionAction (SessionState.step soleProvider) Clean
    (begun soleProvider false)
  have hstarted := hbegun.next (show Clean _ (.start true false) from trivial) rfl
  have hfailed := hstarted.next (show Clean _ (.poll 0 2 .failed) from trivial) rfl
  exact ⟨_, hfailed, rfl, (one_step_at_a_time soleProvider false hfailed).1⟩

/-- Inside a transaction, a session cancel closes the session with the step it cancels; so does
a failed synchronization, and a start whose provider throws leaves the session active. -/
theorem transactions_do_not_keep_sessions_open :
    (runActions (SessionState.step soleProvider) (begun soleProvider false)
        [.beginTransaction, .start true false, .cancelSession, .cancelStep]).map
      (fun session => (session.retentionTransaction, session.closed, session.providerStates)) =
        some (true, true, []) ∧
    (runActions (SessionState.step soleProvider) (begun soleProvider false)
        [.beginTransaction, .reserveSynchronize true, .finishSynchronize false]).map
      (fun session => (session.retentionTransaction, session.closed, session.providerStates)) =
        some (true, true, []) ∧
    (runActions (SessionState.step soleProvider) (begun soleProvider false)
        [.reserveSequence true, .issue 0 .threw]).map
      (fun session => (session.active, session.closed, session.steps.any (·.running))) =
        some (true, false, false) := by
  decide

end SessionState

end QuantumLlm.Runtime.Executor
