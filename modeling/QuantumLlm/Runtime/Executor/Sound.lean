import QuantumLlm.Runtime.Executor.Session

/-!
# The invariant of a session

What ties the flags of a session to its steps, kept by every section whatever
the providers answer.
-/

namespace QuantumLlm.Runtime.Executor

namespace SessionState

/-- The weak pointer for steps of one sort. -/
def pointer (session : SessionState) (isExact : Bool) : Option Nat :=
  if isExact then session.activeExact else session.activeStep

structure StepSound (session : SessionState) (index : Nat) (step : ExecutionStep) : Prop where
  pointer : step.running = true →
    session.active = true ∧ session.pointer step.isExact = some index
  cancelled : step.unissued = true → step.terminal = true → session.closed = true
  pending : step.cancelledResultPending = true →
    session.closed = true ∧ session.active = false ∧ step.terminal = true
  valid : step.handle = .valid → step.alive = true
  results : step.results = 0 ∨ step.results = 1 ∧ step.handle = .done

structure Sound (session : SessionState) : Prop where
  steps : ∀ (index : Nat) (step : ExecutionStep), session.steps[index]? = some step →
    StepSound session index step
  single : ∀ (left right : Nat) (leftStep rightStep : ExecutionStep),
    session.steps[left]? = some leftStep → session.steps[right]? = some rightStep →
    leftStep.running = true → rightStep.running = true → left = right
  bounded : ∀ (isExact : Bool) (index : Nat), session.pointer isExact = some index →
    index < session.steps.length
  locked : ∀ (isExact : Bool) (index : Nat) (step : ExecutionStep),
    session.pointer isExact = some index → session.steps[index]? = some step →
    step.alive = true → step.terminal = false ∧ step.isExact = isExact
  synchronizing : session.synchronizing = true →
    (session.closed = true ∧ session.providerStates = [] ∨
      session.closed = false ∧ session.active = true) ∧
    ∀ (index : Nat) (step : ExecutionStep), session.steps[index]? = some step →
      step.running = false
  cancelling : ∀ (index : Nat), index ∈ session.cancelling → session.closed = true ∧
    ∀ (step : ExecutionStep), session.steps[index]? = some step →
      step.alive = true ∨ step.terminal = true
  opened : session.closed = false → session.providerStates ≠ []
  shut : session.closed = true → session.active = false → session.providerStates = []

theorem sound_begun (program : SessionProgram) (loaded : Bool) :
    Sound (begun program loaded) := by
  constructor
  case steps =>
    intro index step hstep
    simp [begun] at hstep
  case single =>
    intro left right leftStep rightStep hleft
    simp [begun] at hleft
  case bounded =>
    intro isExact index hpointer
    cases isExact <;> simp [begun, pointer] at hpointer
  case locked =>
    intro isExact index step hpointer
    cases isExact <;> simp [begun, pointer] at hpointer
  case synchronizing =>
    intro hsync
    simp [begun] at hsync
  case cancelling =>
    intro index hindex
    simp [begun] at hindex
  case opened =>
    intro _ hnil
    obtain ⟨index, rest, hprepared⟩ := List.exists_cons_of_ne_nil program.prepared_ne_nil
    have hmem : index ∈ (begun program loaded).providerStates := by
      rw [begun, List.mem_dedup, hprepared]
      simp
    rw [hnil] at hmem
    cases hmem
  case shut =>
    intro hclosed
    simp [begun] at hclosed

variable {session : SessionState} {index : Nat} {step step' : ExecutionStep}

theorem running_iff : step.running = true ↔ step.alive = true ∧ step.terminal = false := by
  simp [ExecutionStep.running]

theorem Sound.stopped (h : Sound session) (hinactive : session.active = false) (index : Nat)
    (step : ExecutionStep) (hstep : session.steps[index]? = some step) : step.running = false := by
  by_contra hset
  have hactive := ((h.steps index step hstep).pointer (by simpa using hset)).1
  rw [hinactive] at hactive
  cases hactive

theorem finish_of_pointer {isExact success : Bool} (h : session.pointer isExact = some index) :
    session.finish index isExact success =
      { session with
        activeStep := if isExact then session.activeStep else none
        activeExact := if isExact then none else session.activeExact
        active := false
        closed := session.closed || (!success && !session.retentionTransaction)
        providerStates :=
          if session.closed || (!success && !session.retentionTransaction) then []
          else session.providerStates } := by
  unfold finish released closedIf cleared
  cases isExact with
  | true =>
    have hpointer : session.activeExact = some index := h
    simp only [hpointer, if_true]
    cases success <;> cases htransaction : session.retentionTransaction <;>
      cases hclosed : session.closed <;> simp
  | false =>
    have hpointer : session.activeStep = some index := h
    simp only [hpointer, if_true, Bool.false_eq_true, if_false]
    cases success <;> cases htransaction : session.retentionTransaction <;>
      cases hclosed : session.closed <;> simp

/-- The end of a running step: its session is not active any more. -/
def ended (session : SessionState) (index : Nat) (step : ExecutionStep) (success : Bool) :
    SessionState :=
  { session with
    steps := session.steps.set index step
    activeStep := if step.isExact then session.activeStep else none
    activeExact := if step.isExact then none else session.activeExact
    active := false
    closed := session.closed || (!success && !session.retentionTransaction)
    providerStates :=
      if session.closed || (!success && !session.retentionTransaction) then []
      else session.providerStates }

theorem finish_setStep {success : Bool} (h : session.pointer step.isExact = some index) :
    (session.setStep index step).finish index step.isExact success =
      session.ended index step success := by
  have hpointer : (session.setStep index step).pointer step.isExact = some index := h
  rw [finish_of_pointer hpointer]
  rfl

theorem getElem?_set_cases {steps : List ExecutionStep} {other : Nat} {found : ExecutionStep}
    (h : (steps.set index step)[other]? = some found) :
    other = index ∧ found = step ∨ other ≠ index ∧ steps[other]? = some found := by
  rw [List.getElem?_set] at h
  split at h
  next hsame =>
    split at h
    next => exact .inl ⟨hsame.symm, (Option.some.inj h).symm⟩
    next => cases h
  next hother => exact .inr ⟨fun h => hother h.symm, h⟩

theorem Sound.ended {success : Bool} (h : Sound session) (hstep : session.steps[index]? = some step)
    (hrunning : step.running = true) (hkind : step'.isExact = step.isExact)
    (hterminal : step'.terminal = true)
    (hcancelled : step'.unissued = true →
      (session.closed || (!success && !session.retentionTransaction)) = true)
    (hpending : step'.cancelledResultPending = true →
      (session.closed || (!success && !session.retentionTransaction)) = true)
    (hvalid : step'.handle = .valid → step'.alive = true)
    (hresults : step'.results = 0 ∨ step'.results = 1 ∧ step'.handle = .done) :
    Sound (session.ended index step' success) := by
  have hnone : ∀ (other : Nat) (found : ExecutionStep),
      (session.ended index step' success).steps[other]? = some found → found.running = false := by
    intro other found hfound
    rcases getElem?_set_cases hfound with ⟨rfl, rfl⟩ | ⟨hne, hfound⟩
    · simp [ExecutionStep.running, hterminal]
    · by_contra hset
      exact hne (h.single other index found step hfound hstep (by simpa using hset) hrunning)
  have hkept : ∀ (isExact : Bool) (other : Nat),
      (session.ended index step' success).pointer isExact = some other →
      session.pointer isExact = some other ∧ isExact ≠ step.isExact := by
    intro isExact other hpoint
    cases isExact <;> cases hexact : step.isExact <;>
      simp_all [SessionState.pointer, SessionState.ended]
  have hclosed : session.closed = true → (session.ended index step' success).closed = true := by
    intro hclosed
    simp only [SessionState.ended, hclosed, Bool.true_or]
  constructor
  case steps =>
    intro other found hfound
    have hidle := hnone other found hfound
    rcases getElem?_set_cases hfound with ⟨rfl, rfl⟩ | ⟨hne, hfound⟩
    · exact ⟨fun hrun => absurd (hidle.symm.trans hrun) Bool.false_ne_true, fun hunissued _ => hcancelled hunissued,
        fun hset => ⟨hpending hset, rfl, hterminal⟩, hvalid, hresults⟩
    · obtain ⟨-, hcancel, hpend, hvalid', hresults'⟩ := h.steps other found hfound
      exact ⟨fun hrun => absurd (hidle.symm.trans hrun) Bool.false_ne_true,
        fun hunissued hterm => hclosed (hcancel hunissued hterm),
        fun hset => ⟨hclosed (hpend hset).1, rfl, (hpend hset).2.2⟩, hvalid', hresults'⟩
  case single =>
    intro left right leftStep rightStep hleft _ hrun _
    rw [hnone left leftStep hleft] at hrun
    cases hrun
  case bounded =>
    intro isExact other hpoint
    have hlt := h.bounded isExact other (hkept isExact other hpoint).1
    simpa [SessionState.ended] using hlt
  case locked =>
    intro isExact other found hpoint hfound halive
    have hsame := hkept isExact other hpoint
    rcases getElem?_set_cases hfound with ⟨rfl, rfl⟩ | ⟨hne, hfound⟩
    · have hlocked := h.locked isExact other step hsame.1 hstep (running_iff.1 hrunning).1
      exact absurd hlocked.2.symm hsame.2
    · exact h.locked isExact other found hsame.1 hfound halive
  case synchronizing =>
    intro hsync
    have hidle := (h.synchronizing hsync).2 index step hstep
    rw [hrunning] at hidle
    cases hidle
  case cancelling =>
    intro other hother
    obtain ⟨hshut, hfound⟩ := h.cancelling other hother
    refine ⟨hclosed hshut, ?_⟩
    intro found hget
    rcases getElem?_set_cases hget with ⟨rfl, rfl⟩ | ⟨hne, hget⟩
    · exact .inr hterminal
    · exact hfound found hget
  case opened =>
    intro hopen
    simp only [SessionState.ended] at hopen ⊢
    rw [hopen]
    rw [Bool.or_eq_false_iff] at hopen
    exact h.opened hopen.1
  case shut =>
    intro hshut _
    simp only [SessionState.ended] at hshut ⊢
    rw [if_pos hshut]

/-- Parking, transactions and the record are no concern of the invariant. -/
theorem Sound.withRecord (h : Sound session) (parked transaction : Bool)
    (history : List SessionEvent) :
    Sound { session with parked, retentionTransaction := transaction, history } :=
  { h with steps := fun index step hstep => { h.steps index step hstep with } }

theorem Sound.ended_done {success : Bool} (h : Sound session)
    (hstep : session.steps[index]? = some step) (hrunning : step.running = true)
    (hkind : step'.isExact = step.isExact) (hterminal : step'.terminal = true)
    (hdone : step'.handle = .done) (hunpublished : step'.cancelledResultPending = false)
    (hresults : step'.results ≤ 1) : Sound (session.ended index step' success) := by
  refine h.ended hstep hrunning hkind hterminal ?_ (by simp [hunpublished]) (by simp [hdone]) ?_
  · simp [ExecutionStep.unissued, hdone]
  · simpa [hdone, ← Nat.le_one_iff_eq_zero_or_eq_one] using hresults

theorem Sound.setStep (h : Sound session) (hstep : session.steps[index]? = some step)
    (hkind : step'.isExact = step.isExact) (halive : step'.alive = true → step.alive = true)
    (hterminal : step'.terminal = step.terminal)
    (hcancelling : index ∈ session.cancelling → step'.alive = true ∨ step'.terminal = true)
    (hunissued : step'.unissued = true → step.unissued = true)
    (hpending : step'.cancelledResultPending = true → step.cancelledResultPending = true)
    (hvalid : step'.handle = .valid → step'.alive = true)
    (hresults : step'.results = 0 ∨ step'.results = 1 ∧ step'.handle = .done) :
    Sound (session.setStep index step') := by
  have hrunning : step'.running = true → step.running = true := by
    intro hruns
    rw [running_iff] at hruns ⊢
    exact ⟨halive hruns.1, hterminal ▸ hruns.2⟩
  have hbefore : ∀ (other : Nat) (found : ExecutionStep),
      (session.setStep index step').steps[other]? = some found →
      ∃ before, session.steps[other]? = some before ∧
        (found.running = true → before.running = true) ∧
        (found.alive = true → before.alive = true) ∧ found.terminal = before.terminal ∧
        found.isExact = before.isExact := by
    intro other found hfound
    rcases getElem?_set_cases hfound with ⟨rfl, rfl⟩ | ⟨-, hfound⟩
    · exact ⟨step, hstep, hrunning, halive, hterminal, hkind⟩
    · exact ⟨found, hfound, id, id, rfl, rfl⟩
  constructor
  case steps =>
    intro other found hfound
    rcases getElem?_set_cases hfound with ⟨rfl, rfl⟩ | ⟨-, hfound⟩
    · have hold := h.steps other step hstep
      constructor
      case pointer => rw [hkind]; exact fun hruns => hold.pointer (hrunning hruns)
      case cancelled => rw [hterminal]; exact fun hset => hold.cancelled (hunissued hset)
      case pending => rw [hterminal]; exact fun hset => hold.pending (hpending hset)
      case valid => exact hvalid
      case results => exact hresults
    · obtain ⟨hpointer, hcancelled, hpend, hvalid', hresults'⟩ := h.steps other found hfound
      exact ⟨hpointer, hcancelled, hpend, hvalid', hresults'⟩
  case single =>
    intro left right leftStep rightStep hleft hright hleftRuns hrightRuns
    obtain ⟨leftBefore, hleft', hleftSame, -⟩ := hbefore left leftStep hleft
    obtain ⟨rightBefore, hright', hrightSame, -⟩ := hbefore right rightStep hright
    exact h.single left right leftBefore rightBefore hleft' hright' (hleftSame hleftRuns)
      (hrightSame hrightRuns)
  case bounded =>
    intro isExact other hpoint
    have hlt := h.bounded isExact other hpoint
    simpa [SessionState.setStep] using hlt
  case locked =>
    intro isExact other found hpoint hfound hlive
    obtain ⟨before, hget, -, hsameAlive, hsameTerminal, hsameKind⟩ := hbefore other found hfound
    rw [hsameTerminal, hsameKind]
    exact h.locked isExact other before hpoint hget (hsameAlive hlive)
  case synchronizing =>
    intro hsync
    refine ⟨(h.synchronizing hsync).1, ?_⟩
    intro other found hfound
    obtain ⟨before, hget, hsame, -⟩ := hbefore other found hfound
    have hidle := (h.synchronizing hsync).2 other before hget
    by_contra hset
    rw [hsame (by simpa using hset)] at hidle
    cases hidle
  case cancelling =>
    intro other hother
    refine ⟨(h.cancelling other hother).1, ?_⟩
    intro found hfound
    rcases getElem?_set_cases hfound with ⟨rfl, rfl⟩ | ⟨-, hfound⟩
    · exact hcancelling hother
    · exact (h.cancelling other hother).2 found hfound
  case opened => exact h.opened
  case shut => exact h.shut

theorem Sound.setStep_done (h : Sound session) (hstep : session.steps[index]? = some step)
    (hkind : step'.isExact = step.isExact) (halive : step'.alive = true → step.alive = true)
    (hterminal : step'.terminal = step.terminal)
    (hcancelling : index ∈ session.cancelling → step'.alive = true ∨ step'.terminal = true)
    (hpending : step'.cancelledResultPending = true → step.cancelledResultPending = true)
    (hdone : step'.handle = .done) (hresults : step'.results ≤ 1) :
    Sound (session.setStep index step') := by
  refine h.setStep hstep hkind halive hterminal hcancelling ?_ hpending (by simp [hdone]) ?_
  · simp [ExecutionStep.unissued, hdone]
  · simpa [hdone, ← Nat.le_one_iff_eq_zero_or_eq_one] using hresults

section

variable (h : Sound session)

include h

theorem Sound.reserved (hidle : session.idle = true) (step : ExecutionStep)
    (hfresh : step.alive = true ∧ step.terminal = false ∧ step.cancelledResultPending = false ∧
      step.results = 0) :
    Sound { session.addStep step with
      active := true
      activeStep := if step.isExact then session.activeStep else some session.steps.length
      activeExact := if step.isExact then some session.steps.length else session.activeExact } := by
  obtain ⟨hlive, hgoing, hunpublished, hnone⟩ := hfresh
  obtain ⟨hopen, hinactive⟩ : session.closed = false ∧ session.active = false := by
    simpa [idle] using hidle
  have hcases : ∀ (other : Nat) (found : ExecutionStep),
      (session.steps ++ [step])[other]? = some found →
      session.steps[other]? = some found ∨ other = session.steps.length ∧ found = step := by
    intro other found hfound
    rcases Nat.lt_trichotomy other session.steps.length with hlt | heq | hgt
    · rw [List.getElem?_append_left hlt] at hfound
      exact .inl hfound
    · subst heq
      simp only [List.getElem?_concat_length, Option.some.injEq] at hfound
      exact .inr ⟨rfl, hfound.symm⟩
    · rw [List.getElem?_eq_none (by simp; omega)] at hfound
      cases hfound
  have hkept : ∀ (isExact : Bool) (other : Nat),
      (if isExact then if step.isExact then some session.steps.length else session.activeExact
        else if step.isExact then session.activeStep else some session.steps.length) = some other →
      session.pointer isExact = some other ∨
        other = session.steps.length ∧ isExact = step.isExact := by
    intro isExact other hpoint
    cases isExact <;> cases hexact : step.isExact <;>
      simp_all [pointer]
  have hstopped := h.stopped hinactive
  constructor
  case steps =>
    intro other found hfound
    rcases hcases other found hfound with hfound | ⟨rfl, rfl⟩
    · obtain ⟨-, hcancelled, hpending, hvalid, hresults⟩ := h.steps other found hfound
      have hidle := hstopped other found hfound
      refine ⟨fun hrun => absurd (hidle.symm.trans hrun) Bool.false_ne_true, hcancelled, ?_,
        hvalid, hresults⟩
      intro hset
      have hshut := (hpending hset).1
      rw [hopen] at hshut
      cases hshut
    · constructor
      case pointer =>
        cases found.isExact <;> simp [pointer]
      case cancelled => simp [hgoing]
      case pending => simp [hunpublished]
      case valid => exact fun _ => hlive
      case results => exact .inl hnone
  case single =>
    intro left right leftStep rightStep hleft hright hleftRuns hrightRuns
    rcases hcases left leftStep hleft with hleft | ⟨rfl, rfl⟩
    · exact absurd ((hstopped left leftStep hleft).symm.trans hleftRuns) Bool.false_ne_true
    · rcases hcases right rightStep hright with hright | ⟨rfl, rfl⟩
      · exact absurd ((hstopped right rightStep hright).symm.trans hrightRuns) Bool.false_ne_true
      · rfl
  case bounded =>
    intro isExact other hpoint
    have hlt : other < session.steps.length + 1 := by
      rcases hkept isExact other hpoint with hsame | ⟨rfl, -⟩
      · exact Nat.lt_succ_of_lt (h.bounded isExact other hsame)
      · omega
    simpa [addStep] using hlt
  case locked =>
    intro isExact other found hpoint hfound hfoundLive
    rcases hkept isExact other hpoint with hsame | ⟨rfl, hkind⟩
    · have hlt := h.bounded isExact other hsame
      rcases hcases other found hfound with hfound | ⟨rfl, -⟩
      · exact h.locked isExact other found hsame hfound hfoundLive
      · omega
    · rcases hcases _ found hfound with hfound | ⟨-, rfl⟩
      · have hlt := (List.getElem?_eq_some_iff.1 hfound).1
        omega
      · exact ⟨hgoing, hkind.symm⟩
  case synchronizing =>
    intro hsync
    have hactive := (h.synchronizing hsync).1
    simp [hopen, hinactive] at hactive
  case cancelling =>
    intro other hother
    have hshut := (h.cancelling other hother).1
    rw [hopen] at hshut
    cases hshut
  case opened => exact h.opened
  case shut => exact fun hshut => absurd (hopen.symm.trans hshut) Bool.false_ne_true

theorem Sound.emptied :
    Sound { session with closed := true, providerStates := [] } :=
  { h with
    steps := fun index step hstep =>
      { h.steps index step hstep with
        cancelled := fun _ _ => rfl
        pending := fun hset => ⟨rfl, ((h.steps index step hstep).pending hset).2⟩ }
    synchronizing := fun hsync => ⟨.inl ⟨rfl, rfl⟩, (h.synchronizing hsync).2⟩
    cancelling := fun index hindex => ⟨rfl, (h.cancelling index hindex).2⟩
    opened := fun hopen => absurd hopen.symm Bool.false_ne_true
    shut := fun _ _ => rfl }

theorem Sound.synchronized (hidle : session.idle = true) :
    Sound { session with active := true, synchronizing := true } := by
  obtain ⟨hopen, hinactive⟩ : session.closed = false ∧ session.active = false := by
    simpa [idle] using hidle
  have hstopped := h.stopped hinactive
  exact
    { h with
      steps := fun index step hstep =>
        { h.steps index step hstep with
          pointer := fun hrun => absurd (hrun.symm.trans (hstopped index step hstep)) (by simp)
          pending := fun hset => by
            have hshut := ((h.steps index step hstep).pending hset).1
            exact absurd (hopen.symm.trans hshut) Bool.false_ne_true }
      synchronizing := fun _ => ⟨.inr ⟨hopen, rfl⟩, hstopped⟩
      shut := fun hshut => absurd (hopen.symm.trans hshut) Bool.false_ne_true }

theorem Sound.unsynchronized (hsync : session.synchronizing = true) :
    Sound { session with synchronizing := false, active := false } := by
  obtain ⟨hstate, hstopped⟩ := h.synchronizing hsync
  refine
    { h with
      steps := fun index step hstep =>
        { h.steps index step hstep with
          pointer := fun hrun => absurd (hrun.symm.trans (hstopped index step hstep)) (by simp)
          pending := fun hset =>
            have hpending := (h.steps index step hstep).pending hset
            ⟨hpending.1, rfl, hpending.2.2⟩ }
      synchronizing := fun hset => absurd hset Bool.false_ne_true
      shut := fun hshut _ => ?_ }
  rcases hstate with ⟨-, hempty⟩ | ⟨hopen, -⟩
  · exact hempty
  · exact absurd (hopen.symm.trans hshut) Bool.false_ne_true

theorem Sound.cancelledIdle
    (hstopped : ∀ (index : Nat) (step : ExecutionStep), session.steps[index]? = some step →
      step.running = false) :
    Sound { session with closed := true, active := false, providerStates := [] } :=
  { h with
    steps := fun index step hstep =>
      { h.steps index step hstep with
        pointer := fun hrun => absurd (hrun.symm.trans (hstopped index step hstep)) (by simp)
        cancelled := fun _ _ => rfl
        pending := fun hset => ⟨rfl, rfl, ((h.steps index step hstep).pending hset).2.2⟩ }
    synchronizing := fun _ => ⟨.inl ⟨rfl, rfl⟩, hstopped⟩
    cancelling := fun index hindex => ⟨rfl, (h.cancelling index hindex).2⟩
    opened := fun hopen => absurd hopen.symm Bool.false_ne_true
    shut := fun _ _ => rfl }

theorem Sound.closing (hstep : session.steps[index]? = some step)
    (hrunning : step.running = true) (found : List Nat)
    (halive : ∀ other ∈ found, ∀ (held : ExecutionStep), session.steps[other]? = some held →
      held.alive = true) :
    Sound { session with closed := true, cancelling := session.cancelling ++ found } := by
  have hactive := ((h.steps index step hstep).pointer hrunning).1
  refine
    { h with
      steps := fun other held hheld =>
        { h.steps other held hheld with
          cancelled := fun _ _ => rfl
          pending := fun hset => ⟨rfl, ((h.steps other held hheld).pending hset).2⟩ }
      synchronizing := fun hsync => by
        have hidle := (h.synchronizing hsync).2 index step hstep
        exact absurd (hidle.symm.trans hrunning) Bool.false_ne_true
      cancelling := fun other hother => ⟨rfl, fun held hheld => ?_⟩
      opened := fun hopen => absurd hopen.symm Bool.false_ne_true
      shut := fun _ hinactive => absurd (hinactive.symm.trans hactive) Bool.false_ne_true }
  rcases List.mem_append.1 hother with hold | hnew
  · exact (h.cancelling other hold).2 held hheld
  · exact .inl (halive other hnew held hheld)

end

theorem Sound.popped {rest : List Nat} (h : Sound session)
    (hcancelling : session.cancelling = index :: rest) :
    Sound { session with cancelling := rest } :=
  { h with
    steps := fun other held hheld => { h.steps other held hheld with }
    cancelling := fun other hother =>
      h.cancelling other (by rw [hcancelling]; exact List.mem_cons_of_mem _ hother) }

theorem yielded_setStep (hlt : index < session.steps.length) :
    (session.setStep index step).yielded index =
      session.setStep index { step with handle := .done, results := step.results + 1 } := by
  simp only [yielded, setStep, List.modify_eq_set_getElem?, List.getElem?_set_self hlt,
    Option.map_eq_map, Option.map_some, Option.getD_some, List.set_set]

theorem yielded_ended (hlt : index < session.steps.length) {success : Bool} :
    (session.ended index step success).yielded index =
      session.ended index { step with handle := .done, results := step.results + 1 } success := by
  simp only [yielded, ended, List.modify_eq_set_getElem?, List.getElem?_set_self hlt,
    Option.map_eq_map, Option.map_some, Option.getD_some, List.set_set]
  rfl

theorem lt_of_step (hstep : session.steps[index]? = some step) : index < session.steps.length :=
  (List.getElem?_eq_some_iff.1 hstep).1

end SessionState

end QuantumLlm.Runtime.Executor
