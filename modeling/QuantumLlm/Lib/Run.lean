import Mathlib.Logic.Basic

/-!
# Runs of labelled systems

A system is a partial step function over labelled actions. `Reaches` collects the
states of the runs all of whose steps meet a side condition; an invariant is
proved once per step.
-/

namespace QuantumLlm

/-- States of the runs from `start` whose every step satisfies `allowed`. -/
inductive Reaches {σ α : Type*} (step : σ → α → Option σ) (allowed : σ → α → Prop) (start : σ) :
    σ → Prop where
  | refl : Reaches step allowed start start
  | next {state state' : σ} {action : α} : Reaches step allowed start state →
      allowed state action → step state action = some state' →
      Reaches step allowed start state'

/-- Executes a list of actions. -/
def runActions {σ α : Type*} (step : σ → α → Option σ) : σ → List α → Option σ
  | state, [] => some state
  | state, action :: rest =>
    match step state action with
    | none => none
    | some state' => runActions step state' rest

theorem runActions_append {σ α : Type*} {step : σ → α → Option σ} {state middle : σ}
    {first : List α} (h : runActions step state first = some middle) (second : List α) :
    runActions step state (first ++ second) = runActions step middle second := by
  induction first generalizing state with
  | nil =>
    cases h
    rfl
  | cons action rest ih =>
    simp only [runActions, List.cons_append] at h ⊢
    cases hstep : step state action with
    | none => simp [hstep] at h
    | some state' =>
      simp only [hstep] at h ⊢
      exact ih h

/-- Executes a list of actions whose steps all pass a check. -/
def runChecked {σ α : Type*} (step : σ → α → Option σ) (check : σ → α → Bool) :
    σ → List α → Option σ
  | state, [] => some state
  | state, action :: rest =>
    match check state action, step state action with
    | true, some state' => runChecked step check state' rest
    | _, _ => none

namespace Reaches

variable {σ α : Type*} {step : σ → α → Option σ} {allowed weaker : σ → α → Prop} {start state : σ}

/-- An invariant of the start that every allowed step keeps holds in every state. -/
theorem invariant {holds : σ → Prop} (h : Reaches step allowed start state)
    (hstart : holds start)
    (hstep : ∀ {state state' action}, Reaches step allowed start state → holds state →
      allowed state action → step state action = some state' → holds state') :
    holds state := by
  induction h with
  | refl => exact hstart
  | next hreach hallowed hnext ih => exact hstep hreach ih hallowed hnext

theorem trans {middle : σ} (first : Reaches step allowed start middle)
    (second : Reaches step allowed middle state) : Reaches step allowed start state := by
  induction second with
  | refl => exact first
  | next _ hallowed hnext ih => exact ih.next hallowed hnext

variable {actions : List α} {state' : σ}

theorem of_runActions (h : runActions step state actions = some state') :
    Reaches step (fun _ _ => True) state state' := by
  induction actions generalizing state with
  | nil =>
    simp only [runActions, Option.some.injEq] at h
    exact h ▸ refl
  | cons action rest ih =>
    simp only [runActions] at h
    cases hstep : step state action with
    | none => simp [hstep] at h
    | some middle =>
      simp only [hstep] at h
      exact (refl.next trivial hstep).trans (ih h)

theorem of_runChecked {check : σ → α → Bool}
    (hcheck : ∀ state action, check state action = true → allowed state action)
    (h : runChecked step check state actions = some state') : Reaches step allowed state state' := by
  induction actions generalizing state with
  | nil =>
    simp only [runChecked, Option.some.injEq] at h
    exact h ▸ refl
  | cons action rest ih =>
    simp only [runChecked] at h
    split at h
    next middle hpassed hstep => exact (refl.next (hcheck _ _ hpassed) hstep).trans (ih h)
    next => cases h

end Reaches

section

variable {σ α : Type*} (step : σ → α → Option σ)

/-- Every state that these actions pass through. -/
def Along (holds : σ → Prop) : σ → List α → Prop
  | state, [] => holds state
  | state, action :: rest =>
    holds state ∧ ∀ state', step state action = some state' → Along holds state' rest

/-- Every step that these actions take. -/
def StepsAlong (allowed : σ → α → Prop) : σ → List α → Prop
  | _, [] => True
  | state, action :: rest =>
    ∀ state', step state action = some state' →
      allowed state action ∧ StepsAlong allowed state' rest

variable {step} {holds invariant : σ → Prop} {allowed : σ → α → Prop}

variable {state : σ} {actions : List α}

theorem Along.head (h : Along step holds state actions) :
    holds state := by
  cases actions with
  | nil => exact h
  | cons action rest => exact h.1

theorem Along.last {state' : σ} (h : Along step holds state actions)
    (hrun : runActions step state actions = some state') : holds state' := by
  induction actions generalizing state with
  | nil =>
    cases hrun
    exact h
  | cons action rest ih =>
    rw [runActions] at hrun
    split at hrun
    next => cases hrun
    next middle hstep => exact ih (h.2 middle hstep) hrun

/-- When the allowed steps keep an invariant and any other step breaks the property at
once, the property holds along exactly the runs of allowed steps. -/
theorem along_iff_steps (hholds : ∀ state, invariant state → holds state)
    (hkeeps : ∀ {state state' action}, invariant state → allowed state action →
      step state action = some state' → invariant state')
    (hbreaks : ∀ {state state' action}, invariant state → ¬ allowed state action →
      step state action = some state' → ¬ holds state')
    {start : σ} (hstart : invariant start) (actions : List α) :
    Along step holds start actions ↔ StepsAlong step allowed start actions := by
  induction actions generalizing start with
  | nil => exact iff_of_true (hholds start hstart) trivial
  | cons action rest ih =>
    constructor
    · rintro ⟨-, hrest⟩ state' hstep
      have hnext := hrest state' hstep
      have hallowed : allowed start action :=
        Classical.byContradiction fun hnot => hbreaks hstart hnot hstep hnext.head
      exact ⟨hallowed, (ih (hkeeps hstart hallowed hstep)).1 hnext⟩
    · intro h
      refine ⟨hholds start hstart, fun state' hstep => ?_⟩
      obtain ⟨hallowed, hrest⟩ := h state' hstep
      exact (ih (hkeeps hstart hallowed hstep)).2 hrest

end

end QuantumLlm
