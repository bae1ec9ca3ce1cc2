import Mathlib.Data.List.Basic

/-!
# Histories

A property of every event of a history in the light of what happened before it,
kept when the history grows by one event.
-/

namespace QuantumLlm

/-- Every event of the history meets `holds` with the events before it. -/
def Chronicle {E : Type*} (holds : List E → E → Prop) (history : List E) : Prop :=
  ∀ before event after, history = before ++ event :: after → holds before event

section

variable {E : Type*} {holds : List E → E → Prop} {history : List E} {event : E}

theorem Chronicle.nil : Chronicle holds [] := by
  intro before event after hsplit
  cases before <;> cases hsplit

theorem Chronicle.snoc (h : Chronicle holds history) (hevent : holds history event) :
    Chronicle holds (history ++ [event]) := by
  intro before other after hsplit
  rcases List.eq_nil_or_concat after with rfl | ⟨rest, last, rfl⟩
  · obtain ⟨rfl, hlast⟩ := List.append_inj' hsplit rfl
    cases hlast
    exact hevent
  · have hshift : before ++ other :: (rest ++ [last]) = (before ++ other :: rest) ++ [last] := by
      simp
    rw [List.concat_eq_append, hshift] at hsplit
    exact h before other rest (List.append_inj' hsplit rfl).1

end

end QuantumLlm
