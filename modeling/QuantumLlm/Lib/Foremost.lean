import Mathlib.Data.List.Basic

/-!
# The foremost of a list

A scan that keeps the best item so far, and leaves it only for one that it is strictly
behind. If being behind is a strict weak order, nothing is before what the scan ends with.
-/

namespace QuantumLlm

open List

variable {α : Type*} {before : α → α → Bool} {items : List α} {item best : α} {start : Option α}

def keepForemost (before : α → α → Bool) (best : Option α) (item : α) : Option α :=
  if best.all (before item) then some item else best

def foremost (before : α → α → Bool) (items : List α) : Option α :=
  items.foldl (keepForemost before) none

theorem keepForemost_some (before : α → α → Bool) (best item : α) :
    keepForemost before (some best) item = if before item best then some item else some best := rfl

theorem mem_of_scan (h : items.foldl (keepForemost before) start = some best) :
    start = some best ∨ best ∈ items := by
  induction items generalizing start with
  | nil => exact .inl h
  | cons first rest ih =>
    rw [foldl_cons] at h
    rcases ih h with hkept | hmem
    · unfold keepForemost at hkept
      split at hkept
      · cases hkept
        exact .inr mem_cons_self
      · exact .inl hkept
    · exact .inr (mem_cons_of_mem _ hmem)

theorem mem_of_foremost (h : foremost before items = some best) : best ∈ items := by
  rcases mem_of_scan h with hnone | hmem
  · cases hnone
  · exact hmem

theorem scan_isSome (h : start.isSome ∨ items ≠ []) :
    (items.foldl (keepForemost before) start).isSome := by
  induction items generalizing start with
  | nil => simpa using h
  | cons first rest ih =>
    rw [foldl_cons]
    refine ih (.inl ?_)
    cases start with
    | none => rfl
    | some best =>
      rw [keepForemost_some]
      split <;> rfl

theorem foremost_eq_none_iff : foremost before items = none ↔ items = [] := by
  constructor
  · intro hnone
    by_contra hsome
    have hfound := @scan_isSome _ before items none (.inr hsome)
    unfold foremost at hnone
    rw [hnone] at hfound
    cases hfound
  · intro hnil
    rw [hnil]
    rfl

section

variable
  (htrans : ∀ left middle right, before left middle = false → before middle right = false → before left right = false)
  (hasymm : ∀ left right, before left right = true → before right left = false)

include htrans hasymm

/-- Nothing that the scan has seen is before what it ends with: a step to something before it
keeps that, since not being before is transitive. -/
theorem not_before_scan (h : items.foldl (keepForemost before) start = some best) :
    (∀ first, start = some first → before first best = false) ∧
      ∀ item ∈ items, before item best = false := by
  induction items generalizing start with
  | nil =>
    rw [foldl_nil] at h
    refine ⟨fun first hfirst => ?_, fun item hitem => absurd hitem not_mem_nil⟩
    rw [h] at hfirst
    cases hfirst
    by_contra hbefore
    exact absurd (hasymm _ _ (by simpa using hbefore)) hbefore
  | cons item rest ih =>
    rw [foldl_cons] at h
    obtain ⟨hkept, hrest⟩ := ih h
    cases start with
    | none =>
      refine ⟨nofun, forall_mem_cons.2 ⟨?_, hrest⟩⟩
      exact hkept item rfl
    | some first =>
      rw [keepForemost_some] at hkept
      by_cases hbefore : before item first = true
      · rw [if_pos hbefore] at hkept
        have hitem := hkept item rfl
        refine ⟨fun other hother => ?_, forall_mem_cons.2 ⟨hitem, hrest⟩⟩
        cases hother
        exact htrans _ _ _ (hasymm _ _ hbefore) hitem
      · rw [if_neg hbefore] at hkept
        have hfirst := hkept first rfl
        refine ⟨fun other hother => ?_, forall_mem_cons.2 ⟨?_, hrest⟩⟩
        · cases hother
          exact hfirst
        · exact htrans _ _ _ (by simpa using hbefore) hfirst

theorem not_before_foremost
    (h : foremost before items = some best) : ∀ item ∈ items, before item best = false :=
  (not_before_scan htrans hasymm h).2

end

end QuantumLlm
