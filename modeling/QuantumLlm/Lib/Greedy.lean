import Mathlib.Algebra.Order.BigOperators.Group.List
import Mathlib.Algebra.Order.Ring.Nat

/-!
# Greedy release

A need is met from a list of holders in order: each gives what is still needed,
up to what it can spare.
-/

namespace QuantumLlm

open List

/-- Each holder with what it gives. -/
def greedyRelease {α : Type*} (spare : α → Nat) : Nat → List α → List (α × Nat)
  | _, [] => []
  | need, holder :: rest =>
    (holder, min need (spare holder)) ::
      greedyRelease spare (need - min need (spare holder)) rest

section

variable {α : Type*} {spare : α → Nat} {need : Nat} {holders : List α}

@[simp] theorem greedyRelease_nil : greedyRelease spare need [] = [] := rfl

@[simp] theorem greedyRelease_cons (holder : α) (rest : List α) :
    greedyRelease spare need (holder :: rest) = (holder, min need (spare holder)) ::
      greedyRelease spare (need - min need (spare holder)) rest := rfl

theorem greedyRelease_holders : (greedyRelease spare need holders).map Prod.fst = holders := by
  induction holders generalizing need with
  | nil => rfl
  | cons holder rest ih => simp [ih]

theorem greedyRelease_le_spare :
    ∀ pair ∈ greedyRelease spare need holders, pair.2 ≤ spare pair.1 := by
  induction holders generalizing need with
  | nil => simp
  | cons holder rest ih =>
    intro pair hpair
    rcases mem_cons.1 hpair with rfl | hrest
    · exact Nat.min_le_right _ _
    · exact ih pair hrest

theorem greedyRelease_sum :
    ((greedyRelease spare need holders).map Prod.snd).sum = min need (holders.map spare).sum := by
  induction holders generalizing need with
  | nil => simp
  | cons holder rest ih =>
    simp only [greedyRelease_cons, map_cons, sum_cons, ih]
    omega

theorem greedyRelease_zero : greedyRelease spare 0 holders = holders.map (·, 0) := by
  induction holders with
  | nil => rfl
  | cons holder rest ih => simp [ih]

theorem greedyRelease_of_zero :
    ∀ pair ∈ greedyRelease spare 0 holders, pair.2 = 0 := by
  rw [greedyRelease_zero]
  intro pair hpair
  obtain ⟨holder, _, rfl⟩ := mem_map.1 hpair
  rfl

theorem greedyRelease_ordered : (greedyRelease spare need holders).Pairwise
    fun ahead behind => 0 < behind.2 → ahead.2 = spare ahead.1 := by
  induction holders generalizing need with
  | nil => exact List.Pairwise.nil
  | cons holder rest ih =>
    refine pairwise_cons.2 ⟨?_, ih⟩
    intro behind hbehind hgives
    by_cases hmet : need ≤ spare holder
    · have hnone : need - min need (spare holder) = 0 := by omega
      rw [hnone] at hbehind
      have hzero := greedyRelease_of_zero behind hbehind
      omega
    · show min need (spare holder) = spare holder
      omega

theorem greedyRelease_needed {before after : List (α × Nat)} {pair : α × Nat}
    (hsplit : greedyRelease spare need holders = before ++ pair :: after) :
    (before.map Prod.snd).sum + pair.2 ≤ need := by
  have hsum := @greedyRelease_sum α spare need holders
  rw [hsplit] at hsum
  simp only [map_append, map_cons, sum_append, sum_cons] at hsum
  omega

end

end QuantumLlm
