import Mathlib.Data.List.Forall2

/-!
# Lists related entry by entry

What `List.Forall₂` says about single entries, from either side.
-/

namespace QuantumLlm

open List

variable {A B : Type*} {holds : A → B → Prop} {left : List A} {right : List B}

theorem forall₂_map {items : List A} {result : A → B}
    (h : ∀ item ∈ items, holds item (result item)) : List.Forall₂ holds items (items.map result) := by
  rw [forall₂_map_right_iff, forall₂_same]
  exact h

section

variable (h : List.Forall₂ holds left right)

include h

theorem forall₂_getElem? {index : Nat} {item : A} {other : B}
    (hleft : left[index]? = some item) (hright : right[index]? = some other) :
    holds item other := by
  induction h generalizing index with
  | nil => simp at hleft
  | cons hfirst _ ih =>
    cases index with
    | zero =>
      cases hleft
      cases hright
      exact hfirst
    | succ index => exact ih (by simpa using hleft) (by simpa using hright)

theorem forall₂_mem_left {item : A} (hmem : item ∈ left) :
    ∃ other ∈ right, holds item other := by
  induction h with
  | nil => cases hmem
  | @cons first other rest others hfirst _ ih =>
    rcases mem_cons.1 hmem with rfl | hmem
    · exact ⟨other, mem_cons_self, hfirst⟩
    · obtain ⟨found, hfound, hholds⟩ := ih hmem
      exact ⟨found, mem_cons_of_mem _ hfound, hholds⟩

theorem forall₂_mem_right {other : B} (hmem : other ∈ right) :
    ∃ item ∈ left, holds item other :=
  forall₂_mem_left h.flip hmem

theorem forall₂_mem :
    List.Forall₂ (fun item other => holds item other ∧ item ∈ left ∧ other ∈ right) left right := by
  induction h with
  | nil => exact .nil
  | cons hfirst _ ih =>
    refine .cons ⟨hfirst, mem_cons_self, mem_cons_self⟩ (ih.imp ?_)
    intro item other hboth
    exact ⟨hboth.1, mem_cons_of_mem _ hboth.2.1, mem_cons_of_mem _ hboth.2.2⟩

theorem forall₂_map_eq {C D : Type*} {also : A → C → Prop} {others : List C} {first : B → D}
    {second : C → D} (h' : List.Forall₂ also left others)
    (heq : ∀ item result other, holds item result → also item other → first result = second other) :
    right.map first = others.map second := by
  induction h generalizing others with
  | nil =>
    cases h'
    rfl
  | cons hfirst _ ih =>
    cases h' with
    | cons hsecond hrest => rw [map_cons, map_cons, heq _ _ _ hfirst hsecond, ih hrest]

end

theorem forall₂_comp {C : Type*} {next : B → C → Prop} {final : List C}
    (first : List.Forall₂ holds left right) (second : List.Forall₂ next right final) :
    List.Forall₂ (fun item other => ∃ middle, holds item middle ∧ next middle other) left final := by
  induction first generalizing final with
  | nil =>
    cases second
    exact .nil
  | cons hfirst _ ih =>
    cases second with
    | cons hsecond hrest => exact .cons ⟨_, hfirst, hsecond⟩ (ih hrest)

end QuantumLlm
