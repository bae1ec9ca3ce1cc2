import Mathlib.Algebra.Ring.Nat
import Mathlib.Data.List.Perm.Basic
import Mathlib.Order.Basic
import Mathlib.Tactic.Tauto

/-!
# Tilings of a range

Items with a start and a size cover positions of the natural numbers. Walked in
the order of their starts, items partition a range exactly when each one starts
where the last one ended.
-/

namespace QuantumLlm

open List

section

variable {α : Type*} (start size : α → Nat)

def Covers (item : α) (position : Nat) : Prop :=
  start item ≤ position ∧ position < start item + size item

/-- Non-empty pairwise disjoint items that together cover `[low, high)`. -/
structure Partitions (low high : Nat) (items : List α) : Prop where
  nonempty : ∀ item ∈ items, 0 < size item
  covers : ∀ position, (low ≤ position ∧ position < high) ↔
    ∃ item ∈ items, Covers start size item position
  disjoint : items.Pairwise fun left right =>
    ∀ position, ¬ (Covers start size left position ∧ Covers start size right position)

/-- Each item starts where the last one ended. -/
def Tiles : Nat → List α → Nat → Prop
  | low, [], high => low = high
  | low, item :: rest, high => start item = low ∧ 0 < size item ∧ Tiles (low + size item) rest high

variable {start size} {items : List α} {low high : Nat}

theorem Partitions.perm {other : List α} (h : Partitions start size low high items)
    (hperm : items.Perm other) : Partitions start size low high other where
  nonempty item hitem := h.nonempty item (hperm.mem_iff.2 hitem)
  covers position := by
    rw [h.covers]
    exact exists_congr fun item => by rw [hperm.mem_iff]
  disjoint := (hperm.pairwise_iff fun {left right} hapart position hboth =>
    hapart position ⟨hboth.2, hboth.1⟩).1 h.disjoint

section

variable (h : Tiles start size low items high)

include h

theorem Tiles.le : low ≤ high := by
  induction items generalizing low with
  | nil => exact Nat.le_of_eq h
  | cons item rest ih =>
    have hrest := ih h.2.2
    omega

theorem Tiles.partitions :
    Partitions start size low high items := by
  induction items generalizing low with
  | nil =>
    have heq : low = high := h
    refine ⟨by simp, fun position => ?_, List.Pairwise.nil⟩
    simp only [not_mem_nil, false_and, exists_false, iff_false]
    omega
  | cons item rest ih =>
    obtain ⟨hstart, hsize, hrest⟩ := h
    have hle := hrest.le
    obtain ⟨hnonempty, hcovers, hdisjoint⟩ := ih hrest
    refine ⟨fun other hother => ?_, fun position => ?_, pairwise_cons.2 ⟨?_, hdisjoint⟩⟩
    · rcases mem_cons.1 hother with rfl | hmem
      · exact hsize
      · exact hnonempty other hmem
    · have hlater := hcovers position
      simp only [mem_cons, exists_eq_or_imp]
      rw [← hlater]
      unfold Covers
      omega
    · intro other hother position hboth
      have hlater := (hcovers position).2 ⟨other, hother, hboth.2⟩
      have hfirst := hboth.1
      unfold Covers at hfirst
      omega

theorem Tiles.sum :
    low + (items.map size).sum = high := by
  induction items generalizing low with
  | nil => exact h
  | cons item rest ih =>
    have hrest := ih h.2.2
    rw [map_cons, sum_cons]
    omega

end

theorem Partitions.head {item : α} {rest : List α}
    (h : Partitions start size low high (item :: rest))
    (hsorted : ∀ other ∈ rest, start item ≤ start other) : start item = low := by
  have hsize := h.nonempty item mem_cons_self
  have hfirst := (h.covers (start item)).2
    ⟨item, mem_cons_self, Nat.le_refl _, Nat.lt_add_of_pos_right hsize⟩
  obtain ⟨other, hother, hcovers⟩ := (h.covers low).1 ⟨Nat.le_refl _, by omega⟩
  unfold Covers at hcovers
  rcases mem_cons.1 hother with rfl | hmem
  · omega
  · have hle := hsorted other hmem
    omega

theorem Partitions.tail {item : α} {rest : List α}
    (h : Partitions start size low high (item :: rest)) (hstart : start item = low) :
    low + size item ≤ high ∧ Partitions start size (low + size item) high rest := by
  have hsize := h.nonempty item mem_cons_self
  obtain ⟨hapart, hdisjoint⟩ := pairwise_cons.1 h.disjoint
  have hlast := (h.covers (low + size item - 1)).2
    ⟨item, mem_cons_self, by unfold Covers; omega⟩
  refine ⟨by omega, fun other hother => h.nonempty other (mem_cons_of_mem _ hother),
    fun position => ?_, hdisjoint⟩
  constructor
  · intro hposition
    obtain ⟨other, hother, hcovers⟩ := (h.covers position).1 ⟨by omega, hposition.2⟩
    rcases mem_cons.1 hother with rfl | hmem
    · unfold Covers at hcovers
      omega
    · exact ⟨other, hmem, hcovers⟩
  · rintro ⟨other, hother, hcovers⟩
    have hinside := (h.covers position).2 ⟨other, mem_cons_of_mem _ hother, hcovers⟩
    have hoff : ¬ Covers start size item position :=
      fun hitem => hapart other hother position ⟨hitem, hcovers⟩
    unfold Covers at hoff
    omega

theorem tiles_iff_partitions (hle : low ≤ high)
    (hsorted : items.Pairwise fun left right => start left ≤ start right) :
    Tiles start size low items high ↔ Partitions start size low high items := by
  refine ⟨Tiles.partitions, fun h => ?_⟩
  induction items generalizing low with
  | nil =>
    by_contra hne
    have hgap : low ≤ low ∧ low < high :=
      ⟨Nat.le_refl _, Nat.lt_of_le_of_ne hle hne⟩
    obtain ⟨item, hitem, -⟩ := (h.covers low).1 hgap
    cases hitem
  | cons item rest ih =>
    obtain ⟨hfirst, hrest⟩ := pairwise_cons.1 hsorted
    have hstart := h.head hfirst
    obtain ⟨hend, htail⟩ := h.tail hstart
    exact ⟨hstart, h.nonempty item mem_cons_self, ih hend hrest htail⟩

end

end QuantumLlm
