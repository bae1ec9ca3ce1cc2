import Mathlib.Order.Basic
import Mathlib.Order.Lattice
import Mathlib.Data.List.Perm.Basic

/-!
# Ordered sets

A finite set kept as the strictly increasing list of its elements, so that a walk
over the set is a walk over a list and the walk order is the element order.
-/

namespace QuantumLlm

open List

/-- Insertion into an increasing list; an element already there is not repeated. -/
def insertSorted {K : Type*} [LinearOrder K] (key : K) : List K → List K
  | [] => [key]
  | head :: rest =>
    if key < head then key :: head :: rest
    else if key = head then head :: rest
    else head :: insertSorted key rest

section

variable {K : Type*} [LinearOrder K] {key other : K} {items : List K}

@[simp] theorem insertSorted_nil : insertSorted key [] = [key] := rfl

theorem insertSorted_cons (head : K) (rest : List K) : insertSorted key (head :: rest) =
    if key < head then key :: head :: rest
    else if key = head then head :: rest
    else head :: insertSorted key rest := rfl

@[simp] theorem mem_insertSorted : other ∈ insertSorted key items ↔ other = key ∨ other ∈ items := by
  induction items with
  | nil => simp
  | cons head rest ih =>
    rw [insertSorted_cons]
    split
    · simp
    · split
      next h => simp [h]
      next => simp only [mem_cons, ih]; tauto

theorem pairwise_insertSorted (h : items.Pairwise (· < ·)) :
    (insertSorted key items).Pairwise (· < ·) := by
  induction items with
  | nil => simp
  | cons head rest ih =>
    obtain ⟨hhead, hrest⟩ := pairwise_cons.1 h
    rw [insertSorted_cons]
    split
    next hlt =>
      refine pairwise_cons.2 ⟨?_, h⟩
      intro item hitem
      rcases mem_cons.1 hitem with rfl | hmem
      · exact hlt
      · exact hlt.trans (hhead item hmem)
    next hnlt =>
      split
      next => exact h
      next hne =>
        refine pairwise_cons.2 ⟨?_, ih hrest⟩
        intro item hitem
        rcases mem_insertSorted.1 hitem with rfl | hmem
        · exact lt_of_le_of_ne (not_lt.1 hnlt) (Ne.symm hne)
        · exact hhead item hmem

theorem insertSorted_perm (h : key ∉ items) : (insertSorted key items).Perm (key :: items) := by
  induction items with
  | nil => simp
  | cons head rest ih =>
    have hne : key ≠ head := fun heq => h (heq ▸ mem_cons_self)
    have hrest : key ∉ rest := fun hmem => h (mem_cons_of_mem _ hmem)
    simp only [insertSorted_cons, hne, if_false]
    split
    · exact List.Perm.refl _
    · exact ((ih hrest).cons head).trans (List.Perm.swap _ _ _)

end

structure OrderedSet (K : Type*) [LinearOrder K] where
  items : List K
  sorted : items.Pairwise (· < ·)

namespace OrderedSet

variable {K : Type*} [LinearOrder K]

instance : Membership K (OrderedSet K) := ⟨fun set key => key ∈ set.items⟩

instance (key : K) (set : OrderedSet K) : Decidable (key ∈ set) :=
  inferInstanceAs (Decidable (key ∈ set.items))

variable {key other : K} {set : OrderedSet K}

theorem mem_def : key ∈ set ↔ key ∈ set.items := Iff.rfl

def empty : OrderedSet K := ⟨[], List.Pairwise.nil⟩

def insert (set : OrderedSet K) (key : K) : OrderedSet K :=
  ⟨insertSorted key set.items, pairwise_insertSorted set.sorted⟩

def erase (set : OrderedSet K) (key : K) : OrderedSet K :=
  ⟨set.items.filter (· ≠ key), set.sorted.filter _⟩

@[simp] theorem not_mem_empty (key : K) : key ∉ (empty : OrderedSet K) := not_mem_nil

@[simp] theorem mem_insert :
    other ∈ set.insert key ↔ other = key ∨ other ∈ set := mem_insertSorted

@[simp] theorem mem_erase :
    other ∈ set.erase key ↔ other ≠ key ∧ other ∈ set := by
  simp [mem_def, erase, and_comm]

theorem nodup (set : OrderedSet K) : set.items.Nodup := set.sorted.imp fun h => h.ne

def ofList (keys : List K) : OrderedSet K := keys.foldr (fun key set => set.insert key) empty

theorem ofList_items (set : OrderedSet K) : ofList set.items = set := by
  obtain ⟨items, hsorted⟩ := set
  induction items with
  | nil => rfl
  | cons head rest ih =>
    obtain ⟨hhead, hrest⟩ := pairwise_cons.1 hsorted
    have hinsert : insertSorted head rest = head :: rest := by
      cases rest with
      | nil => rfl
      | cons next rest => rw [insertSorted_cons, if_pos (hhead next mem_cons_self)]
    change (ofList rest).insert head = _
    rw [ih hrest]
    simp only [insert, hinsert]

end OrderedSet

end QuantumLlm
