import QuantumLlm.Lib.OrderedSet
import Mathlib.Algebra.BigOperators.Group.List.Basic
import Mathlib.Algebra.Order.BigOperators.Group.List
import Mathlib.Algebra.Order.Ring.Nat
import Mathlib.Tactic.Abel

/-!
# Tables

A finite map over an ordered key set with a total lookup: a key outside the set
reads as the default value. Sums over a table move by exactly the change of the
one value that changed, which is what a running counter relies on.
-/

namespace QuantumLlm

open List

structure Table (K V : Type*) [LinearOrder K] [Inhabited V] where
  keys : OrderedSet K
  get : K → V
  get_of_not_mem : ∀ key, key ∉ keys → get key = default

namespace Table

variable {K V M : Type*} [LinearOrder K] [Inhabited V]

def empty : Table K V := ⟨OrderedSet.empty, fun _ => default, fun _ _ => rfl⟩

/-- Adds `key` with `value`; a key already there keeps its value. -/
def tryEmplace (table : Table K V) (key : K) (value : V) : Table K V :=
  if hkey : key ∈ table.keys then table
  else
    { keys := table.keys.insert key
      get := fun other => if other = key then value else table.get other
      get_of_not_mem := by
        intro other hother
        simp only [OrderedSet.mem_insert, not_or] at hother
        rw [if_neg hother.1, table.get_of_not_mem other hother.2] }

/-- Rewrites the value of a key in the table. -/
def modify (table : Table K V) (key : K) (change : V → V) : Table K V where
  keys := table.keys
  get := fun other =>
    if other = key ∧ key ∈ table.keys then change (table.get other) else table.get other
  get_of_not_mem := by
    intro other hother
    split
    next h => exact (hother (h.1 ▸ h.2)).elim
    next => exact table.get_of_not_mem other hother

/-- Rewrites every value. -/
def mapValues (table : Table K V) (change : V → V) : Table K V where
  keys := table.keys
  get := fun other => if other ∈ table.keys then change (table.get other) else default
  get_of_not_mem := fun _ hother => if_neg hother

section

variable {table : Table K V} {key other : K} {value : V} {change : V → V}

@[simp] theorem keys_modify : (table.modify key change).keys = table.keys := rfl

@[simp] theorem keys_mapValues : (table.mapValues change).keys = table.keys := rfl

theorem get_modify_self (h : key ∈ table.keys) :
    (table.modify key change).get key = change (table.get key) := by
  simp [modify, h]

@[simp] theorem get_modify_ne (h : other ≠ key) :
    (table.modify key change).get other = table.get other := by
  simp [modify, h]

theorem get_mapValues (h : key ∈ table.keys) :
    (table.mapValues change).get key = change (table.get key) := by
  simp [mapValues, h]

theorem mem_keys_tryEmplace :
    other ∈ (table.tryEmplace key value).keys ↔ other = key ∨ other ∈ table.keys := by
  unfold tryEmplace
  split
  next h => exact ⟨Or.inr, fun hor => hor.elim (fun heq => heq ▸ h) id⟩
  next => exact OrderedSet.mem_insert

theorem get_tryEmplace_self (h : key ∉ table.keys) :
    (table.tryEmplace key value).get key = value := by
  simp [tryEmplace, h]

theorem get_tryEmplace_ne (h : other ≠ key) :
    (table.tryEmplace key value).get other = table.get other := by
  unfold tryEmplace
  split <;> simp [h]

theorem tryEmplace_of_mem (h : key ∈ table.keys) : table.tryEmplace key value = table := by
  simp [tryEmplace, h]

end

/-- The sum of `weight` over the entries. -/
def sum [AddCommMonoid M] (table : Table K V) (weight : K → V → M) : M :=
  (table.keys.items.map fun key => weight key (table.get key)).sum

section

variable [AddCommMonoid M] {table table' : Table K V} {weight weight' : K → V → M} {key : K}

theorem sum_congr (hkeys : table'.keys = table.keys)
    (h : ∀ key ∈ table.keys, weight' key (table'.get key) = weight key (table.get key)) :
    table'.sum weight' = table.sum weight := by
  unfold sum
  rw [hkeys]
  exact congrArg List.sum (map_congr_left h)

theorem sum_eq_add_erase (h : key ∈ table.keys) :
    table.sum weight = weight key (table.get key) +
      ((table.keys.items.erase key).map fun other => weight other (table.get other)).sum := by
  unfold sum
  rw [((perm_cons_erase h).map _).sum_eq, map_cons, sum_cons]

theorem sum_exchange (hkey : key ∈ table.keys) (hkeys : table'.keys = table.keys)
    (hothers : ∀ other, other ≠ key → table'.get other = table.get other) :
    table'.sum weight + weight key (table.get key) =
      table.sum weight + weight key (table'.get key) := by
  have hkey' : key ∈ table'.keys := hkeys ▸ hkey
  rw [sum_eq_add_erase hkey, sum_eq_add_erase hkey', hkeys]
  have hrest : (table.keys.items.erase key).map (fun other => weight other (table'.get other)) =
      (table.keys.items.erase key).map fun other => weight other (table.get other) := by
    refine map_congr_left fun other hother => ?_
    rw [hothers other ((table.keys.nodup.mem_erase_iff.1 hother).1)]
  rw [hrest]
  abel

theorem sum_tryEmplace {value : V} (h : key ∉ table.keys) :
    (table.tryEmplace key value).sum weight = table.sum weight + weight key value := by
  have hperm : (insertSorted key table.keys.items).Perm (key :: table.keys.items) :=
    insertSorted_perm h
  have hvalues : ∀ other ∈ table.keys.items,
      weight other ((table.tryEmplace key value).get other) = weight other (table.get other) := by
    intro other hother
    rw [get_tryEmplace_ne]
    rintro rfl
    exact h hother
  have hkeys : (table.tryEmplace key value).keys.items = insertSorted key table.keys.items := by
    simp [tryEmplace, h, OrderedSet.insert]
  unfold sum
  rw [hkeys, (hperm.map _).sum_eq, map_cons, sum_cons, get_tryEmplace_self h,
    map_congr_left hvalues]
  abel

end

section

variable {table : Table K V} {weight bound : K → V → ℕ} {key : K}

theorem le_sum (h : key ∈ table.keys) : weight key (table.get key) ≤ table.sum weight := by
  rw [sum_eq_add_erase h]
  exact Nat.le_add_right _ _

theorem sum_le_sum (h : ∀ key ∈ table.keys, weight key (table.get key) ≤ bound key (table.get key)) :
    table.sum weight ≤ table.sum bound :=
  List.sum_le_sum h

theorem sum_eq_zero_iff : table.sum weight = 0 ↔
    ∀ key ∈ table.keys, weight key (table.get key) = 0 := by
  simp [sum, List.sum_eq_zero_iff, OrderedSet.mem_def]

end

end Table

end QuantumLlm
