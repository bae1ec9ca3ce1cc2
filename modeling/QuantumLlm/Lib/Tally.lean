import Mathlib.Algebra.Order.BigOperators.Group.List
import Mathlib.Data.List.Basic
import Mathlib.Tactic.Ring

/-!
# Tables of counters

What changing one entry of a list does to the sum of a weight and to a property
of all entries.
-/

namespace QuantumLlm

open List

variable {α : Type*} {entries : List α} {index : Nat} {change : α → α} {weight : α → Nat}

theorem sum_map_modify {amount : Nat} (hindex : index < entries.length)
    (hchange : ∀ entry ∈ entries, weight (change entry) = weight entry + amount) :
    ((entries.modify index change).map weight).sum = (entries.map weight).sum + amount := by
  obtain ⟨before, entry, after, hentries, -, hmodify⟩ := exists_of_modify change hindex
  have hentry : entry ∈ entries := by rw [hentries]; simp
  rw [hmodify, hentries]
  simp only [map_append, map_cons, sum_append, sum_cons, hchange entry hentry]
  omega

theorem forall_mem_modify {holds : α → Prop} (hall : ∀ entry ∈ entries, holds entry)
    (hchange : ∀ entry ∈ entries, holds (change entry)) :
    ∀ entry ∈ entries.modify index change, holds entry := by
  by_cases hindex : index < entries.length
  · obtain ⟨before, entry, after, hentries, -, hmodify⟩ := exists_of_modify change hindex
    intro other hother
    rw [hmodify, mem_append, mem_cons] at hother
    rcases hother with hmem | rfl | hmem
    · exact hall other (by rw [hentries]; simp [hmem])
    · exact hchange entry (by rw [hentries]; simp)
    · exact hall other (by rw [hentries]; simp [hmem])
  · rw [modify_eq_self (Nat.le_of_not_lt hindex)]
    exact hall

theorem le_sum_map {entry : α} (h : entry ∈ entries) : weight entry ≤ (entries.map weight).sum :=
  le_sum_of_mem (mem_map_of_mem h)

end QuantumLlm
