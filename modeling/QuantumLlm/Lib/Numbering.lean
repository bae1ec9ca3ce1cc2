import Mathlib.Data.List.Nodup
import Mathlib.Data.UInt

/-!
# Numbered names

Association lists whose names are different, and the numbers that names get in
the order in which they were added.
-/

namespace QuantumLlm

open List

section

variable {K V W : Type*} {table : List (K × V)} {key : K} {value : V}

/-- Every name with its number, in the representation of numbers at hand. -/
def numbered (number : Nat → W) (table : List (K × V)) : List (K × W) :=
  table.zipIdx.map fun entry => (entry.1.1, number entry.2)

variable {number : Nat → W}

@[simp] theorem numbered_nil : numbered number ([] : List (K × V)) = [] := rfl

theorem numbered_snoc (entry : K × V) : numbered number (table ++ [entry]) =
    numbered number table ++ [(entry.1, number table.length)] := by
  simp [numbered, zipIdx_append]

@[simp] theorem keys_numbered : (numbered number table).map Prod.fst = table.map Prod.fst := by
  apply ext_getElem?
  intro index
  simp only [numbered, map_map, getElem?_map, getElem?_zipIdx, Option.map_map]
  rfl

theorem map_idxOf {A : Type*} [BEq A] [LawfulBEq A] {items : List A} (hnodup : items.Nodup) :
    items.map (items.idxOf ·) = List.range items.length := by
  apply ext_getElem
  · simp
  · intro index hindex _
    simp only [getElem_map, getElem_range]
    exact hnodup.idxOf_getElem index (by simpa using hindex)

section

variable [DecidableEq K]

theorem lookup_cons_of_ne {head : K × V} (hkey : key ≠ head.1) (rest : List (K × V)) :
    (head :: rest).lookup key = rest.lookup key := by
  rw [lookup_cons, beq_false_of_ne hkey]

theorem lookup_cons_of_eq {head : K × V} (hkey : key = head.1) (rest : List (K × V)) :
    (head :: rest).lookup key = some head.2 := by
  rw [hkey]
  exact lookup_cons_self

theorem lookup_eq_none_iff_not_mem : table.lookup key = none ↔ key ∉ table.map Prod.fst := by
  induction table with
  | nil => simp
  | cons head rest ih =>
    by_cases hkey : key = head.1
    · simp [hkey]
    · rw [lookup_cons_of_ne hkey, ih, map_cons, mem_cons, not_or, and_iff_right hkey]

theorem mem_of_lookup (h : table.lookup key = some value) : (key, value) ∈ table := by
  induction table with
  | nil => simp at h
  | cons head rest ih =>
    by_cases hkey : key = head.1
    · rw [lookup_cons_of_eq hkey, Option.some.injEq] at h
      rw [hkey, ← h]
      exact mem_cons_self
    · rw [lookup_cons_of_ne hkey] at h
      exact mem_cons_of_mem _ (ih h)

theorem lookup_eq_some_iff_mem (hnodup : (table.map Prod.fst).Nodup) :
    table.lookup key = some value ↔ (key, value) ∈ table := by
  constructor
  · exact mem_of_lookup
  · induction table with
    | nil => simp
    | cons head rest ih =>
      intro hmem
      obtain ⟨hhead, hrest⟩ := nodup_cons.1 hnodup
      rcases mem_cons.1 hmem with rfl | hmem
      · exact lookup_cons_self
      · have hkey : key ≠ head.1 := by
          rintro rfl
          exact hhead (mem_map.2 ⟨_, hmem, rfl⟩)
        rw [lookup_cons_of_ne hkey]
        exact ih hrest hmem

theorem lookup_numbered [DecidableEq V] (hnodup : (table.map Prod.fst).Nodup)
    (hmem : (key, value) ∈ table) :
    (numbered number table).lookup key = some (number (table.idxOf (key, value))) := by
  rw [lookup_eq_some_iff_mem (by rwa [keys_numbered])]
  refine mem_map.2 ⟨((key, value), table.idxOf (key, value)), ?_, rfl⟩
  rw [mem_zipIdx_iff_getElem?]
  exact getElem?_idxOf hmem

end

end

end QuantumLlm
