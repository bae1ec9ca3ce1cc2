import Mathlib.Data.List.Flatten
import Mathlib.Algebra.Order.Group.Nat
import Mathlib.Tactic.Ring

/-!
# Cutting lists and filling regions

A list cut into pieces of one size, the last one shorter, and lists overwritten
in place from an offset on. Filling uniform regions one stretch after another is
filling the list they make up.
-/

namespace QuantumLlm

open List

variable {α : Type*}

/-- Pieces of one size, the last one shorter. -/
def cut (size : Nat) (data : List α) : List (List α) :=
  if data = [] ∨ size = 0 then []
  else data.take size :: cut size (data.drop size)
termination_by data.length
decreasing_by
  rename_i h
  rw [not_or] at h
  have hpos := List.length_pos_iff.2 h.1
  rw [List.length_drop]
  omega

variable {size : Nat} {data : List α}

theorem cut_eq (size : Nat) (data : List α) : cut size data =
    if data = [] ∨ size = 0 then [] else data.take size :: cut size (data.drop size) := by
  rw [cut]

theorem cut_nil (size : Nat) : cut size ([] : List α) = [] := by
  rw [cut_eq, if_pos (.inl rfl)]

theorem cut_append (hsize : 0 < size) {piece : List α} (hpiece : piece.length = size)
    (rest : List α) : cut size (piece ++ rest) = piece :: cut size rest := by
  have hsome : ¬ (piece ++ rest = [] ∨ size = 0) := by
    rw [not_or, append_eq_nil_iff, ← length_eq_zero_iff]
    omega
  rw [cut_eq, if_neg hsome, ← hpiece, take_left, drop_left]

theorem cut_short (hsome : data ≠ []) (hshort : data.length ≤ size) : cut size data = [data] := by
  have hlength := length_pos_iff.2 hsome
  rw [cut_eq, if_neg, take_of_length_le hshort, drop_of_length_le hshort, cut_nil]
  rw [not_or]
  exact ⟨hsome, by omega⟩

theorem cut_pieces (hsize : 0 < size) {pieces : List (List α)}
    (hpieces : ∀ piece ∈ pieces, piece.length = size) (rest : List α) :
    cut size (pieces.flatten ++ rest) = pieces ++ cut size rest := by
  induction pieces with
  | nil => rfl
  | cons piece others ih =>
    rw [forall_mem_cons] at hpieces
    rw [flatten_cons, append_assoc, cut_append hsize hpieces.1, ih hpieces.2]
    rfl

theorem cut_spec (hsize : 0 < size) (data : List α) :
    (cut size data).flatten = data ∧
      (∀ piece ∈ cut size data, 0 < piece.length ∧ piece.length ≤ size) ∧
        ∀ bound, (cut size data).length ≤ bound ↔ data.length ≤ bound * size := by
  induction hlength : data.length using Nat.strong_induction_on generalizing data with
  | h length ih =>
    subst hlength
    by_cases hnil : data = []
    · subst hnil
      simp [cut_nil]
    · have hpos := length_pos_iff.2 hnil
      have hdrop : (data.drop size).length < data.length := by
        rw [length_drop]
        omega
      obtain ⟨hflatten, hpieces, hbound⟩ := ih _ hdrop (data.drop size) rfl
      rw [cut_eq, if_neg (by rw [not_or]; exact ⟨hnil, by omega⟩)]
      refine ⟨?_, ?_, ?_⟩
      · rw [flatten_cons, hflatten, take_append_drop]
      · rw [forall_mem_cons, length_take]
        exact ⟨by omega, hpieces⟩
      · intro bound
        rw [length_cons]
        cases bound with
        | zero => omega
        | succ bound =>
          have hrest := hbound bound
          rw [length_drop] at hrest
          rw [Nat.add_le_add_iff_right, hrest, Nat.succ_mul]
          omega

/-- The target with the source from an offset on. -/
def writeAt (target : List α) (offset : Nat) (source : List α) : List α :=
  target.take offset ++ (source ++ target.drop (offset + source.length))

variable {target source : List α} {offset : Nat}

theorem length_writeAt (h : offset + source.length ≤ target.length) :
    (writeAt target offset source).length = target.length := by
  simp only [writeAt, length_append, length_take, length_drop]
  omega

theorem take_writeAt (h : offset ≤ target.length) :
    (writeAt target offset source).take (offset + source.length) =
      target.take offset ++ source := by
  rw [writeAt, ← append_assoc]
  apply take_left'
  rw [length_append, length_take_of_le h]

theorem writeAt_append_left (h : offset + source.length ≤ target.length) (after : List α) :
    writeAt target offset source ++ after = writeAt (target ++ after) offset source := by
  rw [writeAt, writeAt, take_append_of_le_length (by omega), drop_append_of_le_length h]
  simp only [append_assoc]

theorem append_writeAt (before : List α) (target : List α) (offset : Nat) (source : List α) :
    before ++ writeAt target offset source =
      writeAt (before ++ target) (before.length + offset) source := by
  rw [writeAt, writeAt, take_length_add_append, Nat.add_assoc, drop_length_add_append]
  simp only [append_assoc]

theorem flatten_set_writeAt {regions : List (List α)} {index : Nat}
    (hregions : ∀ region ∈ regions, region.length = size) (hindex : regions[index]? = some target)
    (h : offset + source.length ≤ size) :
    (regions.set index (writeAt target offset source)).flatten =
      writeAt regions.flatten (index * size + offset) source := by
  induction regions generalizing index with
  | nil => simp at hindex
  | cons region rest ih =>
    rw [forall_mem_cons] at hregions
    cases index with
    | zero =>
      rw [getElem?_cons_zero, Option.some.injEq] at hindex
      subst hindex
      rw [set_cons_zero, flatten_cons, flatten_cons, Nat.zero_mul, Nat.zero_add]
      exact writeAt_append_left (by omega) _
    | succ index =>
      rw [getElem?_cons_succ] at hindex
      rw [set_cons_succ, flatten_cons, flatten_cons, ih hregions.2 hindex,
        append_writeAt, hregions.1]
      congr 1
      ring

theorem length_flatten_uniform {regions : List (List α)}
    (hregions : ∀ region ∈ regions, region.length = size) :
    regions.flatten.length = regions.length * size := by
  induction regions with
  | nil => simp
  | cons region rest ih =>
    rw [forall_mem_cons] at hregions
    rw [flatten_cons, length_append, ih hregions.2, hregions.1, length_cons]
    ring

theorem flatten_uniform_injective {regions others : List (List α)}
    (hregions : ∀ region ∈ regions, region.length = size)
    (hothers : ∀ region ∈ others, region.length = size) (hlength : regions.length = others.length)
    (h : regions.flatten = others.flatten) : regions = others := by
  rw [eq_iff_flatten_eq]
  refine ⟨h, ?_⟩
  have hmap : ∀ list : List (List α), (∀ region ∈ list, region.length = size) →
      list.map List.length = List.replicate list.length size := by
    intro list hlist
    rw [eq_replicate_iff]
    refine ⟨length_map _, ?_⟩
    intro length hmem
    obtain ⟨region, hregion, rfl⟩ := mem_map.1 hmem
    exact hlist region hregion
  rw [hmap _ hregions, hmap _ hothers, hlength]

end QuantumLlm
