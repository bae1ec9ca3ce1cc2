import Mathlib.Data.List.Basic
import Mathlib.Data.List.Forall2

/-!
# Parts at aligned offsets

A sequence that grows by one part after another, each behind as much filler as
brings it to the next multiple of the alignment.
-/

namespace QuantumLlm

open List

/-- The next multiple of a positive alignment. -/
def alignUp (value alignment : Nat) : Nat := (value + alignment - 1) / alignment * alignment

theorem le_alignUp {alignment : Nat} (h : 0 < alignment) (value : Nat) :
    value ≤ alignUp value alignment := by
  have hdiv := Nat.div_add_mod (value + alignment - 1) alignment
  have hmod := Nat.mod_lt (value + alignment - 1) h
  rw [alignUp, Nat.mul_comm]
  omega

theorem alignUp_mod (value alignment : Nat) : alignUp value alignment % alignment = 0 :=
  Nat.mul_mod_left ..

namespace Layout

variable {α : Type*} (filler : α) (alignment : Nat)

def padded (content : List α) : List α :=
  content ++ List.replicate (alignUp content.length alignment - content.length) filler

def place : List α → List (List α) → List α
  | content, [] => content
  | content, part :: rest => place (padded filler alignment content ++ part) rest

/-- Where parts of these sizes come to stand. -/
def offsets : Nat → List Nat → List Nat
  | _, [] => []
  | start, size :: rest => alignUp start alignment :: offsets (alignUp start alignment + size) rest

/-- Where the last of them ends. -/
def finish : Nat → List Nat → Nat
  | start, [] => start
  | start, size :: rest => finish (alignUp start alignment + size) rest

variable {filler alignment} {content : List α} {parts : List (List α)}

theorem place_cons (content part : List α) (rest : List (List α)) :
    place filler alignment content (part :: rest) =
      place filler alignment (padded filler alignment content ++ part) rest := rfl

theorem finish_cons (start size : Nat) (rest : List Nat) : finish alignment start (size :: rest) =
    finish alignment (alignUp start alignment + size) rest := rfl

theorem padded_length (h : 0 < alignment) :
    (padded filler alignment content).length = alignUp content.length alignment := by
  have hle := le_alignUp h content.length
  rw [padded, length_append, length_replicate]
  omega

theorem place_length (h : 0 < alignment) : (place filler alignment content parts).length =
    finish alignment content.length (parts.map List.length) := by
  induction parts generalizing content with
  | nil => rfl
  | cons part rest ih => rw [place_cons, ih, map_cons, finish_cons, length_append, padded_length h]

theorem place_eq_append : ∃ rest, place filler alignment content parts = content ++ rest := by
  induction parts generalizing content with
  | nil => exact ⟨[], (append_nil _).symm⟩
  | cons part rest ih =>
    obtain ⟨behind, hbehind⟩ := @ih (padded filler alignment content ++ part)
    rw [place_cons, hbehind, padded, append_assoc, append_assoc]
    exact ⟨_, rfl⟩

theorem drop_take_append {part before behind : List α} :
    ((before ++ part ++ behind).drop before.length).take part.length = part := by
  rw [append_assoc, drop_left, take_left]

theorem place_read (h : 0 < alignment) (behind : List α) : List.Forall₂
    (fun offset part => ((place filler alignment content parts ++ behind).drop offset).take
      part.length = part)
    (offsets alignment content.length (parts.map List.length)) parts := by
  induction parts generalizing content with
  | nil => exact .nil
  | cons part rest ih =>
    have hlength := @padded_length _ filler alignment content h
    obtain ⟨others, hothers⟩ := @place_eq_append _ filler alignment
      (padded filler alignment content ++ part) rest
    refine .cons ?_ ?_
    · rw [place_cons, hothers, append_assoc _ others, ← hlength, drop_take_append]
    · have hrest := @ih (padded filler alignment content ++ part)
      rw [length_append, hlength] at hrest
      exact hrest

end Layout

end QuantumLlm
