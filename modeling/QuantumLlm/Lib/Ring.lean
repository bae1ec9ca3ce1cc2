import Mathlib.Data.List.Basic

/-!
# Rings

A list of bounded length that keeps the latest values of a log: it grows up to its capacity,
then overwrites its oldest value. Read from the place of the next write on, it is the end of
the log.
-/

namespace QuantumLlm

open List

structure Ring (α : Type*) where
  slots : List α := []
  next : Nat := 0

namespace Ring

variable {α : Type*} {capacity : Nat} {ring : Ring α} {log : List α}

def record (capacity : Nat) (ring : Ring α) (value : α) : Ring α :=
  if ring.slots.length < capacity then { ring with slots := ring.slots ++ [value] }
  else ⟨ring.slots.set ring.next value, (ring.next + 1) % capacity⟩

/-- The values kept, the oldest one first. -/
def ordered (capacity : Nat) (ring : Ring α) : List α :=
  if ring.slots.length < capacity ∨ ring.next = 0 then ring.slots
  else ring.slots.drop ring.next ++ ring.slots.take ring.next

/-- So many last values of a log. -/
def latest (capacity : Nat) (log : List α) : List α := log.drop (log.length - capacity)

/-- The ring keeps the end of a log; before it is full the next write is at its start. -/
structure Keeps (capacity : Nat) (ring : Ring α) (log : List α) : Prop where
  length : ring.slots.length = min log.length capacity
  next : ring.next < capacity
  start : ring.slots.length < capacity → ring.next = 0
  contents : ring.slots.drop ring.next ++ ring.slots.take ring.next = latest capacity log

theorem keeps_nil (hcapacity : 0 < capacity) : Keeps capacity ({} : Ring α) [] :=
  ⟨by simp, hcapacity, fun _ => rfl, by simp [latest]⟩

theorem Keeps.ordered (h : Keeps capacity ring log) : ring.ordered capacity = latest capacity log := by
  rw [← h.contents, Ring.ordered]
  split
  next hcase => rw [hcase.elim h.start id, drop_zero, take_zero, append_nil]
  next => rfl

theorem Keeps.overwrite (h : Keeps capacity ring log) (hfull : ring.slots.length = capacity)
    (value : α) : (ring.slots.set ring.next value).drop ((ring.next + 1) % capacity) ++
      (ring.slots.set ring.next value).take ((ring.next + 1) % capacity) =
        (latest capacity log).drop 1 ++ [value] := by
  have hnext := h.next
  have hsplit : ring.slots.set ring.next value =
      ring.slots.take ring.next ++ value :: ring.slots.drop (ring.next + 1) :=
    set_eq_take_append_cons_drop.trans (if_pos (by omega))
  have hfront : (ring.slots.take ring.next).length = ring.next := by
    rw [length_take]
    omega
  have hold : (ring.slots.drop ring.next ++ ring.slots.take ring.next).drop 1 =
      ring.slots.drop (ring.next + 1) ++ ring.slots.take ring.next := by
    rw [drop_append_of_le_length (by rw [length_drop]; omega), drop_drop]
  rw [← h.contents, hold, hsplit]
  by_cases hlast : ring.next + 1 = capacity
  · rw [hlast, Nat.mod_self, drop_zero, take_zero, append_nil, ← hfull, drop_length, nil_append]
  · rw [Nat.mod_eq_of_lt (by omega)]
    have hthere : (ring.slots.take ring.next ++ [value]).length = ring.next + 1 := by
      rw [length_append, hfront, length_singleton]
    rw [append_cons, drop_left' hthere, take_left' hthere, append_assoc]

theorem Keeps.record (h : Keeps capacity ring log) (value : α) :
    Keeps capacity (ring.record capacity value) (log ++ [value]) := by
  have hlength := h.length
  have hgrown : (log ++ [value]).length = log.length + 1 := length_append
  unfold Ring.record
  by_cases hroom : ring.slots.length < capacity
  · rw [if_pos hroom]
    have hzero := h.start hroom
    have hcontents := h.contents
    rw [hzero, drop_zero, take_zero, append_nil, latest,
      show log.length - capacity = 0 by omega, drop_zero] at hcontents
    refine ⟨?_, h.next, fun _ => hzero, ?_⟩
    · rw [length_append, hgrown, length_singleton]
      omega
    · change (ring.slots ++ [value]).drop ring.next ++ _ = _
      rw [hzero, drop_zero, take_zero, append_nil, hcontents, latest, hgrown,
        show log.length + 1 - capacity = 0 by omega, drop_zero]
  · rw [if_neg hroom]
    have hfull : ring.slots.length = capacity := by omega
    have hpos : 0 < capacity := Nat.zero_lt_of_lt h.next
    have hlog : log.length - capacity + 1 ≤ log.length := by omega
    refine ⟨?_, Nat.mod_lt _ hpos, fun hless => ?_, ?_⟩
    · rw [length_set, hgrown]
      omega
    · rw [length_set] at hless
      exact absurd hless hroom
    · have hdrop : (log ++ [value]).length - capacity = log.length - capacity + 1 := by omega
      rw [h.overwrite hfull, latest, latest, drop_drop, hdrop, drop_append_of_le_length hlog]

end Ring

end QuantumLlm
