import QuantumLlm.Lib.Wire

/-!
# UTF-8 decoding with replacement

Bytes are decoded one by one; every maximal ill-formed sequence becomes one replacement
character. A text that does not end in one was decoded up to a character boundary, and
from there on the decoding does not depend on what came before.
-/

namespace QuantumLlm.Utf8

open List

def replacement : Char := Char.ofNat 0xfffd

/-- A character that has begun: how many bytes it still needs, the bounds of the next one, and the
bits so far. -/
structure Begun where
  needed : Nat
  low : UInt8
  high : UInt8
  bits : Nat
  deriving DecidableEq

/-- Between two bytes; nothing at a character boundary. -/
abbrev State := Option Begun

/-- A byte at a character boundary: the characters it completes, and the state behind it. -/
def lead (byte : UInt8) : List Char × State :=
  if byte ≤ 0x7f then ([Char.ofNat byte.toNat], none)
  else if 0xc2 ≤ byte ∧ byte ≤ 0xdf then ([], some ⟨1, 0x80, 0xbf, byte.toNat - 0xc0⟩)
  else if 0xe0 ≤ byte ∧ byte ≤ 0xef then
    ([], some ⟨2, if byte = 0xe0 then 0xa0 else 0x80, if byte = 0xed then 0x9f else 0xbf,
      byte.toNat - 0xe0⟩)
  else if 0xf0 ≤ byte ∧ byte ≤ 0xf4 then
    ([], some ⟨3, if byte = 0xf0 then 0x90 else 0x80, if byte = 0xf4 then 0x8f else 0xbf,
      byte.toNat - 0xf0⟩)
  else ([replacement], none)

def step : State → UInt8 → List Char × State
  | none, byte => lead byte
  | some begun, byte =>
    if begun.low ≤ byte ∧ byte ≤ begun.high then
      let bits := begun.bits * 64 + (byte.toNat - 0x80)
      if begun.needed ≤ 1 then ([Char.ofNat bits], none)
      else ([], some ⟨begun.needed - 1, 0x80, 0xbf, bits⟩)
    else (replacement :: (lead byte).1, (lead byte).2)

/-- The characters that are completed from a state on, and the state behind them. -/
def run (state : State) : Bytes → List Char × State
  | [] => ([], state)
  | byte :: rest =>
    let stepped := step state byte
    let later := run stepped.2 rest
    (stepped.1 ++ later.1, later.2)

/-- What stands for a character that the end of the text cuts off. -/
def flush : State → List Char
  | none => []
  | some _ => [replacement]

def decodeFrom (state : State) (bytes : Bytes) : List Char :=
  (run state bytes).1 ++ flush (run state bytes).2

def decode (bytes : Bytes) : List Char := decodeFrom none bytes

variable {state : State} {bytes first second : Bytes} {byte : UInt8}

theorem run_append : run state (first ++ second) =
    ((run state first).1 ++ (run (run state first).2 second).1,
      (run (run state first).2 second).2) := by
  induction first generalizing state with
  | nil => rfl
  | cons byte rest ih =>
    rw [cons_append, run, ih, run]
    simp only [append_assoc]

theorem decode_append (h : (run none first).2 = none) :
    decode (first ++ second) = decode first ++ decode second := by
  unfold decode decodeFrom
  rw [run_append, h]
  simp only [flush, append_nil, append_assoc]

theorem boundary_of_last {front : List Char} {last : Char}
    (h : decode bytes = front ++ [last]) (hlast : last ≠ replacement) :
    (run none bytes).2 = none ∧ (run none bytes).1 = front ++ [last] := by
  unfold decode decodeFrom at h
  cases hstate : (run none bytes).2 with
  | none =>
    rw [hstate, flush, append_nil] at h
    exact ⟨rfl, h⟩
  | some begun =>
    rw [hstate, flush] at h
    have hsame := (append_inj_right' h rfl)
    exact absurd (singleton_inj.1 hsame).symm hlast

/-- The bounds of a further byte leave out every byte that can begin a character. -/
def Trailing : State → Prop
  | none => True
  | some begun => 0x80 ≤ begun.low ∧ begun.high ≤ 0xbf

theorem lead_trailing : Trailing (lead byte).2 := by
  unfold lead
  split
  · trivial
  · split
    · exact ⟨UInt8.le_refl 0x80, UInt8.le_refl 0xbf⟩
    · split
      · constructor
        · dsimp only
          split <;> decide
        · dsimp only
          split <;> decide
      · split
        · constructor
          · dsimp only
            split <;> decide
          · dsimp only
            split <;> decide
        · trivial

theorem step_trailing (h : Trailing state) : Trailing (step state byte).2 := by
  cases state with
  | none => exact lead_trailing
  | some begun =>
    unfold step
    dsimp only
    split
    · split
      · trivial
      · exact ⟨UInt8.le_refl 0x80, UInt8.le_refl 0xbf⟩
    · exact lead_trailing

theorem run_trailing (h : Trailing state) : Trailing (run state bytes).2 := by
  induction bytes generalizing state with
  | nil => exact h
  | cons byte rest ih => exact ih (step_trailing h)

theorem lead_of_trailing (hlow : 0x80 ≤ byte) (hhigh : byte ≤ 0xbf) :
    lead byte = ([replacement], none) := by
  have hlow' := UInt8.le_iff_toNat_le.1 hlow
  have hhigh' := UInt8.le_iff_toNat_le.1 hhigh
  unfold lead
  simp only [UInt8.le_iff_toNat_le]
  rw [if_neg, if_neg, if_neg, if_neg]
  all_goals simp only [UInt8.reduceToNat] at hlow' hhigh' ⊢
  all_goals omega

/-- A run from a boundary and one from another state meet, unless the first one has only just
replaced a byte. -/
theorem run_meets (h : Trailing state) : (run none bytes).2 = (run state bytes).2 ∨
    ((run none bytes).2 = none ∧ ∀ char ∈ (run none bytes).1, char = replacement) := by
  induction bytes generalizing state with
  | nil =>
    right
    exact ⟨rfl, nofun⟩
  | cons byte rest ih =>
    cases state with
    | none => exact .inl rfl
    | some begun =>
      obtain ⟨hlow, hhigh⟩ := h
      by_cases hinside : begun.low ≤ byte ∧ byte ≤ begun.high
      · have hlead := lead_of_trailing (UInt8.le_trans hlow hinside.1)
          (UInt8.le_trans hinside.2 hhigh)
        have hnext : Trailing (step (some begun) byte).2 := step_trailing ⟨hlow, hhigh⟩
        have hfirst : step none byte = ([replacement], none) := hlead
        rw [run, run, hfirst]
        rcases ih hnext with hmeet | ⟨hboundary, hall⟩
        · exact .inl hmeet
        · refine .inr ⟨hboundary, fun char hchar => ?_⟩
          rcases mem_append.1 hchar with hreplaced | hlater
          · exact mem_singleton.1 hreplaced
          · exact hall char hlater
      · left
        have hstep : (step (some begun) byte).2 = (step none byte).2 := by
          simp only [step, if_neg hinside]
        rw [run, run, hstep]

/-- Bytes whose decoding ends in a character that is not replaced end at a boundary, whatever is in
front of them. -/
theorem boundary_append {front : List Char} {last : Char} (hlast : last ≠ replacement)
    (h : decode second = front ++ [last]) : (run none (first ++ second)).2 = none := by
  obtain ⟨hboundary, hcharacters⟩ := boundary_of_last h hlast
  rw [run_append]
  have htrailing : Trailing (run none first).2 := run_trailing trivial
  rcases @run_meets _ second htrailing with hmeet | ⟨-, hall⟩
  · exact hmeet.symm.trans hboundary
  · have hmem : last ∈ (run none second).1 := by
      rw [hcharacters]
      exact mem_append_right _ (mem_singleton_self last)
    exact absurd (hall last hmem) hlast

end QuantumLlm.Utf8
