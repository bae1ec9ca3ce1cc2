import Mathlib.Data.UInt
import Mathlib.Data.List.Basic
import Mathlib.Tactic.Ring

/-!
# Wire formats

Readers over byte strings and the writers they undo. A reader belongs to a
writer when it accepts exactly the bytes written for valid values, which gives
both the round trip and that every accepted frame is the one written.
-/

namespace QuantumLlm

abbrev Bytes := List UInt8

/-- Reads a value from the front of the bytes, or fails. -/
abbrev Reader (α : Type) := StateT Bytes Option α

/-- The reader accepts exactly what the writer makes of the valid values. -/
def Reads {α : Type} (reader : Reader α) (write : α → Bytes) (valid : α → Prop) : Prop :=
  ∀ bytes value rest,
    reader.run bytes = some (value, rest) ↔ valid value ∧ bytes = write value ++ rest

section

variable {α β : Type} {reader : Reader α} {write : α → Bytes} {valid : α → Prop} {value : α}
  {bytes rest : Bytes}

section

variable (h : Reads reader write valid)

include h

theorem Reads.run_append (hvalid : valid value) :
    reader.run (write value ++ rest) = some (value, rest) :=
  (h _ _ _).2 ⟨hvalid, rfl⟩

theorem Reads.run_iff : reader.run bytes = some (value, rest) ↔
    valid value ∧ bytes = write value ++ rest := h _ _ _

theorem Reads.injective {other : α} {rest' : Bytes} (hvalue : valid value) (hother : valid other)
    (hsame : write value ++ rest = write other ++ rest') : value = other ∧ rest = rest' := by
  have hfirst : reader.run (write value ++ rest) = some (value, rest) := h.run_append hvalue
  rw [hsame, h.run_append hother] at hfirst
  cases hfirst
  exact ⟨rfl, rfl⟩

theorem Reads.map {parse : α → β} {print : β → α} {valid' : β → Prop}
    (hparse : ∀ value, valid value → print (parse value) = value ∧ valid' (parse value))
    (hprint : ∀ value, valid' value → parse (print value) = value ∧ valid (print value)) :
    Reads (parse <$> reader) (fun value => write (print value)) valid' := by
  intro bytes value rest
  rw [StateT.run_map]
  constructor
  · intro hrun
    obtain ⟨⟨source, rest'⟩, hsource, heq⟩ := Option.map_eq_some_iff.1 hrun
    cases heq
    obtain ⟨hvalid, hbytes⟩ := h.run_iff.1 hsource
    obtain ⟨hback, hvalid'⟩ := hparse source hvalid
    refine ⟨hvalid', ?_⟩
    simp only [hback]
    exact hbytes
  · rintro ⟨hvalid', rfl⟩
    obtain ⟨hback, hvalid⟩ := hprint value hvalid'
    rw [h.run_append hvalid]
    simp [hback]

end

end

/-- Fails unless the condition holds. -/
def require (holds : Prop) [Decidable holds] : Reader Unit :=
  if holds then pure () else failure

def remaining : Reader Nat := fun bytes => some (bytes.length, bytes)

section

variable {α β : Type} {reader : Reader α} {next : α → Reader β} {value value' : β} {bytes rest : Bytes}

theorem run_bind_iff : (reader >>= next).run bytes = some (value, rest) ↔
    ∃ first middle, reader.run bytes = some (first, middle) ∧
      (next first).run middle = some (value, rest) := by
  rw [StateT.run_bind, Option.bind_eq_bind, Option.bind_eq_some_iff]
  exact Prod.exists

theorem run_pure_iff : (pure value : Reader β).run bytes = some (value', rest) ↔
    value = value' ∧ bytes = rest := by
  exact Option.some_inj.trans Prod.mk_inj

theorem run_require_iff {holds : Prop} [Decidable holds] {read : Unit} :
    (require holds).run bytes = some (read, rest) ↔ holds ∧ bytes = rest := by
  unfold require
  by_cases h : holds
  · rw [if_pos h, run_pure_iff]
    simp [h]
  · rw [if_neg h]
    exact iff_of_false (nofun) fun hboth => h hboth.1

theorem run_remaining_iff {count : Nat} :
    remaining.run bytes = some (count, rest) ↔ bytes.length = count ∧ bytes = rest :=
  Option.some_inj.trans Prod.mk_inj

end

def takeBytes (count : Nat) : Reader Bytes := fun bytes =>
  if count ≤ bytes.length then some (bytes.take count, bytes.drop count) else none

theorem reads_takeBytes (count : Nat) :
    Reads (takeBytes count) id fun bytes => bytes.length = count := by
  intro bytes value rest
  show takeBytes count bytes = _ ↔ _
  simp only [takeBytes, id_eq]
  constructor
  · intro hrun
    split at hrun
    next hle =>
      cases hrun
      exact ⟨List.length_take_of_le hle, (List.take_append_drop count bytes).symm⟩
    next => cases hrun
  · rintro ⟨rfl, rfl⟩
    simp

/-- The lowest bytes of a number, the least significant one first. -/
def leBytes : Nat → Nat → Bytes
  | 0, _ => []
  | count + 1, value => UInt8.ofNat value :: leBytes count (value / 256)

def leValue : Bytes → Nat
  | [] => 0
  | byte :: rest => byte.toNat + 256 * leValue rest

@[simp] theorem leBytes_length (count value : Nat) : (leBytes count value).length = count := by
  induction count generalizing value with
  | zero => rfl
  | succ count ih => simp [leBytes, ih]

theorem leValue_lt (bytes : Bytes) : leValue bytes < 256 ^ bytes.length := by
  induction bytes with
  | nil => simp [leValue]
  | cons byte rest ih =>
    have hbyte : byte.toNat < 256 := byte.toNat_lt
    rw [leValue, List.length_cons, pow_succ]
    omega

theorem leValue_leBytes {count value : Nat} (h : value < 256 ^ count) :
    leValue (leBytes count value) = value := by
  induction count generalizing value with
  | zero =>
    simp only [leBytes, leValue]
    omega
  | succ count ih =>
    have hrest : value / 256 < 256 ^ count := by
      omega
    rw [leBytes, leValue, ih hrest, UInt8.toNat_ofNat']
    omega

theorem leBytes_leValue (bytes : Bytes) : leBytes bytes.length (leValue bytes) = bytes := by
  induction bytes with
  | nil => rfl
  | cons byte rest ih =>
    have hbyte : byte.toNat < 256 := byte.toNat_lt
    have hhead : UInt8.ofNat (byte.toNat + 256 * leValue rest) = byte := by
      apply UInt8.toNat_inj.1
      rw [UInt8.toNat_ofNat']
      omega
    have htail : (byte.toNat + 256 * leValue rest) / 256 = leValue rest := by omega
    rw [leValue, List.length_cons, leBytes, hhead, htail, ih]

def takeLe (count : Nat) : Reader Nat := leValue <$> takeBytes count

theorem reads_takeLe (count : Nat) :
    Reads (takeLe count) (leBytes count) fun value => value < 256 ^ count := by
  apply (reads_takeBytes count).map
  · rintro bytes rfl
    exact ⟨leBytes_leValue bytes, leValue_lt bytes⟩
  · intro value hvalue
    exact ⟨leValue_leBytes hvalue, leBytes_length count value⟩

def putU8 (value : UInt8) : Bytes := leBytes 1 value.toNat

def putU16 (value : UInt16) : Bytes := leBytes 2 value.toNat

def putU32 (value : UInt32) : Bytes := leBytes 4 value.toNat

def putU64 (value : UInt64) : Bytes := leBytes 8 value.toNat

def takeU8 : Reader UInt8 := UInt8.ofNat <$> takeLe 1

def takeU16 : Reader UInt16 := UInt16.ofNat <$> takeLe 2

def takeU32 : Reader UInt32 := UInt32.ofNat <$> takeLe 4

def takeU64 : Reader UInt64 := UInt64.ofNat <$> takeLe 8

theorem reads_u8 : Reads takeU8 putU8 fun _ => True := by
  apply (reads_takeLe 1).map
  · intro value hvalue
    exact ⟨by rw [UInt8.toNat_ofNat']; omega, trivial⟩
  · intro value _
    exact ⟨UInt8.ofNat_toNat, value.toNat_lt⟩

theorem reads_u16 : Reads takeU16 putU16 fun _ => True := by
  apply (reads_takeLe 2).map
  · intro value hvalue
    exact ⟨by rw [UInt16.toNat_ofNat']; omega, trivial⟩
  · intro value _
    exact ⟨UInt16.ofNat_toNat, value.toNat_lt⟩

theorem reads_u32 : Reads takeU32 putU32 fun _ => True := by
  apply (reads_takeLe 4).map
  · intro value hvalue
    exact ⟨by rw [UInt32.toNat_ofNat']; omega, trivial⟩
  · intro value _
    exact ⟨UInt32.ofNat_toNat, value.toNat_lt⟩

theorem reads_u64 : Reads takeU64 putU64 fun _ => True := by
  apply (reads_takeLe 8).map
  · intro value hvalue
    exact ⟨by rw [UInt64.toNat_ofNat']; omega, trivial⟩
  · intro value _
    exact ⟨UInt64.ofNat_toNat, value.toNat_lt⟩

@[simp] theorem takeU8_put (value : UInt8) (rest : Bytes) :
    takeU8.run (putU8 value ++ rest) = some (value, rest) := reads_u8.run_append trivial

@[simp] theorem takeU16_put (value : UInt16) (rest : Bytes) :
    takeU16.run (putU16 value ++ rest) = some (value, rest) := reads_u16.run_append trivial

@[simp] theorem takeU32_put (value : UInt32) (rest : Bytes) :
    takeU32.run (putU32 value ++ rest) = some (value, rest) := reads_u32.run_append trivial

@[simp] theorem takeU64_put (value : UInt64) (rest : Bytes) :
    takeU64.run (putU64 value ++ rest) = some (value, rest) := reads_u64.run_append trivial

@[simp] theorem putU32_length (value : UInt32) : (putU32 value).length = 4 := leBytes_length _ _

@[simp] theorem putU64_length (value : UInt64) : (putU64 value).length = 8 := leBytes_length _ _

end QuantumLlm
