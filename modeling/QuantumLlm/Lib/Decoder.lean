import QuantumLlm.Lib.Wire

/-!
# Decoders that name their error

Readers whose failure carries a reason. A decoder belongs to a writer when it
accepts exactly the bytes written for valid values, and the steps of a decoder
are undone one after the other.
-/

namespace QuantumLlm

open List

/-- Reads a value from the front of the bytes, or says what is wrong with them. -/
abbrev Decoder (ε α : Type) := StateT Bytes (Except ε) α

/-- The reader, with one reason for its every failure. -/
def Reader.orFail {ε α : Type} (reader : Reader α) (error : ε) : Decoder ε α := fun bytes =>
  match reader.run bytes with
  | some result => .ok result
  | none => .error error

/-- Fails with the reason unless the condition holds. -/
def Decoder.ensure {ε : Type} (holds : Prop) [Decidable holds] (error : ε) : Decoder ε Unit :=
  fun bytes => if holds then .ok ((), bytes) else .error error

def unread {ε : Type} : Decoder ε Nat := fun bytes => .ok (bytes.length, bytes)

/-- The decoder accepts exactly what the writer makes of the valid values. -/
def Decodes {ε α : Type} (decoder : Decoder ε α) (write : α → Bytes) (valid : α → Prop) : Prop :=
  ∀ bytes value rest,
    decoder.run bytes = .ok (value, rest) ↔ valid value ∧ bytes = write value ++ rest

section

variable {ε α β : Type} {decoder : Decoder ε α} {next : α → Decoder ε β} {error : ε}
  {value : α} {result result' : β} {bytes rest : Bytes}

theorem decode_bind_iff : (decoder >>= next).run bytes = .ok (result, rest) ↔
    ∃ first middle, decoder.run bytes = .ok (first, middle) ∧
      (next first).run middle = .ok (result, rest) := by
  rw [StateT.run_bind]
  cases hrun : decoder.run bytes with
  | error reason =>
    constructor
    · exact nofun
    · rintro ⟨first, middle, h, -⟩
      cases h
  | ok step =>
    constructor
    · intro h
      exact ⟨step.1, step.2, rfl, h⟩
    · rintro ⟨first, middle, h, hnext⟩
      cases h
      exact hnext

theorem decode_pure_iff : (pure result : Decoder ε β).run bytes = .ok (result', rest) ↔
    result = result' ∧ bytes = rest := by
  show Except.ok (result, bytes) = Except.ok (result', rest) ↔ _
  rw [Except.ok.injEq, Prod.mk_inj]

theorem decode_ensure_iff {holds : Prop} [Decidable holds] {read : Unit} :
    (Decoder.ensure holds error).run bytes = .ok (read, rest) ↔ holds ∧ bytes = rest := by
  show Decoder.ensure holds error bytes = _ ↔ _
  unfold Decoder.ensure
  split
  next h => simp [h]
  next h => simp [h]

theorem decode_unread_iff {count : Nat} :
    (unread : Decoder ε Nat).run bytes = .ok (count, rest) ↔ bytes.length = count ∧ bytes = rest := by
  show Except.ok (bytes.length, bytes) = Except.ok (count, rest) ↔ _
  rw [Except.ok.injEq, Prod.mk_inj]

theorem decode_orFail_iff {reader : Reader α} :
    (reader.orFail error).run bytes = .ok (value, rest) ↔ reader.run bytes = some (value, rest) := by
  show reader.orFail error bytes = _ ↔ _
  unfold Reader.orFail
  split
  next h => rw [h]; simp
  next h => rw [h]; simp

end

section

variable {ε α : Type} {decoder : Decoder ε α} {write : α → Bytes} {valid : α → Prop}

theorem Decodes.run_append (h : Decodes decoder write valid) {value : α} (rest : Bytes)
    (hvalid : valid value) : decoder.run (write value ++ rest) = .ok (value, rest) :=
  (h _ _ _).2 ⟨hvalid, rfl⟩

theorem Decodes.orFail {reader : Reader α} (h : Reads reader write valid) (error : ε) :
    Decodes (reader.orFail error) write valid := by
  intro bytes value rest
  rw [decode_orFail_iff]
  exact h bytes value rest

theorem Decodes.ensure (h : Decodes decoder write valid) (holds : α → Prop)
    [∀ value, Decidable (holds value)] (error : ε) :
    Decodes (do let value ← decoder; Decoder.ensure (holds value) error; pure value) write
      fun value => valid value ∧ holds value := by
  intro bytes value rest
  simp only [decode_bind_iff, decode_ensure_iff, decode_pure_iff]
  constructor
  · rintro ⟨first, middle, hfirst, passed, after, ⟨hholds, rfl⟩, rfl, rfl⟩
    obtain ⟨hvalid, hbytes⟩ := (h _ _ _).1 hfirst
    exact ⟨⟨hvalid, hholds⟩, hbytes⟩
  · rintro ⟨⟨hvalid, hholds⟩, rfl⟩
    exact ⟨value, rest, h.run_append rest hvalid, (), rest, ⟨hholds, rfl⟩, rfl, rfl⟩

/-- The decoder as often as asked. -/
def takeMany (decoder : Decoder ε α) : Nat → Decoder ε (List α)
  | 0 => pure []
  | count + 1 => do
    let value ← decoder
    let values ← takeMany decoder count
    pure (value :: values)

theorem Decodes.takeMany (h : Decodes decoder write valid) (count : Nat) :
    Decodes (takeMany decoder count) (·.flatMap write) fun values =>
      values.length = count ∧ ∀ value ∈ values, valid value := by
  induction count with
  | zero =>
    intro bytes values rest
    rw [QuantumLlm.takeMany, decode_pure_iff]
    constructor
    · rintro ⟨rfl, rfl⟩
      simp
    · rintro ⟨⟨hlength, -⟩, rfl⟩
      rw [length_eq_zero_iff.1 hlength]
      simp
  | succ count ih =>
    intro bytes values rest
    simp only [QuantumLlm.takeMany, decode_bind_iff, decode_pure_iff]
    constructor
    · rintro ⟨value, middle, hvalue, others, after, hothers, rfl, rfl⟩
      obtain ⟨hvalid, rfl⟩ := (h _ _ _).1 hvalue
      obtain ⟨⟨hlength, hall⟩, rfl⟩ := (ih _ _ _).1 hothers
      rw [length_cons, hlength, forall_mem_cons, flatMap_cons, append_assoc]
      exact ⟨⟨rfl, hvalid, hall⟩, rfl⟩
    · rintro ⟨⟨hlength, hall⟩, rfl⟩
      cases values with
      | nil => cases hlength
      | cons value others =>
        rw [forall_mem_cons] at hall
        rw [flatMap_cons, append_assoc]
        have hothers := ih.run_append rest ⟨Nat.succ.inj hlength, hall.2⟩
        exact ⟨value, _, h.run_append _ hall.1, others, rest, hothers, rfl, rfl⟩

end

/-- A record read field by field: what is read first is its field, and the rest of the reader
gives the records with that field. The condition gathers the fields read so far. -/
theorem Decodes.field {ε α ρ : Type} {decoder : Decoder ε α} {write : α → Bytes}
    {valid : α → Prop} {next : α → Decoder ε ρ} {others : ρ → Bytes} {whole fixed : ρ → Prop}
    (h : Decodes decoder write valid) (field : ρ → α)
    (hwhole : ∀ record, whole record → valid (field record))
    (hnext : ∀ value, valid value → Decodes (next value) others fun record =>
      whole record ∧ fixed record ∧ field record = value) :
    Decodes (decoder >>= next) (fun record => write (field record) ++ others record)
      fun record => whole record ∧ fixed record := by
  intro bytes record left
  rw [decode_bind_iff]
  constructor
  · rintro ⟨value, middle, hvalue, hrecord⟩
    obtain ⟨hvalid, rfl⟩ := (h _ _ _).1 hvalue
    obtain ⟨⟨hrest, hfixed, rfl⟩, rfl⟩ := (hnext value hvalid _ _ _).1 hrecord
    exact ⟨⟨hrest, hfixed⟩, (append_assoc _ _ _).symm⟩
  · rintro ⟨⟨hrest, hfixed⟩, rfl⟩
    have hvalid := hwhole record hrest
    rw [append_assoc]
    exact ⟨field record, _, h.run_append _ hvalid,
      (hnext (field record) hvalid).run_append left ⟨hrest, hfixed, rfl⟩⟩

theorem Decodes.record {ε ρ : Type} {record : ρ} {valid : ρ → Prop}
    (h : ∀ other, valid other ↔ other = record) :
    Decodes (pure record : Decoder ε ρ) (fun _ => []) valid := by
  intro bytes other rest
  rw [decode_pure_iff, h other, nil_append]
  exact and_congr eq_comm Iff.rfl

end QuantumLlm
