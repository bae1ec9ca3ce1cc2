import QuantumLlm.Core.Json.Fuel

/-!
# Canonical form

The canonical form of a text: a fixpoint of the parser and the printer that keeps the
value, and the same for two texts exactly when they stand for the same value.
-/

namespace QuantumLlm.Core.Json

open List

open Parsing (Failure bind_ok)

variable {value : Value} {input : Bytes}

theorem normal_canonical (h : WellFormed value) :
    appendCanonical value.normal = appendCanonical value := by
  induction h with
  | null => rfl
  | boolean value => rfl
  | @signed value hle =>
    rw [normal_signed]
    split
    next hzero =>
      subst hzero
      rfl
    next => rfl
  | unsigned value => rfl
  | number numeral hvalue => rfl
  | string text => rfl
  | @array items hitems ih =>
    have htexts : items.map (appendCanonical ∘ Value.normal) = items.map appendCanonical :=
      map_congr_left ih
    rw [normal_array, appendCanonical_array, appendCanonical_array, map_map, htexts]
  | @object members hsorted hmembers ih =>
    rw [normal_object, appendCanonical_object, appendCanonical_object, map_map]
    rw [map_congr_left (g := memberText) fun member hmember => ?_]
    rw [Function.comp_apply, memberText, memberText, ih member hmember]

theorem normal_normal (h : WellFormed value) :
    value.normal.normal = value.normal := by
  induction h with
  | null => rfl
  | boolean value => rfl
  | @signed value hle =>
    rw [normal_signed]
    split
    next => rfl
    next hne => rw [normal_signed, if_neg hne]
  | unsigned value => rfl
  | number numeral hvalue => rfl
  | string text => rfl
  | @array items hitems ih =>
    have hitems' : items.map (Value.normal ∘ Value.normal) = items.map Value.normal :=
      map_congr_left ih
    rw [normal_array, normal_array, map_map, hitems']
  | @object members hsorted hmembers ih =>
    rw [normal_object, normal_object, map_map]
    rw [map_congr_left fun member hmember => ?_]
    rw [Function.comp_apply, ih member hmember]

theorem parse_ok_iff :
    parse input = .ok value ↔ parseDocument input = .ok value := by
  rw [parse]
  cases parseDocument input with
  | error failure => exact iff_of_false (nofun) (nofun)
  | ok found => exact ⟨fun h => by cases h; rfl, fun h => by cases h; rfl⟩

theorem parse_wellFormed (h : parse input = .ok value) :
    WellFormed value := by
  obtain ⟨⟨found, rest⟩, hfound, hend⟩ := bind_ok (parse_ok_iff.1 h)
  dsimp only at hend
  split at hend
  next => cases hend
  next =>
    cases hend
    exact parseValue_wellFormed hfound

theorem parse_canonicalize (h : WellFormed value) :
    parse (canonicalize value) = .ok value.normal := by
  have hskip := skipWhitespace_canonical h []
  have hread := parseValue_reads h (Nat.le_succ (appendCanonical value).length) []
    (nofun)
  rw [append_nil] at hskip hread
  rw [parse_ok_iff, parseDocument, canonicalize, hskip, hread]
  rfl

/-- The canonical form of an accepted text is accepted, stands for the same value up to
the representation of integer zeros, and is its own canonical form; two texts have one
canonical form exactly when they stand for the same value up to that representation. -/
theorem canonical_form {text : Bytes} {value : Value} (h : parse text = .ok value) :
    (∃ again, parse (canonicalize value) = .ok again ∧ again.normal = value.normal) ∧
    canonicalizeText (canonicalize value) = .ok (canonicalize value) ∧
    ∀ {other : Bytes} {found : Value}, parse other = .ok found →
      (canonicalize found = canonicalize value ↔ found.normal = value.normal) := by
  have hwell := parse_wellFormed h
  have hagain := parse_canonicalize hwell
  refine ⟨⟨value.normal, hagain, normal_normal hwell⟩, ?_, fun {other found} hother => ?_⟩
  · rw [canonicalizeText, hagain]
    exact congrArg Except.ok (normal_canonical hwell)
  · have hfound := parse_wellFormed hother
    constructor
    · intro hsame
      have hfoundAgain := parse_canonicalize hfound
      rw [hsame, hagain] at hfoundAgain
      exact (Except.ok.inj hfoundAgain).symm
    · intro hnormal
      rw [canonicalize, canonicalize, ← normal_canonical hfound, ← normal_canonical hwell, hnormal]

def zeroText : Bytes := ['0'.toUInt8]

def minusZeroText : Bytes := ['-'.toUInt8, '0'.toUInt8]

theorem zeroText_form : parse zeroText = .ok (.unsigned 0) ∧ canonicalize (.unsigned 0) = zeroText ∧
    ∀ {other : Bytes} {found : Value}, parse other = .ok found →
      (canonicalize found = canonicalize (.unsigned 0) ↔
        found.normal = (Value.unsigned 0).normal) :=
  ⟨rfl, rfl, (@canonical_form zeroText _ rfl).2.2⟩

/-- Two values, of two number tokens, have one canonical form. -/
theorem minusZeroText_form : ¬ ∀ (text other : Bytes) (value found : Value),
    parse text = .ok value → parse other = .ok found →
      (canonicalize value = canonicalize found ↔ value = found) := by
  intro h
  have hzero : parse zeroText = .ok (.unsigned 0) := rfl
  have hminus : parse minusZeroText = .ok (.signed 0) := rfl
  cases (h _ _ _ _ hzero hminus).1 rfl

end QuantumLlm.Core.Json
