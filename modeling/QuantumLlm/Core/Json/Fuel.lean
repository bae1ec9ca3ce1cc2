import QuantumLlm.Core.Json.RoundTrip

/-!
# The fuel of the parser

Every loop of the parser takes a byte in each round and every nested value stands behind
a bracket, so the fuel that the parser starts with is never used up.
-/

namespace QuantumLlm.Core.Json

open List

open Parsing (Parser Failure Progress bind_fueled progress_of_fueled fail)

theorem skipWhitespace_length (input : Bytes) : (skipWhitespace input).length ≤ input.length :=
  (dropWhile_suffix isSpace).length_le

theorem consume?_length {expected : UInt8} {input rest : Bytes}
    (h : consume? expected input = some rest) : rest.length < input.length := by
  rw [consume?_eq_some.1 h, length_cons]
  omega

/-! ## Strings -/

theorem shiftHex_fueled (value : UInt32) (c : UInt8) (rest : Bytes) :
    shiftHex value c rest ≠ .error .exhausted := by
  intro h
  rw [shiftHex] at h
  split at h <;> cases h

theorem parseHex4_progress (input : Bytes) : Progress input.length (parseHex4 input) := by
  rw [parseHex4.eq_def]
  split
  next =>
    refine progress_of_fueled (shiftHex_fueled _ _ _) fun _ _ => ?_
    refine progress_of_fueled (shiftHex_fueled _ _ _) fun _ _ => ?_
    refine progress_of_fueled (shiftHex_fueled _ _ _) fun _ _ => ?_
    refine progress_of_fueled (shiftHex_fueled _ _ _) fun _ _ => ?_
    simp only [Progress, length_cons]
    omega
  next => exact True.intro

theorem parseUnicode_progress (input : Bytes) : Progress input.length (parseUnicode input) := by
  refine (parseHex4_progress input).bind fun codepoint left hleft => ?_
  dsimp only
  split
  next =>
    split
    next => exact True.intro
    next after hafter =>
      obtain ⟨middle, hbackslash, hmark⟩ := Option.bind_eq_some_iff.1 hafter
      have hbackslash := consume?_length hbackslash
      have hmark := consume?_length hmark
      refine (parseHex4_progress after).bind fun low last hlast => ?_
      dsimp only
      split
      next => exact True.intro
      next => exact (by omega : last.length < input.length)
  next =>
    split
    next => exact True.intro
    next => exact hleft

theorem parseEscape_progress (input : Bytes) : Progress input.length (parseEscape input) := by
  cases input with
  | nil => exact True.intro
  | cons escaped input =>
    rw [parseEscape]
    repeat' split
    all_goals first
      | exact Nat.lt_succ_self _
      | exact (parseUnicode_progress input).mono (Nat.le_succ _)
      | exact True.intro

theorem stringLoop_progress {fuel : Nat} {input : Bytes} (hfuel : input.length < fuel)
    (output : Bytes) : Progress input.length (stringLoop fuel output input) := by
  induction fuel generalizing output input with
  | zero => omega
  | succ fuel ih =>
    cases input with
    | nil => exact True.intro
    | cons raw input =>
      rw [length_cons] at hfuel ⊢
      rw [stringLoop]
      split
      next => exact Nat.lt_succ_self _
      split
      next => exact True.intro
      split
      next => exact (ih (by omega) _).mono (Nat.le_succ _)
      next =>
        exact (parseEscape_progress input).bind fun bytes left hleft =>
          (ih (by omega) _).mono (by omega)

theorem parseString_progress (input : Bytes) : Progress input.length (parseString input) := by
  rw [parseString]
  split
  next => exact True.intro
  next left hquote =>
    have hquote := consume?_length hquote
    exact (stringLoop_progress (Nat.lt_succ_self _) _).mono (by omega)

/-! ## Numbers -/

theorem digits_fueled (message : String) (input : Bytes) :
    digits message input ≠ .error .exhausted := by
  intro h
  rw [digits] at h
  split at h <;> cases h

theorem parseNumber_fueled (input : Bytes) : parseNumber input ≠ .error .exhausted := by
  refine bind_fueled ?_ fun _ => bind_fueled ?_ fun _ => bind_fueled ?_ fun _ => ?_
  · rw [integerPart.eq_def]
    repeat' split
    all_goals exact fun h => by cases h
  · rw [fractionPart]
    split
    next => exact fun h => by cases h
    next => exact bind_fueled (digits_fueled _ _) fun _ h => by cases h
  · rw [exponentPart.eq_def]
    split
    next => exact fun h => by cases h
    next =>
      split
      next => exact bind_fueled (digits_fueled _ _) fun _ h => by cases h
      next => exact fun h => by cases h
  · dsimp only
    split <;> exact fun h => by cases h

theorem parseNumber_progress (input : Bytes) : Progress input.length (parseNumber input) := by
  cases hread : parseNumber input with
  | ok read =>
    obtain ⟨numeral, rfl, -⟩ := parseNumber_ok hread
    obtain ⟨c, tail, htext, -⟩ := numeral.head
    simp only [Progress, htext, length_append, length_cons]
    omega
  | error failure =>
    cases failure with
    | stopped rest message => exact True.intro
    | exhausted => exact parseNumber_fueled input hread

section

variable {parseValue : Parser UInt8 Value} {input : Bytes}

theorem parseItem_progress (h : Progress input.length (parseValue input)) (items : List Value) :
    Progress input.length (parseItem parseValue items input) :=
  h.bind fun _ _ hrest => hrest

theorem parseMember_progress
    (h : ∀ after : Bytes, after.length ≤ input.length → Progress after.length (parseValue after))
    (members : Members) : Progress input.length (parseMember parseValue members input) := by
  rw [parseMember]
  split
  next => exact True.intro
  next =>
    refine (parseString_progress input).bind fun key middle hmiddle => ?_
    have hspace := skipWhitespace_length middle
    dsimp only
    split
    next => exact True.intro
    next after hcolon =>
      have hcolon := consume?_length hcolon
      have hafter := skipWhitespace_length after
      refine (h _ (by omega)).bind fun child left hleft => ?_
      dsimp only
      split
      next => exact True.intro
      next => exact (by omega : left.length < input.length)

variable {α : Type} {opening closing : UInt8} {message : String} {item : α → Parser UInt8 α}

theorem parseContainer_progress (hitem : ∀ state (inner : Bytes), inner.length ≤ input.length →
    Progress inner.length (item state inner)) (start : α) :
    Progress (input.length + 1)
      (parseContainer opening closing message item start (opening :: input)) := by
  have hskip := skipWhitespace_length input
  rw [parseContainer, consume?_eq_some.2 rfl, Option.getD_some]
  split
  next left hclose =>
    have hclose := consume?_length hclose
    exact (by omega : left.length < input.length + 1)
  next =>
    exact (Parsing.separated_progress skipWhitespace_length hitem (Nat.lt_succ_self _)
      hskip).mono (by omega)

end

theorem expect_progress {token : String} (htoken : token.toList ≠ []) (value : Value)
    (input : Bytes) : Progress input.length (expect token value input) := by
  rw [expect]
  split
  next hmatch =>
    have hlength := congrArg List.length hmatch
    have hpositive := length_pos_iff.2 htoken
    rw [length_take, length_map] at hlength
    simp only [Progress, length_drop, length_map]
    omega
  next => exact True.intro

theorem parseValue_progress {depth : Nat} {input : Bytes} (h : input.length ≤ depth) :
    Progress input.length (parseValue (depth + 1) input) := by
  induction depth generalizing input with
  | zero =>
    cases input with
    | nil => exact True.intro
    | cons c input => cases h
  | succ depth ih =>
    cases input with
    | nil => exact True.intro
    | cons c input =>
      rw [length_cons] at h
      rcases parseValue_cases (depth + 1) c input with ⟨token, word, htoken, -, heq⟩ | heq |
        ⟨rfl, heq⟩ | ⟨rfl, heq⟩ | heq | heq <;> rw [heq]
      · exact expect_progress htoken _ _
      · exact (parseString_progress _).bind fun _ _ hrest => hrest
      · exact (parseContainer_progress (fun _ _ hinner =>
          parseItem_progress (ih (by omega)) _) _).bind fun _ _ hrest => hrest
      · exact (parseContainer_progress (fun _ _ hinner => parseMember_progress
          (fun _ hafter => ih (by omega)) _) _).bind fun _ _ hrest => hrest
      · exact parseNumber_progress _
      · exact True.intro

theorem parseDocument_fueled (input : Bytes) : parseDocument input ≠ .error .exhausted := by
  refine bind_fueled (parseValue_progress (skipWhitespace_length input)).fueled fun _ => ?_
  dsimp only
  split <;> exact fun h => by cases h

end QuantumLlm.Core.Json
