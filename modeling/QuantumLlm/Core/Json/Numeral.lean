import QuantumLlm.Core.Json.Parser
import Mathlib.Data.List.TakeWhile

/-!
# Number tokens

The tokens that the number parser takes, and the integers among them.
-/

namespace QuantumLlm.Core.Json

open List

open Parsing (Parser Failure fail bind_ok)

/-- What may follow a value inside a canonical text. -/
def Ends (rest : Bytes) : Prop :=
  ∀ c ∈ rest.head?, c = ','.toUInt8 ∨ c = ']'.toUInt8 ∨ c = '\x7d'.toUInt8

def IsInteger (text : Bytes) : Prop :=
  text = ['0'.toUInt8] ∨ ∃ c rest, text = c :: rest ∧
    ('1'.toUInt8 ≤ c ∧ c ≤ '9'.toUInt8) ∧ ∀ d ∈ rest, isDigit d = true

def IsDigits (text : Bytes) : Prop := text ≠ [] ∧ ∀ d ∈ text, isDigit d = true

def IsFraction (text : Bytes) : Prop :=
  text = [] ∨ ∃ rest, text = '.'.toUInt8 :: rest ∧ IsDigits rest

def IsExponent (text : Bytes) : Prop :=
  text = [] ∨ ∃ c sign rest, text = c :: sign ++ rest ∧ (c = 'e'.toUInt8 ∨ c = 'E'.toUInt8) ∧
    (sign = [] ∨ sign = ['+'.toUInt8] ∨ sign = ['-'.toUInt8]) ∧ IsDigits rest

/-- A token of the grammar. -/
structure Numeral where
  sign : Bytes
  integer : Bytes
  fraction : Bytes
  exponent : Bytes
  isSign : sign = [] ∨ sign = ['-'.toUInt8]
  isInteger : IsInteger integer
  isFraction : IsFraction fraction
  isExponent : IsExponent exponent

namespace Numeral

variable (numeral : Numeral)

def text : Bytes := numeral.sign ++ numeral.integer ++ numeral.fraction ++ numeral.exponent

/-- The value that a token stands for, unless it is an integer out of range. -/
def value : Option Value :=
  tokenValue (!numeral.fraction.isEmpty || !numeral.exponent.isEmpty) (!numeral.sign.isEmpty)
    numeral.text

end Numeral

variable {expected c : UInt8} {input rest text : Bytes} {message : String} {value : Value}

theorem consume?_eq_some :
    consume? expected input = some rest ↔ input = expected :: rest := by
  cases input with
  | nil => simp [consume?]
  | cons c input => simp [consume?]

theorem consume?_eq_none :
    consume? expected input = none ↔ input.head? ≠ some expected := by
  cases input with
  | nil => simp [consume?]
  | cons c input => simp [consume?]

theorem isDigit_zero : isDigit '0'.toUInt8 = true := by decide

theorem isDigit_of_between (h : '1'.toUInt8 ≤ c ∧ c ≤ '9'.toUInt8) :
    isDigit c = true := by
  have hle : '0'.toUInt8 ≤ c := UInt8.le_trans (by decide) h.1
  simp [isDigit, hle, h.2]

theorem takeWhile_digits (htext : ∀ d ∈ text, isDigit d = true)
    (hrest : rest.head?.any isDigit = false) :
    (text ++ rest).takeWhile isDigit = text ∧ (text ++ rest).dropWhile isDigit = rest := by
  have hstop : rest.takeWhile isDigit = [] ∧ rest.dropWhile isDigit = rest := by
    cases rest with
    | nil => exact ⟨rfl, rfl⟩
    | cons c rest =>
      have hc : isDigit c = false := hrest
      simp [hc]
  rw [takeWhile_append_of_pos htext, dropWhile_append_of_pos htext, hstop.1, hstop.2]
  exact ⟨append_nil text, rfl⟩

theorem takeWhile_isDigit (input : Bytes) : ∀ d ∈ input.takeWhile isDigit, isDigit d = true :=
  fun _ h => mem_takeWhile_imp h

theorem digits_ok
    (h : digits message input = .ok (text, rest)) : IsDigits text ∧ input = text ++ rest := by
  rw [digits] at h
  split at h
  next => cases h
  next found hne =>
    cases h
    exact ⟨⟨fun h => hne h, takeWhile_isDigit input⟩, (takeWhile_append_dropWhile).symm⟩

theorem digits_reads (htext : IsDigits text) (hrest : rest.head?.any isDigit = false) :
    digits message (text ++ rest) = .ok (text, rest) := by
  obtain ⟨htake, hdrop⟩ := takeWhile_digits htext.2 hrest
  rw [digits, htake, hdrop]
  cases text with
  | nil => exact absurd rfl htext.1
  | cons => rfl

theorem integerPart_ok (h : integerPart input = .ok (text, rest)) :
    IsInteger text ∧ input = text ++ rest := by
  cases input with
  | nil => cases h
  | cons c input =>
    rw [integerPart] at h
    split at h
    next hzero =>
      split at h
      next => cases h
      next =>
        cases h
        exact ⟨.inl (by rw [hzero]), rfl⟩
    next =>
      split at h
      next => cases h
      next hrange =>
        cases h
        rw [not_or, UInt8.not_lt, UInt8.not_lt] at hrange
        exact ⟨.inr ⟨c, _, rfl, hrange, takeWhile_isDigit input⟩,
          by rw [cons_append, takeWhile_append_dropWhile]⟩

theorem integerPart_reads (htext : IsInteger text)
    (hrest : rest.head?.any isDigit = false) : integerPart (text ++ rest) = .ok (text, rest) := by
  rcases htext with rfl | ⟨c, digits, rfl, hrange, hdigits⟩
  · simp [integerPart, hrest]
  · obtain ⟨htake, hdrop⟩ := takeWhile_digits hdigits hrest
    have hzero : c ≠ '0'.toUInt8 := by
      rintro rfl
      exact absurd hrange.1 (by decide)
    rw [cons_append, integerPart, if_neg hzero, if_neg, htake, hdrop]
    rw [not_or, UInt8.not_lt, UInt8.not_lt]
    exact hrange

theorem fractionPart_ok (h : fractionPart input = .ok (text, rest)) :
    IsFraction text ∧ input = text ++ rest := by
  rw [fractionPart] at h
  split at h
  next =>
    cases h
    exact ⟨.inl rfl, rfl⟩
  next after hdot =>
    obtain ⟨⟨found, left⟩, hfound, h⟩ := bind_ok h
    cases h
    obtain ⟨hdigits, rfl⟩ := digits_ok hfound
    exact ⟨.inr ⟨found, rfl, hdigits⟩, consume?_eq_some.1 hdot⟩

theorem fractionPart_reads (htext : IsFraction text)
    (hdigit : rest.head?.any isDigit = false) (hdot : rest.head? ≠ some '.'.toUInt8) :
    fractionPart (text ++ rest) = .ok (text, rest) := by
  rcases htext with rfl | ⟨digits, rfl, hdigits⟩
  · rw [fractionPart, nil_append, consume?_eq_none.2 hdot]
  · rw [fractionPart, cons_append, consume?_eq_some.2 rfl]
    simp only [digits_reads hdigits hdigit, bind, Except.bind]

theorem exponentSign_eq (input : Bytes) : ∃ sign rest, exponentSign input = (sign, rest) ∧
    (sign = [] ∨ sign = ['+'.toUInt8] ∨ sign = ['-'.toUInt8]) ∧ input = sign ++ rest := by
  cases input with
  | nil => exact ⟨[], [], rfl, .inl rfl, rfl⟩
  | cons c rest =>
    rw [exponentSign]
    split
    next hsign => exact ⟨[c], rest, rfl, .inr (by simpa using hsign), rfl⟩
    next => exact ⟨[], c :: rest, rfl, .inl rfl, rfl⟩

theorem exponentSign_reads {sign digits : Bytes}
    (hsign : sign = [] ∨ sign = ['+'.toUInt8] ∨ sign = ['-'.toUInt8]) (hdigits : IsDigits digits)
    (rest : Bytes) : exponentSign (sign ++ (digits ++ rest)) = (sign, digits ++ rest) := by
  rcases hsign with rfl | rfl | rfl
  · obtain ⟨hne, hall⟩ := hdigits
    cases digits with
    | nil => exact absurd rfl hne
    | cons d digits =>
      have hd := hall d (by simp)
      have hnot : ¬ (d = '+'.toUInt8 ∨ d = '-'.toUInt8) := by
        rintro (rfl | rfl) <;> exact absurd hd (by decide)
      simp only [nil_append, cons_append, exponentSign, if_neg hnot]
  · rfl
  · rfl

theorem exponentPart_ok (h : exponentPart input = .ok (text, rest)) :
    IsExponent text ∧ input = text ++ rest := by
  cases input with
  | nil =>
    cases h
    exact ⟨.inl rfl, rfl⟩
  | cons c input =>
    rw [exponentPart] at h
    split at h
    next hmark =>
      obtain ⟨sign, after, heq, hsign, rfl⟩ := exponentSign_eq input
      rw [heq] at h
      obtain ⟨⟨found, left⟩, hfound, h⟩ := bind_ok h
      cases h
      obtain ⟨hdigits, rfl⟩ := digits_ok hfound
      exact ⟨.inr ⟨c, sign, found, rfl, hmark, hsign, hdigits⟩, by simp⟩
    next =>
      cases h
      exact ⟨.inl rfl, rfl⟩

theorem exponentPart_reads (htext : IsExponent text) (hdigit : rest.head?.any isDigit = false)
    (hmark : rest.head? ≠ some 'e'.toUInt8 ∧ rest.head? ≠ some 'E'.toUInt8) :
    exponentPart (text ++ rest) = .ok (text, rest) := by
  rcases htext with rfl | ⟨c, sign, digits, rfl, hc, hsign, hdigits⟩
  · cases rest with
    | nil => rfl
    | cons c rest =>
      have hnot : ¬ (c = 'e'.toUInt8 ∨ c = 'E'.toUInt8) := by simpa using hmark
      rw [nil_append, exponentPart, if_neg hnot]
  · have hread := exponentSign_reads hsign hdigits rest
    rw [cons_append, cons_append, append_assoc, exponentPart, if_pos hc, hread]
    simp only [digits_reads hdigits hdigit, bind, Except.bind, cons_append]

theorem sign_split (input : Bytes) : ∃ sign after, (sign = [] ∨ sign = ['-'.toUInt8]) ∧
    input = sign ++ after ∧ (consume? '-'.toUInt8 input).getD input = after ∧
    (consume? '-'.toUInt8 input).isSome = !sign.isEmpty := by
  cases h : consume? '-'.toUInt8 input with
  | none => exact ⟨[], input, .inl rfl, rfl, rfl, rfl⟩
  | some after => exact ⟨['-'.toUInt8], after, .inr rfl, consume?_eq_some.1 h, rfl, rfl⟩

theorem IsInteger.head (h : IsInteger text) :
    ∃ c rest, text = c :: rest ∧ isDigit c = true := by
  rcases h with rfl | ⟨c, rest, rfl, hrange, -⟩
  · exact ⟨_, [], rfl, isDigit_zero⟩
  · exact ⟨c, rest, rfl, isDigit_of_between hrange⟩

theorem Numeral.sign_reads (numeral : Numeral) (rest : Bytes) :
    (consume? '-'.toUInt8 (numeral.sign ++ (numeral.integer ++ rest))).isSome =
      !numeral.sign.isEmpty ∧
    (consume? '-'.toUInt8 (numeral.sign ++ (numeral.integer ++ rest))).getD
      (numeral.sign ++ (numeral.integer ++ rest)) = numeral.integer ++ rest := by
  rcases numeral.isSign with hsign | hsign
  · obtain ⟨c, tail, hinteger, hc⟩ := numeral.isInteger.head
    have hne : c ≠ '-'.toUInt8 := by
      rintro rfl
      exact absurd hc (by decide)
    have hnone : consume? '-'.toUInt8 (numeral.integer ++ rest) = none := by
      rw [consume?_eq_none, hinteger]
      simpa using hne
    rw [hsign, nil_append, hnone]
    exact ⟨rfl, rfl⟩
  · rw [hsign]
    exact ⟨rfl, rfl⟩

theorem parseNumber_ok (h : parseNumber input = .ok (value, rest)) :
    ∃ numeral : Numeral, input = numeral.text ++ rest ∧ numeral.value = some value := by
  obtain ⟨sign, after, hsign, hinput, hafter, hnegative⟩ := sign_split input
  obtain ⟨⟨integer, afterInteger⟩, hreadInteger, hfromFraction⟩ := bind_ok h
  obtain ⟨⟨fraction, afterFraction⟩, hreadFraction, hfromExponent⟩ := bind_ok hfromFraction
  obtain ⟨⟨exponent, left⟩, hreadExponent, hresult⟩ := bind_ok hfromExponent
  rw [hafter] at hreadInteger
  obtain ⟨hinteger, rfl⟩ := integerPart_ok hreadInteger
  obtain ⟨hfraction, rfl⟩ := fractionPart_ok hreadFraction
  obtain ⟨hexponent, rfl⟩ := exponentPart_ok hreadExponent
  let numeral : Numeral :=
    ⟨sign, integer, fraction, exponent, hsign, hinteger, hfraction, hexponent⟩
  have htext : input = numeral.text ++ left := by
    rw [hinput]
    simp [Numeral.text, numeral]
  have htoken : input.take (input.length - left.length) = numeral.text := by
    rw [htext, length_append, Nat.add_sub_cancel, take_left]
  dsimp only at hresult
  rw [htoken, hnegative] at hresult
  split at hresult
  next found hfound =>
    cases hresult
    exact ⟨numeral, htext, hfound⟩
  next => cases hresult

theorem head_append (h : (text ++ rest).head? = some c) :
    text.head? = some c ∨ rest.head? = some c := by
  cases text with
  | nil => exact .inr h
  | cons d text => exact .inl h

theorem IsExponent.head (h : IsExponent text)
    (hc : text.head? = some c) : c = 'e'.toUInt8 ∨ c = 'E'.toUInt8 := by
  rcases h with rfl | ⟨d, sign, rest, rfl, hd, -, -⟩
  · cases hc
  · cases hc
    exact hd

theorem IsFraction.head (h : IsFraction text) (hc : text.head? = some c) : c = '.'.toUInt8 := by
  rcases h with rfl | ⟨rest, rfl, -⟩
  · cases hc
  · cases hc
    rfl

theorem any_head (h : ∀ c, rest.head? = some c → isDigit c = false) :
    rest.head?.any isDigit = false := by
  cases hhead : rest.head? with
  | none => rfl
  | some c => exact h c hhead

theorem parseNumber_reads (numeral : Numeral) (hends : Ends rest)
    (hvalue : numeral.value = some value) :
    parseNumber (numeral.text ++ rest) = .ok (value, rest) := by
  have hrest : ∀ c, rest.head? = some c → isDigit c = false ∧ c ≠ '.'.toUInt8 ∧
      c ≠ 'e'.toUInt8 ∧ c ≠ 'E'.toUInt8 := by
    intro c hc
    rcases hends c hc with rfl | rfl | rfl <;> decide
  have hexponent : ∀ c, (numeral.exponent ++ rest).head? = some c →
      isDigit c = false ∧ c ≠ '.'.toUInt8 := by
    intro c hc
    rcases head_append hc with hc | hc
    · rcases numeral.isExponent.head hc with rfl | rfl <;> decide
    · exact ⟨(hrest c hc).1, (hrest c hc).2.1⟩
  have hfraction : ∀ c, (numeral.fraction ++ (numeral.exponent ++ rest)).head? = some c →
      isDigit c = false := by
    intro c hc
    rcases head_append hc with hc | hc
    · rw [numeral.isFraction.head hc]
      decide
    · exact (hexponent c hc).1
  have hreadInteger := integerPart_reads numeral.isInteger (any_head hfraction)
  have hreadFraction := fractionPart_reads numeral.isFraction
    (any_head fun c hc => (hexponent c hc).1) (fun hc => (hexponent _ hc).2 rfl)
  have hreadExponent := exponentPart_reads numeral.isExponent
    (any_head fun c hc => (hrest c hc).1)
    ⟨fun hc => (hrest _ hc).2.2.1 rfl, fun hc => (hrest _ hc).2.2.2 rfl⟩
  obtain ⟨hsome, hgetD⟩ := numeral.sign_reads (numeral.fraction ++ (numeral.exponent ++ rest))
  have htoken : (numeral.text ++ rest).take ((numeral.text ++ rest).length - rest.length) =
      numeral.text := by
    rw [length_append, Nat.add_sub_cancel, take_left]
  have hsplit : numeral.text ++ rest = numeral.sign ++ (numeral.integer ++
      (numeral.fraction ++ (numeral.exponent ++ rest))) := by
    simp [Numeral.text]
  rw [← hsplit] at hsome hgetD
  simp only [parseNumber, hsome, hgetD, hreadInteger, hreadFraction, hreadExponent, bind,
    Except.bind, htoken]
  rw [← Numeral.value, hvalue]

theorem digitByte_eq {digit : Nat} (h : digit < 10) : isDigit (digitByte digit) = true ∧
    (digitByte digit - '0'.toUInt8).toNat = digit ∧
    (digit ≠ 0 → '1'.toUInt8 ≤ digitByte digit ∧ digitByte digit ≤ '9'.toUInt8) := by
  have hall : ∀ digit < 10, isDigit (digitByte digit) = true ∧
      (digitByte digit - '0'.toUInt8).toNat = digit ∧
      (digit ≠ 0 → '1'.toUInt8 ≤ digitByte digit ∧ digitByte digit ≤ '9'.toUInt8) := by decide
  exact hall digit h

theorem digits_reverse {value : Nat} (hne : value ≠ 0) : ∃ digit rest,
    (Nat.digits 10 value).reverse = digit :: rest ∧ digit ≠ 0 ∧ digit < 10 ∧
      ∀ other ∈ rest, other < 10 := by
  have hlast := Nat.getLast_digit_ne_zero 10 hne
  have hsmall : ∀ digit ∈ (Nat.digits 10 value).reverse, digit < 10 := fun digit hdigit =>
    Nat.digits_lt_base (by decide) (mem_reverse.1 hdigit)
  cases hreverse : (Nat.digits 10 value).reverse with
  | nil =>
    rw [reverse_eq_nil_iff, Nat.digits_eq_nil_iff_eq_zero] at hreverse
    exact absurd hreverse hne
  | cons digit rest =>
    rw [hreverse] at hsmall
    refine ⟨digit, rest, rfl, ?_, hsmall digit mem_cons_self,
      fun other hother => hsmall other (mem_cons_of_mem _ hother)⟩
    have hdigits : Nat.digits 10 value = rest.reverse ++ [digit] := by
      rw [← reverse_reverse (Nat.digits 10 value), hreverse, reverse_cons]
    simpa [hdigits] using hlast

theorem decimal_isInteger (value : Nat) : IsInteger (decimal value) := by
  rw [decimal]
  split
  next => exact .inl rfl
  next hne =>
    obtain ⟨digit, rest, hdigits, hnonzero, hdigit, hrest⟩ := digits_reverse hne
    refine .inr ⟨digitByte digit, rest.map digitByte, by rw [hdigits, map_cons],
      (digitByte_eq hdigit).2.2 hnonzero, fun c hc => ?_⟩
    obtain ⟨other, hother, rfl⟩ := mem_map.1 hc
    exact (digitByte_eq (hrest other hother)).1

theorem digitsValue_decimal (value : Nat) : digitsValue (decimal value) = value := by
  rw [decimal]
  split
  next hzero =>
    rw [hzero]
    rfl
  next hne =>
    have hsmall : ∀ digit ∈ Nat.digits 10 value, digit < 10 :=
      fun digit hdigit => Nat.digits_lt_base (by decide) hdigit
    have hfold : ∀ digits : List Nat, (∀ digit ∈ digits, digit < 10) →
        digitsValue (digits.reverse.map digitByte) = Nat.ofDigits 10 digits := by
      intro digits hdigits
      induction digits with
      | nil => rfl
      | cons digit rest ih =>
        have hrest := ih fun other hother => hdigits other (mem_cons_of_mem _ hother)
        have hdigit := (digitByte_eq (hdigits digit mem_cons_self)).2.1
        rw [digitsValue] at hrest ⊢
        rw [reverse_cons, map_append, foldl_append, hrest, Nat.ofDigits_cons]
        simp only [map_cons, map_nil, foldl_cons, foldl_nil, hdigit]
        omega
    rw [hfold _ hsmall, Nat.ofDigits_digits]

/-- The numeral of an integer. -/
def integerNumeral (negative : Bool) (value : Nat) : Numeral where
  sign := if negative then ['-'.toUInt8] else []
  integer := decimal value
  fraction := []
  exponent := []
  isSign := by cases negative <;> simp
  isInteger := decimal_isInteger value
  isFraction := .inl rfl
  isExponent := .inl rfl

theorem unsigned_numeral (value : UInt64) :
    (integerNumeral false value.toNat).text = decimal value.toNat ∧
    (integerNumeral false value.toNat).value = some (.unsigned value) := by
  have htext : (integerNumeral false value.toNat).text = decimal value.toNat := by
    simp [Numeral.text, integerNumeral]
  rw [Numeral.value, htext]
  simp [integerNumeral, tokenValue, unsignedFromChars, digitsValue_decimal, value.toNat_lt]

theorem signed_numeral {value : Int64} (hneg : value.toInt < 0) :
    (integerNumeral true value.toInt.natAbs).text = signedDecimal value.toInt ∧
    (integerNumeral true value.toInt.natAbs).value = some (.signed value) := by
  have htext : (integerNumeral true value.toInt.natAbs).text = signedDecimal value.toInt := by
    simp [Numeral.text, integerNumeral, signedDecimal, hneg]
  refine ⟨htext, ?_⟩
  have habs : -(value.toInt.natAbs : Int) = value.toInt := by omega
  have hrange : -2 ^ 63 ≤ value.toInt ∧ value.toInt < 2 ^ 63 :=
    ⟨value.le_toInt, value.toInt_lt⟩
  rw [Numeral.value, htext]
  simp only [integerNumeral, tokenValue, signedFromChars, signedDecimal, if_pos hneg, consume?,
    if_true, digitsValue_decimal, habs, if_pos hrange, Int64.ofInt_toInt]
  rfl

theorem Numeral.signed_le (numeral : Numeral) {value : Int64}
    (h : numeral.value = some (.signed value)) : value.toInt ≤ 0 := by
  rw [Numeral.value, tokenValue] at h
  split at h
  next => cases h
  next =>
    split at h
    next hsign =>
      obtain ⟨found, hfound, heq⟩ := Option.map_eq_some_iff.1 h
      cases heq
      have hnegative : numeral.sign = ['-'.toUInt8] := by
        rcases numeral.isSign with hnil | hminus
        · rw [hnil] at hsign
          cases hsign
        · exact hminus
      have hconsume : consume? '-'.toUInt8 numeral.text =
          some (numeral.integer ++ numeral.fraction ++ numeral.exponent) := by
        rw [consume?_eq_some, Numeral.text, hnegative]
        simp
      rw [signedFromChars, hconsume] at hfound
      dsimp only at hfound
      split at hfound
      next hrange =>
        cases hfound
        rw [Int64.toInt_ofInt_of_le hrange.1 hrange.2]
        omega
      next => cases hfound
    next =>
      obtain ⟨found, -, heq⟩ := Option.map_eq_some_iff.1 h
      cases heq

end QuantumLlm.Core.Json
