import QuantumLlm.Core.Json.Numeral

/-!
# Reading the canonical text back

What the parser accepts is well formed, and the canonical text of a well-formed value
is read back as that value with its integer zeros unsigned.
-/

namespace QuantumLlm.Core.Json

open List

open Parsing (Parser Failure fail separated separate bind_ok)

variable {c : UInt8} {numeral : Numeral} {value : Value} {key : Bytes} {members : Members}

theorem ofNat_of_lt (h : c < 0x20) : ∃ n < 32, c = UInt8.ofNat n :=
  ⟨c.toNat, UInt8.lt_iff_toNat_lt.1 h, UInt8.ofNat_toNat.symm⟩

theorem hexByte_control (h : c < 0x20) : ∃ high low : UInt32,
    hexValue (hexByte ((c >>> 4) &&& 0x0f)) = some high ∧
    hexValue (hexByte (c &&& 0x0f)) = some low ∧
    ((((0 : UInt32) <<< 4 ||| 0) <<< 4 ||| 0) <<< 4 ||| high) <<< 4 ||| low = c.toUInt32 := by
  obtain ⟨n, hn, rfl⟩ := ofNat_of_lt h
  refine ⟨UInt32.ofNat (n / 16), UInt32.ofNat (n % 16), ?_⟩
  have hall : ∀ n < 32, hexValue (hexByte ((UInt8.ofNat n >>> 4) &&& 0x0f)) =
        some (UInt32.ofNat (n / 16)) ∧
      hexValue (hexByte (UInt8.ofNat n &&& 0x0f)) = some (UInt32.ofNat (n % 16)) ∧
      ((((0 : UInt32) <<< 4 ||| 0) <<< 4 ||| 0) <<< 4 ||| UInt32.ofNat (n / 16)) <<< 4 |||
        UInt32.ofNat (n % 16) = (UInt8.ofNat n).toUInt32 := by decide +kernel
  exact hall n hn

theorem appendUtf8_control (h : c < 0x20) :
    ¬ (0xd800 ≤ c.toUInt32 ∧ c.toUInt32 ≤ 0xdbff) ∧
    ¬ (0xdc00 ≤ c.toUInt32 ∧ c.toUInt32 ≤ 0xdfff) ∧ appendUtf8 c.toUInt32 = [c] := by
  obtain ⟨n, hn, rfl⟩ := ofNat_of_lt h
  have hall : ∀ n < 32, ¬ (0xd800 ≤ (UInt8.ofNat n).toUInt32 ∧ (UInt8.ofNat n).toUInt32 ≤ 0xdbff) ∧
      ¬ (0xdc00 ≤ (UInt8.ofNat n).toUInt32 ∧ (UInt8.ofNat n).toUInt32 ≤ 0xdfff) ∧
      appendUtf8 (UInt8.ofNat n).toUInt32 = [UInt8.ofNat n] := by decide +kernel
  exact hall n hn

theorem parseUnicode_control (h : c < 0x20) (rest : Bytes) :
    parseUnicode ('0'.toUInt8 :: '0'.toUInt8 :: hexByte ((c >>> 4) &&& 0x0f) ::
      hexByte (c &&& 0x0f) :: rest) = .ok ([c], rest) := by
  obtain ⟨high, low, hhigh, hlow, hvalue⟩ := hexByte_control h
  obtain ⟨hnotHigh, hnotLow, hutf8⟩ := appendUtf8_control h
  have hzero : hexValue '0'.toUInt8 = some 0 := by decide
  have hread : parseHex4 ('0'.toUInt8 :: '0'.toUInt8 :: hexByte ((c >>> 4) &&& 0x0f) ::
      hexByte (c &&& 0x0f) :: rest) = .ok (c.toUInt32, rest) := by
    simp only [parseHex4, shiftHex, hzero, hhigh, hlow, bind, Except.bind]
    rw [hvalue]
  simp only [parseUnicode, hread, bind, Except.bind]
  rw [if_neg hnotHigh, if_neg hnotLow, hutf8]

theorem stringLoop_escapeByte (fuel : Nat) (output : Bytes) (c : UInt8) (rest : Bytes) :
    stringLoop (fuel + 1) output (escapeByte c ++ rest) = stringLoop fuel (output ++ [c]) rest := by
  rw [escapeByte]
  split
  next h =>
    rw [h]
    rfl
  next hquote =>
  split
  next h =>
    rw [h]
    rfl
  next hbackslash =>
  split
  next h =>
    rw [h]
    rfl
  split
  next h =>
    rw [h]
    rfl
  split
  next h =>
    rw [h]
    rfl
  split
  next h =>
    rw [h]
    rfl
  split
  next h =>
    rw [h]
    rfl
  split
  next hcontrol =>
    have hread := parseUnicode_control hcontrol rest
    have hescape : parseEscape ('u'.toUInt8 :: '0'.toUInt8 :: '0'.toUInt8 ::
        hexByte ((c >>> 4) &&& 0x0f) :: hexByte (c &&& 0x0f) :: rest) = .ok ([c], rest) := hread
    have hround : stringLoop (fuel + 1) output ('\\'.toUInt8 :: 'u'.toUInt8 :: '0'.toUInt8 ::
        '0'.toUInt8 :: hexByte ((c >>> 4) &&& 0x0f) :: hexByte (c &&& 0x0f) :: rest) =
      (parseEscape ('u'.toUInt8 :: '0'.toUInt8 :: '0'.toUInt8 ::
        hexByte ((c >>> 4) &&& 0x0f) :: hexByte (c &&& 0x0f) :: rest) >>=
        fun result => stringLoop fuel (output ++ result.1) result.2) := rfl
    simp only [cons_append, nil_append]
    rw [hround, hescape]
    rfl
  next hplain =>
    rw [cons_append, nil_append, stringLoop, if_neg hquote, if_neg hplain, if_pos hbackslash]

theorem stringLoop_reads (text output rest : Bytes) {fuel : Nat} (hfuel : text.length < fuel) :
    stringLoop fuel output (text.flatMap escapeByte ++ '"'.toUInt8 :: rest) =
      .ok (output ++ text, rest) := by
  induction text generalizing fuel output with
  | nil =>
    obtain ⟨fuel, rfl⟩ : ∃ smaller, fuel = smaller + 1 := ⟨fuel - 1, by omega⟩
    simp [stringLoop]
  | cons c text ih =>
    rw [length_cons] at hfuel
    obtain ⟨fuel, rfl⟩ : ∃ smaller, fuel = smaller + 1 := ⟨fuel - 1, by omega⟩
    rw [flatMap_cons, append_assoc, stringLoop_escapeByte, ih _ (by omega)]
    simp

theorem escapeByte_ne_nil (c : UInt8) : escapeByte c ≠ [] := by
  rw [escapeByte]
  repeat' split
  all_goals simp

theorem parseString_reads (text rest : Bytes) :
    parseString (appendEscaped text ++ rest) = .ok (text, rest) := by
  have hlength : text.length ≤ (text.flatMap escapeByte).length := by
    induction text with
    | nil => exact Nat.le_refl _
    | cons c text ih =>
      have hpos := length_pos_iff.2 (escapeByte_ne_nil c)
      rw [flatMap_cons, length_append, length_cons]
      omega
  have hopen : consume? '"'.toUInt8 (appendEscaped text ++ rest) =
      some (text.flatMap escapeByte ++ '"'.toUInt8 :: rest) := by
    rw [consume?_eq_some, appendEscaped]
    simp
  rw [parseString, hopen]
  refine stringLoop_reads text [] rest ?_
  rw [length_append]
  omega

/-! ## Well-formed values -/

/-- The values that texts stand for. -/
inductive WellFormed : Value → Prop
  | null : WellFormed .null
  | boolean (value : Bool) : WellFormed (.boolean value)
  | signed {value : Int64} (hle : value.toInt ≤ 0) : WellFormed (.signed value)
  | unsigned (value : UInt64) : WellFormed (.unsigned value)
  | number (numeral : Numeral) {token : Bytes} (hvalue : numeral.value = some (.number token)) :
      WellFormed (.number token)
  | string (text : Bytes) : WellFormed (.string text)
  | array {items : List Value} (hitems : ∀ child ∈ items, WellFormed child) :
      WellFormed (.array items)
  | object {members : Members} (hsorted : members.Pairwise fun left right => left.1 < right.1)
      (hmembers : ∀ member ∈ members, WellFormed member.2) : WellFormed (.object members)

theorem Numeral.wellFormed (h : numeral.value = some value) : WellFormed value := by
  have hvalue := h
  rw [Numeral.value, tokenValue] at hvalue
  split at hvalue
  next =>
    cases hvalue
    exact .number numeral h
  next =>
    split at hvalue
    next =>
      obtain ⟨found, -, rfl⟩ := Option.map_eq_some_iff.1 hvalue
      exact .signed (numeral.signed_le h)
    next =>
      obtain ⟨found, -, rfl⟩ := Option.map_eq_some_iff.1 hvalue
      exact .unsigned found

theorem Numeral.number_token {token : Bytes}
    (h : numeral.value = some (.number token)) : numeral.text = token := by
  rw [Numeral.value, tokenValue] at h
  split at h
  next =>
    cases h
    rfl
  next =>
    split at h
    all_goals
      obtain ⟨found, -, heq⟩ := Option.map_eq_some_iff.1 h
      cases heq

theorem emplace_spec {members' : Members}
    (hsorted : members.Pairwise fun left right => left.1 < right.1)
    (h : emplace key value members = some members') :
    (members'.Pairwise fun left right => left.1 < right.1) ∧
      ∀ member ∈ members', member = (key, value) ∨ member ∈ members := by
  induction members generalizing members' with
  | nil =>
    cases h
    simp
  | cons head rest ih =>
    obtain ⟨hhead, hrest⟩ := List.pairwise_cons.1 hsorted
    rw [emplace] at h
    split at h
    next hlt =>
      cases h
      refine ⟨List.pairwise_cons.2 ⟨fun member hmember => ?_, hsorted⟩, fun member hmember =>
        List.mem_cons.1 hmember⟩
      rcases List.mem_cons.1 hmember with rfl | hmem
      · exact hlt
      · exact List.lt_trans hlt (hhead member hmem)
    next =>
      split at h
      next hgt =>
        obtain ⟨rest', hrest', rfl⟩ := Option.map_eq_some_iff.1 h
        obtain ⟨hsorted', hmem'⟩ := ih hrest hrest'
        refine ⟨List.pairwise_cons.2 ⟨fun member hmember => ?_, hsorted'⟩, fun member hmember => ?_⟩
        · rcases hmem' member hmember with rfl | hmem
          · exact hgt
          · exact hhead member hmem
        · rcases List.mem_cons.1 hmember with rfl | hmem
          · exact .inr List.mem_cons_self
          · exact (hmem' member hmem).imp id (List.mem_cons_of_mem _)
      next => cases h

theorem emplace_last (value : Value) (h : ∀ member ∈ members, member.1 < key) :
    emplace key value members = some (members ++ [(key, value)]) := by
  induction members with
  | nil => rfl
  | cons head rest ih =>
    have hhead := h head List.mem_cons_self
    have hrest := ih fun member hmember => h member (List.mem_cons_of_mem _ hmember)
    rw [emplace, if_neg (List.lt_asymm hhead), if_pos hhead, hrest]
    rfl

section

variable {input rest : Bytes}

variable {value : Value} {members members' : Members}

theorem expect_ok {token : String} {found : Value}
    (h : expect token value input = .ok (found, rest)) : found = value := by
  rw [expect] at h
  split at h
  next =>
    cases h
    rfl
  next => cases h

theorem parseItem_keeps {parseValue : Parser UInt8 Value}
    (hparse : ∀ {input value rest}, parseValue input = .ok (value, rest) → WellFormed value)
    {items items' : List Value} (hitems : ∀ child ∈ items, WellFormed child)
    (h : parseItem parseValue items input = .ok (items', rest)) :
    ∀ child ∈ items', WellFormed child := by
  obtain ⟨⟨child, left⟩, hchild, h⟩ := bind_ok h
  cases h
  intro other hother
  rcases mem_append.1 hother with hmem | hmem
  · exact hitems other hmem
  · rw [mem_singleton.1 hmem]
    exact hparse hchild

theorem parseMember_ok {parseValue : Parser UInt8 Value}
    (h : parseMember parseValue members input = .ok (members', rest)) :
    ∃ key middle after child, parseString input = .ok (key, middle) ∧
      skipWhitespace middle = ':'.toUInt8 :: after ∧
      parseValue (skipWhitespace after) = .ok (child, rest) ∧
      emplace key child members = some members' := by
  rw [parseMember] at h
  split at h
  next => cases h
  next =>
    obtain ⟨⟨key, middle⟩, hkey, h⟩ := bind_ok h
    dsimp only at h
    split at h
    next => cases h
    next after hcolon =>
      obtain ⟨⟨child, left⟩, hchild, h⟩ := bind_ok h
      split at h
      next => cases h
      next found hemplace =>
        cases h
        exact ⟨key, middle, after, child, hkey, consume?_eq_some.1 hcolon, hchild, hemplace⟩

theorem parseMember_keeps {parseValue : Parser UInt8 Value}
    (hparse : ∀ {input value rest}, parseValue input = .ok (value, rest) → WellFormed value)
    (hmembers : members.Pairwise (fun left right => left.1 < right.1) ∧
      ∀ member ∈ members, WellFormed member.2)
    (h : parseMember parseValue members input = .ok (members', rest)) :
    members'.Pairwise (fun left right => left.1 < right.1) ∧
      ∀ member ∈ members', WellFormed member.2 := by
  obtain ⟨key, middle, after, child, -, -, hchild, hemplace⟩ := parseMember_ok h
  obtain ⟨hsorted, hmem⟩ := emplace_spec hmembers.1 hemplace
  refine ⟨hsorted, fun member hmember => ?_⟩
  rcases hmem member hmember with rfl | hmember
  · exact hparse hchild
  · exact hmembers.2 member hmember

theorem parseContainer_keeps {α : Type} {p : α → Prop} {opening closing : UInt8}
    {message : String} {item : α → Parser UInt8 α} {start value : α}
    (hitem : ∀ {state input state' rest}, p state → item state input = .ok (state', rest) → p state')
    (hstart : p start)
    (h : parseContainer opening closing message item start input = .ok (value, rest)) :
    p value := by
  rw [parseContainer] at h
  split at h
  next =>
    cases h
    exact hstart
  next => exact Parsing.separated_keeps hitem hstart h

theorem parseValue_cases (depth : Nat) (c : UInt8) (input : Bytes) :
    (∃ token value, token.toList ≠ [] ∧ WellFormed value ∧
      parseValue (depth + 1) (c :: input) = expect token value (c :: input)) ∨
    parseValue (depth + 1) (c :: input) =
      (parseString (c :: input) >>= fun result => .ok (.string result.1, result.2)) ∨
    c = '['.toUInt8 ∧ parseValue (depth + 1) (c :: input) =
      (parseArray (parseValue depth) (c :: input) >>= fun result =>
        .ok (.array result.1, result.2)) ∨
    c = '\x7b'.toUInt8 ∧ parseValue (depth + 1) (c :: input) =
      (parseObject (parseValue depth) (c :: input) >>= fun result =>
        .ok (.object result.1, result.2)) ∨
    parseValue (depth + 1) (c :: input) = parseNumber (c :: input) ∨
    parseValue (depth + 1) (c :: input) = fail (c :: input) "unexpected token" := by
  rw [parseValue]
  split
  next => exact .inl ⟨"null", _, by decide, .null, rfl⟩
  split
  next => exact .inl ⟨"true", _, by decide, .boolean true, rfl⟩
  split
  next => exact .inl ⟨"false", _, by decide, .boolean false, rfl⟩
  split
  next => exact .inr (.inl rfl)
  split
  next h => exact .inr (.inr (.inl ⟨h, rfl⟩))
  split
  next h => exact .inr (.inr (.inr (.inl ⟨h, rfl⟩)))
  split
  next => exact .inr (.inr (.inr (.inr (.inl rfl))))
  next => exact .inr (.inr (.inr (.inr (.inr rfl))))

theorem parseValue_wellFormed {depth : Nat}
    (h : parseValue depth input = .ok (value, rest)) : WellFormed value := by
  induction depth generalizing input rest value with
  | zero => cases h
  | succ depth ih =>
    cases input with
    | nil => cases h
    | cons c input =>
      rcases parseValue_cases depth c input with ⟨token, word, -, hword, heq⟩ | heq | ⟨-, heq⟩ |
        ⟨-, heq⟩ | heq | heq <;> rw [heq] at h
      · exact expect_ok h ▸ hword
      · obtain ⟨⟨text, left⟩, -, h⟩ := bind_ok h
        cases h
        exact .string text
      · obtain ⟨⟨items, left⟩, hitems, h⟩ := bind_ok h
        cases h
        exact .array (parseContainer_keeps
          (fun hold hread => parseItem_keeps ih hold hread) (by simp) hitems)
      · obtain ⟨⟨members, left⟩, hmembers, h⟩ := bind_ok h
        cases h
        obtain ⟨hsorted, hwell⟩ := parseContainer_keeps
          (fun hold hread => parseMember_keeps ih hold hread) ⟨.nil, by simp⟩ hmembers
        exact .object hsorted hwell
      · obtain ⟨numeral, -, hvalue⟩ := parseNumber_ok h
        exact numeral.wellFormed hvalue
      · cases h

end

/-! ## Reading back -/

theorem signed_text {value : Int64} (hle : value.toInt ≤ 0) : ∃ numeral : Numeral,
    appendCanonical (.signed value) = numeral.text ∧
      numeral.value = some (Value.signed value).normal := by
  by_cases hzero : value = 0
  · subst hzero
    exact ⟨integerNumeral false 0, rfl, (unsigned_numeral 0).2⟩
  · have hne : value.toInt ≠ 0 := fun h => hzero (Int64.toInt_inj.1 h)
    have hneg : value.toInt < 0 := by omega
    obtain ⟨htext, hvalue⟩ := signed_numeral hneg
    refine ⟨_, by rw [appendCanonical_signed, htext], ?_⟩
    rw [normal_signed, if_neg hzero]
    exact hvalue

theorem isSpace_of_isDigit (h : isDigit c = true) : isSpace c = false := by
  cases hspace : isSpace c with
  | false => rfl
  | true =>
    simp only [isSpace, Bool.or_eq_true, decide_eq_true_eq] at hspace
    rcases hspace with ((rfl | rfl) | rfl) | rfl <;> exact absurd h (by decide)

theorem Numeral.head (numeral : Numeral) :
    ∃ c tail, numeral.text = c :: tail ∧ (c = '-'.toUInt8 ∨ isDigit c = true) := by
  rcases numeral.isSign with hsign | hsign
  · obtain ⟨c, tail, hinteger, hc⟩ := numeral.isInteger.head
    exact ⟨c, tail ++ numeral.fraction ++ numeral.exponent,
      by simp [Numeral.text, hsign, hinteger], .inr hc⟩
  · exact ⟨'-'.toUInt8, numeral.integer ++ numeral.fraction ++ numeral.exponent,
      by simp [Numeral.text, hsign], .inl rfl⟩

theorem parseValue_numeral (numeral : Numeral)
    (hvalue : numeral.value = some value) (depth : Nat) {rest : Bytes} (hends : Ends rest) :
    parseValue (depth + 1) (numeral.text ++ rest) = .ok (value, rest) := by
  obtain ⟨c, tail, htext, hc⟩ := numeral.head
  have hread := parseNumber_reads numeral hends hvalue
  have hother : c ≠ 'n'.toUInt8 ∧ c ≠ 't'.toUInt8 ∧ c ≠ 'f'.toUInt8 ∧ c ≠ '"'.toUInt8 ∧
      c ≠ '['.toUInt8 ∧ c ≠ '\x7b'.toUInt8 := by
    refine ⟨?_, ?_, ?_, ?_, ?_, ?_⟩ <;> rintro rfl <;> revert hc <;> decide
  obtain ⟨hn, ht, hf, hquote, hbracket, hbrace⟩ := hother
  have hnumber : (c = '-'.toUInt8 || isDigit c) = true := by simpa using hc
  rw [htext, cons_append] at hread ⊢
  rw [parseValue, if_neg hn, if_neg ht, if_neg hf, if_neg hquote, if_neg hbracket, if_neg hbrace,
    if_pos hnumber, hread]

theorem appendCanonical_head (h : WellFormed value) :
    ∃ c tail, appendCanonical value = c :: tail ∧ isSpace c = false ∧ c ≠ ']'.toUInt8 := by
  have hnumeral : ∀ numeral : Numeral, ∃ c tail, numeral.text = c :: tail ∧ isSpace c = false ∧
      c ≠ ']'.toUInt8 := by
    intro numeral
    obtain ⟨c, tail, htext, rfl | hc⟩ := numeral.head
    · exact ⟨_, tail, htext, by decide, by decide⟩
    · refine ⟨c, tail, htext, isSpace_of_isDigit hc, ?_⟩
      rintro rfl
      exact absurd hc (by decide)
  cases h with
  | null => exact ⟨_, _, rfl, by decide, by decide⟩
  | boolean value => cases value <;> exact ⟨_, _, rfl, by decide, by decide⟩
  | signed hle =>
    obtain ⟨numeral, htext, -⟩ := signed_text hle
    exact htext ▸ hnumeral numeral
  | unsigned value =>
    rw [appendCanonical_unsigned, ← (unsigned_numeral value).1]
    exact hnumeral _
  | number numeral hvalue =>
    rw [appendCanonical_number, ← numeral.number_token hvalue]
    exact hnumeral numeral
  | string text => exact ⟨'"'.toUInt8, _, rfl, by decide, by decide⟩
  | array hitems => exact ⟨'['.toUInt8, _, rfl, by decide, by decide⟩
  | object hsorted hmembers => exact ⟨'\x7b'.toUInt8, _, rfl, by decide, by decide⟩

theorem skipWhitespace_cons (h : isSpace c = false) (rest : Bytes) :
    skipWhitespace (c :: rest) = c :: rest := by
  rw [skipWhitespace, dropWhile_cons, h]
  rfl

theorem skipWhitespace_canonical (h : WellFormed value) (rest : Bytes) :
    skipWhitespace (appendCanonical value ++ rest) = appendCanonical value ++ rest := by
  obtain ⟨c, tail, htext, hspace, -⟩ := appendCanonical_head h
  rw [htext, cons_append, skipWhitespace_cons hspace]

section

variable {depth : Nat}

/-- The values whose texts a parser reads back. -/
def ReadsBack (parseValue : Parser UInt8 Value) (value : Value) : Prop :=
  ∀ rest, Ends rest → parseValue (appendCanonical value ++ rest) = .ok (value.normal, rest)

theorem ends_close {c : UInt8} (h : c = ','.toUInt8 ∨ c = ']'.toUInt8 ∨ c = '\x7d'.toUInt8)
    (rest : Bytes) : Ends (c :: rest) := by
  intro d hd
  cases hd
  exact h

variable {child : Value} {rest : Bytes} {items : List Value} {member : Bytes × Value}
  {members : Members}

theorem parseItem_reads {parseValue : Parser UInt8 Value}
    (h : ReadsBack parseValue child) (items : List Value) (hends : Ends rest) :
    parseItem parseValue items (appendCanonical child ++ rest) =
      .ok (items ++ [child.normal], rest) := by
  simp only [parseItem, h _ hends, bind, Except.bind]

theorem parseContainer_reads {β γ : Type} {opening closing : UInt8} {message : String}
    {item : List γ → Parser UInt8 (List γ)} {f : β → γ} {print : β → Bytes} {values : List β}
    (hclosing : isSpace closing = false) (hne : ','.toUInt8 ≠ closing)
    (hprint : ∀ value ∈ values, ∃ c tail, print value = c :: tail ∧ isSpace c = false ∧ c ≠ closing)
    (hitem : ∀ before value after, values = before ++ value :: after → ∀ symbol left,
      symbol = ','.toUInt8 ∨ symbol = closing → item (before.map f) (print value ++ symbol :: left) =
        .ok ((before ++ [value]).map f, symbol :: left)) (rest : Bytes) :
    parseContainer opening closing message item []
      (opening :: separate ','.toUInt8 (values.map print) ++ closing :: rest) =
        .ok (values.map f, rest) := by
  have hopen : consume? opening (opening :: separate ','.toUInt8 (values.map print) ++
      closing :: rest) = some (separate ','.toUInt8 (values.map print) ++ closing :: rest) :=
    consume?_eq_some.2 rfl
  rw [parseContainer, hopen, Option.getD_some]
  cases hvalues : values with
  | nil =>
    have hclose : consume? closing (skipWhitespace (closing :: rest)) = some rest := by
      rw [skipWhitespace_cons hclosing, consume?_eq_some]
    simp only [map_nil, separate, nil_append, hclose]
  | cons first others =>
    rw [← hvalues]
    obtain ⟨c, tail, htext, hspace, hother⟩ := hprint first (by simp [hvalues])
    obtain ⟨left, hstart⟩ : ∃ left, separate ','.toUInt8 (values.map print) ++
        closing :: rest = c :: left := by
      rw [hvalues]
      cases others <;> simp [separate, htext]
    have hclose : consume? closing (c :: left) = none := by
      rw [consume?_eq_none]
      simpa using hother
    have htexts : ∀ text ∈ values.map print, text ≠ [] := by
      intro text htext
      obtain ⟨value, hvalue, rfl⟩ := mem_map.1 htext
      obtain ⟨c, tail, hchars, -, -⟩ := hprint value hvalue
      simp [hchars]
    have hcount := Parsing.count_le_separate ','.toUInt8 htexts
    rw [length_map] at hcount
    rw [hstart, skipWhitespace_cons hspace, hclose]
    rw [← hstart]
    refine Parsing.separated_reads (by simp [hvalues]) (fun value hvalue left => ?_)
      (skipWhitespace_cons (by decide)) (skipWhitespace_cons hclosing) hne hitem ?_ rest
    · obtain ⟨c, tail, hchars, hspace, -⟩ := hprint value hvalue
      rw [hchars, cons_append, skipWhitespace_cons hspace]
    · rw [length_append]
      omega

theorem parseArray_reads {parseValue : Parser UInt8 Value}
    (hwell : ∀ child ∈ items, WellFormed child)
    (hreads : ∀ child ∈ items, ReadsBack parseValue child) (rest : Bytes) :
    parseArray parseValue (appendCanonical (.array items) ++ rest) =
      .ok (items.map Value.normal, rest) := by
  have htext : appendCanonical (.array items) ++ rest = '['.toUInt8 ::
      separate ','.toUInt8 (items.map appendCanonical) ++ ']'.toUInt8 :: rest := by
    rw [appendCanonical_array]
    simp
  rw [htext]
  refine parseContainer_reads (by decide) (by decide)
    (fun child hchild => appendCanonical_head (hwell child hchild)) ?_ rest
  intro before child after hsplit symbol left hsymbol
  have hchild : child ∈ items := by simp [hsplit]
  have hends : Ends (symbol :: left) := ends_close (hsymbol.imp id .inl) left
  rw [parseItem_reads (hreads child hchild) _ hends, map_append]
  rfl

theorem parseMember_reads {parseValue : Parser UInt8 Value}
    (hwell : WellFormed member.2) (h : ReadsBack parseValue member.2)
    (hlast : ∀ other ∈ members, other.1 < member.1) (hends : Ends rest) :
    parseMember parseValue members (memberText member ++ rest) =
      .ok (members ++ [(member.1, member.2.normal)], rest) := by
  have hquote : (consume? '"'.toUInt8 (memberText member ++ rest)).isNone = false := rfl
  have hkey := parseString_reads member.1 (':'.toUInt8 :: (appendCanonical member.2 ++ rest))
  have hcolon : consume? ':'.toUInt8 (':'.toUInt8 :: (appendCanonical member.2 ++ rest)) =
      some (appendCanonical member.2 ++ rest) := rfl
  have htext : memberText member ++ rest =
      appendEscaped member.1 ++ ':'.toUInt8 :: (appendCanonical member.2 ++ rest) := by
    simp [memberText]
  rw [parseMember, hquote, htext, hkey]
  simp only [bind, Except.bind, skipWhitespace_cons (c := ':'.toUInt8) (by decide), hcolon,
    skipWhitespace_canonical hwell, h _ hends, emplace_last _ hlast]
  rfl

theorem memberText_head (member : Bytes × Value) :
    ∃ c tail, memberText member = c :: tail ∧ isSpace c = false ∧ c ≠ '\x7d'.toUInt8 :=
  ⟨'"'.toUInt8, _, rfl, by decide, by decide⟩

theorem parseObject_reads {parseValue : Parser UInt8 Value}
    (hsorted : members.Pairwise fun left right => left.1 < right.1)
    (hwell : ∀ member ∈ members, WellFormed member.2)
    (hreads : ∀ member ∈ members, ReadsBack parseValue member.2) (rest : Bytes) :
    parseObject parseValue (appendCanonical (.object members) ++ rest) =
      .ok (members.map fun member => (member.1, member.2.normal), rest) := by
  have htext : appendCanonical (.object members) ++ rest = '\x7b'.toUInt8 ::
      separate ','.toUInt8 (members.map memberText) ++ '\x7d'.toUInt8 :: rest := by
    rw [appendCanonical_object]
    simp
  rw [htext]
  refine parseContainer_reads (by decide) (by decide)
    (fun member _ => memberText_head member) ?_ rest
  intro before member after hsplit symbol left hsymbol
  have hmember : member ∈ members := by simp [hsplit]
  have hends : Ends (symbol :: left) := ends_close (hsymbol.imp id .inr) left
  have hlast : ∀ other ∈ before.map fun member => (member.1, member.2.normal),
      other.1 < member.1 := by
    intro other hother
    obtain ⟨earlier, hearlier, rfl⟩ := mem_map.1 hother
    rw [hsplit] at hsorted
    exact (pairwise_append.1 hsorted).2.2 earlier hearlier member (by simp)
  rw [parseMember_reads (hwell member hmember) (hreads member hmember) hlast hends, map_append]
  rfl

theorem length_lt_of_mem_array (h : child ∈ items) :
    (appendCanonical child).length < (appendCanonical (.array items)).length := by
  have hle := Parsing.length_le_separate ','.toUInt8
    (mem_map_of_mem (f := appendCanonical) h)
  rw [appendCanonical_array, cons_append, length_cons, length_append]
  omega

theorem length_lt_of_mem_object (h : member ∈ members) :
    (appendCanonical member.2).length < (appendCanonical (.object members)).length := by
  have hle := Parsing.length_le_separate ','.toUInt8 (mem_map_of_mem (f := memberText) h)
  rw [memberText, length_append, length_cons] at hle
  rw [appendCanonical_object, cons_append, length_cons, length_append]
  omega

theorem parseValue_reads {value : Value} (h : WellFormed value)
    (hdepth : (appendCanonical value).length ≤ depth) : ReadsBack (parseValue depth) value := by
  induction depth generalizing value with
  | zero =>
    obtain ⟨c, tail, htext, -, -⟩ := appendCanonical_head h
    rw [htext, length_cons] at hdepth
    omega
  | succ depth ih =>
    intro rest hends
    cases h with
    | null => rfl
    | boolean value => cases value <;> rfl
    | signed hle =>
      obtain ⟨numeral, htext, hvalue⟩ := signed_text hle
      rw [htext]
      exact parseValue_numeral numeral hvalue depth hends
    | unsigned value =>
      obtain ⟨htext, hvalue⟩ := unsigned_numeral value
      rw [appendCanonical_unsigned, ← htext]
      exact parseValue_numeral _ hvalue depth hends
    | number numeral hvalue =>
      have hread := parseValue_numeral numeral hvalue depth hends
      rw [numeral.number_token hvalue] at hread
      exact hread
    | string text =>
      have hread : parseValue (depth + 1) (appendCanonical (.string text) ++ rest) =
          parseString (appendEscaped text ++ rest) >>= fun result =>
            .ok (.string result.1, result.2) := rfl
      rw [hread, parseString_reads]
      rfl
    | @array items hitems =>
      have hread : parseValue (depth + 1) (appendCanonical (.array items) ++ rest) =
          parseArray (parseValue depth) (appendCanonical (.array items) ++ rest) >>=
            fun result => .ok (.array result.1, result.2) := rfl
      have hchildren : ∀ child ∈ items, ReadsBack (parseValue depth) child := by
        intro child hchild
        have hless := length_lt_of_mem_array hchild
        exact ih (hitems child hchild) (by omega)
      rw [hread, parseArray_reads hitems hchildren, normal_array]
      rfl
    | @object members hsorted hmembers =>
      have hread : parseValue (depth + 1) (appendCanonical (.object members) ++ rest) =
          parseObject (parseValue depth) (appendCanonical (.object members) ++ rest) >>=
            fun result => .ok (.object result.1, result.2) := rfl
      have hchildren : ∀ member ∈ members, ReadsBack (parseValue depth) member.2 := by
        intro member hmember
        have hless := length_lt_of_mem_object hmember
        exact ih (hmembers member hmember) (by omega)
      rw [hread, parseObject_reads hsorted hmembers hchildren, normal_object]
      rfl

end

end QuantumLlm.Core.Json
