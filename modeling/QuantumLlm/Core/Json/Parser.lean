import QuantumLlm.Core.Json.Value

/-!
# The JSON parser

The recursive descent of the parser over the bytes that are left; a failure keeps them,
and with them the position that its message names.
-/

namespace QuantumLlm.Core.Json

open Parsing (Parser Failure fail separated)

def isDigit (c : UInt8) : Bool := '0'.toUInt8 ≤ c && c ≤ '9'.toUInt8

def isSpace (c : UInt8) : Bool :=
  c = ' '.toUInt8 || c = '\n'.toUInt8 || c = '\r'.toUInt8 || c = '\t'.toUInt8

def skipWhitespace (input : Bytes) : Bytes := input.dropWhile isSpace

/-- What is left behind an expected character. -/
def consume? (expected : UInt8) : Bytes → Option Bytes
  | [] => none
  | c :: rest => if c = expected then some rest else none

def expect (token : String) (value : Value) : Parser UInt8 Value := fun input =>
  let expected := token.toList.map Char.toUInt8
  if input.take expected.length = expected then .ok (value, input.drop expected.length)
  else fail input ("expected " ++ token)

def appendUtf8 (codepoint : UInt32) : Bytes :=
  if codepoint ≤ 0x7f then [codepoint.toUInt8]
  else if codepoint ≤ 0x7ff then [lead 0xc0 6, trail 0]
  else if codepoint ≤ 0xffff then [lead 0xe0 12, trail 6, trail 0]
  else [lead 0xf0 18, trail 12, trail 6, trail 0]
where
  lead (mark shift : UInt32) : UInt8 := (mark ||| (codepoint >>> shift)).toUInt8
  trail (shift : UInt32) : UInt8 := (0x80 ||| ((codepoint >>> shift) &&& 0x3f)).toUInt8

def hexValue (c : UInt8) : Option UInt32 :=
  if '0'.toUInt8 ≤ c ∧ c ≤ '9'.toUInt8 then some (c - '0'.toUInt8).toUInt32
  else if 'a'.toUInt8 ≤ c ∧ c ≤ 'f'.toUInt8 then some (c - 'a'.toUInt8 + 10).toUInt32
  else if 'A'.toUInt8 ≤ c ∧ c ≤ 'F'.toUInt8 then some (c - 'A'.toUInt8 + 10).toUInt32
  else none

/-- One round of `ParseHex4`. -/
def shiftHex (value : UInt32) (c : UInt8) (rest : Bytes) : Except (Failure UInt8) UInt32 :=
  match hexValue c with
  | some digit => .ok (value <<< 4 ||| digit)
  | none => fail rest "invalid unicode escape"

def parseHex4 : Parser UInt8 UInt32
  | first :: second :: third :: fourth :: rest => do
    let value ← shiftHex 0 first (second :: third :: fourth :: rest)
    let value ← shiftHex value second (third :: fourth :: rest)
    let value ← shiftHex value third (fourth :: rest)
    let value ← shiftHex value fourth rest
    .ok (value, rest)
  | input => fail input "truncated unicode escape"

/-- A `\u` escape, with the low surrogate that a high one needs. -/
def parseUnicode : Parser UInt8 Bytes := fun input => do
  let (codepoint, rest) ← parseHex4 input
  if 0xd800 ≤ codepoint ∧ codepoint ≤ 0xdbff then
    match (consume? '\\'.toUInt8 rest).bind (consume? 'u'.toUInt8) with
    | none => fail rest "high surrogate without low surrogate"
    | some rest => do
      let (low, rest) ← parseHex4 rest
      if low < 0xdc00 ∨ 0xdfff < low then fail rest "invalid low surrogate"
      else
        let codepoint := (0x10000 : UInt32) + ((codepoint - 0xd800) <<< 10) + (low - 0xdc00)
        .ok (appendUtf8 codepoint, rest)
  else if 0xdc00 ≤ codepoint ∧ codepoint ≤ 0xdfff then fail rest "unpaired low surrogate"
  else .ok (appendUtf8 codepoint, rest)

/-- What follows a backslash. -/
def parseEscape : Parser UInt8 Bytes
  | [] => fail [] "truncated escape"
  | escaped :: rest =>
    if escaped = '"'.toUInt8 then .ok (['"'.toUInt8], rest)
    else if escaped = '\\'.toUInt8 then .ok (['\\'.toUInt8], rest)
    else if escaped = '/'.toUInt8 then .ok (['/'.toUInt8], rest)
    else if escaped = 'b'.toUInt8 then .ok ([0x08], rest)
    else if escaped = 'f'.toUInt8 then .ok ([0x0c], rest)
    else if escaped = 'n'.toUInt8 then .ok (['\n'.toUInt8], rest)
    else if escaped = 'r'.toUInt8 then .ok (['\r'.toUInt8], rest)
    else if escaped = 't'.toUInt8 then .ok (['\t'.toUInt8], rest)
    else if escaped = 'u'.toUInt8 then parseUnicode rest
    else fail rest "invalid escape"

/-- The loop of `ParseString`. -/
def stringLoop : Nat → Bytes → Parser UInt8 Bytes
  | 0, _, _ => .error .exhausted
  | _ + 1, _, [] => fail [] "unterminated string"
  | fuel + 1, output, raw :: rest =>
    if raw = '"'.toUInt8 then .ok (output, rest)
    else if raw < 0x20 then fail rest "control character in string"
    else if raw ≠ '\\'.toUInt8 then stringLoop fuel (output ++ [raw]) rest
    else do
      let (bytes, rest) ← parseEscape rest
      stringLoop fuel (output ++ bytes) rest

def parseString : Parser UInt8 Bytes := fun input =>
  match consume? '"'.toUInt8 input with
  | none => fail input "expected string"
  | some rest => stringLoop (rest.length + 1) [] rest

/-- Digits from the front, of which there must be one. -/
def digits (message : String) : Parser UInt8 Bytes := fun input =>
  match input.takeWhile isDigit with
  | [] => fail input message
  | found => .ok (found, input.dropWhile isDigit)

def integerPart : Parser UInt8 Bytes
  | [] => fail [] "truncated integer"
  | c :: rest =>
    if c = '0'.toUInt8 then
      if rest.head?.any isDigit then fail rest "leading zero in integer"
      else .ok ([c], rest)
    else if c < '1'.toUInt8 ∨ '9'.toUInt8 < c then fail (c :: rest) "invalid integer"
    else .ok (c :: rest.takeWhile isDigit, rest.dropWhile isDigit)

def fractionPart : Parser UInt8 Bytes := fun input =>
  match consume? '.'.toUInt8 input with
  | none => .ok ([], input)
  | some rest => do
    let (found, rest) ← digits "fraction has no digits" rest
    .ok ('.'.toUInt8 :: found, rest)

/-- The sign of an exponent. -/
def exponentSign (input : Bytes) : Bytes × Bytes :=
  match input with
  | [] => ([], [])
  | c :: rest => if c = '+'.toUInt8 ∨ c = '-'.toUInt8 then ([c], rest) else ([], input)

def exponentPart : Parser UInt8 Bytes
  | [] => .ok ([], [])
  | c :: rest =>
    if c = 'e'.toUInt8 ∨ c = 'E'.toUInt8 then do
      let (sign, rest) := exponentSign rest
      let (found, rest) ← digits "exponent has no digits" rest
      .ok (c :: sign ++ found, rest)
    else .ok ([], c :: rest)

def digitsValue (text : Bytes) : Nat :=
  text.foldl (fun value c => 10 * value + (c - '0'.toUInt8).toNat) 0

/-- `std::from_chars` of a signed integer; nothing when it is out of range. -/
def signedFromChars (token : Bytes) : Option Int64 :=
  let value : Int :=
    match consume? '-'.toUInt8 token with
    | some text => -(digitsValue text : Int)
    | none => digitsValue token
  if -2 ^ 63 ≤ value ∧ value < 2 ^ 63 then some (Int64.ofInt value) else none

/-- `std::from_chars` of an unsigned integer. -/
def unsignedFromChars (token : Bytes) : Option UInt64 :=
  if digitsValue token < 2 ^ 64 then some (UInt64.ofNat (digitsValue token)) else none

/-- The value of a token; nothing when its integer is out of range. -/
def tokenValue (nonIntegral negative : Bool) (token : Bytes) : Option Value :=
  if nonIntegral then some (.number token)
  else if negative then (signedFromChars token).map .signed
  else (unsignedFromChars token).map .unsigned

def parseNumber : Parser UInt8 Value := fun input => do
  let negative := (consume? '-'.toUInt8 input).isSome
  let (_, rest) ← integerPart ((consume? '-'.toUInt8 input).getD input)
  let (fraction, rest) ← fractionPart rest
  let (exponent, rest) ← exponentPart rest
  let token := input.take (input.length - rest.length)
  match tokenValue (!fraction.isEmpty || !exponent.isEmpty) negative token with
  | some value => .ok (value, rest)
  | none =>
    fail rest (if negative then "signed integer out of range"
      else "unsigned integer out of range")

/-- Behind its opening character a container is closed or reads its items. -/
def parseContainer {α : Type} (opening closing : UInt8) (message : String)
    (item : α → Parser UInt8 α) (start : α) : Parser UInt8 α := fun input =>
  let input := skipWhitespace ((consume? opening input).getD input)
  match consume? closing input with
  | some rest => .ok (start, rest)
  | none => separated item skipWhitespace ','.toUInt8 closing message (input.length + 1) start input

section

variable (parseValue : Parser UInt8 Value)

/-- An item of an array behind the items before it. -/
def parseItem (items : List Value) : Parser UInt8 (List Value) := fun input => do
  let (child, rest) ← parseValue input
  .ok (items ++ [child], rest)

def parseArray : Parser UInt8 (List Value) :=
  parseContainer '['.toUInt8 ']'.toUInt8 "expected ',' or ']'" (parseItem parseValue) []

/-- A member of an object into the members before it. -/
def parseMember (members : Members) : Parser UInt8 Members := fun input =>
  if (consume? '"'.toUInt8 input).isNone then fail input "expected object key"
  else do
    let (key, rest) ← parseString input
    let rest := skipWhitespace rest
    match consume? ':'.toUInt8 rest with
    | none => fail rest "expected ':'"
    | some rest => do
      let (child, rest) ← parseValue (skipWhitespace rest)
      match emplace key child members with
      | none => fail rest "duplicate object key"
      | some members => .ok (members, rest)

def parseObject : Parser UInt8 Members :=
  parseContainer '\x7b'.toUInt8 '\x7d'.toUInt8 "expected ',' or '\x7d'" (parseMember parseValue) []

end

/-- The fuel bounds the nesting. -/
def parseValue : Nat → Parser UInt8 Value
  | 0, _ => .error .exhausted
  | _ + 1, [] => fail [] "expected a value"
  | depth + 1, c :: rest =>
    if c = 'n'.toUInt8 then expect "null" .null (c :: rest)
    else if c = 't'.toUInt8 then expect "true" (.boolean true) (c :: rest)
    else if c = 'f'.toUInt8 then expect "false" (.boolean false) (c :: rest)
    else if c = '"'.toUInt8 then do
      let (text, rest) ← parseString (c :: rest)
      .ok (.string text, rest)
    else if c = '['.toUInt8 then do
      let (items, rest) ← parseArray (parseValue depth) (c :: rest)
      .ok (.array items, rest)
    else if c = '\x7b'.toUInt8 then do
      let (members, rest) ← parseObject (parseValue depth) (c :: rest)
      .ok (.object members, rest)
    else if c = '-'.toUInt8 || isDigit c then parseNumber (c :: rest)
    else fail (c :: rest) "unexpected token"

def parseDocument (input : Bytes) : Except (Failure UInt8) Value := do
  let (value, rest) ← parseValue (input.length + 1) (skipWhitespace input)
  let rest := skipWhitespace rest
  if rest ≠ [] then fail rest "trailing content" else .ok value

/-- The text of the error. -/
def errorText (input : Bytes) : Failure UInt8 → String
  | .stopped rest message =>
    "JSON byte " ++ toString (input.length - rest.length) ++ ": " ++ message
  | .exhausted => ""

def parse (input : Bytes) : Except String Value :=
  (parseDocument input).mapError (errorText input)

/-- `Canonicalize` of a text. -/
def canonicalizeText (input : Bytes) : Except String Bytes := (parse input).map canonicalize

end QuantumLlm.Core.Json
