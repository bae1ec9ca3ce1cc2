import QuantumLlm.Lib.Parsing
import QuantumLlm.Lib.Wire
import Mathlib.Data.Nat.Digits.Lemmas

/-!
# Canonical JSON

Values of the manifests and their canonical text. An object is a map from keys to
values, kept in the order of its keys.
-/

namespace QuantumLlm.Core.Json

open Parsing (separate)

inductive Value
  | null
  | boolean (value : Bool)
  | signed (value : Int64)
  | unsigned (value : UInt64)
  | number (token : Bytes)
  | string (text : Bytes)
  | array (items : List Value)
  | object (members : List (Bytes × Value))

abbrev Members := List (Bytes × Value)

/-- `std::map::emplace`: nothing when the key is there. -/
def emplace (key : Bytes) (value : Value) : Members → Option Members
  | [] => some [(key, value)]
  | (other, child) :: rest =>
    if key < other then some ((key, value) :: (other, child) :: rest)
    else if other < key then (emplace key value rest).map ((other, child) :: ·)
    else none

/-- A digit of `std::to_string`. -/
def digitByte (digit : Nat) : UInt8 := '0'.toUInt8 + UInt8.ofNat digit

/-- `std::to_string` of an unsigned integer. -/
def decimal (value : Nat) : Bytes :=
  if value = 0 then ['0'.toUInt8] else (Nat.digits 10 value).reverse.map digitByte

/-- `std::to_string` of a signed integer. -/
def signedDecimal (value : Int) : Bytes :=
  if value < 0 then '-'.toUInt8 :: decimal value.natAbs else decimal value.natAbs

def kHex : List Char :=
  ['0', '1', '2', '3', '4', '5', '6', '7', '8', '9', 'a', 'b', 'c', 'd', 'e', 'f']

def hexByte (digit : UInt8) : UInt8 := (kHex.getD digit.toNat '0').toUInt8

def escapeByte (c : UInt8) : Bytes :=
  if c = '"'.toUInt8 then ['\\'.toUInt8, '"'.toUInt8]
  else if c = '\\'.toUInt8 then ['\\'.toUInt8, '\\'.toUInt8]
  else if c = 0x08 then ['\\'.toUInt8, 'b'.toUInt8]
  else if c = 0x0c then ['\\'.toUInt8, 'f'.toUInt8]
  else if c = '\n'.toUInt8 then ['\\'.toUInt8, 'n'.toUInt8]
  else if c = '\r'.toUInt8 then ['\\'.toUInt8, 'r'.toUInt8]
  else if c = '\t'.toUInt8 then ['\\'.toUInt8, 't'.toUInt8]
  else if c < 0x20 then
    ['\\'.toUInt8, 'u'.toUInt8, '0'.toUInt8, '0'.toUInt8, hexByte ((c >>> 4) &&& 0x0f),
      hexByte (c &&& 0x0f)]
  else [c]

/-- `AppendEscaped`. -/
def appendEscaped (text : Bytes) : Bytes :=
  '"'.toUInt8 :: text.flatMap escapeByte ++ ['"'.toUInt8]

mutual

/-- `AppendCanonical`. -/
def appendCanonical : Value → Bytes
  | .null => "null".toList.map Char.toUInt8
  | .boolean true => "true".toList.map Char.toUInt8
  | .boolean false => "false".toList.map Char.toUInt8
  | .signed value => signedDecimal value.toInt
  | .unsigned value => decimal value.toNat
  | .number token => token
  | .string text => appendEscaped text
  | .array items => '['.toUInt8 :: separate ','.toUInt8 (appendItems items) ++ [']'.toUInt8]
  | .object members =>
    '\x7b'.toUInt8 :: separate ','.toUInt8 (appendMembers members) ++ ['\x7d'.toUInt8]

def appendItems : List Value → List Bytes
  | [] => []
  | child :: rest => appendCanonical child :: appendItems rest

def appendMembers : Members → List Bytes
  | [] => []
  | (key, child) :: rest =>
    (appendEscaped key ++ ':'.toUInt8 :: appendCanonical child) :: appendMembers rest

end

def canonicalize (value : Value) : Bytes := appendCanonical value

theorem appendItems_eq (items : List Value) : appendItems items = items.map appendCanonical := by
  induction items with
  | nil => rfl
  | cons child rest ih => rw [appendItems, ih, List.map_cons]

/-- The text of a member. -/
def memberText (member : Bytes × Value) : Bytes :=
  appendEscaped member.1 ++ ':'.toUInt8 :: appendCanonical member.2

theorem appendMembers_eq (members : Members) : appendMembers members = members.map memberText := by
  induction members with
  | nil => rfl
  | cons member rest ih => rw [appendMembers, ih, List.map_cons, memberText]

theorem appendCanonical_signed (value : Int64) :
    appendCanonical (.signed value) = signedDecimal value.toInt := rfl

theorem appendCanonical_unsigned (value : UInt64) :
    appendCanonical (.unsigned value) = decimal value.toNat := rfl

theorem appendCanonical_number (token : Bytes) : appendCanonical (.number token) = token := rfl

theorem appendCanonical_array (items : List Value) : appendCanonical (.array items) =
    '['.toUInt8 :: separate ','.toUInt8 (items.map appendCanonical) ++ [']'.toUInt8] := by
  rw [← appendItems_eq]
  rfl

theorem appendCanonical_object (members : Members) : appendCanonical (.object members) =
    '\x7b'.toUInt8 :: separate ','.toUInt8 (members.map memberText) ++ ['\x7d'.toUInt8] := by
  rw [← appendMembers_eq]
  rfl

mutual

/-- The value with its signed integer zeros made unsigned. -/
def Value.normal : Value → Value
  | .signed value => if value = 0 then .unsigned 0 else .signed value
  | .array items => .array (normalItems items)
  | .object members => .object (normalMembers members)
  | .null => .null
  | .boolean value => .boolean value
  | .unsigned value => .unsigned value
  | .number token => .number token
  | .string text => .string text

def normalItems : List Value → List Value
  | [] => []
  | child :: rest => child.normal :: normalItems rest

def normalMembers : Members → Members
  | [] => []
  | (key, child) :: rest => (key, child.normal) :: normalMembers rest

end

theorem normalItems_eq (items : List Value) : normalItems items = items.map Value.normal := by
  induction items with
  | nil => rfl
  | cons child rest ih => rw [normalItems, ih, List.map_cons]

theorem normalMembers_eq (members : Members) :
    normalMembers members = members.map fun member => (member.1, member.2.normal) := by
  induction members with
  | nil => rfl
  | cons member rest ih => rw [normalMembers, ih, List.map_cons]

theorem normal_signed (value : Int64) :
    (Value.signed value).normal = if value = 0 then .unsigned 0 else .signed value := rfl

theorem normal_array (items : List Value) :
    (Value.array items).normal = .array (items.map Value.normal) := by
  rw [← normalItems_eq]
  rfl

theorem normal_object (members : Members) : (Value.object members).normal =
    .object (members.map fun member => (member.1, member.2.normal)) := by
  rw [← normalMembers_eq]
  rfl

end QuantumLlm.Core.Json
