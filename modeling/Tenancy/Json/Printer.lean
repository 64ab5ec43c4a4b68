import Tenancy.Decimal.Shortest
import Tenancy.Json.Basic

/-!
# The compact text of a JSON value

No blanks, members in the order of the tree.  In a string the quote, the backslash and the controls
are escaped and nothing else.  A floating-point number has the fewest digits that read back to it:
with a point and at least one digit after it from `1e-5` up to below `1e16`, with an exponent
beyond.

The functions write in front of a `rest`, so that a text is built from its end in one pass.
-/

namespace Tenancy.Json

/-- The bytes of an ASCII text. -/
def ascii (s : String) : Bytes := s.toList.map fun c => UInt8.ofNat c.toNat

/-- The lower-case hexadecimal digit of a number below 16. -/
def hexByte (n : Nat) : UInt8 := if n < 10 then UInt8.ofNat (48 + n) else UInt8.ofNat (87 + n)

/-- The form of a byte inside a string. -/
def escapeByte (b : UInt8) : Bytes :=
  if b = 34 then [92, 34]
  else if b = 92 then [92, 92]
  else if b = 8 then [92, 98]
  else if b = 12 then [92, 102]
  else if b = 10 then [92, 110]
  else if b = 13 then [92, 114]
  else if b = 9 then [92, 116]
  else if b < 32 then [92, 117, 48, 48, hexByte (b.toNat / 16), hexByte (b.toNat % 16)]
  else [b]

/-- The escaped bytes and a closing quote in front of `rest`. -/
def writeEscaped : Bytes → Bytes → Bytes
  | [], rest => 34 :: rest
  | b :: bytes, rest => escapeByte b ++ writeEscaped bytes rest

def writeString (s : String) (rest : Bytes) : Bytes := 34 :: writeEscaped (utf8 s) rest

/-- The text of an integer. -/
def intText (n : Int) : String :=
  if n < 0 then "-" ++ String.ofList (Nat.toDigits 10 n.natAbs)
  else String.ofList (Nat.toDigits 10 n.toNat)

/-- The text of a positive decimal: positional while the place of its first digit lies between -5
and 15, with an exponent beyond. -/
def decimalText (d : Decimal) : String :=
  let digits := Nat.toDigits 10 d.digits
  let place : Int := d.exponent + digits.length - 1
  if -5 ≤ place ∧ place ≤ 15 then
    if 0 ≤ d.exponent then
      String.ofList (digits ++ List.replicate d.exponent.toNat '0' ++ ['.', '0'])
    else if 0 ≤ place then
      String.ofList (digits.take (place.toNat + 1) ++ '.' :: digits.drop (place.toNat + 1))
    else
      String.ofList ('0' :: '.' :: List.replicate (-place - 1).toNat '0' ++ digits)
  else
    let sign := if place < 0 then '-' else '+'
    let exponent := 'e' :: sign :: Nat.toDigits 10 place.natAbs
    match digits with
    | [d] => String.ofList (d :: exponent)
    | d :: more => String.ofList (d :: '.' :: more ++ exponent)
    | [] => ""

/-- The text of a floating-point number; what is no finite number is written `null`. -/
def floatText (x : Float) : String :=
  if x.isFinite then
    let bits := x.toBits
    let sign := if bits < 0x8000000000000000 then "" else "-"
    if bits &&& 0x7fffffffffffffff = 0 then sign ++ "0.0"
    else sign ++ decimalText (Decimal.shortest bits)
  else "null"

mutual

/-- The compact text of a value in front of `rest`. -/
def writeOnto : Json → Bytes → Bytes
  | .null, rest => ascii "null" ++ rest
  | .bool true, rest => ascii "true" ++ rest
  | .bool false, rest => ascii "false" ++ rest
  | .int n, rest => ascii (intText n) ++ rest
  | .float x, rest => ascii (floatText x) ++ rest
  | .string s, rest => writeString s rest
  | .array [], rest => 91 :: 93 :: rest
  | .array (item :: items), rest => 91 :: writeOnto item (writeItems items (93 :: rest))
  | .object [], rest => 123 :: 125 :: rest
  | .object (member :: members), rest =>
    123 :: writeString member.1 (58 :: writeOnto member.2 (writeMembers members (125 :: rest)))

/-- Further items of an array, each after a comma. -/
def writeItems : List Json → Bytes → Bytes
  | [], rest => rest
  | item :: items, rest => 44 :: writeOnto item (writeItems items rest)

/-- Further members of an object, each after a comma. -/
def writeMembers : List (String × Json) → Bytes → Bytes
  | [], rest => rest
  | member :: members, rest =>
    44 :: writeString member.1 (58 :: writeOnto member.2 (writeMembers members rest))

end

/-- The compact text of a value. -/
def compact (j : Json) : Bytes := writeOnto j []

end Tenancy.Json
