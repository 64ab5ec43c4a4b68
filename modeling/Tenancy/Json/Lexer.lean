import Tenancy.Json.Fault

/-!
# The scalars of a JSON text

Readers of literals, strings and numbers.  Each takes the bytes where the scalar begins and gives
its value with the bytes that follow.  A string is checked for its escapes byte by byte, and only
at the end for being UTF-8, so a bad escape is reported before a bad byte that precedes it.
-/

namespace Tenancy.Json

/-- The bytes after the leading blanks. -/
def skipSpace : Bytes → Bytes
  | b :: rest => if b = 32 ∨ b = 10 ∨ b = 9 ∨ b = 13 then skipSpace rest else b :: rest
  | [] => []

/-- The bytes after the given letters. -/
def readLetters : Bytes → Bytes → Except Fault Bytes
  | [], input => .ok input
  | _ :: _, [] => .error .endInValue
  | letter :: letters, b :: rest =>
    if b = letter then readLetters letters rest else .error .expectedIdent

def isDigit (b : UInt8) : Bool := 48 ≤ b && b ≤ 57

section Strings

def hexValue? (b : UInt8) : Option Nat :=
  if 48 ≤ b ∧ b ≤ 57 then some (b.toNat - 48)
  else if 97 ≤ b ∧ b ≤ 102 then some (b.toNat - 87)
  else if 65 ≤ b ∧ b ≤ 70 then some (b.toNat - 55)
  else none

/-- The number of four hexadecimal digits. -/
def hexUnit? (a b c d : UInt8) : Option Nat := do
  some ((((← hexValue? a) * 16 + (← hexValue? b)) * 16 + (← hexValue? c)) * 16 + (← hexValue? d))

/-- The UTF-8 form of a code point. -/
def codePoint (n : Nat) : Bytes := String.utf8EncodeChar (Char.ofNat n)

/-- The byte that a one-letter escape stands for. -/
def simpleEscape? (b : UInt8) : Option UInt8 :=
  if b = 34 ∨ b = 92 ∨ b = 47 then some b
  else if b = 98 then some 8
  else if b = 102 then some 12
  else if b = 110 then some 10
  else if b = 114 then some 13
  else if b = 116 then some 9
  else none

/-- The bytes of a string up to its closing quote, escapes resolved; `read` holds those before, in
reverse.  A code unit of the upper surrogates must be followed by one of the lower. -/
def readEscaped (read : Bytes) : Bytes → Except Fault (Bytes × Bytes)
  | [] => .error .endInString
  | 92 :: 117 :: a :: b :: c :: d :: rest =>
    match hexUnit? a b c d with
    | none => .error .invalidEscape
    | some n =>
      if 0xdc00 ≤ n ∧ n ≤ 0xdfff then .error .loneSurrogate
      else if 0xd800 ≤ n ∧ n ≤ 0xdbff then
        match rest with
        | 92 :: 117 :: a :: b :: c :: d :: rest =>
          match hexUnit? a b c d with
          | none => .error .invalidEscape
          | some m =>
            if 0xdc00 ≤ m ∧ m ≤ 0xdfff then
              readEscaped
                ((codePoint ((n - 0xd800) * 0x400 + (m - 0xdc00) + 0x10000)).reverse ++ read) rest
            else .error .loneSurrogate
        | [] => .error .endInString
        | [92] => .error .endInString
        | 92 :: 117 :: _ => .error .endInString
        | _ => .error .endOfSurrogate
      else readEscaped ((codePoint n).reverse ++ read) rest
  | 92 :: 117 :: _ => .error .endInString
  | [92] => .error .endInString
  | 92 :: b :: rest =>
    match simpleEscape? b with
    | some e => readEscaped (e :: read) rest
    | none => .error .invalidEscape
  | b :: rest =>
    if b = 34 then .ok (read.reverse, rest)
    else if b < 32 then .error .controlCharacter
    else readEscaped (b :: read) rest

/-- The string whose opening quote has been read. -/
def readString (input : Bytes) : Except Fault (String × Bytes) := do
  let (bytes, rest) ← readEscaped [] input
  match ofUtf8? bytes with
  | some s => .ok (s, rest)
  | none => .error .invalidCodePoint

/-- Passes over the string whose opening quote has been read, without looking at the code points
that its escapes stand for. -/
def skipString : Bytes → Except Fault Bytes
  | [] => .error .endInString
  | 92 :: 117 :: a :: b :: c :: d :: rest =>
    if (hexUnit? a b c d).isSome then skipString rest else .error .invalidEscape
  | 92 :: 117 :: _ => .error .endInString
  | [92] => .error .endInString
  | 92 :: b :: rest => if (simpleEscape? b).isSome then skipString rest else .error .invalidEscape
  | b :: rest =>
    if b = 34 then .ok rest
    else if b < 32 then .error .controlCharacter
    else skipString rest

end Strings

section Numbers

/-- A number as it is read: an integer that fits 64 bits, or a floating-point number. -/
inductive Number where
  | int (n : Int)
  | float (x : Float)

def Number.found : Number → Found
  | .int n => .int n
  | .float x => .float x

def Number.toJson : Number → Json
  | .int n => .int n
  | .float x => .float x

/-- The largest significand that is kept exactly. -/
def maxSignificand : Nat := 0xffffffffffffffff

/-- The largest exponent that is kept exactly. -/
def maxExponent : Nat := 0x7fffffff

/-- The significand extended by digits while it fits 64 bits, and the number of digits from the
first that does not fit. -/
def extend (significand : Nat) : Bytes → Nat × Nat
  | [] => (significand, 0)
  | digit :: digits =>
    let next := significand * 10 + (digit.toNat - 48)
    if next ≤ maxSignificand then extend next digits else (significand, digits.length + 1)

/-- The power of ten as a floating-point number, for exponents up to 308. -/
def tenTo (n : Nat) : Float := Float.ofScientific 1 false n

/-- The product of a number and a power of ten, rounded at each of its steps: one multiplication or
division by a power up to `1e308`, after divisions by `1e308` for a smaller number.  An infinite
result is a fault. -/
def scale (x : Float) (exponent : Int) : Except Fault Float :=
  if exponent.natAbs ≤ 308 then
    if 0 ≤ exponent then
      let y := x * tenTo exponent.natAbs
      if y.isInf then .error .numberOutOfRange else .ok y
    else .ok (x / tenTo exponent.natAbs)
  else if x == 0.0 then .ok x
  else if 0 ≤ exponent then .error .numberOutOfRange
  else scale (x / 1e308) (exponent + 308)
termination_by exponent.natAbs

/-- The floating-point number of a sign, a significand and a decimal exponent. -/
def floatOf (negative : Bool) (significand : Nat) (exponent : Int) : Except Fault Number := do
  let x ← scale significand.toUInt64.toFloat exponent
  .ok (.float (if negative then -x else x))

/-- The part of a number from its exponent letter on, which has been read. -/
def readExponent (negative : Bool) (significand : Nat) (exponent : Int) (input : Bytes) :
    Except Fault (Number × Bytes) :=
  let (down, input) := match input with
    | 43 :: rest => (false, rest)
    | 45 :: rest => (true, rest)
    | _ => (false, input)
  match input with
  | [] => .error .endInValue
  | b :: _ =>
    if isDigit b then
      let digits := input.takeWhile isDigit
      let rest := input.dropWhile isDigit
      let n := digits.foldl (fun n digit => n * 10 + (digit.toNat - 48)) 0
      if n ≤ maxExponent then do
        let x ← floatOf negative significand (if down then exponent - n else exponent + n)
        .ok (x, rest)
      else if significand ≠ 0 ∧ !down then .error .numberOutOfRange
      else .ok (.float (if negative then -0.0 else 0.0), rest)
    else .error .invalidNumber

/-- The part of a number from its point on, which has been read.  Digits beyond the significand are
passed over. -/
def readFraction (negative : Bool) (significand : Nat) (exponent : Int) (input : Bytes) :
    Except Fault (Number × Bytes) :=
  let digits := input.takeWhile isDigit
  let rest := input.dropWhile isDigit
  if digits.isEmpty then
    if rest.isEmpty then .error .endInValue else .error .invalidNumber
  else
    let (significand, dropped) := extend significand digits
    let exponent := exponent - (digits.length - dropped : Nat)
    match rest with
    | 101 :: rest => readExponent negative significand exponent rest
    | 69 :: rest => readExponent negative significand exponent rest
    | _ => do
      let x ← floatOf negative significand exponent
      .ok (x, rest)

/-- An integer that a text writes; below the range of 64 bits, and for minus zero, a floating-point
number. -/
def integer (negative : Bool) (significand : Nat) : Number :=
  if !negative then .int significand
  else if 0 < significand ∧ significand ≤ 0x8000000000000000 then .int (-significand)
  else .float (-significand.toUInt64.toFloat)

/-- The number whose sign has been read. -/
def readNumber (negative : Bool) (input : Bytes) : Except Fault (Number × Bytes) :=
  match input with
  | [] => .error .endInValue
  | first :: after =>
    if !isDigit first then .error .invalidNumber
    else if first = 48 ∧ (after.head?.map isDigit).getD false then .error .invalidNumber
    else
      let (significand, dropped) := extend 0 (input.takeWhile isDigit)
      let rest := input.dropWhile isDigit
      match rest with
      | 46 :: rest => readFraction negative significand dropped rest
      | 101 :: rest => readExponent negative significand dropped rest
      | 69 :: rest => readExponent negative significand dropped rest
      | _ =>
        if dropped = 0 then .ok (integer negative significand, rest)
        else do
          let x ← floatOf negative significand dropped
          .ok (x, rest)

/-- Passes over the exponent of a number, whose letter has been read. -/
def skipExponent (input : Bytes) : Except Fault Bytes :=
  let input := match input with
    | 43 :: rest => rest
    | 45 :: rest => rest
    | _ => input
  if (input.head?.map isDigit).getD false then .ok (input.dropWhile isDigit)
  else .error .invalidNumber

/-- Passes over the number whose sign has been read, without computing it. -/
def skipNumber (input : Bytes) : Except Fault Bytes :=
  match input with
  | [] => .error .invalidNumber
  | first :: after =>
    if !isDigit first then .error .invalidNumber
    else if first = 48 ∧ (after.head?.map isDigit).getD false then .error .invalidNumber
    else
      match input.dropWhile isDigit with
      | 46 :: rest =>
        if (rest.head?.map isDigit).getD false then
          match rest.dropWhile isDigit with
          | 101 :: rest => skipExponent rest
          | 69 :: rest => skipExponent rest
          | rest => .ok rest
        else .error .invalidNumber
      | 101 :: rest => skipExponent rest
      | 69 :: rest => skipExponent rest
      | rest => .ok rest

end Numbers

end Tenancy.Json
