/-!
# Reading natural numbers

A numeral is a non-empty run of decimal digits, with at most one plus sign before it.  A reading has
an upper limit; the first character from the left that is no digit, or that takes the value over
the limit, decides the outcome.
-/

namespace Tenancy.Numeral

/-- Why a text is no numeral below the limit. -/
inductive Fault where
  | empty
  | invalidDigit
  | overflow
  deriving DecidableEq, Repr

def Fault.message : Fault → String
  | .empty => "cannot parse integer from empty string"
  | .invalidDigit => "invalid digit found in string"
  | .overflow => "number too large to fit in target type"

/-- The value of the digits `cs` after the digits of `value`. -/
def readDigits (limit : Nat) : Nat → List Char → Except Fault Nat
  | value, [] => .ok value
  | value, c :: cs =>
    if c.isDigit then
      let next := value * 10 + (c.toNat - '0'.toNat)
      if next ≤ limit then readDigits limit next cs else .error .overflow
    else .error .invalidDigit

/-- The number that `s` writes, at most `limit`. -/
def read (limit : Nat) (s : String) : Except Fault Nat :=
  match s.toList with
  | [] => .error .empty
  | ['+'] => .error .invalidDigit
  | '+' :: cs => readDigits limit 0 cs
  | cs => readDigits limit 0 cs

/-- The largest 64-bit unsigned number. -/
def maxWord : Nat := 0xffffffffffffffff

/-- The number that `s` writes, if it fits 64 bits. -/
def readWord? (s : String) : Option Nat := (read maxWord s).toOption

end Tenancy.Numeral
