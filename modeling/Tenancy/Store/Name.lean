import Tenancy.Text.Quoted
import Tenancy.Text.Utf8

/-!
# Resource names

A name has 1 to 253 bytes: lower-case ASCII letters, digits, hyphens and dots, with a letter or
digit at both ends.  A name can be generated from a stem and some drawn characters; the stem is cut
where the whole would be too long.
-/

namespace Tenancy

/-- The number of bytes that a name may have. -/
def maxNameLength : Nat := 253

/-- The number of characters that are drawn for a generated name. -/
def drawLength : Nat := 5

/-- The characters that are drawn from. -/
def drawAlphabet : List Char := "abcdefghijklmnopqrstuvwxyz0123456789".toList

/-- A character that may stand anywhere in a name. -/
def isNameEnd (c : Char) : Bool := c.isLower || c.isDigit

/-- A character that may stand inside a name. -/
def isNameChar (c : Char) : Bool := isNameEnd c || c = '-' || c = '.'

/-- What is wrong with a name. -/
inductive NameFault where
  | empty
  | tooLong (length : Nat)
  | invalidCharacter (name : String) (c : Char)
  | badEnd (name : String)
  deriving DecidableEq

def NameFault.message : NameFault → String
  | .empty => "name must not be empty"
  | .tooLong length =>
    "name must be at most " ++ toString maxNameLength ++ " characters, got " ++ toString length
  | .invalidCharacter name c =>
    "name \"" ++ name ++ "\" contains invalid character " ++ quotedChar c
  | .badEnd name => "name \"" ++ name ++ "\" must start and end with a lowercase letter or digit"

/-- The first and the last of some characters satisfy `p`. -/
def bothEnds (p : Char → Bool) (cs : List Char) : Bool := cs.head?.any p && cs.getLast?.any p

/-- Accepts exactly the valid names; of several faults the first in the order of `NameFault` is
reported. -/
def checkName (name : String) : Except NameFault Unit :=
  if name.isEmpty then .error .empty
  else if maxNameLength < name.utf8ByteSize then .error (.tooLong name.utf8ByteSize)
  else
    match name.toList.find? fun c => !isNameChar c with
    | some c => .error (.invalidCharacter name c)
    | none => if bothEnds isNameEnd name.toList then .ok () else .error (.badEnd name)

def isValidName (name : String) : Bool := (checkName name).toBool

/-- The part of a stem that a generated name keeps. -/
def keptStem (stem : String) : String := clipBytes (maxNameLength - drawLength) stem

/-- The name generated from a stem and the drawn characters. -/
def generateName (stem draw : String) : String := keptStem stem ++ draw

end Tenancy
