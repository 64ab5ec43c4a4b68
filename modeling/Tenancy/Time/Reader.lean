import Tenancy.Text.Blank
import Tenancy.Time.Basic

/-!
# Reading times

A time is read as a date, one of `T`, `t` and a space, a time of day, and an offset from UTC.
Numbers may lack leading zeros; blanks may precede a number, a separator and the offset, and may
follow the whole; a year may have a sign and then any number of digits; a fraction may have any
number of digits, of which nine count.  A field out of its own range is reported where it is read,
a day that its month does not have only when all has been read.
-/

namespace Tenancy.Time

/-- Why a text is no time. -/
inductive Fault where
  | tooShort
  | invalid
  | outOfRange
  | impossible
  | tooLong
  deriving DecidableEq

def Fault.message : Fault → String
  | .tooShort => "premature end of input"
  | .invalid => "input contains invalid characters"
  | .outOfRange => "input is out of range"
  | .impossible => "no possible date and time matching input"
  | .tooLong => "trailing input"

/-- The largest number that a field may be written as. -/
def maxField : Nat := 0x7fffffffffffffff

/-- The number of at least one and at most `width` digits, and what follows. -/
def readNumber (width : Option Nat) (cs : List Char) : Except Fault (Nat × List Char) :=
  let digits := match width with
    | some n => (cs.take n).takeWhile Char.isDigit
    | none => cs.takeWhile Char.isDigit
  if digits.isEmpty then .error (if cs.isEmpty then .tooShort else .invalid)
  else
    let n := digits.foldl (fun n c => n * 10 + (c.toNat - '0'.toNat)) 0
    if n ≤ maxField then .ok (n, cs.drop digits.length) else .error .outOfRange

/-- The number of at most two digits, from `low` to `high`, after blanks. -/
def readField (low high : Nat) (cs : List Char) : Except Fault (Nat × List Char) := do
  let (n, cs) ← readNumber (some 2) (skipBlank cs)
  if low ≤ n ∧ n ≤ high then .ok (n, cs) else .error .outOfRange

/-- The largest number of years that can be read in either direction. -/
def maxYear : Int := 0x7fffffff

/-- The year after blanks: four digits at most, or a sign and any number of digits. -/
def readYear (cs : List Char) : Except Fault (Int × List Char) := do
  let (year, cs) ← match skipBlank cs with
    | '-' :: cs => do
      let (n, cs) ← readNumber none cs
      .ok (-(n : Int), cs)
    | '+' :: cs => do
      let (n, cs) ← readNumber none cs
      .ok ((n : Int), cs)
    | cs => do
      let (n, cs) ← readNumber (some 4) cs
      .ok ((n : Int), cs)
  if -maxYear - 1 ≤ year ∧ year ≤ maxYear then .ok (year, cs) else .error .outOfRange

/-- What follows a separator. -/
def readSeparator (separator : Char) (cs : List Char) : Except Fault (List Char) :=
  match skipBlank cs with
  | [] => .error .tooShort
  | c :: cs => if c = separator then .ok cs else .error .invalid

/-- The nanoseconds of a fraction, if one follows. -/
def readFraction : List Char → Except Fault (Nat × List Char)
  | '.' :: cs => do
    let (n, rest) ← readNumber (some 9) cs
    .ok (n * Nat.pow 10 (9 - (cs.length - rest.length)), rest.dropWhile Char.isDigit)
  | cs => .ok (0, cs)

/-- The offset from UTC in seconds. -/
def readOffset (cs : List Char) : Except Fault (Int × List Char) :=
  let value (a b : Char) : Nat := (a.toNat - '0'.toNat) * 10 + (b.toNat - '0'.toNat)
  let afterSign (sign : Int) (cs : List Char) : Except Fault (Int × List Char) :=
    match cs with
    | a :: b :: cs =>
      if a.isDigit ∧ b.isDigit then
        match cs.dropWhile fun c => c = ':' || isBlank c with
        | c :: d :: rest =>
          if d.isDigit ∧ '0' ≤ c ∧ c ≤ '5' then
            .ok (sign * (value a b * 3600 + value c d * 60 : Nat), rest)
          else if d.isDigit ∧ '6' ≤ c ∧ c ≤ '9' then .error .outOfRange
          else .error .invalid
        | [c] => if 2 ≤ c.utf8Size then .error .invalid else .error .tooShort
        | [] => .error .tooShort
      else .error .invalid
    | [c] => if 2 ≤ c.utf8Size then .error .invalid else .error .tooShort
    | [] => .error .tooShort
  match cs with
  | [] => .error .tooShort
  | 'Z' :: cs => .ok (0, cs)
  | 'z' :: cs => .ok (0, cs)
  | '+' :: cs => afterSign 1 cs
  | '-' :: cs => afterSign (-1) cs
  | '\u2212' :: cs => afterSign (-1) cs
  | _ => .error .invalid

/-- The offset from UTC, which may also be written as the word. -/
def readZone (cs : List Char) : Except Fault (Int × List Char) :=
  if (cs.take 3).map Char.toUpper = ['U', 'T', 'C'] then .ok (0, cs.drop 3) else readOffset cs

/-- The fields of a time as they are written. -/
structure Fields where
  date : Date
  hour : Nat
  minute : Nat
  second : Nat
  nanos : Nat
  offset : Int

def readFields (cs : List Char) : Except Fault (Fields × List Char) := do
  let (year, cs) ← readYear cs
  let cs ← readSeparator '-' cs
  let (month, cs) ← readField 1 12 cs
  let cs ← readSeparator '-' cs
  let (day, cs) ← readField 1 31 cs
  let cs ← match cs with
    | [] => .error .tooShort
    | c :: cs => if c = 'T' ∨ c = 't' ∨ c = ' ' then .ok cs else .error .invalid
  let (hour, cs) ← readField 0 23 cs
  let cs ← readSeparator ':' cs
  let (minute, cs) ← readField 0 59 cs
  let cs ← readSeparator ':' cs
  let (second, cs) ← readField 0 60 cs
  let (nanos, cs) ← readFraction cs
  let (offset, cs) ← readZone (skipBlank cs)
  .ok (⟨⟨year, month, day⟩, hour, minute, second, nanos, offset⟩, cs)

/-- The time that fields stand for.  Second 60 is a leap second in any minute. -/
def ofFields (f : Fields) : Except Fault Time := do
  if !f.date.isValid then throw .outOfRange
  if 86400 ≤ f.offset.natAbs then throw .outOfRange
  let leap := f.second = 60
  let second := if leap then 59 else f.second
  let nanos := f.nanos + if leap then 1000000000 else 0
  let wall : Int := f.date.dayNumber * 86400 + (f.hour * 3600 + f.minute * 60 + second : Nat)
  let t : Time := ⟨wall - f.offset, nanos⟩
  if t.isInRange then .ok t else .error .impossible

/-- The time that a text writes. -/
def read (s : String) : Except Fault Time := do
  let (fields, rest) ← readFields s.toList
  if (skipBlank rest).isEmpty then ofFields fields else .error .tooLong

end Tenancy.Time
