import Tenancy.Time.Basic

/-!
# Times as text

A time is written as a date and a time of day in UTC, with as many digits after the second as it
needs: none, three, six or nine.  Years outside 0 to 9999 have a sign and at least four digits.  On
the wire a `T` stands between the two parts and a `Z` after them; in messages a space and `UTC`.
-/

namespace Tenancy.Time

/-- The decimal digits of `n`, with zeros in front up to `width`. -/
def pad (width n : Nat) : String :=
  let digits := Nat.toDigits 10 n
  String.ofList (List.replicate (width - digits.length) '0' ++ digits)

def yearText (year : Int) : String :=
  if 0 ≤ year ∧ year ≤ 9999 then pad 4 year.toNat
  else (if year < 0 then "-" else "+") ++ pad 4 year.natAbs

def dateText (d : Date) : String := yearText d.year ++ "-" ++ pad 2 d.month ++ "-" ++ pad 2 d.day

/-- The digits after the second, with their point. -/
def fractionText (nanos : Nat) : String :=
  if nanos = 0 then ""
  else if nanos % 1000000 = 0 then "." ++ pad 3 (nanos / 1000000)
  else if nanos % 1000 = 0 then "." ++ pad 6 (nanos / 1000)
  else "." ++ pad 9 nanos

def clockText (t : Time) : String :=
  let s := t.secondOfDay
  let leap := 1000000000 ≤ t.nanos
  pad 2 (s / 3600) ++ ":" ++ pad 2 (s / 60 % 60) ++ ":" ++
    pad 2 (s % 60 + if leap then 1 else 0) ++
    fractionText (if leap then t.nanos - 1000000000 else t.nanos)

/-- The form of a time on the wire. -/
def wireText (t : Time) : String := dateText t.date ++ "T" ++ clockText t ++ "Z"

/-- The form of a time in messages. -/
def messageText (t : Time) : String := dateText t.date ++ " " ++ clockText t ++ " UTC"

end Tenancy.Time
