import Tenancy.Time.Calendar

/-!
# Points in time

A time is a number of seconds since 1 January 1970 and a number of nanoseconds after that second.  A
leap second is written as the second before it with between one and two thousand million
nanoseconds, so times compare as pairs.  `Time.before` moves a time back by whole seconds and fails
beyond the first year of the calendar.
-/

namespace Tenancy

/-- A point in time in UTC. -/
structure Time where
  seconds : Int
  nanos : Nat
  deriving DecidableEq

namespace Time

/-- The first time comes before the second. -/
def lt (a b : Time) : Bool := a.seconds < b.seconds || a.seconds = b.seconds && a.nanos < b.nanos

instance : LT Time := ⟨fun a b => a.lt b⟩

instance (a b : Time) : Decidable (a < b) := inferInstanceAs (Decidable (a.lt b = true))

instance : LE Time := ⟨fun a b => ¬ b < a⟩

instance (a b : Time) : Decidable (a ≤ b) := inferInstanceAs (Decidable (¬ b < a))

/-- The day of the time, counted from 1 January 1970. -/
def dayNumber (t : Time) : Int := t.seconds / 86400

def date (t : Time) : Date := Date.ofDayNumber t.dayNumber

/-- The seconds since midnight, a leap second counted as the one before it. -/
def secondOfDay (t : Time) : Nat := (t.seconds % 86400).toNat

/-- The time is in a year of the calendar. -/
def isInRange (t : Time) : Bool :=
  Date.firstYear ≤ t.date.year && t.date.year ≤ Date.lastYear

/-- The time as a second and a fraction of it; a leap second becomes the second after it. -/
def leapless (t : Time) : Time :=
  if 1000000000 ≤ t.nanos then ⟨t.seconds + 1, t.nanos - 1000000000⟩ else t

/-- The time a number of seconds earlier, if the calendar reaches so far back.  Only a move by no
seconds stays inside a leap second. -/
def before? (t : Time) (seconds : Nat) : Option Time :=
  if seconds = 0 then some t
  else
    let s := t.leapless
    let moved : Time := ⟨s.seconds - seconds, s.nanos⟩
    if moved.isInRange then some moved else none

/-- The time a number of seconds later.  A move of some seconds leaves a leap second as if it were
the second before it. -/
def after (t : Time) (seconds : Nat) : Time :=
  if seconds = 0 then t else ⟨t.seconds + seconds, t.nanos % 1000000000⟩

end Time

end Tenancy
