import Mathlib.Order.Monotone.Basic
import Tenancy.Time.Calendar

/-!
# Dates and day numbers

Every day number has one date, which exists in the calendar.

* `cycleYear_spec`: the year of a day inside a cycle of 400 years that begin in March.
* `Date.dayNumber_ofDayNumber`: the date of a day number has this day number.
* `Date.isDay_ofDayNumber`: its month and its day exist.
* `Date.le_year_ofDayNumber_iff`: its year is not before the given one from 1 January on.
-/

namespace Tenancy

theorem isLeapYear_iff (year : Int) :
    isLeapYear year = true ↔ year % 4 = 0 ∧ (year % 100 ≠ 0 ∨ year % 400 = 0) := by
  simp [isLeapYear]

/-! ## Years of a cycle -/

/-- The days of a cycle without the leap days of full years, roughly: 365 times the year of the day,
and some days of this year. -/
def leaplessDays (d : Nat) : Nat := d - d / 1460 + d / 36524 - d / 146096

def yearStart (y : Nat) : Nat := 365 * y + y / 4 - y / 100

/-- The last day of a year of a cycle.  The leap day comes last, and is in the next year of the
calendar. -/
def yearEnd (y : Nat) : Nat := yearStart y + if isLeapYear (y + 1) then 365 else 364

theorem leaplessDays_mono : Monotone leaplessDays := by
  refine monotone_nat_of_le_succ fun d => ?_
  rw [leaplessDays, leaplessDays]
  omega

theorem leaplessDays_year : ∀ y < 400,
    365 * y ≤ leaplessDays (yearStart y) ∧ leaplessDays (yearEnd y) ≤ 365 * y + 364 := by
  decide +kernel

theorem yearEnd_succ : ∀ y < 399, yearEnd y + 1 = yearStart (y + 1) := by
  decide +kernel

/-- Every day up to the end of a year is in this year or one before. -/
theorem exists_cycleYear {d last : Nat} (hLast : last < 400) (hDay : d ≤ yearEnd last) :
    ∃ y < 400, yearStart y ≤ d ∧ d ≤ yearEnd y := by
  induction last with
  | zero => exact ⟨0, hLast, Nat.zero_le d, hDay⟩
  | succ y ih =>
    by_cases hStart : yearStart (y + 1) ≤ d
    · exact ⟨y + 1, hLast, hStart, hDay⟩
    · have hNext := yearEnd_succ y (by omega)
      exact ih (by omega) (by omega)

def cycleYear (d : Nat) : Nat := leaplessDays d / 365

theorem cycleYear_spec {d : Nat} (hDay : d < 146097) :
    cycleYear d < 400 ∧ yearStart (cycleYear d) ≤ d ∧ d ≤ yearEnd (cycleYear d) := by
  have hLast : yearEnd 399 = 146096 := by decide +kernel
  obtain ⟨y, hYear, hStart, hEnd⟩ := exists_cycleYear (by decide) (by omega : d ≤ yearEnd 399)
  have hLow := leaplessDays_mono hStart
  have hHigh := leaplessDays_mono hEnd
  have hBounds := leaplessDays_year y hYear
  have hSame : cycleYear d = y := by
    rw [cycleYear]
    omega
  rw [hSame]
  exact ⟨hYear, hStart, hEnd⟩

namespace Date

/-! ## Dates -/

def IsDay (d : Date) : Prop :=
  1 ≤ d.month ∧ d.month ≤ 12 ∧ 1 ≤ d.day ∧ d.day ≤ daysInMonth d.year d.month

theorem isValid_iff (d : Date) :
    d.isValid = true ↔ (firstYear ≤ d.year ∧ d.year ≤ lastYear) ∧ d.IsDay := by
  simp [isValid, IsDay, and_assoc]

/-- The parts of a day number: the cycle, the year in it, and the day of this year. -/
theorem exists_parts (n : Int) : ∃ (cycle : Int) (y day : Nat),
    n + 719468 = cycle * 146097 + yearStart y + day ∧ y < 400 ∧ yearStart y + day ≤ yearEnd y ∧
      ofDayNumber n =
        (let month := (5 * day + 2) / 153
         let dayOfMonth := day - (153 * month + 2) / 5 + 1
         if month < 10 then ⟨y + cycle * 400, month + 3, dayOfMonth⟩
         else ⟨y + cycle * 400 + 1, month - 9, dayOfMonth⟩) := by
  have hDay : ((n + 719468) % 146097).toNat < 146097 := by omega
  obtain ⟨hYear, hStart, hEnd⟩ := cycleYear_spec hDay
  generalize hd : ((n + 719468) % 146097).toNat = d at *
  have hd' : (n + 719468) % 146097 = d := by omega
  have hYearOf : ((d : Int) - d / 1460 + d / 36524 - d / 146096) / 365 = cycleYear d := by
    rw [cycleYear, leaplessDays]
    omega
  refine ⟨(n + 719468) / 146097, cycleYear d, d - yearStart (cycleYear d), ?_, hYear, ?_, ?_⟩
  · omega
  · omega
  · have hDayOfYear : (d : Int) - (365 * cycleYear d + cycleYear d / 4 - cycleYear d / 100) =
        (d - yearStart (cycleYear d) : Nat) := by
      rw [yearStart] at hStart ⊢
      omega
    simp only [ofDayNumber, hd', hYearOf, hDayOfYear]
    generalize d - yearStart (cycleYear d) = day
    have hMonth : (5 * (day : Int) + 2) / 153 = ((5 * day + 2) / 153 : Nat) := by omega
    have hRest : 153 * ((5 * day + 2) / 153) + 2 ≤ 5 * day + 4 := by omega
    rw [hMonth]
    generalize (5 * day + 2) / 153 = month at hRest
    have hDayOfMonth : (day : Int) - (153 * (month : Int) + 2) / 5 + 1 =
        (day - (153 * month + 2) / 5 + 1 : Nat) := by omega
    rw [hDayOfMonth]
    by_cases hSpring : month < 10
    · rw [if_pos (by omega), if_pos hSpring]
      rfl
    · rw [if_neg (by omega), if_neg hSpring]
      have hToNat : ((month : Int) - 9).toNat = month - 9 := by omega
      rw [hToNat]
      rfl

/-- The date of a day number has this day number. -/
theorem dayNumber_ofDayNumber (n : Int) : (ofDayNumber n).dayNumber = n := by
  obtain ⟨cycle, y, day, hParts, hYear, hEnd, hDate⟩ := exists_parts n
  have hCycle : ((y : Int) + cycle * 400) / 400 = cycle ∧ ((y : Int) + cycle * 400) % 400 = y := by
    omega
  have hMonth : (5 * day + 2) / 153 < 12 ∧ (153 * ((5 * day + 2) / 153) + 2) / 5 ≤ day := by
    rw [yearEnd] at hEnd
    split at hEnd <;> omega
  rw [hDate]
  dsimp only
  generalize (5 * day + 2) / 153 = month at hMonth
  rw [yearStart] at hParts
  by_cases hSpring : month < 10
  · rw [if_pos hSpring]
    simp only [dayNumber]
    rw [if_neg (by omega), if_neg (by omega), hCycle.1, hCycle.2]
    omega
  · rw [if_neg hSpring]
    simp only [dayNumber]
    rw [if_pos (by omega), if_pos (by omega), Int.add_sub_cancel, hCycle.1, hCycle.2]
    omega

/-- The month and the day of a day number exist. -/
theorem isDay_ofDayNumber (n : Int) : (ofDayNumber n).IsDay := by
  obtain ⟨cycle, y, day, -, -, hEnd, hDate⟩ := exists_parts n
  rw [hDate]
  dsimp only
  have hLeap : isLeapYear ((y : Int) + cycle * 400 + 1) = isLeapYear ((y : Int) + 1) := by
    rw [Bool.eq_iff_iff, isLeapYear_iff, isLeapYear_iff]
    omega
  rw [yearEnd] at hEnd
  have hMonth : (5 * day + 2) / 153 < 12 := by
    split at hEnd <;> omega
  by_cases hSpring : (5 * day + 2) / 153 < 10
  · rw [if_pos hSpring, IsDay]
    dsimp only
    refine ⟨by omega, by omega, by omega, ?_⟩
    simp only [daysInMonth]
    split_ifs <;> omega
  · rw [if_neg hSpring, IsDay]
    dsimp only
    refine ⟨by omega, by omega, by omega, ?_⟩
    simp only [daysInMonth, hLeap]
    split at hEnd <;> split_ifs <;> omega

/-! ## Years -/

/-- The number of days from year 0 to another one, both beginning in March. -/
def marchStart (z : Int) : Int := 365 * z + z / 4 - z / 100 + z / 400

/-- A year has at least 365 days. -/
theorem marchStart_add_le (z : Int) (k : Nat) : marchStart z + 365 * k ≤ marchStart (z + k) := by
  induction k with
  | zero => simp
  | succ k ih =>
    have hYear : marchStart (z + k) + 365 ≤ marchStart (z + (k + 1 : Nat)) := by
      rw [marchStart, marchStart]
      omega
    omega

theorem marchStart_le {z z' : Int} (hLe : z ≤ z') :
    marchStart z + 365 * (z' - z) ≤ marchStart z' := by
  obtain ⟨k, rfl⟩ := Int.le.dest hLe
  have h := marchStart_add_le z k
  omega

/-- The year that begins in March, the day of this year, and the year of the calendar, which begins
306 days later. -/
theorem exists_marchYear (n : Int) : ∃ (z : Int) (day : Nat), n + 719468 = marchStart z + day ∧
    marchStart z + day < marchStart (z + 1) ∧
      (ofDayNumber n).year = z + if day < 306 then 0 else 1 := by
  obtain ⟨cycle, y, day, hParts, hYear, hEnd, hDate⟩ := exists_parts n
  refine ⟨cycle * 400 + y, day, ?_, ?_, ?_⟩
  · rw [hParts, yearStart, marchStart]
    omega
  · have hDay : day ≤ if isLeapYear ((y : Int) + 1) then 365 else 364 := by
      rw [yearEnd] at hEnd
      omega
    rw [marchStart, marchStart]
    split at hDay
    · rename_i hLeap
      have hRule := (isLeapYear_iff _).1 hLeap
      omega
    · omega
  · rw [hDate]
    dsimp only
    split <;> split <;> dsimp only <;> omega

theorem dayNumber_january (year : Int) :
    (⟨year, 1, 1⟩ : Date).dayNumber = marchStart (year - 1) + 306 - 719468 := by
  simp only [dayNumber, marchStart]
  omega

/-- The year of a day number is not before another one if the day is not before its 1 January. -/
theorem le_year_ofDayNumber_iff {year n : Int} :
    year ≤ (ofDayNumber n).year ↔ (⟨year, 1, 1⟩ : Date).dayNumber ≤ n := by
  obtain ⟨z, day, hParts, hNext, hYear⟩ := exists_marchYear n
  rw [hYear, dayNumber_january]
  rcases Int.lt_trichotomy (year - 1) z with hEarlier | rfl | hLater
  · have hStart := marchStart_le (Int.le_of_lt hEarlier)
    split <;> omega
  · split <;> omega
  · have hStart := marchStart_le (Int.add_one_le_of_lt hLater)
    split <;> omega

end Date

end Tenancy
