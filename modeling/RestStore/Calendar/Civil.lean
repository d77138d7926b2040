/-!
# Civil dates

The proleptic Gregorian calendar with a year zero, and its count of days from 1970-01-01.

* `CivilDate.dayNumber` counts the days; `CivilDate.ofDayNumber` finds the date of a count.
* `daysBeforeYear` is exact for every year, also before the year zero.
-/

set_option autoImplicit false

namespace RestStore

/-- A day of a year and month; the month and the day count from one. -/
structure CivilDate where
  year : Int
  month : Nat
  day : Nat
deriving DecidableEq, Repr

/-- Whether a year has 366 days. -/
def isLeapYear (year : Int) : Bool :=
  year % 4 = 0 && (year % 100 ≠ 0 || year % 400 = 0)

/-- The lengths of the twelve months. -/
def monthLengths (leap : Bool) : List Nat :=
  [31, if leap then 29 else 28, 31, 30, 31, 30, 31, 31, 30, 31, 30, 31]

/-- The days from the first of January of the year zero to that of a year. -/
def daysBeforeYear (year : Int) : Int :=
  365 * year + (year + 3) / 4 - (year + 99) / 100 + (year + 399) / 400

/-- The days from the year zero to 1970. -/
def epochDays : Int := daysBeforeYear 1970

/-- The year of the day with a number counted from the year zero: a mean year gives a first
guess, which is at most one off. -/
def yearOfDay (day : Int) : Int :=
  let guess := day * 400 / 146097
  if day < daysBeforeYear guess then guess - 1
  else if daysBeforeYear (guess + 1) ≤ day then guess + 1
  else guess

/-- The days in the first so many of the months given. -/
def daysBeforeMonth : List Nat → Nat → Nat
  | length :: rest, months + 1 => length + daysBeforeMonth rest months
  | _, _ => 0

/-- The month, counted from zero, and the day in it, of a day counted in the months given. -/
def splitMonths : List Nat → Nat → Nat × Nat
  | [], day => (0, day)
  | length :: rest, day =>
    if day < length then (0, day)
    else ((splitMonths rest (day - length)).1 + 1, (splitMonths rest (day - length)).2)

namespace CivilDate

/-- Whether the calendar has the date. -/
def isValid (date : CivilDate) : Bool :=
  1 ≤ date.month && date.month ≤ 12 && 1 ≤ date.day &&
    date.day ≤ ((monthLengths (isLeapYear date.year))[date.month - 1]?.getD 0)

/-- The days from 1970-01-01 to a date. -/
def dayNumber (date : CivilDate) : Int :=
  let months := monthLengths (isLeapYear date.year)
  daysBeforeYear date.year + daysBeforeMonth months (date.month - 1) + date.day - 1 - epochDays

/-- The date of a number of days from 1970-01-01. -/
def ofDayNumber (number : Int) : CivilDate :=
  let day := number + epochDays
  let year := yearOfDay day
  let (month, rest) :=
    splitMonths (monthLengths (isLeapYear year)) (day - daysBeforeYear year).toNat
  ⟨year, month + 1, rest + 1⟩

example : dayNumber ⟨1970, 1, 1⟩ = 0 := by decide
example : dayNumber ⟨2024, 2, 29⟩ = 19782 := by decide
example : ofDayNumber 19782 = ⟨2024, 2, 29⟩ := by decide
example : ofDayNumber (-719529) = ⟨-1, 12, 31⟩ := by decide

end CivilDate

end RestStore
