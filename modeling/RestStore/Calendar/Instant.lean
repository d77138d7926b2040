import RestStore.Calendar.Civil

/-!
# Instants

Points of time in UTC with nanoseconds. A leap second is the second before it with 10⁹ to 2·10⁹
nanoseconds: its text keeps second 60, and its count of milliseconds is that of the second after.

* `Instant.millis` drops what is below a millisecond, toward the past.
* `Instant.ofMillis` holds a count inside the years that instants have.
* `Instant.later` moves by seconds, and counts a leap second in which it starts.
-/

set_option autoImplicit false

namespace RestStore

/-- Seconds since 1970 and the nanoseconds within the second. -/
structure Instant where
  seconds : Int
  nanos : Nat
deriving DecidableEq, Repr

/-- The first year of instants. -/
def firstYear : Int := -262143

/-- The last year of instants. -/
def lastYear : Int := 262142

/-- A time of day; second 60 is a leap second. -/
structure ClockTime where
  hour : Nat
  minute : Nat
  second : Nat
  nanos : Nat
deriving DecidableEq, Repr

/-- Whether a clock shows the time. -/
def ClockTime.isValid (time : ClockTime) : Bool :=
  time.hour ≤ 23 && time.minute ≤ 59 && time.second ≤ 60 && time.nanos < 1000000000

namespace Instant

/-- The first second of the first year. -/
def firstSecond : Int := -8334601228800

/-- The last second of the last year. -/
def lastSecond : Int := 8210266876799

/-- Whether the instant lies in the years that instants have. -/
def inRange (instant : Instant) : Bool :=
  decide (firstSecond ≤ instant.seconds ∧ instant.seconds ≤ lastSecond)

/-- The instant of a date and time in UTC. -/
def ofCivil (date : CivilDate) (time : ClockTime) : Instant :=
  let leap := time.second = 60
  let second := if leap then 59 else time.second
  ⟨date.dayNumber * 86400 + time.hour * 3600 + time.minute * 60 + second,
    if leap then time.nanos + 1000000000 else time.nanos⟩

/-- The date of an instant. -/
def date (instant : Instant) : CivilDate := .ofDayNumber (instant.seconds / 86400)

/-- The time of day of an instant. -/
def time (instant : Instant) : ClockTime :=
  let second := (instant.seconds % 86400).toNat
  ⟨second / 3600, second / 60 % 60, second % 60 + instant.nanos / 1000000000,
    instant.nanos % 1000000000⟩

/-- Milliseconds since 1970. -/
def millis (instant : Instant) : Int := instant.seconds * 1000 + (instant.nanos / 1000000 : Nat)

/-- The instant of a count of milliseconds, which is first brought into range. -/
def ofMillis (millis : Int) : Instant :=
  let held := max (firstSecond * 1000) (min millis (lastSecond * 1000 + 999))
  ⟨held / 1000, (held % 1000).toNat * 1000000⟩

/-- The instant some seconds later, or earlier for a negative count. Outside its leap second a clock
counts it like any other second: the next one starts a minute, the one before is second 59. -/
def later (instant : Instant) (seconds : Int) : Instant :=
  if instant.nanos < 1000000000 then ⟨instant.seconds + seconds, instant.nanos⟩
  else if seconds = 0 then instant
  else if 0 < seconds then ⟨instant.seconds + seconds, instant.nanos - 1000000000⟩
  else ⟨instant.seconds + seconds + 1, instant.nanos - 1000000000⟩

/-- The instant some seconds later, if it is in range. -/
def addSeconds? (instant : Instant) (seconds : Int) : Option Instant :=
  let moved := instant.later seconds
  if moved.inRange then some moved else none

example : (ofCivil ⟨firstYear, 1, 1⟩ ⟨0, 0, 0, 0⟩).seconds = firstSecond := by decide
example : (ofCivil ⟨lastYear, 12, 31⟩ ⟨23, 59, 59, 0⟩).seconds = lastSecond := by decide

end Instant

end RestStore
