import RestStore.Calendar.Instant
import RestStore.Text.Blank
import RestStore.Text.Digits

/-!
# ISO dates

Reading and writing the text of an instant. Three forms are read, in this order:

1. a full timestamp of fixed width with an offset from UTC,
2. a date and time without an offset, in UTC,
3. a date alone, at midnight UTC.

The last two allow white space before a number, one or two digits, and a signed year of any
length. One form is written: UTC with milliseconds, where a year outside 0 to 9999 has a sign and
at least four digits.
-/

set_option autoImplicit false

namespace RestStore.Iso

/-- The rest of a text after a character. -/
def expect (c : Char) : List Char → Option (List Char)
  | [] => none
  | d :: rest => if d = c then some rest else none

/-- A number of exactly `width` digits. -/
def fixed (width : Nat) (cs : List Char) : Option (Nat × List Char) :=
  let (digits, rest) := spanUpTo width cs
  if digits.length = width then some (natOfDigits digits, rest) else none

/-- A number of one to `most` digits after optional white space. -/
def loose (most : Nat) (cs : List Char) : Option (Nat × List Char) :=
  match spanUpTo most (trimStart cs) with
  | ([], _) => none
  | (digits, rest) => some (natOfDigits digits, rest)

/-- A year after optional white space: up to four digits, or a sign and any number of them. -/
def looseYear (cs : List Char) : Option (Int × List Char) :=
  let signedYear (negative : Bool) (body : List Char) : Option (Int × List Char) :=
    match spanDigits body with
    | ([], _) => none
    | (digits, rest) => some (signedInt negative (natOfDigits digits), rest)
  match trimStart cs with
  | '-' :: body => signedYear true body
  | '+' :: body => signedYear false body
  | body =>
    match spanUpTo 4 body with
    | ([], _) => none
    | (digits, rest) => some ((natOfDigits digits : Int), rest)

/-- The nanoseconds of fraction digits; those beyond the ninth are dropped. -/
def nanosOfDigits (digits : List Nat) : Nat :=
  let kept := digits.take 9
  natOfDigits kept * tenPow (9 - kept.length)

/-- An optional point with at least one fraction digit. -/
def fraction (cs : List Char) : Option (Nat × List Char) :=
  match cs with
  | '.' :: body =>
    match spanDigits body with
    | ([], _) => none
    | (digits, rest) => some (nanosOfDigits digits, rest)
  | _ => some (0, cs)

/-- An offset from UTC in minutes, as the whole rest of a text. -/
def offset? (cs : List Char) : Option Int :=
  let signedOffset (negative : Bool) (body : List Char) : Option Int := do
    let (hours, cs) ← fixed 2 body
    let cs ← expect ':' cs
    let (minutes, cs) ← fixed 2 cs
    if cs.isEmpty && hours ≤ 23 && minutes ≤ 59 then
      some (signedInt negative (hours * 60 + minutes))
    else none
  match cs with
  | ['Z'] | ['z'] => some 0
  | '+' :: body => signedOffset false body
  | '-' :: body => signedOffset true body
  | '\u2212' :: body => signedOffset true body
  | _ => none

/-- The instant of a date and time in UTC, if the calendar and the clock have them. -/
def instant? (date : CivilDate) (time : ClockTime) : Option Instant :=
  if date.isValid && time.isValid then some (.ofCivil date time) else none

/-- A full timestamp with an offset. -/
def timestamp? (cs : List Char) : Option Instant := do
  let (year, cs) ← fixed 4 cs
  let cs ← expect '-' cs
  let (month, cs) ← fixed 2 cs
  let cs ← expect '-' cs
  let (day, cs) ← fixed 2 cs
  let cs ← match cs with
    | c :: rest => if c = 'T' ∨ c = 't' ∨ c = ' ' then some rest else none
    | [] => none
  let (hour, cs) ← fixed 2 cs
  let cs ← expect ':' cs
  let (minute, cs) ← fixed 2 cs
  let cs ← expect ':' cs
  let (second, cs) ← fixed 2 cs
  let (nanos, cs) ← fraction cs
  let minutes ← offset? cs
  let atOffset ← instant? ⟨year, month, day⟩ ⟨hour, minute, second, nanos⟩
  pure ⟨atOffset.seconds - minutes * 60, atOffset.nanos⟩

/-- The leading date of the loose forms. -/
def looseDate (cs : List Char) : Option (CivilDate × List Char) := do
  let (year, cs) ← looseYear cs
  let cs ← expect '-' cs
  let (month, cs) ← loose 2 cs
  let cs ← expect '-' cs
  let (day, cs) ← loose 2 cs
  if firstYear ≤ year ∧ year ≤ lastYear then some (⟨year, month, day⟩, cs) else none

/-- A date and time without an offset. -/
def dateTime? (cs : List Char) : Option Instant := do
  let (date, cs) ← looseDate cs
  let cs ← expect 'T' cs
  let (hour, cs) ← loose 2 cs
  let cs ← expect ':' cs
  let (minute, cs) ← loose 2 cs
  let cs ← expect ':' cs
  let (second, cs) ← loose 2 cs
  let (nanos, cs) ← fraction cs
  if cs.isEmpty then instant? date ⟨hour, minute, second, nanos⟩ else none

/-- A date alone. -/
def date? (cs : List Char) : Option Instant := do
  let (date, cs) ← looseDate cs
  if cs.isEmpty then instant? date ⟨0, 0, 0, 0⟩ else none

/-- The instant that a text spells in one of the three forms. -/
def parse? (text : String) : Option Instant :=
  let cs := text.toList
  (timestamp? cs).orElse fun _ => (dateTime? cs).orElse fun _ => date? cs

/-- The text of a year. -/
def yearText (year : Int) : List Char :=
  if 0 ≤ year ∧ year ≤ 9999 then paddedNat 4 year.toNat
  else (if year < 0 then '-' else '+') :: paddedNat 4 year.natAbs

/-- The text of an instant, in UTC with milliseconds. -/
def render (instant : Instant) : String :=
  let date := instant.date
  let time := instant.time
  String.ofList (yearText date.year ++ '-' :: paddedNat 2 date.month ++ '-' ::
    paddedNat 2 date.day ++ 'T' :: paddedNat 2 time.hour ++ ':' :: paddedNat 2 time.minute ++
    ':' :: paddedNat 2 time.second ++ '.' :: paddedNat 3 (time.nanos / 1000000) ++ ['Z'])

end RestStore.Iso
