import RestStore.Calendar.Instant
import RestStore.Double.Decimal
import RestStore.Text.Lowercase

/-!
# Relative-time phrases

Phrases such as `in 2 days 3 hours`, `1 week ago` and `now`, resolved against a clock. A phrase is
read in lower case and cut at spaces: `in` before or `ago` after a sequence of counts with units,
never both, or the text `now` alone.

* `Phrase.totalSeconds` adds up the pairs; every product and every partial sum must be a signed
  64-bit integer.
* `Phrase.count?` reads a count: a signed 64-bit integer, or a decimal or exponent number whose
  nearest double is an integer below 9·10¹⁵.
-/

set_option autoImplicit false

namespace RestStore

/-- The direction in which a phrase points. -/
inductive Tense where
  | future
  | past
  | present
deriving DecidableEq, Repr

/-- Why a phrase has no meaning. -/
inductive PhraseFault where
  | missingDirection
  | conflictingDirection
  | dangling
  | notInteger (token : String)
  | unknownUnit (token : String)
  | outOfRange
deriving DecidableEq, Repr

/-- What the client is told. -/
def PhraseFault.message : PhraseFault → String
  | missingDirection => "Time should either start with 'in' or end with 'ago'"
  | conflictingDirection => "Time cannot have both 'in' and 'ago'"
  | dangling => "Invalid time string. Dangling unit or number."
  | notInteger token => "'" ++ token ++ "' is not an integer."
  | unknownUnit token => "Invalid interval: '" ++ token ++ "'"
  | outOfRange => "Time offset is out of range."

/-- A resolved phrase. -/
structure RelativeTime where
  tense : Tense
  instant : Instant
deriving DecidableEq, Repr

namespace Phrase

/-- The pieces of a text between spaces, also the empty ones. -/
def pieces : List Char → List (List Char)
  | [] => [[]]
  | c :: rest =>
    if c = ' ' then [] :: pieces rest
    else
      match pieces rest with
      | [] => [[c]]
      | piece :: more => (c :: piece) :: more

/-- The words of a text. -/
def words (cs : List Char) : List (List Char) := (pieces cs).filter fun piece => !piece.isEmpty

/-- The length of a unit in seconds; a year has 365 days. -/
def unitSeconds? (unit : String) : Option Int :=
  if unit ∈ ["yr", "yrs", "year", "years"] then some 31536000
  else if unit ∈ ["wk", "wks", "week", "weeks"] then some 604800
  else if unit ∈ ["d", "day", "days"] then some 86400
  else if unit ∈ ["hr", "hrs", "hour", "hours"] then some 3600
  else if unit ∈ ["min", "mins", "minute", "minutes"] then some 60
  else if unit ∈ ["sec", "secs", "second", "seconds"] then some 1
  else none

/-- A decimal or exponent number whose nearest double is an integer of moderate size. -/
def wholeNumber? (token : List Char) : Option Int :=
  ((Numeral.ofChars? token).bind fun numeral => numeral.toDouble.toInt?).filter fun i =>
    decide (i.natAbs < 9000000000000000)

/-- The count that a word spells. -/
def count? (token : List Char) : Option Int :=
  (int64OfChars? token).orElse fun _ => wholeNumber? token

/-- The sum of the counts times their units, added to what came before. -/
def totalSeconds : List (List Char) → Int → Except PhraseFault Int
  | [], total => .ok total
  | [_], _ => .error .dangling
  | number :: unit :: rest, total =>
    match count? number with
    | none => .error (.notInteger (String.ofList number))
    | some count =>
      match unitSeconds? (String.ofList unit) with
      | none => .error (.unknownUnit (String.ofList unit))
      | some length =>
        if !fitsInt64 (count * length) then .error .outOfRange
        else if !fitsInt64 (total + count * length) then .error .outOfRange
        else totalSeconds rest (total + count * length)

/-- The longest offset, in seconds: as many as have their milliseconds in 64 bits. -/
def longestOffset : Nat := 9223372036854775

/-- The instant that lies an offset away from the clock, forward or back. -/
def shift (now : Instant) (tense : Tense) (seconds : Int) : Except PhraseFault RelativeTime :=
  if longestOffset < seconds.natAbs then .error .outOfRange
  else
    let moved :=
      match tense with
      | .future => now.addSeconds? seconds
      | .past => now.addSeconds? (-seconds)
      | .present => some now
    match moved with
    | none => .error .outOfRange
    | some instant => .ok ⟨tense, instant⟩

/-- The offset that the words of the body spell; an odd word is a fault before any other. -/
def offset (body : List (List Char)) : Except PhraseFault Int :=
  if body.length % 2 = 0 then totalSeconds body 0 else .error .dangling

/-- The meaning of a phrase at a clock. -/
def resolve (text : String) (now : Instant) : Except PhraseFault RelativeTime :=
  let folded := lowercase text.toList
  let tokens := words folded
  let future := tokens.head? == some "in".toList
  let past := tokens.getLast? == some "ago".toList
  if folded = "now".toList then .ok ⟨.present, now⟩
  else if !future && !past then .error .missingDirection
  else if future && past then .error .conflictingDirection
  else
    match offset (if future then tokens.drop 1 else tokens.dropLast) with
    | .error fault => .error fault
    | .ok seconds => shift now (if future then .future else .past) seconds

end Phrase

end RestStore
