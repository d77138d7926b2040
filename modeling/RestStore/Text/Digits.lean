/-!
# Decimal digits

Runs of the ASCII digits and the numbers they denote.

* `spanDigits` splits a text after its leading digits; `spanUpTo` takes a bounded number of them.
* `natOfDigits` is the value of a run, `integerOfChars?` reads a whole text as a signed integer,
  and `paddedNat` writes a number with leading zeros.
-/

set_option autoImplicit false

namespace RestStore

/-- The value of a decimal digit. -/
def digitValue? (c : Char) : Option Nat :=
  if '0' ≤ c ∧ c ≤ '9' then some (c.toNat - '0'.toNat) else none

/-- The leading digits, as values, and what follows them. -/
def spanDigits : List Char → List Nat × List Char
  | [] => ([], [])
  | c :: rest =>
    match digitValue? c with
    | none => ([], c :: rest)
    | some d => (d :: (spanDigits rest).1, (spanDigits rest).2)

/-- At most `most` leading digits, as values, and what follows them. -/
def spanUpTo : Nat → List Char → List Nat × List Char
  | 0, cs => ([], cs)
  | _ + 1, [] => ([], [])
  | most + 1, c :: rest =>
    match digitValue? c with
    | none => ([], c :: rest)
    | some d => (d :: (spanUpTo most rest).1, (spanUpTo most rest).2)

/-- Ten to the power of `n`. -/
def tenPow (n : Nat) : Nat := Nat.pow 10 n

/-- The number that a list of decimal digits denotes. -/
def natOfDigits (digits : List Nat) : Nat := digits.foldl (fun n d => 10 * n + d) 0

/-- Drops an optional sign and says whether it was a minus. -/
def splitSign : List Char → Bool × List Char
  | '-' :: rest => (true, rest)
  | '+' :: rest => (false, rest)
  | cs => (false, cs)

/-- The integer with the given sign and magnitude. -/
def signedInt (negative : Bool) (n : Nat) : Int := if negative then -(n : Int) else n

/-- A whole text of an optional sign and at least one digit. -/
def integerOfChars? (cs : List Char) : Option Int :=
  let (negative, body) := splitSign cs
  match spanDigits body with
  | (d :: ds, []) => some (signedInt negative (natOfDigits (d :: ds)))
  | _ => none

/-- Whether an integer is a signed 64-bit one. -/
def fitsInt64 (i : Int) : Bool := decide (-9223372036854775808 ≤ i ∧ i ≤ 9223372036854775807)

/-- Whether an integer is a signed 32-bit one. -/
def fitsInt32 (i : Int) : Bool := decide (-2147483648 ≤ i ∧ i ≤ 2147483647)

/-- A signed 64-bit integer that is the whole text. -/
def int64OfChars? (cs : List Char) : Option Int :=
  (integerOfChars? cs).filter fitsInt64

/-- A number with at least `width` digits. -/
def paddedNat (width n : Nat) : List Char :=
  let digits := Nat.toDigits 10 n
  List.replicate (width - digits.length) '0' ++ digits

end RestStore
