import RestStore.Double.Shortest

/-!
# Text of a double

Two written forms of the shortest decimal of a double. `Double.compact` is the one of compact JSON:
positional with at least one decimal from `1e-5` up to `1e16`, and a signed exponent outside.
`Double.plain` is always positional and never adds a decimal.
-/

set_option autoImplicit false

namespace RestStore

namespace Decimal

/-- The digits as text. -/
def digitText (d : Decimal) : List Char := Nat.toDigits 10 d.digits

/-- How many digits stand before the decimal point; negative when zeros follow the point. -/
def pointPosition (d : Decimal) : Int := d.digitText.length + d.scale

/-- Positional digits; a whole number gets `whole` behind it. -/
def positional (d : Decimal) (whole : List Char) : List Char :=
  let digits := d.digitText
  let point := d.pointPosition
  if 0 ≤ d.scale then digits ++ List.replicate d.scale.toNat '0' ++ whole
  else if 0 < point then digits.take point.toNat ++ '.' :: digits.drop point.toNat
  else ['0', '.'] ++ List.replicate (-point).toNat '0' ++ digits

/-- One digit before the point, and an exponent with its sign. -/
def scientific (d : Decimal) : List Char :=
  let exponent := d.pointPosition - 1
  let mantissa :=
    match d.digitText with
    | [] => []
    | [c] => [c]
    | c :: rest => c :: '.' :: rest
  let sign := if exponent < 0 then '-' else '+'
  mantissa ++ 'e' :: sign :: Nat.toDigits 10 exponent.natAbs

end Decimal

namespace Double

/-- Puts a minus before the text of a negative number. -/
def signed (x : Double) (text : List Char) : String :=
  String.ofList (if x.isNegative then '-' :: text else text)

/-- The form in compact JSON; a number that is not finite has none there and is `null`. -/
def compact (x : Double) : String :=
  if !x.isFinite then "null"
  else if x.isZero then x.signed "0.0".toList
  else
    let d := x.shortest .even
    let point := d.pointPosition
    x.signed (if -5 < point ∧ point ≤ 16 then d.positional ['.', '0'] else d.scientific)

/-- The bare form: positional, with no forced decimal. -/
def plain (x : Double) : String :=
  if x.isNaN then "NaN"
  else if !x.isFinite then x.signed "inf".toList
  else if x.isZero then x.signed ['0']
  else x.signed ((x.shortest .up).positional [])

end Double

end RestStore
