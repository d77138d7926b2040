import RestStore.Double.Basic
import RestStore.Text.Digits

/-!
# Decimal numerals

Reading a decimal number as the nearest double. A numeral is an integer of digits and a power of
ten; its text may also spell infinity or NaN.

* `Double.ofDecimal` is correctly rounded. Scales far outside the range of doubles are answered
  without computing the power of ten.
* `Numeral.ofChars?` accepts an optional sign, then digits with at most one point and at least one
  digit, then an optional exponent; or `inf`, `infinity` or `nan` in any letter case.
-/

set_option autoImplicit false

namespace RestStore

/-- The double nearest to `± digits · 10 ^ scale`. -/
def Double.ofDecimal (negative : Bool) (digits : Nat) (scale : Int) : Double :=
  let size : Int := (Nat.toDigits 10 digits).length
  if digits = 0 ∨ size + scale < -330 then ofMagnitude negative 0
  else if 310 < size + scale then infinity negative
  else if 0 ≤ scale then ofRatio negative (digits * tenPow scale.toNat) 1
  else ofRatio negative digits (tenPow (-scale).toNat)

/-- What the text of a number spells. -/
inductive Numeral where
  | decimal (negative : Bool) (digits : Nat) (scale : Int)
  | infinite (negative : Bool)
  | nan
deriving DecidableEq, Repr

namespace Numeral

/-- The double nearest to what is spelled. -/
def toDouble : Numeral → Double
  | decimal negative digits scale => .ofDecimal negative digits scale
  | infinite negative => .infinity negative
  | nan => .nan

/-- The exponent part after the digits: absent, or a mark and a signed integer. -/
def tailExponent? : List Char → Option Int
  | [] => some 0
  | c :: rest => if c = 'e' ∨ c = 'E' then integerOfChars? rest else none

/-- Digits with an optional point, then an optional exponent. -/
def unsignedOfChars? (negative : Bool) (cs : List Char) : Option Numeral :=
  let (whole, afterWhole) := spanDigits cs
  let (fraction, tail) :=
    match afterWhole with
    | '.' :: rest => spanDigits rest
    | rest => ([], rest)
  if whole.isEmpty && fraction.isEmpty then none
  else
    (tailExponent? tail).map fun exponent =>
      .decimal negative (natOfDigits (whole ++ fraction)) (exponent - fraction.length)

/-- The numeral that a whole text spells. -/
def ofChars? (cs : List Char) : Option Numeral :=
  let (negative, body) := splitSign cs
  let folded := String.ofList (body.map Char.toLower)
  if folded = "inf" ∨ folded = "infinity" then some (.infinite negative)
  else if folded = "nan" then some .nan
  else unsignedOfChars? negative body

end Numeral

end RestStore
