/-!
# Binary double-precision numbers

A double is its 64 bits; a finite one is an exact dyadic number `± significand · 2 ^ exponent`.
Everything here is exact integer arithmetic.

* `Double.ofRatio` rounds a quotient of natural numbers to the nearest double, a tie to the even
  significand, overflow to infinity.
* `Double.rank` orders the numbers: `lt` and `same` compare ranks and refuse NaN, so that the two
  zeros are the same and NaN differs from itself.
* `Double.toInt?` is the exact integer value, when there is one.
-/

set_option autoImplicit false

namespace RestStore

/-- A binary64 number by its bits. -/
structure Double where
  bits : UInt64
deriving DecidableEq, Repr

namespace Double

/-- Two to the power of `n`. -/
def twoPow (n : Nat) : Nat := Nat.pow 2 n

/-- The weight of the sign bit, `2 ^ 63`. -/
def signWeight : Nat := 0x8000000000000000

/-- The weight of the lowest exponent bit, `2 ^ 52`; significands have this leading bit. -/
def leadingBit : Nat := 0x10000000000000

/-- The bits of infinity without its sign. -/
def infinityBits : Nat := 0x7FF0000000000000

/-- The bits without the sign. -/
def magnitude (x : Double) : Nat := x.bits.toNat % signWeight

/-- Whether the sign bit is set; it is for the negative zero. -/
def isNegative (x : Double) : Bool := decide (signWeight ≤ x.bits.toNat)

def isNaN (x : Double) : Bool := decide (infinityBits < x.magnitude)

def isFinite (x : Double) : Bool := decide (x.magnitude < infinityBits)

/-- The number with the given sign and magnitude bits. -/
def ofMagnitude (negative : Bool) (magnitude : Nat) : Double :=
  ⟨UInt64.ofNat (if negative then signWeight + magnitude else magnitude)⟩

def infinity (negative : Bool) : Double := ofMagnitude negative infinityBits

def zero : Double := ofMagnitude false 0

def nan : Double := ofMagnitude false 0x7FF8000000000000

/-- The integer significand of a finite number. -/
def significand (x : Double) : Nat :=
  let fraction := x.magnitude % leadingBit
  if x.magnitude / leadingBit = 0 then fraction else leadingBit + fraction

/-- The power of two that scales the significand of a finite number. -/
def exponent (x : Double) : Int :=
  (max (x.magnitude / leadingBit) 1 : Nat) - 1075

/-! ## Rounding -/

/-- `a / b` rounded to the nearest integer, a tie to the even one. -/
def roundHalfEven (a b : Nat) : Nat :=
  let quotient := a / b
  let twice := 2 * (a % b)
  if twice < b then quotient
  else if b < twice then quotient + 1
  else quotient + quotient % 2

/-- The exponent at which `num / den` has a 53-bit significand, or the least one there is. -/
def scaleOf (num den : Nat) : Int :=
  let guess : Int := (Nat.log2 num : Int) - (Nat.log2 den : Int) - 52
  let small : Bool :=
    if 0 ≤ guess then decide (num < den * leadingBit * twoPow guess.toNat)
    else decide (num * twoPow (-guess).toNat < den * leadingBit)
  max (if small then guess - 1 else guess) (-1074)

/-- The double nearest to `num / den`, a tie to the even significand. -/
def ofRatio (negative : Bool) (num den : Nat) : Double :=
  if num = 0 then ofMagnitude negative 0
  else
    let scale := scaleOf num den
    let significand :=
      if 0 ≤ scale then roundHalfEven num (den * twoPow scale.toNat)
      else roundHalfEven (num * twoPow (-scale).toNat) den
    ofMagnitude negative (min ((scale + 1074).toNat * leadingBit + significand) infinityBits)

/-- The double nearest to an integer. -/
def ofInt (i : Int) : Double := ofRatio (decide (i < 0)) i.natAbs 1

/-- The correctly rounded quotient by a positive integer. -/
def divNat (x : Double) (divisor : Nat) : Double :=
  if x.isFinite then
    if 0 ≤ x.exponent then
      ofRatio x.isNegative (x.significand * twoPow x.exponent.toNat) divisor
    else
      ofRatio x.isNegative x.significand (divisor * twoPow (-x.exponent).toNat)
  else x

/-! ## Order -/

/-- A key that orders all numbers but NaN; the two zeros have the same key. -/
def rank (x : Double) : Int := if x.isNegative then -(x.magnitude : Int) else x.magnitude

/-- Numeric order; false when NaN takes part. -/
def lt (x y : Double) : Bool := !x.isNaN && !y.isNaN && decide (x.rank < y.rank)

/-- Numeric equality; NaN is not equal to itself. -/
def same (x y : Double) : Bool := !x.isNaN && !y.isNaN && decide (x.rank = y.rank)

def isZero (x : Double) : Bool := decide (x.magnitude = 0)

/-! ## Exact integers -/

/-- The value of a finite number without a fractional part. -/
def toInt? (x : Double) : Option Int :=
  if !x.isFinite then none
  else
    let signed (n : Nat) : Int := if x.isNegative then -(n : Int) else n
    if 0 ≤ x.exponent then some (signed (x.significand * twoPow x.exponent.toNat))
    else
      let unit := twoPow (-x.exponent).toNat
      if x.significand % unit = 0 then some (signed (x.significand / unit)) else none

example : ofInt 1 = ⟨0x3FF0000000000000⟩ := by decide
example : ofInt (-3) = ⟨0xC008000000000000⟩ := by decide
example : ofRatio false 1 10 = ⟨0x3FB999999999999A⟩ := by decide
example : ofInt 9007199254740993 = ⟨0x4340000000000000⟩ := by decide
example : toInt? ⟨0x4008000000000000⟩ = some 3 := by decide

end Double

end RestStore
