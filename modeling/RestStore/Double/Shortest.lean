import RestStore.Double.Basic
import RestStore.Text.Digits

/-!
# Shortest decimals

The decimal with the fewest digits that reads back to a given double, and of those the nearest.

The reals that round to `m · 2 ^ e` form an interval around it, whose ends belong to it exactly
when `m` is even; below a power of two the gap is half as wide. A grid `10 ^ p · ℤ` has a point in
that interval exactly when one of the two grid points beside the number lies in it, so the search
tries the two neighbours on coarser grids first, and the first hit has the fewest digits. When both
neighbours lie in the interval the nearer one is taken, and an exact tie is decided by `Tie`.
-/

set_option autoImplicit false

namespace RestStore

/-- How an exact tie between two decimals of the same length is decided. -/
inductive Tie where
  /-- The one with the even last digit. -/
  | even
  /-- The larger one. -/
  | up
deriving DecidableEq, Repr

/-- A positive decimal `digits · 10 ^ scale`. -/
structure Decimal where
  digits : Nat
  scale : Int
deriving DecidableEq, Repr

namespace Double

/-- Numerator and denominator of `n · 2 ^ e`. -/
def dyadicRatio (n : Nat) (e : Int) : Nat × Nat :=
  if 0 ≤ e then (n * twoPow e.toNat, 1) else (n, twoPow (-e).toNat)

/-- The interval of reals that round to a positive double, over a common denominator. -/
structure Rounding where
  low : Nat
  value : Nat
  high : Nat
  denominator : Nat
  closed : Bool

/-- The rounding interval of a positive finite double: the number is `4 m` quarters of the unit in
the last place, its ends lie two quarters away, or one below a power of two. -/
def rounding (x : Double) : Rounding :=
  let m := x.significand
  let e := x.exponent - 2
  let gap := if m = leadingBit ∧ -1074 < x.exponent then 1 else 2
  ⟨(dyadicRatio (4 * m - gap) e).1, (dyadicRatio (4 * m) e).1, (dyadicRatio (4 * m + 2) e).1,
    (dyadicRatio 1 e).2, m % 2 = 0⟩

/-- Whether `num / den` lies in the interval. -/
def Rounding.holds (r : Rounding) (num den : Nat) : Bool :=
  let left := r.low * den
  let right := r.high * den
  let point := num * r.denominator
  if r.closed then decide (left ≤ point ∧ point ≤ right)
  else decide (left < point ∧ point < right)

/-- The best point of the grid `10 ^ p · ℤ` in the interval. -/
def Rounding.onGrid? (r : Rounding) (tie : Tie) (p : Int) : Option Decimal :=
  let unitNum := if 0 ≤ p then tenPow p.toNat else 1
  let unitDen := if 0 ≤ p then 1 else tenPow (-p).toNat
  let below := r.value * unitDen / (r.denominator * unitNum)
  let above := below + 1
  let hasBelow := 0 < below && r.holds (below * unitNum) unitDen
  let hasAbove := r.holds (above * unitNum) unitDen
  let twiceBelow := 2 * (r.value * unitDen % (r.denominator * unitNum))
  let chosen :=
    if !hasBelow then above
    else if !hasAbove then below
    else if twiceBelow < r.denominator * unitNum then below
    else if r.denominator * unitNum < twiceBelow then above
    else match tie with
      | .up => above
      | .even => if below % 2 = 0 then below else above
  if hasBelow || hasAbove then some ⟨chosen, p⟩ else none

/-- The exponent of a power of ten above the number. -/
def decimalCeiling (x : Double) : Int :=
  let top : Int := (Nat.log2 x.significand : Int) + x.exponent + 1
  if 0 ≤ top then top * 31 / 100 + 1 else top * 30 / 100 + 1

/-- The shortest decimal that reads back to the magnitude of a finite nonzero double. Forty grids
reach from above the number to below its last digit, where every double is found. -/
def shortest (tie : Tie) (x : Double) : Decimal :=
  let r := x.rounding
  let top := x.decimalCeiling
  ((List.range 40).findSome? fun (i : Nat) => r.onGrid? tie (top - i)).getD ⟨x.significand, 0⟩

end Double

end RestStore
