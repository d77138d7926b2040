import RestStore.Double.Decimal
import RestStore.Rest.Basic

/-!
# Reading numbers

The number that a JSON token spells. A token of digits alone that is a signed or an unsigned 64-bit
integer is an integer; every other token is the double nearest to it, and so is the negative zero.
-/

set_option autoImplicit false

namespace RestStore.Number

/-- Whether an integer is a signed or an unsigned 64-bit one. -/
def fitsToken (i : Int) : Bool := decide (-9223372036854775808 ≤ i ∧ i ≤ 18446744073709551615)

/-- The number that a token spells. -/
def ofChars? (cs : List Char) : Option Number :=
  match integerOfChars? cs with
  | some i =>
    if i = 0 ∧ cs.head? = some '-' then some (.double (.ofMagnitude true 0))
    else if fitsToken i then some (.integer i)
    else some (.double (.ofInt i))
  | none => (Numeral.ofChars? cs).map fun numeral => .double numeral.toDouble

end RestStore.Number
