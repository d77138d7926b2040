import RestStore.Failure
import RestStore.Native.Basic
import RestStore.Text.Blank

/-!
# Integer object ids

Classes with integer ids take an id as a JSON integer or as a text that holds one, perhaps with
white space around it. The id must be a signed 64-bit integer.
-/

set_option autoImplicit false

namespace RestStore

/-- The integer that a value holds. -/
def integerOfRest? : Rest → Option Int
  | .number (.integer i) => if fitsInt64 i then some i else none
  | .string text => int64OfChars? (trim text.toList)
  | _ => none

/-- The stored integer id of a value. -/
def integerId (origin : Origin) (value : Rest) : Except Failure Native :=
  match integerOfRest? value with
  | some i => .ok (.ofInt i)
  | none => .error (.notIntegerId origin value)

end RestStore
