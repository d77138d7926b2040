import RestStore.Double.Basic
import RestStore.Fields

/-!
# REST values

The values that clients send and receive: JSON whose object members keep their order and whose
numbers remember whether they are integers.

* `Number` is an integer or a double; `Number.toDouble` is its value as a double.
* `Rest.get?` looks up a member and finds none in a value that is not an object.
* `Rest.isTruthy` is the reading of a value as an optional flag.
-/

set_option autoImplicit false

namespace RestStore

/-- A JSON number: an integer, or a double. -/
inductive Number where
  | integer (value : Int)
  | double (value : Double)
deriving DecidableEq, Repr

/-- The number as a double, correctly rounded. -/
def Number.toDouble : Number → Double
  | integer value => .ofInt value
  | double value => value

/-- A REST value. -/
inductive Rest where
  | null
  | bool (flag : Bool)
  | number (value : Number)
  | string (text : String)
  | array (items : List Rest)
  | object (members : List (String × Rest))
deriving Repr, Inhabited

namespace Rest

/-- The member of an object. -/
def get? (value : Rest) (key : String) : Option Rest :=
  match value with
  | object members => Fields.get? members key
  | _ => none

/-- The text of a string. -/
def text? : Rest → Option String
  | string text => some text
  | _ => none

/-- Whether a value counts as given: null, false, zero, NaN and the empty text do not. -/
def isTruthy : Rest → Bool
  | null => false
  | bool flag => flag
  | number value => !value.toDouble.isZero && !value.toDouble.isNaN
  | string text => !text.isEmpty
  | array _ | object _ => true

end Rest

/-- The key under which a tagged object names its kind. -/
def typeKey : String := "__type"

/-- Whether an object is tagged with a kind; the rest of it is not looked at. -/
def Rest.hasTag (value : Rest) (kind : String) : Bool :=
  (value.get? typeKey).bind Rest.text? == some kind

/-- The tagged object of a kind. -/
def Rest.tagged (kind : String) (members : List (String × Rest)) : Rest :=
  .object ((typeKey, .string kind) :: members)

end RestStore
