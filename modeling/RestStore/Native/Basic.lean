import RestStore.Double.Basic
import RestStore.Fields
import RestStore.Rest.Basic
import RestStore.Text.Digits

/-!
# Native values

The values that the document store holds: typed numbers, instants, binary data and ordered
documents.

* `Native.ofNumber` stores an integer in the smallest type that holds it, and as a double when
  none does; `Native.number?` reads a number back.
* `Native.elementType` is the store's name for the type of a value.
-/

set_option autoImplicit false

namespace RestStore

/-- Store types that have no REST form. -/
inductive OpaqueKind where
  | minKey
  | maxKey
  | undefined
  | symbol
  | javaScriptCode
  | javaScriptCodeWithScope
  | timestamp
  | decimal128
deriving DecidableEq, Repr

/-- The store's name for such a type. -/
def OpaqueKind.name : OpaqueKind → String
  | minKey => "MinKey"
  | maxKey => "MaxKey"
  | undefined => "Undefined"
  | symbol => "Symbol"
  | javaScriptCode => "JavaScriptCode"
  | javaScriptCodeWithScope => "JavaScriptCodeWithScope"
  | timestamp => "Timestamp"
  | decimal128 => "Decimal128"

/-- All of them. -/
def OpaqueKind.all : List OpaqueKind :=
  [minKey, maxKey, undefined, symbol, javaScriptCode, javaScriptCodeWithScope, timestamp,
    decimal128]

/-- A stored value. Dates count milliseconds since 1970, an object id is a byte string. -/
inductive Native where
  | null
  | bool (flag : Bool)
  | string (text : String)
  | int32 (value : Int32)
  | int64 (value : Int64)
  | double (value : Double)
  | date (millis : Int64)
  | binary (bytes : List UInt8) (subtype : UInt8)
  | objectId (bytes : List UInt8)
  | regex (pattern options : String)
  | array (items : List Native)
  | document (columns : List (String × Native))
  | opaqueValue (kind : OpaqueKind)
deriving Repr, Inhabited

/-- A stored document. -/
abbrev Document := Fields Native

namespace Native

/-- The store's name for the type of a value. -/
def elementType : Native → String
  | null => "Null"
  | bool _ => "Boolean"
  | string _ => "String"
  | int32 _ => "Int32"
  | int64 _ => "Int64"
  | double _ => "Double"
  | date _ => "DateTime"
  | binary _ _ => "Binary"
  | objectId _ => "ObjectId"
  | regex _ _ => "RegularExpression"
  | array _ => "Array"
  | document _ => "EmbeddedDocument"
  | opaqueValue kind => kind.name

/-- An integer in the smallest type that holds it; beyond 64 bits the nearest double. -/
def ofInt (i : Int) : Native :=
  if fitsInt32 i then int32 (Int32.ofInt i)
  else if fitsInt64 i then int64 (Int64.ofInt i)
  else double (.ofInt i)

/-- The stored form of a number. -/
def ofNumber : Number → Native
  | .integer i => ofInt i
  | .double d => double d

/-- The number that a value stores; a double that is not finite has no REST form. -/
def number? : Native → Option Number
  | int32 i => some (.integer i.toInt)
  | int64 i => some (.integer i.toInt)
  | double d => if d.isFinite then some (.double d) else none
  | _ => none

/-- The text of a stored string. -/
def text? : Native → Option String
  | string text => some text
  | _ => none

theorem number?_ofNumber_integer {i : Int} (h : fitsInt64 i = true) :
    number? (ofNumber (.integer i)) = some (.integer i) := by
  have bounds : -9223372036854775808 ≤ i ∧ i ≤ 9223372036854775807 := by simpa [fitsInt64] using h
  by_cases small : fitsInt32 i = true
  · have b32 : -2147483648 ≤ i ∧ i ≤ 2147483647 := by simpa [fitsInt32] using small
    simp only [ofNumber, ofInt, small, if_true, number?]
    rw [Int32.toInt_ofInt_of_le (by omega) (by omega)]
  · simp only [ofNumber, ofInt, small, h, if_true, number?, Bool.false_eq_true, if_false]
    rw [Int64.toInt_ofInt_of_le (by omega) (by omega)]

end Native

end RestStore
