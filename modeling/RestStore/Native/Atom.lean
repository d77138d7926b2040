import RestStore.Native.Verbatim
import RestStore.Rest.Shape
import RestStore.Schema

/-!
# Stored atoms

The stored form of a single value, where it has one. Under a key of its own a pointer is stored as
its text and every other tagged value in the native form of its kind. Inside an array or object a
pointer keeps its envelope, dates, bytes and regular expressions become native, and the remaining
envelopes have no atomic form.
-/

set_option autoImplicit false

namespace RestStore.Native

/-- The text of a string: on a pointer field it is the id of an object of the target class. -/
def ofText (field : Option FieldSchema) (text : String) : Native :=
  match field with
  | some field =>
    if field.type = .pointer then .string (field.targetOrEmpty ++ "$" ++ text) else .string text
  | none => .string text

/-- The stored form under a key of its own. -/
def ofColumnShape? (field : Option FieldSchema) : Shape → Except Failure (Option Native)
  | .null => .ok (some .null)
  | .bool flag => .ok (some (.bool flag))
  | .number number => .ok (some (ofNumber number))
  | .string text => .ok (some (ofText field text))
  | .pointer pointer => .ok (some pointer.toNative)
  | .date instant => .ok (some instant.toNative)
  | .bytes bytes => bytes.toNative.map some
  | .geoPoint point => .ok (some point.toNative)
  | .polygon polygon => polygon.toNative.map some
  | .file file => .ok (some file.toNative)
  | .relation _ | .regex _ | .array _ | .object _ => .ok none

/-- The stored form of a value under a key of its own, if it is an atom there. -/
def columnAtom? (field : Option FieldSchema) (value : Rest) : Except Failure (Option Native) :=
  match value.shape with
  | .error failure => .error failure
  | .ok shape => ofColumnShape? field shape

/-- The stored form inside an array or object. -/
def ofNestedShape? : Shape → Except Failure (Option Native)
  | .null => .ok (some .null)
  | .bool flag => .ok (some (.bool flag))
  | .number number => .ok (some (ofNumber number))
  | .string text => .ok (some (.string text))
  | .pointer pointer => .ok (some pointer.nested)
  | .date instant => .ok (some instant.toNative)
  | .bytes bytes => bytes.toNative.map some
  | .regex pattern => .ok (some (.regex pattern ""))
  | .relation _ | .geoPoint _ | .polygon _ | .file _ | .array _ | .object _ => .ok none

/-- The stored form of a value inside an array or object, if it is an atom there. -/
def nestedAtom? (value : Rest) : Except Failure (Option Native) :=
  match value.shape with
  | .error failure => .error failure
  | .ok shape => ofNestedShape? shape

/-- An element of an operand list: an atom, or else the value as given. -/
def element (guard : Nesting) (value : Rest) : Except Failure Native :=
  match nestedAtom? value with
  | .error failure => .error failure
  | .ok (some native) => .ok native
  | .ok none => verbatim guard value

/-- The elements of an operand list. -/
def elements (guard : Nesting) : List Rest → Except Failure (List Native)
  | [] => .ok []
  | item :: rest =>
    match element guard item with
    | .error failure => .error failure
    | .ok native => (elements guard rest).map (native :: ·)

end RestStore.Native
