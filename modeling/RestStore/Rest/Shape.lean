import RestStore.Atom.Bytes
import RestStore.Atom.Date
import RestStore.Atom.File
import RestStore.Atom.Pointer
import RestStore.Atom.Polygon

/-!
# The shape of a REST value

One reading of a value decides what it is: a plain scalar, a tagged object of a known kind, a
regular expression, an array or a plain object. An object with a tag must be a well-formed envelope
of a known kind, so every shape carries a checked payload.
-/

set_option autoImplicit false

namespace RestStore

/-- The key of a bare regular expression. -/
def regexKey : String := "$regex"

/-- What a REST value is. -/
inductive Shape where
  | null
  | bool (flag : Bool)
  | number (value : Number)
  | string (text : String)
  | pointer (pointer : Pointer)
  | relation (relation : Relation)
  | date (instant : Instant)
  | bytes (bytes : Bytes)
  | geoPoint (point : GeoPoint)
  | polygon (polygon : Polygon)
  | file (file : File)
  | regex (pattern : String)
  | array (items : List Rest)
  | object (members : List (String × Rest))

namespace Shape

/-- The shape of an object with a tag. -/
def ofEnvelope (tag : Rest) (members : Fields Rest) : Except Failure Shape :=
  if tag.text? = some Pointer.kind then (Pointer.ofEnvelope members).map pointer
  else if tag.text? = some Relation.kind then (Relation.ofEnvelope members).map relation
  else if tag.text? = some Instant.kind then (Instant.ofEnvelope members).map date
  else if tag.text? = some Bytes.kind then (Bytes.ofEnvelope members).map bytes
  else if tag.text? = some GeoPoint.kind then (GeoPoint.ofEnvelope members).map geoPoint
  else if tag.text? = some Polygon.kind then (Polygon.ofEnvelope members).map polygon
  else if tag.text? = some File.kind then (File.ofEnvelope members).map file
  else .error (.shape (.unknownTag tag))

/-- The shape of an object. -/
def ofMembers (members : Fields Rest) : Except Failure Shape :=
  match Fields.get? members typeKey with
  | some tag => ofEnvelope tag members
  | none =>
    match Fields.get? members regexKey with
    | some (.string pattern) => .ok (regex pattern)
    | some operand => .error (.shape (.badRegex operand))
    | none => .ok (object members)

end Shape

/-- The shape of a value. -/
def Rest.shape : Rest → Except Failure Shape
  | null => .ok .null
  | bool flag => .ok (.bool flag)
  | number value => .ok (.number value)
  | string text => .ok (.string text)
  | array items => .ok (.array items)
  | object members => Shape.ofMembers members

end RestStore
