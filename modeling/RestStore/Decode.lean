import RestStore.Permission
import RestStore.Rest.OfNative
import RestStore.Target

/-!
# Reading stored documents

The REST object of a stored document. Every column says where its value goes: to a field, among the
login data, or nowhere. The permission lists come first, then the columns in their order, and then
a placeholder for each relation of the schema that is not there yet.

* `Decode.placement` is where one column goes.
* `Decode.place` writes it into the object.
* `Decode.object` is the object of a document.
-/

set_option autoImplicit false

namespace RestStore.Decode

/-- Where the value of a column goes. -/
inductive Placement where
  | nowhere
  | field (name : String) (value : Rest)
  | loginData (provider : String) (value : Rest)
deriving Repr

/-- The class that has login data. -/
def userClass : String := "_User"

/-- The field that holds login data by provider. -/
def loginDataKey : String := "authData"

/-- Internal columns that are returned under their own names. -/
def internalColumns : List String :=
  ["_hashed_password", "_email_verify_token", "_perishable_token",
    "_perishable_token_expires_at", "_password_changed_at", "_tombstone",
    "_email_verify_token_expires_at", "_account_lockout_expires_at", "_failed_login_count",
    "_password_history"]

/-- The guard for the values of a document. -/
def guard (target : Target) : Nesting := .top target.config.maxDepth .decode

/-- A value below the top level. -/
def nested (target : Target) (native : Native) : Except Failure Rest :=
  Rest.ofNative (guard target) native

/-! ## Single columns -/

/-- The text of an object id. -/
def idText : Native → Except Failure String
  | .string id => .ok id
  | .objectId bytes => .ok (hexText bytes)
  | .int32 id => .ok (toString id.toInt)
  | .int64 id => .ok (toString id.toInt)
  | .double id => .ok id.plain
  | other => .error (.decode (.badId other.elementType))

/-- A stored instant, or the text of one. -/
def instant (column : String) : Native → Except Failure Instant
  | .date millis => .ok (Instant.ofStored millis)
  | .string text => Instant.ofText text
  | _ => .error (.decode (.badDate column))

/-- The value of an internal column; an instant is returned as its text. -/
def internalValue (target : Target) : Native → Except Failure Rest
  | .date millis => .ok (.string (Iso.render (Instant.ofStored millis)))
  | native => nested target native

/-- The pointer in a column, if the schema declares the field as a pointer. -/
def pointer? (target : Target) (field : String) (native : Native) :
    Except Failure (Option Pointer) :=
  match target.schema.field? field, native with
  | none, _ | some _, .null => .ok none
  | some declared, native =>
    if declared.type ≠ .pointer then .ok none
    else
      match Pointer.ofNative? native with
      | .error failure => .error failure
      | .ok none => .error (.decode (.badPointerColumn field))
      | .ok (some pointer) =>
        if pointer.className = declared.targetOrEmpty then .ok (some pointer)
        else .error (.decode .wrongTarget)

/-- The envelope of a value whose declared type is stored in a form of its own. -/
def typed? (type : Option FieldType) (native : Native) : Except Failure (Option Rest) :=
  match type with
  | some .file => .ok ((File.ofNative? native).map File.toEnvelope)
  | some .geoPoint => .ok ((GeoPoint.ofNative? native).map GeoPoint.toEnvelope)
  | some .polygon =>
    (Polygon.ofNative? native).map fun polygon => polygon.map Polygon.toEnvelope
  | some .bytes => .ok ((Bytes.ofNative? native).map Bytes.toEnvelope)
  | _ => .ok none

/-- The value of an ordinary column. -/
def plainValue (target : Target) (column : String) (native : Native) : Except Failure Rest :=
  match typed? ((target.schema.field? column).map (·.type)) native with
  | .error failure => .error failure
  | .ok (some value) => .ok value
  | .ok none => nested target native

/-- The field of a column whose name does not say what it holds. -/
def plainPlacement (target : Target) (column : String) (native : Native) :
    Except Failure Placement :=
  if hasStart "_" column && column ≠ typeKey then .error (.decode (.unknownColumn column))
  else (plainValue target column native).map (.field column)

/-- The provider whose login data a column holds; only users have login data. -/
def loginProvider? (target : Target) (column : String) : Option String :=
  if target.className = userClass then authColumnProvider? column else none

/-- Where a column without a fixed field goes. -/
def fieldPlacement (target : Target) (column : String) (native : Native) :
    Except Failure Placement :=
  match loginProvider? target column with
  | some provider => (nested target native).map (.loginData provider)
  | none =>
    match dropStart? pointerStart column with
    | some field =>
      (pointer? target field native).map fun pointer =>
        match pointer with
        | some pointer => .field field pointer.toEnvelope
        | none => .nowhere
    | none => plainPlacement target column native

/-- The field in which a column of a fixed instant is returned as text. -/
def timeField? (column : String) : Option String :=
  if column = "createdAt" ∨ column = "_created_at" then some "createdAt"
  else if column = "updatedAt" ∨ column = "_updated_at" then some "updatedAt"
  else if column = "lastUsed" ∨ column = "_last_used" then some "lastUsed"
  else none

/-- Where a column goes. -/
def placement (target : Target) (column : String) (native : Native) : Except Failure Placement :=
  if column = readersColumn ∨ column = writersColumn ∨ column = legacyAclColumn then .ok .nowhere
  else if column = idColumn then
    (idText native).map fun id => .field objectIdKey (.string id)
  else if column = "_session_token" then (nested target native).map (.field "sessionToken")
  else if column = "expiresAt" ∨ column = "_expiresAt" then
    (instant column native).map fun instant => .field "expiresAt" instant.toEnvelope
  else if column = "timesUsed" ∨ column = "times_used" then
    (nested target native).map (.field "timesUsed")
  else if column = loginDataKey ∧ target.className = userClass then .ok .nowhere
  else if column ∈ internalColumns then (internalValue target native).map (.field column)
  else
    match timeField? column with
    | some field =>
      (instant column native).map fun instant => .field field (.string (Iso.render instant))
    | none => fieldPlacement target column native

/-! ## Whole documents -/

/-- Writes the value of a column into an object. -/
def place (object : Fields Rest) : Placement → Fields Rest
  | .nowhere => object
  | .field name value => Fields.insert object name value
  | .loginData provider value =>
    match Fields.get? object loginDataKey with
    | none => Fields.insert object loginDataKey (.object [(provider, value)])
    | some (.object members) =>
      Fields.insert object loginDataKey (.object (Fields.insert members provider value))
    | some _ => object

/-- Where the columns of a document go, in order. -/
def placements (target : Target) : Document → Except Failure (List Placement)
  | [] => .ok []
  | (column, native) :: rest =>
    match placement target column native with
    | .error failure => .error failure
    | .ok placement => (placements target rest).map (placement :: ·)

/-- A permission list; a missing one is empty when the other is there. -/
def permissionList (target : Target) (document : Document) (column : String) :
    Except Failure Rest :=
  match Fields.get? document column with
  | none | some .null => .ok (.array [])
  | some ids => nested target ids

/-- The permission lists of a document that has one of them. -/
def permissionLists (target : Target) (document : Document) : Except Failure (Fields Rest) :=
  if Fields.contains document readersColumn || Fields.contains document writersColumn then
    match permissionList target document readersColumn with
    | .error failure => .error failure
    | .ok readers =>
      (permissionList target document writersColumn).map fun writers =>
        [(readersColumn, readers), (writersColumn, writers)]
  else .ok []

/-- Adds a placeholder for a relation, unless its name is taken. -/
def addRelation (object : Fields Rest) (entry : String × FieldSchema) : Fields Rest :=
  if Fields.contains object entry.1 then object
  else Fields.insert object entry.1 (Relation.toEnvelope ⟨entry.2.targetOrEmpty⟩)

/-- The object of a stored document. -/
def object (target : Target) (document : Document) : Except Failure (Fields Rest) :=
  match permissionLists target document with
  | .error failure => .error failure
  | .ok lists =>
    (placements target document).map fun placements =>
      target.schema.relations.foldl addRelation (placements.foldl place lists)

end RestStore.Decode
