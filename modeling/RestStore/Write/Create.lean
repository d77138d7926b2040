import RestStore.Native.Nested
import RestStore.Permission
import RestStore.Target

/-!
# Creating objects

The document that is stored for a new object: its permission columns, and then a column for each
field in the order of the request. Relations are stored elsewhere and a deleted field not at all.

* `Create.column?` is the column of a single field.
* `Create.document` is the document of an object.
-/

set_option autoImplicit false

namespace RestStore

/-- Whether a field holds a relation, by the tag of its value or by its declaration. -/
def Target.isRelation (target : Target) (key : String) (value : Rest) : Bool :=
  value.hasTag Relation.kind || target.schema.fieldIs key .relation

namespace Create

/-- Internal fields that are stored as given. -/
def verbatimKeys : List String :=
  ["_failed_login_count", "_email_verify_token", "_hashed_password", "_perishable_token"]

/-- The fields that hold permissions. -/
def isPermissionKey (key : String) : Bool :=
  key == aclKey || key == readersColumn || key == writersColumn

/-- The guard for the values of an object. -/
def guard (target : Target) : Nesting := .top target.config.maxDepth .object

/-- A value that is an instant: a text is read as one, another value must be an atom. -/
def timeValue (target : Target) (key : String) (value : Rest) : Except Failure Native :=
  match value with
  | .string text => (Instant.ofText text).map Instant.toNative
  | value =>
    match Native.columnAtom? (target.schema.field? key) value with
    | .error failure => .error failure
    | .ok (some native) => .ok native
    | .ok none => .error (.object (.badDate key value))

/-- The column of a reserved or internal field that holds an instant. -/
def timeColumn? (key : String) : Option String :=
  match Column.reserved? key with
  | some column => if column.role = .time then some column.name else none
  | none => if key ∈ internalTimes then some key else none

/-- The column of a field whose value is stored as given. -/
def verbatimColumn? (key : String) : Option String :=
  if key = objectIdKey then some idColumn
  else if key ∈ verbatimKeys ∨ (authColumnProvider? key).isSome then some key
  else if key = "sessionToken" then some "_session_token"
  else none

/-- Whether the value goes to the column of a pointer. -/
def writesPointer (target : Target) (key : String) (value : Rest) : Bool :=
  value.isTruthy && !value.hasTag Bytes.kind &&
    (target.schema.fieldIs key .pointer || value.hasTag Pointer.kind)

/-- The column of an ordinary field. -/
def plainColumn (target : Target) (key : String) (value : Rest) : String :=
  if writesPointer target key value then pointerStart ++ key else key

/-- The stored value of an ordinary field, none for a deletion. -/
def plainValue? (target : Target) (key : String) (value : Rest) :
    Except Failure (Option Native) :=
  match Native.columnAtom? (target.schema.field? key) value with
  | .error failure => .error failure
  | .ok (some native) => .ok (some native)
  | .ok none => Native.nested (guard target) value

/-- The column that a field is stored in. -/
def column? (target : Target) (key : String) (value : Rest) :
    Except Failure (Option (String × Native)) :=
  match verbatimColumn? key with
  | some column => (Native.verbatim (guard target) value).map fun native => some (column, native)
  | none =>
    match timeColumn? key with
    | some column => (timeValue target key value).map fun native => some (column, native)
    | none =>
      if (authIdProvider? key).isSome then .error (.object (.queryOnly key))
      else
        (plainValue? target key value).map fun native =>
          native.map fun native => (plainColumn target key value, native)

/-- The columns of the fields of an object, in order. -/
def columns (target : Target) : Fields Rest → Except Failure Document
  | [] => .ok []
  | (key, value) :: rest =>
    if isPermissionKey key || target.isRelation key value then columns target rest
    else
      match column? target key value with
      | .error failure => .error failure
      | .ok column => (columns target rest).map (column.toList ++ ·)

/-- The permission columns of an object. -/
def permissionColumns (members : Fields Rest) : Except Failure Document :=
  (PermissionSet.ofMembers? members).map fun permissions =>
    match permissions with
    | none => []
    | some set => set.columns

/-- The document that stores a new object. -/
def document (target : Target) (members : Fields Rest) : Except Failure Document :=
  match permissionColumns members with
  | .error failure => .error failure
  | .ok permissions => (columns target members).map (Fields.insertAll permissions)

end Create

end RestStore
