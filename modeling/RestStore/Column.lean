import RestStore.Atom.Pointer
import RestStore.Schema
import RestStore.Text.Affix

/-!
# Columns

Under which name a field is stored. A few field names are reserved and have columns of their own,
pointer fields have columns that begin with `_p_`, and the login data of each provider has a column
of its own. The role of a column says how its value is handled.

* `Column.forQuery` goes by the schema alone, `Column.forUpdate` also by the value.
* `authIdProvider?` and `authColumnProvider?` recognise the names of login data.
-/

set_option autoImplicit false

namespace RestStore

/-- How the value of a column is handled. -/
inductive Role where
  | plain
  | objectId
  | time
  | permission
deriving DecidableEq, Repr

/-- The word for a role. -/
def Role.word : Role → String
  | plain => "plain"
  | objectId => "object_id"
  | time => "time"
  | permission => "permission"

/-- A column of the store. -/
structure Column where
  name : String
  role : Role
deriving DecidableEq, Repr

/-- The name of the object id among fields. -/
def objectIdKey : String := "objectId"

/-- The name of the object id among columns. -/
def idColumn : String := "_id"

/-- How the columns of pointers begin. -/
def pointerStart : String := "_p_"

/-- How the columns of login data begin. -/
def authStart : String := "_auth_data_"

/-- The column of readers. -/
def readersColumn : String := "_rperm"

/-- The column of writers. -/
def writersColumn : String := "_wperm"

/-- Internal fields that hold instants and are stored under their own names. -/
def internalTimes : List String :=
  ["expiresAt", "_email_verify_token_expires_at", "_account_lockout_expires_at",
    "_perishable_token_expires_at", "_password_changed_at"]

namespace Column

/-- The reserved field names with their columns. -/
def reserved : Fields Column :=
  [(objectIdKey, ⟨idColumn, .objectId⟩), ("createdAt", ⟨"_created_at", .time⟩),
    ("updatedAt", ⟨"_updated_at", .time⟩), ("sessionToken", ⟨"_session_token", .plain⟩),
    ("lastUsed", ⟨"_last_used", .time⟩), ("timesUsed", ⟨"times_used", .plain⟩)]

/-- The column of a reserved field name. -/
def reserved? (key : String) : Option Column := Fields.get? reserved key

/-- The column that a query on a field looks at. -/
def forQuery (schema : Schema) (key : String) : String :=
  match reserved? key with
  | some column => column.name
  | none => if schema.fieldIs key .pointer then pointerStart ++ key else key

/-- Whether a text has a point in it, as the paths into stored objects have. -/
def isPath (key : String) : Bool := key.toList.contains '.'

/-- Whether an update writes a pointer: the schema decides, and for a field that it does not
declare, the tag of the value. -/
def writesPointer (schema : Schema) (key : String) (value : Rest) : Bool :=
  match schema.field? key with
  | some field => field.type == .pointer
  | none => !isPath key && value.hasTag Pointer.kind

/-- The column that an update of a field writes. -/
def forUpdate (schema : Schema) (key : String) (value : Rest) : Column :=
  match reserved? key with
  | some column => column
  | none =>
    if key ∈ internalTimes then ⟨key, .time⟩
    else if key = readersColumn ∨ key = writersColumn then ⟨key, .permission⟩
    else if writesPointer schema key value then ⟨pointerStart ++ key, .plain⟩
    else ⟨key, .plain⟩

end Column

/-- Whether a text can name a login provider: ASCII letters, digits and underscores. -/
def isProviderName (name : String) : Bool :=
  !name.isEmpty && name.toList.all fun c => c.isAlphanum || c = '_'

/-- The provider in the query key `authData.<provider>.id`. -/
def authIdProvider? (key : String) : Option String :=
  (((dropStart? "authData." key).bind (dropEnd? ".id"))).filter isProviderName

/-- The provider in the name of a column of login data. -/
def authColumnProvider? (key : String) : Option String :=
  (dropStart? authStart key).filter isProviderName

end RestStore
