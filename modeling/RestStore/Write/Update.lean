import RestStore.NumericId
import RestStore.Write.Create

/-!
# Updating objects

The operator document that is applied to a stored object. Every field contributes one operator with
one argument, and the contributions are collected by operator: the operators stand in the order of
their first use, the fields of each in the order of the request, permissions first.

* `Update.field?` is the contribution of a single field.
* `Update.collect` gathers contributions, `Update.document` is the operator document of a request.
-/

set_option autoImplicit false

namespace RestStore.Update

/-- What one field contributes: an operator, a column and an argument. -/
structure Contribution where
  operator : UpdateOperator
  column : String
  argument : Native
deriving Repr

/-- The guard for the values of an update. -/
def guard (target : Target) : Nesting := .top target.config.maxDepth .update

/-- Sets a column to a value. -/
def setColumn (column : String) (native : Native) : Contribution := ⟨.set, column, native⟩

/-- What an object or array that is no atom does to its column. -/
def compound? (target : Target) (column : String) (value : Rest) :
    Except Failure (Option Contribution) :=
  match value with
  | .object members =>
    if Fields.contains members operationKey then
      match Operation.ofMembers members with
      | .error failure => .error failure
      | .ok operation =>
        (operation.update (guard target)).map fun update =>
          some ⟨update.operator, column, update.argument⟩
    else (Native.nested (guard target) value).map fun native => native.map (setColumn column)
  | value => (Native.nested (guard target) value).map fun native => native.map (setColumn column)

/-- What an ordinary value does to its column. A path into a stored object keeps the REST form. -/
def value? (target : Target) (key column : String) (value : Rest) :
    Except Failure (Option Contribution) :=
  match Native.columnAtom? (target.schema.field? key) value with
  | .error failure => .error failure
  | .ok (some native) =>
    if Column.isPath key then
      (Native.verbatim (guard target) value).map fun native => some (setColumn column native)
    else .ok (some (setColumn column native))
  | .ok none => compound? target column value

/-- The contribution of a field; permission lists contribute elsewhere. -/
def field? (target : Target) (key : String) (value : Rest) :
    Except Failure (Option Contribution) :=
  let column := Column.forUpdate target.schema key value
  match column.role, value with
  | .permission, _ => .ok none
  | .time, .string text =>
    (Instant.ofText text).map fun instant => some (setColumn column.name instant.toNative)
  | .objectId, value =>
    if target.hasNumericIds then
      (integerId .update value).map fun native => some (setColumn column.name native)
    else value? target key column.name value
  | _, value => value? target key column.name value

/-- The contributions of the fields of a request, in order. -/
def fields (target : Target) : Fields Rest → Except Failure (List Contribution)
  | [] => .ok []
  | (key, value) :: rest =>
    if key == aclKey || target.isRelation key value then fields target rest
    else
      match field? target key value with
      | .error failure => .error failure
      | .ok contribution => (fields target rest).map (contribution.toList ++ ·)

/-- All contributions of a request: its permission columns, and then its fields. -/
def contributions (target : Target) (members : Fields Rest) :
    Except Failure (List Contribution) :=
  match Create.permissionColumns members with
  | .error failure => .error failure
  | .ok columns =>
    (fields target members).map fun rest =>
      columns.map (fun (column, native) => setColumn column native) ++ rest

/-- Adds a contribution to the document of its operator. -/
def place (collected : Fields Document) (entry : Contribution) : Fields Document :=
  let token := entry.operator.token
  Fields.insert collected token
    (Fields.insert ((Fields.get? collected token).getD []) entry.column entry.argument)

/-- The documents of the operators, in the order of their first use. -/
def collect (entries : List Contribution) : Fields Document := entries.foldl place []

/-- The operator document of a request. -/
def document (target : Target) (members : Fields Rest) : Except Failure Document :=
  (contributions target members).map fun entries =>
    (collect entries).map fun (token, columns) => (token, .document columns)

end RestStore.Update
