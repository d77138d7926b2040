import RestStore.Native.Atom

/-!
# Update operations

The atomic operations that a client may ask for on one field, as an object with the key `__op`.

* `Operation.ofMembers` reads an operation.
* `Operation.update` is the store's operator and argument for a field of a stored object.
* `Operation.flatten` is the value that a field holds after the operation when it had none before;
  a deletion leaves the field out.
-/

set_option autoImplicit false

namespace RestStore

/-- The key that marks an operation. -/
def operationKey : String := "__op"

/-- An operation on one field. -/
inductive Operation where
  | delete
  | increment (amount : Number)
  | setOnInsert (value : Rest)
  | add (items : List Rest)
  | addUnique (items : List Rest)
  | remove (items : List Rest)
deriving Repr

/-- The update operators of the store. -/
inductive UpdateOperator where
  | set
  | unset
  | inc
  | setOnInsert
  | push
  | addToSet
  | pullAll
deriving DecidableEq, Repr

/-- The store's token for an operator. -/
def UpdateOperator.token : UpdateOperator → String
  | set => "$set"
  | unset => "$unset"
  | inc => "$inc"
  | setOnInsert => "$setOnInsert"
  | push => "$push"
  | addToSet => "$addToSet"
  | pullAll => "$pullAll"

/-- What an update does to one field. -/
structure FieldUpdate where
  operator : UpdateOperator
  argument : Native
deriving Repr

namespace Operation

/-- The operand list of an operation. -/
def items (members : Fields Rest) (fault : OperationFault) : Except Failure (List Rest) :=
  match Fields.get? members "objects" with
  | some (.array items) => .ok items
  | _ => .error (.operation fault)

/-- The operator as it is shown when it is not known. -/
def shownOperator : Option Rest → String
  | some (.string name) => name
  | some other => other.compact
  | none => "undefined"

/-- The operation that an object asks for. -/
def ofMembers (members : Fields Rest) : Except Failure Operation :=
  let name := (Fields.get? members operationKey).bind Rest.text?
  if name = some "Delete" then .ok delete
  else if name = some "Increment" then
    match Fields.get? members "amount" with
    | some (.number amount) => .ok (increment amount)
    | _ => .error (.operation .amountNotNumber)
  else if name = some "SetOnInsert" then
    .ok (setOnInsert ((Fields.get? members "amount").getD .null))
  else if name = some "Add" then (items members .addNotList).map add
  else if name = some "AddUnique" then (items members .addNotList).map addUnique
  else if name = some "Remove" then (items members .removeNotList).map remove
  else .error (.operation (.unsupported (shownOperator (Fields.get? members operationKey))))

/-- A list of elements wrapped for an operator that adds each of them. -/
def each (elements : List Native) : Native := .document [("$each", .array elements)]

/-- The store's operator for a field of a stored object. -/
def update (guard : Nesting) : Operation → Except Failure FieldUpdate
  | delete => .ok ⟨.unset, .string ""⟩
  | increment amount => .ok ⟨.inc, .ofNumber amount⟩
  | setOnInsert value => (Native.verbatim guard value).map (⟨.setOnInsert, ·⟩)
  | add items => (Native.elements guard items).map fun elements => ⟨.push, each elements⟩
  | addUnique items =>
    (Native.elements guard items).map fun elements => ⟨.addToSet, each elements⟩
  | remove items =>
    (Native.elements guard items).map fun elements => ⟨.pullAll, .array elements⟩

/-- The value of a field that had none before. -/
def flatten (guard : Nesting) : Operation → Except Failure (Option Native)
  | delete => .ok none
  | increment amount => .ok (some (.ofNumber amount))
  | setOnInsert value => (Native.verbatim guard value).map some
  | add items | addUnique items =>
    (Native.elements guard items).map fun elements => some (.array elements)
  | remove items => (Native.elements guard items).map fun _ => some (.array [])

end Operation

end RestStore
