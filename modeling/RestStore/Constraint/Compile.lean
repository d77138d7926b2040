import RestStore.Constraint.Geo
import RestStore.Constraint.Text
import RestStore.Native.Atom
import RestStore.Text.Search

/-!
# Compiling constraints

The native operators for a constraint on one field. An object is a constraint when all its keys
begin with a dollar sign; anything else is a value to compare with. Each operator compiles on its
own to at most one entry, and the entries are written one after the other in the fixed order of the
operators.

* `Constraint.entry?` is the entry of one operator.
* `Constraint.compile?` is the document of a constraint, or none for a plain value.
-/

set_option autoImplicit false

namespace RestStore.Constraint

/-- What a constraint is compiled for: the field, whether the query only counts, the clock that
relative times refer to, and the guard for operands that are stored as given. -/
structure Scope where
  field : Option FieldSchema
  count : Bool
  now : Instant
  guard : Nesting

/-- Whether the field is declared with a type. -/
def Scope.fieldIs (scope : Scope) (type : FieldType) : Bool :=
  scope.field.any fun field => field.type == type

/-- An operand that is a single value: an element on an array field, an atom on any other. -/
def atom (scope : Scope) (value : Rest) : Except Failure Native :=
  if scope.fieldIs .array then Native.element scope.guard value
  else
    match Native.columnAtom? scope.field value with
    | .error failure => .error failure
    | .ok (some native) => .ok native
    | .ok none => .error (.constraint (.badAtom value))

/-- Operands that are single values. -/
def atoms (scope : Scope) : List Rest → Except Failure (List Native)
  | [] => .ok []
  | value :: rest =>
    match atom scope value with
    | .error failure => .error failure
    | .ok native => (atoms scope rest).map (native :: ·)

/-! ## Comparisons -/

/-- The instant of a relative time, on a date field or an undeclared one. -/
def relativeTime (scope : Scope) (operator : ConstraintOperator) (phrase : Rest) :
    Except Failure Native :=
  if scope.field.isSome && !scope.fieldIs .date then .error (.constraint .relativeTimeField)
  else if !operator.takesRelativeTime then .error (.constraint .relativeTimeOperator)
  else
    match phrase with
    | .string text =>
      match Phrase.resolve text scope.now with
      | .ok resolved => .ok resolved.instant.toNative
      | .error fault => .error (.constraint (.relativeTimePhrase operator.token fault))
    | _ => .error (.constraint (.relativeTimeNotText operator.token))

/-- The operand of a comparison. -/
def comparison (scope : Scope) (operator : ConstraintOperator) (operand : Rest) :
    Except Failure Native :=
  match (operand.get? "$relativeTime").filter Rest.isTruthy with
  | some phrase => relativeTime scope operator phrase
  | none => atom scope operand

/-! ## Lists -/

/-- The members of a list of values or lists of values. -/
def spread (items : List Rest) : List Rest :=
  items.flatMap fun item =>
    match item with
    | .array inner => inner
    | item => [item]

/-- The operand of `$in` and `$nin`. -/
def membership (scope : Scope) (operator : ConstraintOperator) (operand : Rest) :
    Except Failure Native :=
  match operand with
  | .array items => (atoms scope (spread items)).map .array
  | _ => .error (.constraint (.notList operator.token))

/-- Whether a value is a regular expression for a literal beginning, `^\Q` up to `\E`. -/
def isLiteralStart : Native → Bool
  | .regex pattern options =>
    let shown := '/' :: pattern.toList ++ '/' :: options.toList
    match fromFirst? "/^\\Q".toList shown with
    | some tail => occursIn "\\E/".toList tail
    | none => false
  | _ => false

/-- Whether a value is a regular expression. -/
def isRegex : Native → Bool
  | .regex _ _ => true
  | _ => false

/-- Whether the values are all regular expressions for literal beginnings, or, of several, none. -/
def allOrNoLiteralStarts : List Native → Bool
  | [] => true
  | [native] => isLiteralStart native
  | first :: rest => rest.all fun native => isLiteralStart native == isLiteralStart first

/-- The operand of `$all`. -/
def allOf (scope : Scope) (operand : Rest) : Except Failure Native :=
  match operand with
  | .array items =>
    match Native.elements scope.guard items with
    | .error failure => .error failure
    | .ok natives =>
      if natives.any isRegex && !allOrNoLiteralStarts natives then
        .error (.constraint (.mixedRegexes operand))
      else .ok (.array natives)
  | _ => .error (.constraint (.notList ConstraintOperator.all.token))

/-- The operand of `$containedBy`: no element may be outside the list. -/
def containment (scope : Scope) (operand : Rest) : Except Failure Native :=
  match operand with
  | .array items => (atoms scope items).map fun natives => .document [("$nin", .array natives)]
  | _ => .error (.constraint .containedByNotList)

/-! ## Points and distances -/

/-- The first distance of a constraint, in the order of the operators. -/
def firstDistance (members : Fields Rest) : List ConstraintOperator → Except Failure Native
  | [] => .error (.constraint .countWithoutDistance)
  | operator :: rest =>
    match operator.unitsPerRadian?, Fields.get? members operator.token with
    | some units, some operand => radians operator units operand
    | _, _ => firstDistance members rest

/-- The entry of `$nearSphere`. A count has no order by distance and takes a sphere instead. -/
def near (scope : Scope) (members : Fields Rest) (operand : Rest) :
    Except Failure (String × Native) :=
  match pointOperand .nearSphere operand with
  | .error failure => .error failure
  | .ok point =>
    if scope.count then
      (firstDistance members ConstraintOperator.order).map fun distance =>
        (ConstraintOperator.geoWithin.token, .document (sphere point.toNative distance))
    else .ok (ConstraintOperator.nearSphere.token, point.toNative)

/-! ## Operators -/

/-- An operator compiles to an entry under its own token. -/
def own (operator : ConstraintOperator) (operand : Except Failure Native) :
    Except Failure (Option (String × Native)) :=
  operand.map fun native => some (operator.token, native)

/-- The entry of an operator of a constraint. The distances of a count are part of its sphere. -/
def entry? (scope : Scope) (members : Fields Rest) (operator : ConstraintOperator)
    (operand : Rest) : Except Failure (Option (String × Native)) :=
  match operator with
  | .less | .lessOrEqual | .greater | .greaterOrEqual | .isPresent | .notEqual | .equal =>
    own operator (comparison scope operator operand)
  | .isIn | .notIn => own operator (membership scope operator operand)
  | .all => own operator (allOf scope operand)
  | .regex =>
    match operand with
    | .string pattern => .ok (some (operator.token, .string pattern))
    | operand => .error (.constraint (.badRegex operand))
  | .options => own operator (Native.verbatim scope.guard operand)
  | .containedBy =>
    (containment scope operand).map fun native => some ("$elemMatch", native)
  | .text => own operator ((textSearch operand).map .document)
  | .nearSphere => (near scope members operand).map some
  | .maxDistance | .maxDistanceInRadians | .maxDistanceInMiles | .maxDistanceInKilometers =>
    if scope.count then .ok none
    else
      (radians operator (operator.unitsPerRadian?.getD 1) operand).map fun distance =>
        some (ConstraintOperator.maxDistance.token, distance)
  | .select | .dontSelect => .error (.constraint (.unsupported operator.token))
  | .within => own operator ((box operand).map .document)
  | .geoWithin => own operator ((region operand).map .document)
  | .geoIntersects => own operator ((intersection operand).map .document)

/-- The entries of the operators of a constraint, in a given order of operators. -/
def entries (scope : Scope) (members : Fields Rest) :
    List ConstraintOperator → Except Failure Document
  | [] => .ok []
  | operator :: rest =>
    match Fields.get? members operator.token with
    | none => entries scope members rest
    | some operand =>
      match entry? scope members operator operand with
      | .error failure => .error failure
      | .ok entry => (entries scope members rest).map (entry.toList ++ ·)

/-- Whether a key begins with a dollar sign. -/
def isOperatorKey (key : String) : Bool := key.toList.head? == some '$'

/-- The first key that is no operator. -/
def unknownKey? (members : Fields Rest) : Option String :=
  (Fields.keys members).find? fun key => (ConstraintOperator.ofToken? key).isNone

/-- The document of a constraint; none for a plain value. -/
def compile? (scope : Scope) (value : Rest) : Except Failure (Option Document) :=
  match value with
  | .object members =>
    if !members.all fun member => isOperatorKey member.1 then .ok none
    else
      match unknownKey? members with
      | some key => .error (.constraint (.unknownOperator key))
      | none =>
        (entries scope members ConstraintOperator.order).map fun entries =>
          some (Fields.ofList entries)
  | _ => .ok none

end RestStore.Constraint
