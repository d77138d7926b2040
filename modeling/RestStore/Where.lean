import RestStore.Constraint.Compile
import RestStore.NumericId
import RestStore.Permission
import RestStore.Target

/-!
# Where clauses

The native query for a where clause. Every key compiles on its own to one entry, and the entries
are written one after the other; the lists of several `$nor` entries are joined.

* `Where.fieldEntry` is the entry of a key that is no combinator.
* `Where.entries` compiles the keys of a clause and, below `$or`, `$and` and `$nor`, those of its
  subclauses.
* `Where.document` is the query.
-/

set_option autoImplicit false

namespace RestStore.Where

/-- What a query is compiled for. -/
structure Scope where
  target : Target
  count : Bool
  now : Instant

/-- The combinator of clauses that must not hold. -/
def norKey : String := "$nor"

/-- Whether a key combines clauses. -/
def isCombinator (key : String) : Bool := key == "$or" || key == "$and" || key == norKey

/-- Keys whose values are matched as given. -/
def verbatimKeys : List String :=
  ["_failed_login_count", readersColumn, writersColumn, "_perishable_token",
    "_email_verify_token"]

/-- The column of a key whose value is matched as given. -/
def verbatimColumn? (key : String) : Option String :=
  if key = "sessionToken" then some "_session_token"
  else if key = "timesUsed" then some "times_used"
  else if key ∈ verbatimKeys then some key
  else (authIdProvider? key).map fun provider => authStart ++ provider ++ ".id"

/-- The entry of the object id. -/
def idEntry (scope : Scope) (guard : Nesting) (value : Rest) :
    Except Failure (String × Native) :=
  let native :=
    match value with
    | .string _ | .number _ =>
      if scope.target.hasNumericIds then integerId .query value
      else Native.verbatim guard value
    | value => Native.verbatim guard value
  native.map fun native => (idColumn, native)

/-- Whether a key holds instants. -/
def isTimeKey (key : String) : Bool :=
  internalTimes.contains key || (Column.reserved? key).any fun column => column.role == .time

/-- The instant that a text under a time key spells. -/
def timeText? (key : String) (value : Rest) : Option Native :=
  match value with
  | .string text =>
    if isTimeKey key then (Iso.parse? text).map Instant.toNative else none
  | _ => none

/-- The entry of a compiled constraint: a text search moves to the level of the clause, and a
containment is the negation of an element outside the list. -/
def constraintEntry (column : String) (constraint : Document) : String × Native :=
  match Fields.get? constraint "$text" with
  | some search => ("$text", search)
  | none =>
    if Fields.contains constraint "$elemMatch" then
      (norKey, .array [.document [(column, .document constraint)]])
    else (column, .document constraint)

/-- The entry of a value to compare with. -/
def valueEntry (scope : Scope) (guard : Nesting) (key : String) (value : Rest) :
    Except Failure (String × Native) :=
  let schema := scope.target.schema
  let column := Column.forQuery schema key
  let isArray : Bool :=
    match value with
    | .array _ => true
    | _ => false
  if schema.fieldIs key .array && !isArray then
    (Native.element guard value).map fun native =>
      (column, .document [("$all", .array [native])])
  else
    let atom :=
      if Column.isPath key then Native.nestedAtom? value
      else Native.columnAtom? (schema.field? key) value
    match atom with
    | .error failure => .error failure
    | .ok (some native) => .ok (column, native)
    | .ok none => .error (.query (.unusable value))

/-- The entry of a key that is an ordinary field. -/
def plainEntry (scope : Scope) (guard : Nesting) (key : String) (value : Rest) :
    Except Failure (String × Native) :=
  let column := Column.forQuery scope.target.schema key
  match timeText? key value with
  | some native => .ok (column, native)
  | none =>
    match Constraint.compile?
        ⟨scope.target.schema.field? key, scope.count, scope.now, guard⟩ value with
    | .error failure => .error failure
    | .ok (some constraint) => .ok (constraintEntry column constraint)
    | .ok none => valueEntry scope guard key value

/-- The entry of a key that is no combinator. -/
def fieldEntry (scope : Scope) (guard : Nesting) (key : String) (value : Rest) :
    Except Failure (String × Native) :=
  if key = objectIdKey then idEntry scope guard value
  else
    match verbatimColumn? key with
    | some column => (Native.verbatim guard value).map fun native => (column, native)
    | none => plainEntry scope guard key value

/-- Writes an entry; a `$nor` joins the one before it. -/
def write (query : Document) (entry : String × Native) : Document :=
  match Fields.get? query norKey, entry.2 with
  | some (.array earlier), .array clauses =>
    if entry.1 = norKey then Fields.insert query norKey (.array (earlier ++ clauses))
    else Fields.insert query entry.1 entry.2
  | _, _ => Fields.insert query entry.1 entry.2

/-- The query of a list of entries. -/
def merge (entries : List (String × Native)) : Document := entries.foldl write []

mutual

/-- The entries of the keys of a clause. -/
def entries (scope : Scope) (guard : Nesting) (members : List (String × Rest)) :
    Except Failure (List (String × Native)) :=
  match members with
  | [] => .ok []
  | (key, value) :: rest =>
    match entry scope guard key value with
    | .error failure => .error failure
    | .ok entry => (entries scope guard rest).map (entry :: ·)
termination_by structural members

/-- The entry of a key. -/
def entry (scope : Scope) (guard : Nesting) (key : String) (value : Rest) :
    Except Failure (String × Native) :=
  if isCombinator key then
    match value with
    | .array clauses =>
      (subclauses scope guard key clauses).map fun natives => (key, .array natives)
    | _ => .error (.query (.combinatorNotArray key))
  else fieldEntry scope guard key value
termination_by structural value

/-- The queries of the subclauses of a combinator. -/
def subclauses (scope : Scope) (guard : Nesting) (key : String) (clauses : List Rest) :
    Except Failure (List Native) :=
  match clauses with
  | [] => .ok []
  | clause :: rest =>
    match subclause scope guard key clause with
    | .error failure => .error failure
    | .ok native => (subclauses scope guard key rest).map (native :: ·)
termination_by structural clauses

/-- The query of a subclause, one level down. -/
def subclause (scope : Scope) (guard : Nesting) (key : String) (clause : Rest) :
    Except Failure Native :=
  match clause with
  | .object members =>
    match guard.enter with
    | .error failure => .error failure
    | .ok inner => (entries scope inner members).map fun entries => .document (merge entries)
  | _ => .error (.query (.combinatorItem key))
termination_by structural clause

end

/-- The query of a where clause. -/
def document (scope : Scope) (members : Fields Rest) : Except Failure Document :=
  match (Nesting.top scope.target.config.maxDepth .query).enter with
  | .error failure => .error failure
  | .ok inner => (entries scope inner members).map merge

end RestStore.Where
