import RestStore.Proofs.Internal.Values
import RestStore.Proofs.Outcome
import RestStore.Constraint.Compile
import RestStore.Write.Update

/-!
# Branches that no input reaches

The dispatches of the converters written with an arm for everything: a constraint operator that no
earlier arm takes, a value that is neither an atom nor an array or object, an operation that gives
the other kind of output than the one asked for. Such an arm reports a broken invariant. Each
dispatch has the outcome of the definition without the arm, so none of the arms is ever taken.

* `Operation.compile` — an operation compiled for either use; `compile_flatten`, `compile_update`
  and `compile_error_iff` say what the flag decides.
* `Constraint.dispatch_eq` — the operators of a constraint.
* `Native.walk_eq` — values inside arrays and objects, at any depth.
* `Update.dispatch_eq` — the fields of an update.
-/

set_option autoImplicit false

namespace RestStore

/-- What a dispatch with arms for the impossible may report: the failure of a step, or an invariant
that does not hold. -/
inductive Fault where
  | failure (failure : Failure)
  | broken (origin : Origin) (message : String)

namespace Fault

variable {α : Type}

/-- The outcome of a step of a dispatch. -/
def ofStep (outcome : Except Failure α) : Except Fault α := outcome.mapError .failure

/-- No invariant is reported as broken. -/
def NeverBroken (outcome : Except Fault α) : Prop :=
  ∀ origin message, outcome ≠ .error (.broken origin message)

theorem neverBroken_of_eq {outcome : Except Fault α} {step : Except Failure α}
    (h : outcome = ofStep step) : NeverBroken outcome := by
  rintro origin message rfl
  cases step <;> cases h

end Fault

/-! ## Operations -/

namespace Operation

/-- What compiling an operation gives. -/
inductive Output where
  | operator (update : FieldUpdate)
  | flat (native : Native)
  | omitted

namespace Output

/-- The value that a field holds, or its omission. -/
def ofFlat : Option Native → Output
  | some native => flat native
  | none => omitted

/-- The output is one of those for a field of a stored object. -/
def IsOperator : Output → Prop
  | operator _ => True
  | flat _ | omitted => False

end Output

/-- An operation compiled to the store's operator or, when it is flattened, to the value that it
leaves. -/
def compile (flattened : Bool) (guard : Nesting) (members : Fields Rest) :
    Except Failure Output :=
  match ofMembers members with
  | .error failure => .error failure
  | .ok .delete =>
    if flattened then .ok .omitted else .ok (.operator ⟨.unset, .string ""⟩)
  | .ok (.increment amount) =>
    if flattened then .ok (.flat (.ofNumber amount))
    else .ok (.operator ⟨.inc, .ofNumber amount⟩)
  | .ok (.setOnInsert value) =>
    (Native.verbatim guard value).map fun native =>
      if flattened then .flat native else .operator ⟨.setOnInsert, native⟩
  | .ok (.add items) =>
    (Native.elements guard items).map fun natives =>
      if flattened then .flat (.array natives) else .operator ⟨.push, each natives⟩
  | .ok (.addUnique items) =>
    (Native.elements guard items).map fun natives =>
      if flattened then .flat (.array natives) else .operator ⟨.addToSet, each natives⟩
  | .ok (.remove items) =>
    (Native.elements guard items).map fun natives =>
      if flattened then .flat (.array []) else .operator ⟨.pullAll, .array natives⟩

variable (guard : Nesting) (members : Fields Rest)

/-- A flattened operation gives the value that it leaves. -/
theorem compile_flatten :
    compile true guard members = (Native.flattened guard members).map Output.ofFlat := by
  unfold compile Native.flattened
  cases ofMembers members with
  | error failure => rfl
  | ok operation =>
    cases operation with
    | delete | increment _ => rfl
    | setOnInsert value =>
      dsimp only [flatten]
      cases Native.verbatim guard value <;> rfl
    | add items | addUnique items | remove items =>
      dsimp only [flatten]
      cases Native.elements guard items <;> rfl

/-- The operator of an operation on a field of a stored object. -/
def updated : Except Failure FieldUpdate :=
  match ofMembers members with
  | .error failure => .error failure
  | .ok operation => operation.update guard

/-- An operation on a field of a stored object gives its operator. -/
theorem compile_update :
    compile false guard members = (updated guard members).map Output.operator := by
  unfold compile updated
  cases ofMembers members with
  | error failure => rfl
  | ok operation =>
    cases operation with
    | delete | increment _ => rfl
    | setOnInsert value =>
      dsimp only [update]
      cases Native.verbatim guard value <;> rfl
    | add items | addUnique items | remove items =>
      dsimp only [update]
      cases Native.elements guard items <;> rfl

/-- The flag does not decide which operations are refused, nor why. -/
theorem compile_error_iff (failure : Failure) :
    compile true guard members = .error failure ↔ compile false guard members = .error failure := by
  unfold compile
  cases ofMembers members with
  | error other => rfl
  | ok operation =>
    cases operation with
    | delete | increment _ => simp
    | setOnInsert value =>
      dsimp only
      cases Native.verbatim guard value <;> simp [Except.map]
    | add items | addUnique items | remove items =>
      dsimp only
      cases Native.elements guard items <;> simp [Except.map]

/-- **The flag decides the kind of output** and nothing else: a flattened operation has no operator,
another one has nothing but an operator. -/
theorem isOperator_of_compile {flattened : Bool} {output : Output}
    (h : compile flattened guard members = .ok output) :
    output.IsOperator ↔ flattened = false := by
  cases flattened with
  | true =>
    rw [compile_flatten] at h
    obtain ⟨native, _, rfl⟩ := Outcome.map_eq_ok.1 h
    cases native <;> simp [Output.ofFlat, Output.IsOperator]
  | false =>
    rw [compile_update] at h
    obtain ⟨update, _, rfl⟩ := Outcome.map_eq_ok.1 h
    simp [Output.IsOperator]

end Operation

/-! ## Constraint operators -/

namespace Constraint

/-- The entry of an operator by a dispatch whose first arm asks whether it is a comparison, and
whose last one takes what is left over. -/
def dispatch (scope : Scope) (members : Fields Rest) (operator : ConstraintOperator)
    (operand : Rest) : Except Fault (Option (String × Native)) :=
  if operator.isComparison then
    Fault.ofStep (own operator (comparison scope operator operand))
  else
    match operator with
    | .isIn | .notIn => Fault.ofStep (own operator (membership scope operator operand))
    | .all => Fault.ofStep (own operator (allOf scope operand))
    | .regex =>
      match operand with
      | .string pattern => .ok (some (operator.token, .string pattern))
      | operand => .error (.failure (.constraint (.badRegex operand)))
    | .options => Fault.ofStep (own operator (Native.verbatim scope.guard operand))
    | .containedBy =>
      Fault.ofStep ((containment scope operand).map fun native => some ("$elemMatch", native))
    | .text => Fault.ofStep (own operator ((textSearch operand).map .document))
    | .nearSphere => Fault.ofStep ((near scope members operand).map some)
    | .maxDistance | .maxDistanceInRadians | .maxDistanceInMiles | .maxDistanceInKilometers =>
      if scope.count then .ok none
      else
        Fault.ofStep ((radians operator (operator.unitsPerRadian?.getD 1) operand).map
          fun distance => some (ConstraintOperator.maxDistance.token, distance))
    | .select | .dontSelect => .error (.failure (.constraint (.unsupported operator.token)))
    | .within => Fault.ofStep (own operator ((box operand).map .document))
    | .geoWithin => Fault.ofStep (own operator ((region operand).map .document))
    | .geoIntersects => Fault.ofStep (own operator ((intersection operand).map .document))
    | _ => .error (.broken .constraint ("unhandled constraint operator: " ++ operator.token))

/-- **Every operator is handled**: what the first arm does not take, a later one does. -/
theorem dispatch_eq (scope : Scope) (members : Fields Rest) (operator : ConstraintOperator)
    (operand : Rest) :
    dispatch scope members operator operand =
      Fault.ofStep ( entry? scope members operator operand) := by
  cases operator with
  | regex => cases operand <;> rfl
  | maxDistance | maxDistanceInRadians | maxDistanceInMiles | maxDistanceInKilometers =>
    unfold dispatch Constraint.entry?
    cases scope.count <;> rfl
  | less | lessOrEqual | greater | greaterOrEqual | isPresent | notEqual | equal | isIn | notIn
  | all | options | containedBy | text | nearSphere | select | dontSelect | within | geoWithin
  | geoIntersects => rfl

end Constraint

/-! ## Values inside arrays and objects -/

namespace Native

mutual

/-- A nested value by a dispatch that tries the atoms before it looks at the kind of value. -/
def walk (guard : Nesting) (value : Rest) : Except Fault (Option Native) :=
  match guard.enter with
  | .error failure => .error (.failure failure)
  | .ok inner =>
    match nestedAtom? value with
    | .error failure => .error (.failure failure)
    | .ok (some native) => .ok (some native)
    | .ok none =>
      match value with
      | .array items => (walkItems inner items).map fun items => some (.array items)
      | .object members =>
        if Fields.contains members operationKey then
          match Operation.compile true inner members with
          | .error failure => .error (.failure failure)
          | .ok (.flat native) => .ok (some native)
          | .ok .omitted => .ok none
          | .ok (.operator _) =>
            .error (.broken .value "flattened update operator produced a native operator")
        else if members.all fun member => isCleanKey member.1 then
          (walkMembers inner members).map fun columns => some (.document columns)
        else .error (.failure (.shape .uncleanKey))
      | value => .error (.broken .value ("really did not expect value: " ++ value.compact))
termination_by structural value

/-- The items of a nested array. -/
def walkItems (guard : Nesting) (items : List Rest) : Except Fault (List Native) :=
  match items with
  | [] => .ok []
  | item :: rest =>
    match walk guard item with
    | .error fault => .error fault
    | .ok native => (walkItems guard rest).map (native.getD .null :: ·)
termination_by structural items

/-- The members of a nested object. -/
def walkMembers (guard : Nesting) (members : List (String × Rest)) :
    Except Fault (List (String × Native)) :=
  match members with
  | [] => .ok []
  | (key, value) :: rest =>
    match walk guard value with
    | .error fault => .error fault
    | .ok none => walkMembers guard rest
    | .ok (some native) => (walkMembers guard rest).map ((key, native) :: ·)
termination_by structural members

end

mutual

/-- **The walk meets no value it does not expect**, at any depth: a scalar is an atom, and a
flattened operation has no operator. -/
theorem walk_eq : ∀ (guard : Nesting) (value : Rest),
    walk guard value = Fault.ofStep (nested guard value) := by
  intro guard value
  unfold walk nested
  cases guard.enter with
  | error failure => rfl
  | ok inner =>
    cases value with
    | null | bool _ | number _ | string _ => rfl
    | array items =>
      show (walkItems inner items).map _ = _
      rw [walkItems_eq inner items]
      dsimp only
      cases nestedItems inner items <;> rfl
    | object members =>
      dsimp only
      cases nestedAtom? (.object members) with
      | error failure => rfl
      | ok atom =>
        cases atom with
        | some native => rfl
        | none =>
          dsimp only
          split
          · rw [Operation.compile_flatten]
            cases flattened inner members with
            | error failure => rfl
            | ok native => cases native <;> rfl
          · split
            · rw [walkMembers_eq inner members]
              cases nestedMembers inner members <;> rfl
            · rfl

theorem walkItems_eq (guard : Nesting) : ∀ items : List Rest,
    walkItems guard items = Fault.ofStep (nestedItems guard items)
  | [] => rfl
  | item :: rest => by
    unfold walkItems nestedItems
    rw [walk_eq guard item, walkItems_eq guard rest]
    cases nested guard item with
    | error failure => rfl
    | ok native =>
      dsimp only [Fault.ofStep, Except.mapError]
      cases nestedItems guard rest <;> rfl

theorem walkMembers_eq (guard : Nesting) : ∀ members : List (String × Rest),
    walkMembers guard members = Fault.ofStep (nestedMembers guard members)
  | [] => rfl
  | (_, value) :: rest => by
    unfold walkMembers nestedMembers
    rw [walk_eq guard value, walkMembers_eq guard rest]
    cases nested guard value with
    | error failure => rfl
    | ok native =>
      cases native with
      | none => rfl
      | some native =>
        dsimp only [Fault.ofStep, Except.mapError]
        cases nestedMembers guard rest <;> rfl

end

end Native

/-! ## Fields of an update -/

namespace Update

/-- The contribution of a field by a dispatch that tries the atoms, then the operations, and then
walks arrays and objects. -/
def dispatch (target : Target) (key column : String) (value : Rest) :
    Except Fault (Option Contribution) :=
  match Native.columnAtom? (target.schema.field? key) value with
  | .error failure => .error (.failure failure)
  | .ok (some native) =>
    if Column.isPath key then
      Fault.ofStep ((Native.verbatim (guard target) value).map fun native =>
        some (setColumn column native))
    else .ok (some (setColumn column native))
  | .ok none =>
    match value with
    | .object members =>
      if Fields.contains members operationKey then
        match Operation.compile false (guard target) members with
        | .error failure => .error (.failure failure)
        | .ok (.operator update) => .ok (some ⟨update.operator, column, update.argument⟩)
        | .ok (.flat native) => .ok (some (setColumn column native))
        | .ok .omitted => .ok none
      else
        (Native.walk (guard target) value).map fun native => native.map (setColumn column)
    | .array _ =>
      (Native.walk (guard target) value).map fun native => native.map (setColumn column)
    | value => .error (.broken .update ("really did not expect value: " ++ value.compact))

/-- **An update meets no value it does not expect**, and its operations give operators. -/
theorem dispatch_eq (target : Target) (key column : String) (value : Rest) :
    dispatch target key column value = Fault.ofStep ( value? target key column value) := by
  have hwalk : ((Native.walk (guard target) value).map fun native =>
      native.map (setColumn column)) =
        Fault.ofStep ((Native.nested (guard target) value).map fun native =>
          native.map (setColumn column)) := by
    rw [Native.walk_eq]
    cases Native.nested (guard target) value <;> rfl
  unfold dispatch Update.value?
  cases value with
  | null | bool _ | number _ | string _ =>
    dsimp only [Native.columnAtom?, Native.ofColumnShape?, Rest.shape]
    split
    · rfl
    · rfl
  | array items => exact hwalk
  | object members =>
    cases Native.columnAtom? (target.schema.field? key) (.object members) with
    | error failure => rfl
    | ok atom =>
      cases atom with
      | some native =>
        dsimp only
        split
        · rfl
        · rfl
      | none =>
        unfold compound?
        dsimp only
        split
        · rw [Operation.compile_update]
          unfold Operation.updated
          cases Operation.ofMembers members with
          | error failure => rfl
          | ok operation =>
            dsimp only
            cases operation.update (guard target) <;> rfl
        · exact hwalk

end Update

end RestStore
