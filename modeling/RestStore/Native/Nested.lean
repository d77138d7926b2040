import RestStore.Operation

/-!
# Nested values

The stored form of a value inside an array or object. Atoms come first; an operation is flattened
into the value it leaves; arrays and plain objects are walked, and the keys of a plain object must
be clean before anything in it is looked at. A deletion leaves a member out of its object and a null
in its array, so that positions are kept.
-/

set_option autoImplicit false

namespace RestStore.Native

/-- Whether a key holds neither a dollar sign nor a point. -/
def isCleanKey (key : String) : Bool := !key.toList.contains '$' && !key.toList.contains '.'

/-- The operation of an object that has one. -/
def flattened (guard : Nesting) (members : Fields Rest) : Except Failure (Option Native) :=
  match Operation.ofMembers members with
  | .error failure => .error failure
  | .ok operation => operation.flatten guard

mutual

/-- A nested value, or none where it is left out. -/
def nested (guard : Nesting) (value : Rest) : Except Failure (Option Native) :=
  match guard.enter with
  | .error failure => .error failure
  | .ok inner =>
    match value with
    | .null => .ok (some .null)
    | .bool flag => .ok (some (.bool flag))
    | .number number => .ok (some (.ofNumber number))
    | .string text => .ok (some (.string text))
    | .array items => (nestedItems inner items).map fun items => some (.array items)
    | .object members =>
      match nestedAtom? (.object members) with
      | .error failure => .error failure
      | .ok (some native) => .ok (some native)
      | .ok none =>
        if Fields.contains members operationKey then flattened inner members
        else if members.all fun member => isCleanKey member.1 then
          (nestedMembers inner members).map fun columns => some (.document columns)
        else .error (.shape .uncleanKey)
termination_by structural value

/-- The items of a nested array; one that is left out becomes null. -/
def nestedItems (guard : Nesting) (items : List Rest) : Except Failure (List Native) :=
  match items with
  | [] => .ok []
  | item :: rest =>
    match nested guard item with
    | .error failure => .error failure
    | .ok native => (nestedItems guard rest).map (native.getD .null :: ·)
termination_by structural items

/-- The members of a nested object; one that is left out is dropped. -/
def nestedMembers (guard : Nesting) (members : List (String × Rest)) :
    Except Failure (List (String × Native)) :=
  match members with
  | [] => .ok []
  | (key, value) :: rest =>
    match nested guard value with
    | .error failure => .error failure
    | .ok none => nestedMembers guard rest
    | .ok (some native) => (nestedMembers guard rest).map ((key, native) :: ·)
termination_by structural members

end

end RestStore.Native
