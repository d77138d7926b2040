import RestStore.Native.Basic
import RestStore.Nesting

/-!
# Values stored as given

The native value with the same structure as a REST value, envelopes included. Each value, also a
scalar, counts as one level of nesting.
-/

set_option autoImplicit false

namespace RestStore.Native

mutual

/-- A value as given. -/
def verbatim (guard : Nesting) (value : Rest) : Except Failure Native :=
  match guard.enter with
  | .error failure => .error failure
  | .ok inner =>
    match value with
    | .null => .ok .null
    | .bool flag => .ok (.bool flag)
    | .number number => .ok (.ofNumber number)
    | .string text => .ok (.string text)
    | .array items => (verbatimItems inner items).map .array
    | .object members => (verbatimMembers inner members).map .document
termination_by structural value

/-- The items of an array as given. -/
def verbatimItems (guard : Nesting) (items : List Rest) : Except Failure (List Native) :=
  match items with
  | [] => .ok []
  | item :: rest =>
    match verbatim guard item with
    | .error failure => .error failure
    | .ok native => (verbatimItems guard rest).map (native :: ·)
termination_by structural items

/-- The members of an object as given. The object itself counts as no level. -/
def verbatimMembers (guard : Nesting) (members : List (String × Rest)) :
    Except Failure (List (String × Native)) :=
  match members with
  | [] => .ok []
  | (key, value) :: rest =>
    match verbatim guard value with
    | .error failure => .error failure
    | .ok native => (verbatimMembers guard rest).map ((key, native) :: ·)
termination_by structural members

end

end RestStore.Native
