import RestStore.Failure

/-!
# Fields of an envelope

Reading a required member of a tagged object.
-/

set_option autoImplicit false

namespace RestStore.Envelope

/-- A member that must be a text. -/
def text (kind : String) (members : Fields Rest) (key : String) : Except Failure String :=
  match Fields.get? members key with
  | some (.string text) => .ok text
  | _ => .error (.atom (.missingText kind key))

/-- A member that must be a number. -/
def number (kind : String) (members : Fields Rest) (key : String) : Except Failure Number :=
  match Fields.get? members key with
  | some (.number value) => .ok value
  | _ => .error (.atom (.missingNumber kind key))

end RestStore.Envelope
