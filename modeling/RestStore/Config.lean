import RestStore.Fields
import RestStore.Rest.Basic

/-!
# Configuration

What a host can set: how deep values may be nested, and which classes have integer object ids.
Whatever a configuration leaves out keeps its default.
-/

set_option autoImplicit false

namespace RestStore

/-- The settings of a host. -/
structure Config where
  maxDepth : Nat := 64
  numericIdClasses : List String := ["_GlobalConfig", "_GraphQLConfig"]
deriving DecidableEq, Repr

namespace Config

/-- The settings of a host that sets nothing. -/
def standard : Config := {}

/-- Whether the object ids of a class are integers. -/
def hasNumericIds (config : Config) (className : String) : Bool :=
  config.numericIdClasses.contains className

/-- A depth bound: an unsigned 64-bit integer. -/
def depthOfRest? : Rest → Option Nat
  | .number (.integer i) => if 0 ≤ i ∧ i ≤ 18446744073709551615 then some i.toNat else none
  | _ => none

/-- A list of class names. -/
def classesOfRest? : Rest → Option (List String)
  | .array items => items.mapM Rest.text?
  | _ => none

/-- A setting that may be left out. -/
def orStandard {α : Type} (standard : α) (read? : Rest → Option α) : Option Rest → Option α
  | none => some standard
  | some value => read? value

/-- Settings from their values, in their order. -/
def ofParts? (depth classes : Option Rest) : Option Config := do
  let maxDepth ← orStandard standard.maxDepth depthOfRest? depth
  let numericIdClasses ← orStandard standard.numericIdClasses classesOfRest? classes
  pure ⟨maxDepth, numericIdClasses⟩

/-- Settings in their keyed form, or as a list of the first few in order. -/
def ofRest? : Rest → Option Config
  | .object members =>
    ofParts? (Fields.get? members "max_depth") (Fields.get? members "numeric_id_classes")
  | .array [] => ofParts? none none
  | .array [depth] => ofParts? (some depth) none
  | .array [depth, classes] => ofParts? (some depth) (some classes)
  | _ => none

end Config

end RestStore
