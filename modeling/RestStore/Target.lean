import RestStore.Config
import RestStore.Schema

/-!
# The class at hand

What every conversion needs to know: the name and the schema of the class, and the settings.
-/

set_option autoImplicit false

namespace RestStore

/-- The class of the objects that are converted. -/
structure Target where
  className : String
  schema : Schema
  config : Config

/-- Whether the object ids of the class are integers. -/
def Target.hasNumericIds (target : Target) : Bool :=
  target.config.hasNumericIds target.className

end RestStore
