import RestStore.Failure

/-!
# Nesting guard

The bound on how deep values may be nested. A guard remembers its level; entering a value goes one
level down and is refused at the bound.
-/

set_option autoImplicit false

namespace RestStore

/-- A level, the bound it may reach, and the part that reports the refusal. -/
structure Nesting where
  level : Nat
  bound : Nat
  origin : Origin
deriving DecidableEq, Repr

namespace Nesting

/-- The guard at the outermost level. -/
def top (bound : Nat) (origin : Origin) : Nesting := ⟨0, bound, origin⟩

/-- The guard one level down. -/
def enter (guard : Nesting) : Except Failure Nesting :=
  if guard.bound ≤ guard.level then .error (.tooDeep guard.origin guard.bound)
  else .ok { guard with level := guard.level + 1 }

end Nesting

end RestStore
