import RestStore.Text.Order

/-!
# Constraint operators

The operators that a constraint on a field may carry. They are compiled in one fixed order, the
descending order of their tokens, whatever the order of the request: `descending_order`. So `$regex`
comes before `$options` and `$nearSphere` before the distances.
-/

set_option autoImplicit false

namespace RestStore

/-- An operator of a constraint. -/
inductive ConstraintOperator where
  | within
  | text
  | select
  | regex
  | options
  | notIn
  | nearSphere
  | notEqual
  | maxDistanceInRadians
  | maxDistanceInMiles
  | maxDistanceInKilometers
  | maxDistance
  | lessOrEqual
  | less
  | isIn
  | greaterOrEqual
  | greater
  | geoWithin
  | geoIntersects
  | isPresent
  | equal
  | dontSelect
  | containedBy
  | all
deriving DecidableEq, Repr

namespace ConstraintOperator

/-- The token of an operator. -/
def token : ConstraintOperator → String
  | within => "$within"
  | text => "$text"
  | select => "$select"
  | regex => "$regex"
  | options => "$options"
  | notIn => "$nin"
  | nearSphere => "$nearSphere"
  | notEqual => "$ne"
  | maxDistanceInRadians => "$maxDistanceInRadians"
  | maxDistanceInMiles => "$maxDistanceInMiles"
  | maxDistanceInKilometers => "$maxDistanceInKilometers"
  | maxDistance => "$maxDistance"
  | lessOrEqual => "$lte"
  | less => "$lt"
  | isIn => "$in"
  | greaterOrEqual => "$gte"
  | greater => "$gt"
  | geoWithin => "$geoWithin"
  | geoIntersects => "$geoIntersects"
  | isPresent => "$exists"
  | equal => "$eq"
  | dontSelect => "$dontSelect"
  | containedBy => "$containedBy"
  | all => "$all"

/-- The order in which the operators of a constraint are compiled. -/
def order : List ConstraintOperator :=
  [within, text, select, regex, options, notIn, nearSphere, notEqual, maxDistanceInRadians,
    maxDistanceInMiles, maxDistanceInKilometers, maxDistance, lessOrEqual, less, isIn,
    greaterOrEqual, greater, geoWithin, geoIntersects, isPresent, equal, dontSelect, containedBy,
    all]

theorem mem_order (operator : ConstraintOperator) : operator ∈ order := by
  cases operator <;> decide

/-- Later tokens come first. -/
theorem descending_order :
    (order.map token).Pairwise fun a b => textBefore b a = true := by
  decide

/-- The operator with a token. -/
def ofToken? (token : String) : Option ConstraintOperator :=
  order.find? fun operator => operator.token == token

theorem ofToken?_token (operator : ConstraintOperator) :
    ofToken? operator.token = some operator := by
  cases operator <;> rfl

/-- Whether the operand is a single atom that values are compared with. -/
def isComparison : ConstraintOperator → Bool
  | less | lessOrEqual | greater | greaterOrEqual | isPresent | notEqual | equal => true
  | _ => false

/-- Whether the operand may be a relative time. -/
def takesRelativeTime : ConstraintOperator → Bool
  | less | lessOrEqual | greater | greaterOrEqual => true
  | _ => false

/-- For a distance, how many of its units make one radian of the globe. -/
def unitsPerRadian? : ConstraintOperator → Option Nat
  | maxDistance | maxDistanceInRadians => some 1
  | maxDistanceInMiles => some 3959
  | maxDistanceInKilometers => some 6371
  | _ => none

end ConstraintOperator

end RestStore
