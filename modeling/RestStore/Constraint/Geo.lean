import RestStore.Constraint.Operator
import RestStore.Atom.Polygon

/-!
# Geographic operands

The operands of the geographic operators. Every point is compiled to its stored pair, longitude
first; a bare pair in an operand is in that order already.
-/

set_option autoImplicit false

namespace RestStore.Constraint

/-- A point given as an envelope or as a bare object with its coordinates. -/
def pointOperand (fault : ConstraintFault) (value : Rest) : Except Failure GeoPoint :=
  match value with
  | .object members =>
    if !Fields.contains members typeKey || value.hasTag GeoPoint.kind then
      match GeoPoint.ofEnvelope members with
      | .ok point => .ok point
      | .error _ => .error (.constraint fault)
    else .error (.constraint fault)
  | _ => .error (.constraint fault)

/-- A tagged point. -/
def taggedPoint? (value : Rest) : Option GeoPoint :=
  match value with
  | .object members =>
    if value.hasTag GeoPoint.kind then (GeoPoint.ofEnvelope members).toOption else none
  | _ => none

/-- A point that lies on the globe, as its stored pair. -/
def globePair (point : GeoPoint) : Except Failure Native :=
  point.validate.map fun _ => point.toNative

/-- A vertex of a polygon: a bare pair or a tagged point. -/
def vertex (value : Rest) : Except Failure Native :=
  let point :=
    match value with
    | .array pair => GeoPoint.ofPair? pair
    | value => taggedPoint? value
  match point with
  | some point => globePair point
  | none => .error (.constraint (.region .badVertex))

/-- The vertices of a polygon. -/
def vertices : List Rest → Except Failure (List Native)
  | [] => .ok []
  | value :: rest =>
    match vertex value with
    | .error failure => .error failure
    | .ok native => (vertices rest).map (native :: ·)

/-- The points of a polygon operand: of an envelope, or a list of at least three. -/
def polygonPoints (value : Rest) : Except Failure (List Rest) :=
  match value with
  | .object _ =>
    if value.hasTag Polygon.kind then
      match value.get? "coordinates" with
      | some (.array points) =>
        if 3 ≤ points.length then .ok points
        else .error (.constraint (.region .fewEnvelopeVertices))
      | _ => .error (.constraint (.region .fewEnvelopeVertices))
    else .error (.constraint (.region .notPolygon))
  | .array points =>
    if 3 ≤ points.length then .ok points else .error (.constraint (.region .fewVertices))
  | _ => .error (.constraint (.region .notPolygon))

/-- A polygon region. -/
def polygonRegion (value : Rest) : Except Failure Document :=
  match polygonPoints value with
  | .error failure => .error failure
  | .ok points => (vertices points).map fun natives => [("$polygon", .array natives)]

/-- The centre of a sphere: a bare pair or a tagged point. -/
def center? : Rest → Option GeoPoint
  | .array pair => GeoPoint.ofPair? pair
  | value => taggedPoint? value

/-- The radius of a sphere: a number that is not negative. -/
def radius? : Rest → Option Number
  | .number number =>
    if number.toDouble.isNaN || number.toDouble.lt .zero then none else some number
  | _ => none

/-- A sphere in the store's form. -/
def sphere (center radius : Native) : Document := [("$centerSphere", .array [center, radius])]

/-- A spherical region. -/
def sphereRegion (value : Rest) : Except Failure Document :=
  match value with
  | .array (center :: radius :: _) =>
    match center? center with
    | none => .error (.constraint (.region .badCenter))
    | some point =>
      match globePair point with
      | .error failure => .error failure
      | .ok pair =>
        match radius? radius with
        | some number => .ok (sphere pair (.ofNumber number))
        | none => .error (.constraint (.region .badRadius))
  | _ => .error (.constraint (.region .notSphere))

/-- The operand of `$geoWithin`: exactly one region. -/
def region (operand : Rest) : Except Failure Document :=
  match operand.get? "$polygon", operand.get? "$centerSphere" with
  | some polygon, none => polygonRegion polygon
  | none, some sphere => sphereRegion sphere
  | _, _ => .error (.constraint (.region .notOneRegion))

/-- The operand of `$geoIntersects`: a tagged point on the globe. -/
def intersection (operand : Rest) : Except Failure Document :=
  match (operand.get? "$point").filter (·.hasTag GeoPoint.kind) with
  | none => .error (.constraint .geoIntersects)
  | some value =>
    match pointOperand .geoIntersects value with
    | .error failure => .error failure
    | .ok point =>
      (globePair point).map fun pair =>
        [("$geometry", .document [("type", .string "Point"), ("coordinates", pair)])]

/-- The operand of `$within`: a box with two corners. -/
def box (operand : Rest) : Except Failure Document :=
  match operand.get? "$box" with
  | some (.array [first, second]) =>
    match pointOperand .within first with
    | .error failure => .error failure
    | .ok first =>
      (pointOperand .within second).map fun second =>
        [("$box", .array [first.toNative, second.toNative])]
  | _ => .error (.constraint .within)

/-- A distance in radians. A distance given in radians keeps its number as it is. -/
def radians (operator : ConstraintOperator) (units : Nat) (operand : Rest) :
    Except Failure Native :=
  match operand with
  | .number number =>
    if operator = .maxDistance ∨ operator = .maxDistanceInRadians then .ok (.ofNumber number)
    else .ok (.double (number.toDouble.divNat units))
  | _ => .error (.constraint (.distanceNotNumber operator.token))

end RestStore.Constraint
