import RestStore.Atom.GeoPoint

/-!
# Polygons

A polygon as a tagged object with latitude–longitude pairs, and as a stored document with one ring
of longitude–latitude pairs.

* `Polygon.ring` closes the list of points and requires three different ones, compared as doubles.
* Reading a stored polygon swaps the axes back and checks each point; the closing point stays.
-/

set_option autoImplicit false

namespace RestStore

/-- A polygon by its vertices. -/
structure Polygon where
  vertices : List GeoPoint
deriving DecidableEq, Repr

/-- Whether two points have the same coordinates as doubles. -/
def GeoPoint.same (a b : GeoPoint) : Bool :=
  a.latitude.toDouble.same b.latitude.toDouble && a.longitude.toDouble.same b.longitude.toDouble

namespace Polygon

/-- The kind of the envelope, and of the stored document. -/
def kind : String := "Polygon"

/-- The points that differ from all points before them. -/
def distinct (points : List GeoPoint) : List GeoPoint :=
  points.foldl (fun seen point => if seen.any (·.same point) then seen else seen ++ [point]) []

/-- The points with the first one repeated at the end, unless it stands there already. -/
def closed (points : List GeoPoint) : List GeoPoint :=
  match points.head?, points.getLast? with
  | some first, some last => if first.same last then points else points ++ [first]
  | _, _ => points

/-- The closed ring of a polygon with at least three different vertices. -/
def ring (polygon : Polygon) : Except Failure (List GeoPoint) :=
  let points := closed polygon.vertices
  if (distinct points).length < 3 then .error (.atom .degenerateRing) else .ok points

/-- The vertices of an envelope. -/
def verticesOfRest? : List Rest → Option (List GeoPoint)
  | [] => some []
  | .array [.number latitude, .number longitude] :: rest =>
    (verticesOfRest? rest).map fun vertices => ⟨latitude, longitude⟩ :: vertices
  | _ => none

def ofEnvelope (members : Fields Rest) : Except Failure Polygon :=
  match Fields.get? members "coordinates" with
  | some (.array points) =>
    match verticesOfRest? points with
    | some vertices => .ok ⟨vertices⟩
    | none => .error (.atom .badPairs)
  | _ => .error (.atom .badPairs)

/-- The pair of a vertex in an envelope, latitude first. -/
def vertexToRest (point : GeoPoint) : Rest :=
  .array [.number point.latitude, .number point.longitude]

def toEnvelope (polygon : Polygon) : Rest :=
  .tagged kind [("coordinates", .array (polygon.vertices.map vertexToRest))]

/-- The stored document of a ring. -/
def documentOfRing (points : List GeoPoint) : Native :=
  .document [("type", .string kind), ("coordinates", .array [.array (points.map (·.toNative))])]

def toNative (polygon : Polygon) : Except Failure Native :=
  (ring polygon).map documentOfRing

/-- The points of a stored ring; the first one that is no pair, or not on the globe, decides. -/
def verticesOfNative? : List Native → Except Failure (Option (List GeoPoint))
  | [] => .ok (some [])
  | pair :: rest =>
    match GeoPoint.ofNative? pair with
    | none => .ok none
    | some point =>
      match point.validate with
      | .error failure => .error failure
      | .ok () => (verticesOfNative? rest).map fun vertices => vertices.map (point :: ·)

/-- The ring of a stored polygon document. -/
def storedRing? (columns : Document) : Option (List Native) :=
  match Fields.get? columns "type", Fields.get? columns "coordinates" with
  | some (.string type), some (.array (.array points :: _)) =>
    if type = kind then some points else none
  | _, _ => none

def ofNative? : Native → Except Failure (Option Polygon)
  | .document columns =>
    match storedRing? columns with
    | none => .ok none
    | some points => (verticesOfNative? points).map fun vertices => vertices.map Polygon.mk
  | _ => .ok none

end Polygon

end RestStore
