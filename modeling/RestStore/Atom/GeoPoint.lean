import RestStore.Atom.Fields
import RestStore.Native.Basic

/-!
# Geographic points

A point as a tagged object with latitude and longitude, and as a stored pair. The stored pair has
the longitude first, and so has every operand that the store's geographic operators take.

`checkCoordinates` refuses what is not on the globe: latitudes from -90 to 90 and longitudes from
-180 to 180.
-/

set_option autoImplicit false

namespace RestStore

/-- A point of the globe. -/
structure GeoPoint where
  latitude : Number
  longitude : Number
deriving DecidableEq, Repr

/-- Refuses coordinates outside the globe. -/
def checkCoordinates (latitude longitude : Double) : Except Failure Unit :=
  if latitude.isNaN || longitude.isNaN then .error (.atom .notCoordinates)
  else if latitude.lt (.ofInt (-90)) then .error (.atom (.outOfBounds .south latitude))
  else if Double.lt (.ofInt 90) latitude then .error (.atom (.outOfBounds .north latitude))
  else if longitude.lt (.ofInt (-180)) then .error (.atom (.outOfBounds .west longitude))
  else if Double.lt (.ofInt 180) longitude then .error (.atom (.outOfBounds .east longitude))
  else .ok ()

namespace GeoPoint

/-- The kind of the envelope. -/
def kind : String := "GeoPoint"

/-- A point from the members of an object, tagged or not. -/
def ofEnvelope (members : Fields Rest) : Except Failure GeoPoint :=
  match Envelope.number kind members "latitude" with
  | .error failure => .error failure
  | .ok latitude =>
    match Envelope.number kind members "longitude" with
    | .error failure => .error failure
    | .ok longitude => .ok ⟨latitude, longitude⟩

def toEnvelope (point : GeoPoint) : Rest :=
  .tagged kind [("latitude", .number point.latitude), ("longitude", .number point.longitude)]

/-- A point from a bare pair, longitude first. -/
def ofPair? : List Rest → Option GeoPoint
  | [.number longitude, .number latitude] => some ⟨latitude, longitude⟩
  | _ => none

/-- The stored pair, longitude first. -/
def toNative (point : GeoPoint) : Native :=
  .array [.ofNumber point.longitude, .ofNumber point.latitude]

def ofNative? : Native → Option GeoPoint
  | .array [longitude, latitude] => do
    let longitude ← longitude.number?
    let latitude ← latitude.number?
    pure ⟨latitude, longitude⟩
  | _ => none

/-- Refuses a point outside the globe. -/
def validate (point : GeoPoint) : Except Failure Unit :=
  checkCoordinates point.latitude.toDouble point.longitude.toDouble

end GeoPoint

end RestStore
