import RestStore.Calendar.Phrase
import RestStore.Double.Layout
import RestStore.Rest.Printer

/-!
# Failures

Why a value, object, query or document is refused. A failure names its cause; what a client is
told follows from the cause:

* `Failure.kind` is the stable class, with a number (`FailureKind.code`),
* `Failure.origin` is the part that found the fault,
* `Failure.message` is the text, and `Failure.report` the three together on one line.
-/

set_option autoImplicit false

namespace RestStore

/-- The classes of failures that clients tell apart. -/
inductive FailureKind where
  | invalidJson
  | invalidNestedKey
  | invalidKeyName
  | commandUnavailable
  | internal
deriving DecidableEq, Repr

/-- The word for a class. -/
def FailureKind.word : FailureKind → String
  | invalidJson => "invalid_json"
  | invalidNestedKey => "invalid_nested_key"
  | invalidKeyName => "invalid_key_name"
  | commandUnavailable => "command_unavailable"
  | internal => "internal"

/-- The number for a class. -/
def FailureKind.code : FailureKind → Nat
  | internal => 1
  | invalidKeyName => 105
  | invalidJson => 107
  | commandUnavailable => 108
  | invalidNestedKey => 121

/-- The parts that find faults. -/
inductive Origin where
  | acl
  | codec
  | decode
  | object
  | query
  | constraint
  | update
  | value
deriving DecidableEq, Repr

/-- The word for a part. -/
def Origin.word : Origin → String
  | acl => "acl"
  | codec => "codec"
  | decode => "decode"
  | object => "object"
  | query => "query"
  | constraint => "constraint"
  | update => "update"
  | value => "value"

/-- Faults in the permissions of an object. -/
inductive PermissionFault where
  | notObject
  | entryNotObject (id : String)
  | flagNotBoolean (flag id : String)
  | notIdList (key : String)
deriving DecidableEq, Repr

def PermissionFault.message : PermissionFault → String
  | notObject => "ACL must be an object"
  | entryNotObject id => "invalid ACL entry for '" ++ id ++ "'"
  | flagNotBoolean flag id => "ACL " ++ flag ++ " permission for '" ++ id ++ "' must be a boolean"
  | notIdList key => key ++ " must be an array of strings"

/-- The four bounds of the globe. -/
inductive CoordinateBound where
  | south
  | north
  | west
  | east
deriving DecidableEq, Repr

/-- Faults in tagged values. -/
inductive AtomFault where
  | missingText (kind field : String)
  | missingNumber (kind field : String)
  | badPairs
  | badFileUrl
  | unreadableDate (text : String)
  | unreadableBase64
  | notCoordinates
  | outOfBounds (bound : CoordinateBound) (coordinate : Double)
  | degenerateRing
deriving DecidableEq, Repr

def AtomFault.message : AtomFault → String
  | missingText kind field => kind ++ " requires a string " ++ field
  | missingNumber kind field => kind ++ " requires a numeric " ++ field
  | badPairs => "Polygon requires coordinates as [lat, lng] pairs"
  | badFileUrl => "File url must be a string"
  | unreadableDate text => "invalid date: '" ++ text ++ "'"
  | unreadableBase64 => "invalid base64 bytes:"
  | notCoordinates => "GeoPoint latitude and longitude must be valid numbers"
  | outOfBounds .south x => "GeoPoint latitude out of bounds: " ++ x.plain ++ " < -90.0."
  | outOfBounds .north x => "GeoPoint latitude out of bounds: " ++ x.plain ++ " > 90.0."
  | outOfBounds .west x => "GeoPoint longitude out of bounds: " ++ x.plain ++ " < -180.0."
  | outOfBounds .east x => "GeoPoint longitude out of bounds: " ++ x.plain ++ " > 180.0."
  | degenerateRing => "GeoJSON: Loop must have at least 3 different vertices"

/-- Faults in the shape of a REST value. -/
inductive ShapeFault where
  | badRegex (operand : Rest)
  | unknownTag (tag : Rest)
  | uncleanKey
deriving Repr

def ShapeFault.message : ShapeFault → String
  | badRegex operand => "bad regex: " ++ operand.compact
  | unknownTag tag => "invalid __type: " ++ tag.compact
  | uncleanKey => "Nested keys should not contain the '$' or '.' characters"

/-- Faults in an object to be created. -/
inductive ObjectFault where
  | badDate (key : String) (value : Rest)
  | queryOnly (key : String)
deriving Repr

def ObjectFault.message : ObjectFault → String
  | badDate key value => "bad date value for " ++ key ++ ": " ++ value.compact
  | queryOnly key => "can only query on " ++ key

/-- Faults in a where clause. -/
inductive QueryFault where
  | combinatorNotArray (key : String)
  | combinatorItem (key : String)
  | unusable (value : Rest)
deriving Repr

def QueryFault.message : QueryFault → String
  | combinatorNotArray key => "bad " ++ key ++ " format - use an array value"
  | combinatorItem key => "bad " ++ key ++ " format - use an array of objects"
  | unusable value => "You cannot use " ++ value.compact ++ " as a query parameter."

/-- Faults in the operand of `$geoWithin`. -/
inductive RegionFault where
  | fewEnvelopeVertices
  | fewVertices
  | notPolygon
  | badVertex
  | notSphere
  | badCenter
  | badRadius
  | notOneRegion
deriving DecidableEq, Repr

def RegionFault.message : RegionFault → String
  | fewEnvelopeVertices =>
    "bad $geoWithin value; Polygon.coordinates should contain at least 3 lon/lat pairs"
  | fewVertices => "bad $geoWithin value; $polygon should contain at least 3 GeoPoints"
  | notPolygon =>
    "bad $geoWithin value; $polygon should be Polygon object or Array of GeoPoints"
  | badVertex => "bad $geoWithin value"
  | notSphere =>
    "bad $geoWithin value; $centerSphere should be an array of GeoPoint and distance"
  | badCenter => "bad $geoWithin value; $centerSphere geo point invalid"
  | badRadius => "bad $geoWithin value; $centerSphere distance invalid"
  | notOneRegion => "bad $geoWithin value; expected exactly one of $polygon or $centerSphere"

/-- Faults in the operand of `$text`. -/
inductive TextFault where
  | search
  | term
  | language
  | flag (name : String)
deriving DecidableEq, Repr

def TextFault.message : TextFault → String
  | search => "bad $text: $search, should be object"
  | term => "bad $text: $term, should be string"
  | language => "bad $text: $language, should be string"
  | flag name => "bad $text: " ++ name ++ ", should be boolean"

/-- Faults in the constraint on a field. -/
inductive ConstraintFault where
  | unknownOperator (token : String)
  | notList (token : String)
  | mixedRegexes (operand : Rest)
  | badRegex (operand : Rest)
  | containedByNotList
  | unsupported (token : String)
  | relativeTimeField
  | relativeTimeOperator
  | relativeTimeNotText (token : String)
  | relativeTimePhrase (token : String) (fault : PhraseFault)
  | badAtom (value : Rest)
  | nearSphere
  | countWithoutDistance
  | distanceNotNumber (token : String)
  | within
  | geoIntersects
  | region (fault : RegionFault)
  | text (fault : TextFault)
deriving Repr

def ConstraintFault.message : ConstraintFault → String
  | unknownOperator token => "bad constraint: " ++ token
  | notList token => "bad " ++ token ++ " value"
  | mixedRegexes operand => "All $all values must be of regex type or none: " ++ operand.compact
  | badRegex operand => "bad regex: " ++ operand.compact
  | containedByNotList => "bad $containedBy: should be an array"
  | unsupported token => "the " ++ token ++ " constraint is not supported yet"
  | relativeTimeField => "$relativeTime can only be used with Date field"
  | relativeTimeOperator =>
    "$relativeTime can only be used with the $lt, $lte, $gt, and $gte operators"
  | relativeTimeNotText token =>
    "bad $relativeTime (" ++ token ++ ") value. Time should be a string"
  | relativeTimePhrase token fault =>
    "bad $relativeTime (" ++ token ++ ") value. " ++ fault.message
  | badAtom value => "bad atom: " ++ value.compact
  | nearSphere => "bad $nearSphere value; should be GeoPoint"
  | countWithoutDistance => "bad $nearSphere value; a count query requires $maxDistance"
  | distanceNotNumber token => "bad " ++ token ++ " value; should be a number"
  | within => "malformatted $within arg"
  | geoIntersects => "bad $geoIntersect value; $point should be GeoPoint"
  | region fault => fault.message
  | text fault => fault.message

/-- Faults in an update operation. -/
inductive OperationFault where
  | amountNotNumber
  | addNotList
  | removeNotList
  | unsupported (shown : String)
deriving DecidableEq, Repr

def OperationFault.message : OperationFault → String
  | amountNotNumber => "incrementing must provide a number"
  | addNotList => "objects to add must be an array"
  | removeNotList => "objects to remove must be an array"
  | unsupported shown => "The " ++ shown ++ " operator is not supported yet."

/-- Faults in a stored document. -/
inductive DecodeFault where
  | badPointerText (text : String)
  | badPointerColumn (field : String)
  | wrongTarget
  | badId (elementType : String)
  | badDate (column : String)
  | unknownColumn (column : String)
  | badNested (elementType : String)
deriving DecidableEq, Repr

def DecodeFault.message : DecodeFault → String
  | badPointerText text => "invalid pointer string: '" ++ text ++ "'"
  | badPointerColumn field => "bad pointer value in column " ++ field
  | wrongTarget => "pointer to incorrect className"
  | badId elementType => "bad _id value: " ++ elementType
  | badDate column => "bad date value in " ++ column
  | unknownColumn column => "bad key in untransform: " ++ column
  | badNested elementType => "bad value in nested decode: " ++ elementType

/-- Why an input is refused. -/
inductive Failure where
  | tooDeep (origin : Origin) (bound : Nat)
  | notIntegerId (origin : Origin) (value : Rest)
  | permission (fault : PermissionFault)
  | atom (fault : AtomFault)
  | shape (fault : ShapeFault)
  | object (fault : ObjectFault)
  | query (fault : QueryFault)
  | constraint (fault : ConstraintFault)
  | operation (fault : OperationFault)
  | decode (fault : DecodeFault)
deriving Repr

namespace Failure

/-- The class of a failure. -/
def kind : Failure → FailureKind
  | tooDeep _ _ | notIntegerId _ _ | permission _ | query _ => .invalidJson
  | atom .degenerateRing => .internal
  | atom _ => .invalidJson
  | shape .uncleanKey => .invalidNestedKey
  | shape _ => .invalidJson
  | object (.queryOnly _) => .invalidKeyName
  | object _ => .invalidJson
  | constraint (.unsupported _) => .commandUnavailable
  | constraint _ => .invalidJson
  | operation (.unsupported _) => .commandUnavailable
  | operation _ => .invalidJson
  | decode _ => .internal

/-- The part that found the fault. -/
def origin : Failure → Origin
  | tooDeep origin _ => origin
  | notIntegerId origin _ => origin
  | permission _ => .acl
  | atom _ => .codec
  | shape _ => .value
  | object _ => .object
  | query _ => .query
  | constraint _ => .constraint
  | operation _ => .update
  | decode _ => .decode

/-- What the client is told. -/
def message : Failure → String
  | tooDeep _ bound => "value nesting exceeds the maximum depth of " ++ toString bound
  | notIntegerId _ value => "objectId must be an integer: " ++ value.compact
  | permission fault => fault.message
  | atom fault => fault.message
  | shape fault => fault.message
  | object fault => fault.message
  | query fault => fault.message
  | constraint fault => fault.message
  | operation fault => fault.message
  | decode fault => fault.message

/-- Origin, class and message on one line. -/
def report (failure : Failure) : String :=
  failure.origin.word ++ ":" ++ failure.kind.word ++ ": " ++ failure.message

end Failure

end RestStore
