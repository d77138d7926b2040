import Mathlib.Data.List.Forall2
import RestStore.Proofs.Constraint.Order
import RestStore.Proofs.Constraint.Region

/-!
# One order of the axes

The geographic operators read points through readers of their own: an envelope or a bare object for
`$nearSphere`, a box and an intersection, an envelope or a bare pair for the regions. A bare pair
has the longitude first already, and a stored pair has it first, too. `longitude_first` says that a
point comes out of every operator as the pair that is stored for it.

* `GeoPoint.IsEnvelope`, `GeoPoint.Spells` — how a request gives a point.
* `pointOperand_envelope`, `center?_spelled`, `vertex_spelled` — one lemma for each reader.
* `vertices_spelled` — a polygon depends on its points only, and not on their spelling.
* `region_respelled` — so regions with the same points compile alike.
-/

set_option autoImplicit false

namespace RestStore

namespace GeoPoint

/-- The bare pair of a point in a request, longitude first. -/
def pair (point : GeoPoint) : Rest := .array [.number point.longitude, .number point.latitude]

/-- A value is an envelope of a point. -/
inductive IsEnvelope (point : GeoPoint) : Rest → Prop
  | intro {members : Fields Rest} (htag : (Rest.object members).hasTag kind = true)
    (hmembers : ofEnvelope members = .ok point) : IsEnvelope point (.object members)

/-- A value spells a point where both spellings are read. -/
inductive Spells (point : GeoPoint) : Rest → Prop
  | envelope {value : Rest} (h : point.IsEnvelope value) : Spells point value
  | pair : Spells point point.pair

theorem isEnvelope_toEnvelope (point : GeoPoint) : point.IsEnvelope point.toEnvelope :=
  .intro rfl rfl

end GeoPoint

namespace Constraint

/-- Operands of a region that differ in the spelling of their points only. -/
inductive Respelled (operand other : Rest) : Prop
  | center {point : GeoPoint} {value : Rest} {rest : List Rest} (hvalue : point.IsEnvelope value)
    (hpolygon : other.get? "$polygon" = operand.get? "$polygon")
    (hoperand : operand.get? "$centerSphere" = some (.array (value :: rest)))
    (hother : other.get? "$centerSphere" = some (.array (point.pair :: rest)))
  | polygon {points : List GeoPoint} {values : List Rest}
    (hvalues : List.Forall₂ GeoPoint.IsEnvelope points values)
    (hcenter : other.get? "$centerSphere" = operand.get? "$centerSphere")
    (hoperand : operand.get? "$polygon" = some (.array values))
    (hother : other.get? "$polygon" = some (.array (points.map GeoPoint.pair)))

/-- Every point of a constraint stands in its document with the longitude first. -/
structure LongitudeFirst (scope : Scope) (members : Fields Rest) (compiled : Document) : Prop where
  /-- The point from which a find orders. -/
  near : ∀ {value : Rest} {point : GeoPoint}, scope.count = false →
    Fields.get? members ConstraintOperator.nearSphere.token = some value →
      point.IsEnvelope value →
        Fields.get? compiled ConstraintOperator.nearSphere.token = some point.toNative
  /-- The centre of the sphere of a count. A region that is given beside the point takes its place
  in the document. -/
  folded : ∀ {value : Rest} {point : GeoPoint}, scope.count = true →
    Fields.get? members ConstraintOperator.nearSphere.token = some value →
      point.IsEnvelope value → ∃ distance,
        entry? scope members .nearSphere value = .ok (some (ConstraintOperator.geoWithin.token,
          .document (sphere point.toNative distance))) ∧
        (Fields.contains members ConstraintOperator.geoWithin.token = false →
          Fields.get? compiled ConstraintOperator.geoWithin.token =
            some (.document (sphere point.toNative distance)))
  /-- The corners of a box. -/
  box : ∀ {operand : Rest} {corners : List Rest},
    Fields.get? members ConstraintOperator.within.token = some operand →
      operand.get? "$box" = some (.array corners) → ∃ natives,
        Fields.get? compiled ConstraintOperator.within.token =
          some (.document [("$box", .array natives)]) ∧
        List.Forall₂ (fun corner native =>
          ∀ point : GeoPoint, point.IsEnvelope corner → native = point.toNative) corners natives
  /-- The point of an intersection. -/
  intersection : ∀ {operand value : Rest} {point : GeoPoint},
    Fields.get? members ConstraintOperator.geoIntersects.token = some operand →
      operand.get? "$point" = some value → point.IsEnvelope value →
        Fields.get? compiled ConstraintOperator.geoIntersects.token =
          some (.document [("$geometry",
            .document [("type", .string "Point"), ("coordinates", point.toNative)])])
  /-- The centre of a spherical region. -/
  center : ∀ {operand value : Rest} {rest : List Rest} {point : GeoPoint},
    Fields.get? members ConstraintOperator.geoWithin.token = some operand →
      operand.get? "$centerSphere" = some (.array (value :: rest)) → point.Spells value →
        ∃ distance, Fields.get? compiled ConstraintOperator.geoWithin.token =
          some (.document (sphere point.toNative distance))
  /-- The vertices of a polygon. -/
  polygon : ∀ {operand : Rest} {values : List Rest} {points : List GeoPoint},
    Fields.get? members ConstraintOperator.geoWithin.token = some operand →
      operand.get? "$polygon" = some (.array values) →
        List.Forall₂ GeoPoint.Spells points values →
          Fields.get? compiled ConstraintOperator.geoWithin.token =
            some (.document [("$polygon", .array (points.map GeoPoint.toNative))])

section

variable {point : GeoPoint} {value : Rest}

/-! ## Readers -/

theorem pointOperand_envelope (fault : ConstraintFault) (h : point.IsEnvelope value) :
    pointOperand fault value = .ok point := by
  cases h with
  | intro htag hmembers => simp [pointOperand, htag, hmembers]

theorem taggedPoint?_envelope (h : point.IsEnvelope value) : taggedPoint? value = some point := by
  cases h with
  | intro htag hmembers => simp [taggedPoint?, htag, hmembers, Except.toOption]

theorem center?_spelled (h : point.Spells value) : center? value = some point := by
  cases h with
  | envelope h =>
    have htagged := taggedPoint?_envelope h
    cases h
    exact htagged
  | pair => rfl

/-- **A vertex** is the stored pair of its point, which must lie on the globe. -/
theorem vertex_spelled (h : point.Spells value) : vertex value = globePair point := by
  cases h with
  | envelope h =>
    have htagged := taggedPoint?_envelope h
    cases h
    simp only [vertex, htagged]
  | pair => rfl

theorem globePair_eq_ok {native : Native} (h : globePair point = .ok native) :
    native = point.toNative := by
  obtain ⟨_, _, hnative⟩ := Outcome.map_eq_ok.1 h
  exact hnative.symm

/-- **The vertices of a polygon** depend on its points, not on their spelling. -/
theorem vertices_spelled {points : List GeoPoint} {values : List Rest}
    (h : List.Forall₂ GeoPoint.Spells points values) :
    vertices values = vertices (points.map GeoPoint.pair) := by
  induction h with
  | nil => rfl
  | cons hvalue _ ih =>
    simp only [List.map_cons, vertices, vertex_spelled hvalue, vertex_spelled .pair, ih]

/-- Bare pairs are the pairs of an envelope of the points with their axes exchanged. -/
theorem vertices_pair {points : List GeoPoint} {natives : List Native}
    (h : vertices (points.map GeoPoint.pair) = .ok natives) :
    natives = points.map GeoPoint.toNative := by
  have hpairs : points.map GeoPoint.pair =
      (points.map GeoPoint.transposed).map Polygon.vertexToRest := by
    rw [List.map_map]
    rfl
  rw [hpairs] at h
  rw [(vertices_pairs h).1, List.map_map]
  rfl

/-! ## Regions -/

theorem polygonRegion_array (values : List Rest) : polygonRegion (.array values) =
    if 3 ≤ values.length then (vertices values).map fun natives => [("$polygon", .array natives)]
    else .error (.constraint (.region .fewVertices)) := by
  unfold polygonRegion polygonPoints
  by_cases hlength : 3 ≤ values.length
  · simp only [if_pos hlength]
  · simp only [if_neg hlength]

theorem polygonRegion_spelled {points : List GeoPoint} {values : List Rest}
    (h : List.Forall₂ GeoPoint.Spells points values) :
    polygonRegion (.array values) = polygonRegion (.array (points.map GeoPoint.pair)) := by
  rw [polygonRegion_array, polygonRegion_array, vertices_spelled h, List.length_map, h.length_eq]

theorem polygonRegion_eq_ok {points : List GeoPoint} {values : List Rest} {compiled : Document}
    (h : List.Forall₂ GeoPoint.Spells points values)
    (hc : polygonRegion (.array values) = .ok compiled) :
    compiled = [("$polygon", .array (points.map GeoPoint.toNative))] := by
  rw [polygonRegion_spelled h, polygonRegion_array] at hc
  split at hc
  · obtain ⟨natives, hnatives, rfl⟩ := Outcome.map_eq_ok.1 hc
    rw [vertices_pair hnatives]
  · cases hc

theorem sphereRegion_spelled (h : point.Spells value) (rest : List Rest) :
    sphereRegion (.array (value :: rest)) = sphereRegion (.array (point.pair :: rest)) := by
  cases rest with
  | nil => rfl
  | cons radius rest => simp only [sphereRegion, center?_spelled h, center?_spelled .pair]

theorem sphereRegion_eq_ok {rest : List Rest} {compiled : Document} (h : point.Spells value)
    (hc : sphereRegion (.array (value :: rest)) = .ok compiled) :
    ∃ distance, compiled = sphere point.toNative distance := by
  cases rest with
  | nil => cases hc
  | cons radius rest =>
    simp only [sphereRegion, center?_spelled h] at hc
    split at hc
    · cases hc
    · rename_i pair hpair
      split at hc
      · cases hc
        exact ⟨_, by rw [globePair_eq_ok hpair]⟩
      · cases hc

/-- A region with a sphere is that sphere. -/
theorem region_sphere {operand given : Rest} {compiled : Document}
    (hs : operand.get? "$centerSphere" = some given) (h : region operand = .ok compiled) :
    sphereRegion given = .ok compiled := by
  unfold region at h
  rw [hs] at h
  split at h
  · rename_i he
    cases he
  · rename_i he
    cases he
    exact h
  · cases h

/-- **Regions with the same points** compile alike, however the points are spelled. -/
theorem region_respelled {operand other : Rest} (h : Respelled operand other) :
    region operand = region other := by
  cases h with
  | center hvalue hpolygon hoperand hother =>
    simp only [region, hpolygon, hoperand, hother]
    cases operand.get? "$polygon" with
    | none => exact sphereRegion_spelled (.envelope hvalue) _
    | some polygon => rfl
  | polygon hvalues hcenter hoperand hother =>
    simp only [region, hcenter, hoperand, hother]
    cases operand.get? "$centerSphere" with
    | none => exact polygonRegion_spelled (hvalues.imp fun _ _ h => .envelope h)
    | some sphere => rfl

/-! ## Boxes and intersections -/

theorem box_eq_ok {operand : Rest} {corners : List Rest} {compiled : Document}
    (hcorners : operand.get? "$box" = some (.array corners)) (h : box operand = .ok compiled) :
    ∃ natives, compiled = [("$box", .array natives)] ∧
      List.Forall₂ (fun corner native =>
        ∀ point : GeoPoint, point.IsEnvelope corner → native = point.toNative) corners natives := by
  have hread : ∀ {corner : Rest} {read : GeoPoint}, pointOperand .within corner = .ok read →
      ∀ point : GeoPoint, point.IsEnvelope corner → read.toNative = point.toNative := by
    intro corner read hc point hpoint
    rw [pointOperand_envelope _ hpoint] at hc
    cases hc
    rfl
  unfold box at h
  rw [hcorners] at h
  split at h
  · rename_i first second he
    cases he
    split at h
    · cases h
    · rename_i start hstart
      obtain ⟨stop, hstop, rfl⟩ := Outcome.map_eq_ok.1 h
      exact ⟨_, rfl, .cons (hread hstart) (.cons (hread hstop) .nil)⟩
  · cases h

theorem intersection_eq_ok {operand : Rest} {compiled : Document}
    (hvalue : operand.get? "$point" = some value) (hpoint : point.IsEnvelope value)
    (h : intersection operand = .ok compiled) :
    compiled = [("$geometry",
      .document [("type", .string "Point"), ("coordinates", point.toNative)])] := by
  unfold intersection at h
  split at h
  · cases h
  · rename_i given hgiven
    obtain rfl : given = value := by
      rw [hvalue, Option.filter_eq_some_iff] at hgiven
      exact (Option.some.inj hgiven.1).symm
    rw [pointOperand_envelope _ hpoint] at h
    obtain ⟨native, hnative, rfl⟩ := Outcome.map_eq_ok.1 h
    rw [globePair_eq_ok hnative]

end

/-! ## Whole constraints -/

section

variable {scope : Scope} {members : Fields Rest} {compiled : Document} {operand : Rest}

/-- A region, a box or an intersection is held under its own name. -/
theorem get?_own {operator : ConstraintOperator} {made : Rest → Except Failure Document}
    (hown : ∀ operand, entry? scope members operator operand =
      own operator ((made operand).map .document))
    (hname : operator.compiledName? scope.count = some operator.token)
    (hlater : ∀ other ∈ operator.later, other.compiledName? scope.count ≠ some operator.token)
    (h : compile? scope (.object members) = .ok (some compiled))
    (hget : Fields.get? members operator.token = some operand) :
    ∃ document, made operand = .ok document ∧
      Fields.get? compiled operator.token = some (.document document) := by
  obtain ⟨native, hentry, hheld⟩ := get?_compiled h hget hname
  rw [hown] at hentry
  obtain ⟨_, hmade, he⟩ := own_eq_ok hentry
  cases he
  obtain ⟨document, hdocument, rfl⟩ := Outcome.map_eq_ok.1 hmade
  exact ⟨document, hdocument, hheld fun other hother _ => hlater other hother⟩

theorem get?_geoWithin (h : compile? scope (.object members) = .ok (some compiled))
    (hget : Fields.get? members ConstraintOperator.geoWithin.token = some operand) :
    ∃ document, region operand = .ok document ∧
      Fields.get? compiled ConstraintOperator.geoWithin.token = some (.document document) := by
  refine get?_own (fun _ => rfl) rfl ?_ h hget
  cases scope.count <;> decide

theorem get?_within (h : compile? scope (.object members) = .ok (some compiled))
    (hget : Fields.get? members ConstraintOperator.within.token = some operand) :
    ∃ document, box operand = .ok document ∧
      Fields.get? compiled ConstraintOperator.within.token = some (.document document) := by
  refine get?_own (fun _ => rfl) rfl ?_ h hget
  cases scope.count <;> decide

theorem get?_geoIntersects (h : compile? scope (.object members) = .ok (some compiled))
    (hget : Fields.get? members ConstraintOperator.geoIntersects.token = some operand) :
    ∃ document, intersection operand = .ok document ∧
      Fields.get? compiled ConstraintOperator.geoIntersects.token = some (.document document) := by
  refine get?_own (fun _ => rfl) rfl ?_ h hget
  cases scope.count <;> decide

/-- The point of a find. -/
theorem get?_near_finding {value : Rest} {point : GeoPoint} (hfind : scope.count = false)
    (h : compile? scope (.object members) = .ok (some compiled))
    (hget : Fields.get? members ConstraintOperator.nearSphere.token = some value)
    (hpoint : point.IsEnvelope value) :
    Fields.get? compiled ConstraintOperator.nearSphere.token = some point.toNative := by
  have hname : ConstraintOperator.nearSphere.compiledName? scope.count =
      some ConstraintOperator.nearSphere.token := by
    rw [hfind]
    rfl
  have hlater : ∀ other ∈ ConstraintOperator.nearSphere.later,
      other.compiledName? scope.count ≠ some ConstraintOperator.nearSphere.token := by
    rw [hfind]
    decide
  obtain ⟨native, hentry, hheld⟩ := get?_compiled h hget hname
  simp only [ entry?, near, pointOperand_envelope _ hpoint, hfind] at hentry
  cases hentry
  exact hheld fun other hother _ => hlater other hother

/-- The point of a count, with a distance. -/
theorem entry_near_counting {value : Rest} {point : GeoPoint} (hcount : scope.count = true)
    (h : compile? scope (.object members) = .ok (some compiled))
    (hget : Fields.get? members ConstraintOperator.nearSphere.token = some value)
    (hpoint : point.IsEnvelope value) :
    ∃ distance,
      entry? scope members .nearSphere value = .ok (some (ConstraintOperator.geoWithin.token,
        .document (sphere point.toNative distance))) ∧
      (Fields.contains members ConstraintOperator.geoWithin.token = false →
        Fields.get? compiled ConstraintOperator.geoWithin.token =
          some (.document (sphere point.toNative distance))) := by
  have hname : ConstraintOperator.nearSphere.compiledName? scope.count =
      some ConstraintOperator.geoWithin.token := by
    rw [hcount]
    rfl
  have hlater : ∀ other ∈ ConstraintOperator.nearSphere.later,
      other.compiledName? scope.count = some ConstraintOperator.geoWithin.token →
        other = .geoWithin := by
    rw [hcount]
    decide
  obtain ⟨native, hentry, hheld⟩ := get?_compiled h hget hname
  obtain ⟨placed, hplaced, he⟩ := Outcome.map_eq_ok.1 hentry
  simp only [near, pointOperand_envelope _ hpoint, hcount, if_true] at hplaced
  obtain ⟨distance, _, rfl⟩ := Outcome.map_eq_ok.1 hplaced
  cases he
  refine ⟨distance, hentry, fun hno => hheld fun other hother hin htaken => ?_⟩
  rw [hlater other hother htaken, hno] at hin
  cases hin

/-- **One order of the axes.** In every constraint that compiles, a point that is given as an
envelope stands as the pair that is stored for it, longitude first: for a find, in the sphere of a
count, in a box, in an intersection and in both regions. A bare pair in a region is the same point,
so an operand with bare pairs compiles as the one with envelopes does. -/
theorem longitude_first (h : compile? scope (.object members) = .ok (some compiled)) :
    LongitudeFirst scope members compiled ∧
      ∀ {operand other : Rest}, Respelled operand other → region other = region operand := by
  refine ⟨⟨?_, ?_, ?_, ?_, ?_, ?_⟩, fun hrespelled => (region_respelled hrespelled).symm⟩
  · exact fun hfind hget hpoint => get?_near_finding hfind h hget hpoint
  · exact fun hcount hget hpoint => entry_near_counting hcount h hget hpoint
  · intro operand corners hget hcorners
    obtain ⟨document, hbox, hheld⟩ := get?_within h hget
    obtain ⟨natives, rfl, hnatives⟩ := box_eq_ok hcorners hbox
    exact ⟨natives, hheld, hnatives⟩
  · intro operand value point hget hvalue hpoint
    obtain ⟨document, hintersection, hheld⟩ := get?_geoIntersects h hget
    rwa [intersection_eq_ok hvalue hpoint hintersection] at hheld
  · intro operand value rest point hget hvalue hpoint
    obtain ⟨document, hregion, hheld⟩ := get?_geoWithin h hget
    obtain ⟨distance, rfl⟩ := sphereRegion_eq_ok hpoint (region_sphere hvalue hregion)
    exact ⟨distance, hheld⟩
  · intro operand values points hget hvalues hpoints
    obtain ⟨document, hregion, hheld⟩ := get?_geoWithin h hget
    rwa [polygonRegion_eq_ok hpoints (region_polygon hvalues hregion)] at hheld

end

/-- A harbor, by latitude and longitude. -/
def harbor : GeoPoint := ⟨.integer 10, .integer 20⟩

/-- A pier of the harbor. -/
def pier : GeoPoint := ⟨.integer 11, .integer 22⟩

/-- A lighthouse before the harbor. -/
def lighthouse : GeoPoint := ⟨.integer 9, .integer 23⟩

/-- The harbor in the store's form. -/
def storedHarbor : Native := .array [.int32 20, .int32 10]

/-- The pier in the store's form. -/
def storedPier : Native := .array [.int32 22, .int32 11]

/-- The lighthouse in the store's form. -/
def storedLighthouse : Native := .array [.int32 23, .int32 9]

/-- What lies near the harbor. -/
def nearHarbor : Fields Rest :=
  [("$nearSphere", harbor.toEnvelope), ("$maxDistance", .number (.integer 1))]

/-- What lies near the harbor, in a box, in a polygon and across the pier. -/
def aroundHarbor : Fields Rest :=
  nearHarbor ++
    [("$within", .object [("$box", .array [harbor.toEnvelope, pier.toEnvelope])]),
      ("$geoIntersects", .object [("$point", pier.toEnvelope)]),
      ("$geoWithin", .object [("$polygon",
        .array [harbor.toEnvelope, pier.pair, lighthouse.toEnvelope])])]

/-- What a find looks for around the harbor. -/
def foundAroundHarbor : Document :=
  [("$within", .document [("$box", .array [storedHarbor, storedPier])]),
    ("$nearSphere", storedHarbor), ("$maxDistance", .int32 1),
    ("$geoWithin",
      .document [("$polygon", .array [storedHarbor, storedPier, storedLighthouse])]),
    ("$geoIntersects", .document [("$geometry",
      .document [("type", .string "Point"), ("coordinates", storedPier)])])]

/-- What a count looks for near the harbor. -/
def countedNearHarbor : Document :=
  [("$geoWithin", .document (sphere storedHarbor (.int32 1)))]

/-- A sphere around the harbor. -/
def sphereAround (center : Rest) : Rest :=
  .object [("$centerSphere", .array [center, .number (.integer 3)])]

theorem longitude_first_harbor :
    compile? shoreScope.finding (.object aroundHarbor) = .ok (some foundAroundHarbor) ∧
      LongitudeFirst shoreScope.finding aroundHarbor foundAroundHarbor ∧
      compile? shoreScope.counting (.object nearHarbor) = .ok (some countedNearHarbor) ∧
      LongitudeFirst shoreScope.counting nearHarbor countedNearHarbor ∧
      region (sphereAround harbor.toEnvelope) = .ok (sphere storedHarbor (.int32 3)) ∧
      region (sphereAround harbor.pair) = region (sphereAround harbor.toEnvelope) := by
  have hfound : compile? shoreScope.finding (.object aroundHarbor) =
      .ok (some foundAroundHarbor) := rfl
  have hcounted : compile? shoreScope.counting (.object nearHarbor) =
      .ok (some countedNearHarbor) := rfl
  obtain ⟨hfinding, halike⟩ := longitude_first hfound
  exact ⟨hfound, hfinding, hcounted, (longitude_first hcounted).1, rfl,
    halike (.center harbor.isEnvelope_toEnvelope rfl rfl rfl)⟩

end Constraint

end RestStore
