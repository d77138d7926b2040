import RestStore.Proofs.Native.Atoms
import RestStore.Where
import RestStore.Write.Create

/-!
# Polygons as regions

A polygon envelope lists its points latitude first. Stored, a point becomes a pair with the
longitude first. As the region of a query the envelope goes through the reader of bare pairs, which
takes the longitude to come first already, so a point is compiled with its axes exchanged.
`region_transposes` compares the two for every envelope: vertex by vertex they agree only for points
whose two coordinates are one number.

* `vertices_pairs` — how the pairs of an envelope are compiled.
* `traces_closed`, `traces_iff` — a ring goes through its vertices, and back to the first one.
-/

set_option autoImplicit false

namespace RestStore

/-- The point with its axes exchanged. -/
def GeoPoint.transposed (point : GeoPoint) : GeoPoint := ⟨point.longitude, point.latitude⟩

namespace Polygon

/-- A ring goes through the vertices in order, and maybe back to the first one. -/
def Traces (ring vertices : List Native) : Prop :=
  ring = vertices ∨ ∃ first, vertices.head? = some first ∧ ring = vertices ++ [first]

/-! ## Rings -/

theorem closed_cases (points : List GeoPoint) :
    closed points = points ∨
      ∃ first, points.head? = some first ∧ closed points = points ++ [first] := by
  unfold closed
  split
  · rename_i first last hfirst _
    split
    · exact .inl rfl
    · exact .inr ⟨first, hfirst, rfl⟩
  · exact .inl rfl

theorem traces_closed (form : GeoPoint → Native) (points : List GeoPoint) :
    Traces ((closed points).map form) (points.map form) := by
  rcases closed_cases points with hc | ⟨first, hfirst, hc⟩
  · exact .inl (by rw [hc])
  · refine .inr ⟨form first, ?_, ?_⟩
    · rw [List.head?_map, hfirst]
      rfl
    · rw [hc, List.map_append]
      rfl

/-- The closing vertex counts for nothing: a closed ring traces the vertices in another form just
when both forms agree on each point. -/
theorem traces_iff (form other : GeoPoint → Native) (points : List GeoPoint) :
    Traces ((closed points).map form) (points.map other) ↔
      ∀ point ∈ points, form point = other point := by
  rw [← List.map_inj_left]
  constructor
  · intro h
    rcases closed_cases points with hc | ⟨first, _, hc⟩ <;> rw [hc] at h <;>
      rcases h with h | ⟨closing, _, h⟩
    · exact h
    · have hlength := congrArg List.length h
      simp at hlength
    · have hlength := congrArg List.length h
      simp at hlength
    · rw [List.map_append] at h
      exact (List.append_inj' h rfl).1
  · intro h
    rw [← h]
    exact traces_closed form points

/-! ## Envelopes -/

theorem eq_map_of_verticesOfRest? : ∀ {items : List Rest} {points : List GeoPoint},
    verticesOfRest? items = some points → items = points.map vertexToRest
  | [], _, h => by
    cases h
    rfl
  | item :: rest, points, h => by
    unfold verticesOfRest? at h
    split at h
    · rename_i he
      cases he
    · rename_i latitude longitude later he
      cases he
      obtain ⟨others, ho, rfl⟩ := Option.map_eq_some_iff.1 h
      rw [List.map_cons, ← eq_map_of_verticesOfRest? ho]
      rfl
    · cases h

theorem ofEnvelope_eq_ok {members : Fields Rest} {polygon : Polygon}
    (h : ofEnvelope members = .ok polygon) :
    Fields.get? members "coordinates" = some (.array (polygon.vertices.map vertexToRest)) := by
  unfold ofEnvelope at h
  split at h
  · rename_i items hitems
    split at h
    · rename_i points hpoints
      cases h
      rw [hitems, eq_map_of_verticesOfRest? hpoints]
    · cases h
  · cases h

end Polygon

namespace Constraint

/-- **The pairs of an envelope** are compiled as they stand, each a point with the axes exchanged
that lies on the globe. -/
theorem vertices_pairs : ∀ {points : List GeoPoint} {natives : List Native},
    vertices (points.map Polygon.vertexToRest) = .ok natives →
      natives = points.map (fun point => point.transposed.toNative) ∧
        ∀ point ∈ points, point.transposed.validate = .ok ()
  | [], _, h => by
    cases h
    exact ⟨rfl, fun _ hm => nomatch hm⟩
  | point :: rest, natives, h => by
    rw [List.map_cons, vertices] at h
    split at h
    · cases h
    · rename_i native hv
      obtain ⟨later, hl, rfl⟩ := Outcome.map_eq_ok.1 h
      have hpair : globePair point.transposed = .ok native := hv
      obtain ⟨⟨⟩, hvalid, rfl⟩ := Outcome.map_eq_ok.1 hpair
      obtain ⟨rfl, hrest⟩ := vertices_pairs hl
      exact ⟨rfl, List.forall_mem_cons.2 ⟨hvalid, hrest⟩⟩

/-- The points of an envelope are its coordinates. -/
theorem polygonPoints_envelope {members : Fields Rest} {polygon : Polygon} {points : List Rest}
    (hp : Polygon.ofEnvelope members = .ok polygon)
    (h : polygonPoints (.object members) = .ok points) :
    points = polygon.vertices.map Polygon.vertexToRest := by
  have hget : (Rest.object members).get? "coordinates" =
      some (.array (polygon.vertices.map Polygon.vertexToRest)) := Polygon.ofEnvelope_eq_ok hp
  unfold polygonPoints at h
  dsimp only at h
  rw [hget] at h
  split at h
  · dsimp only at h
    split at h
    · cases h
      rfl
    · cases h
  · cases h

/-- A region with a polygon is that polygon. -/
theorem region_polygon {operand polygon : Rest} {compiled : Document}
    (hp : operand.get? "$polygon" = some polygon) (h : region operand = .ok compiled) :
    polygonRegion polygon = .ok compiled := by
  unfold region at h
  rw [hp] at h
  split at h
  · rename_i he _
    cases he
    exact h
  · rename_i he _
    cases he
  · cases h

/-- **A query takes the vertices of a polygon with their axes exchanged.** Of an envelope that is
accepted both as a stored value and as the region of a query, the stored ring traces the points with
the longitude first, and the region has the points in the same order with the latitude first. So the
ring traces the region just when the two coordinates of each point are stored alike. -/
theorem region_transposes {members : Fields Rest} {polygon : Polygon} {stored : Native}
    {operand : Rest} {compiled : Document} (hp : Polygon.ofEnvelope members = .ok polygon)
    (hs : polygon.toNative = .ok stored) (ho : operand.get? "$polygon" = some (.object members))
    (hc : region operand = .ok compiled) :
    ∃ columns ring vertices, stored = .document columns ∧
      Polygon.storedRing? columns = some ring ∧ compiled = [("$polygon", .array vertices)] ∧
      Polygon.Traces ring (polygon.vertices.map (·.toNative)) ∧
      vertices = polygon.vertices.map (fun point => point.transposed.toNative) ∧
      (Polygon.Traces ring vertices ↔ ∀ point ∈ polygon.vertices,
        Native.ofNumber point.latitude = Native.ofNumber point.longitude) := by
  obtain ⟨points, hring, rfl⟩ := Native.polygon_eq_ring hs
  have hclosed : points = Polygon.closed polygon.vertices := by
    unfold Polygon.ring at hring
    dsimp only at hring
    split at hring
    · cases hring
    · exact (Except.ok.inj hring).symm
  have hregion := region_polygon ho hc
  unfold polygonRegion at hregion
  split at hregion
  · cases hregion
  · rename_i items hitems
    obtain ⟨vertices, hv, rfl⟩ := Outcome.map_eq_ok.1 hregion
    rw [polygonPoints_envelope hp hitems] at hv
    obtain ⟨rfl, _⟩ := vertices_pairs hv
    refine ⟨_, points.map (·.toNative), _, rfl, rfl, rfl, ?_, rfl, ?_⟩
    · rw [hclosed]
      exact Polygon.traces_closed _ _
    · rw [hclosed, Polygon.traces_iff]
      refine forall₂_congr fun point _ => ?_
      simp only [GeoPoint.toNative, GeoPoint.transposed, Native.array.injEq, List.cons.injEq,
        and_true]
      exact ⟨fun h => h.2, fun h => ⟨h.symm, h⟩⟩

/-- The outline of a park, by the latitude and longitude of its corners. -/
def park : Polygon :=
  ⟨[⟨.integer 10, .integer 20⟩, ⟨.integer 10, .integer 25⟩, ⟨.integer 15, .integer 25⟩]⟩

/-- The members of the envelope of the park. -/
def parkMembers : Fields Rest :=
  [(typeKey, .string Polygon.kind), ("coordinates", .array (park.vertices.map Polygon.vertexToRest))]

/-- What lies in the park. -/
def insidePark : Rest := .object [("$polygon", .object parkMembers)]

theorem region_transposes_park :
    ∃ stored compiled, Polygon.ofEnvelope parkMembers = .ok park ∧ park.toNative = .ok stored ∧
      insidePark.get? "$polygon" = some (.object parkMembers) ∧ region insidePark = .ok compiled ∧
      ∃ columns ring vertices, stored = .document columns ∧
        Polygon.storedRing? columns = some ring ∧ compiled = [("$polygon", .array vertices)] ∧
        Polygon.Traces ring (park.vertices.map (·.toNative)) ∧
        vertices = park.vertices.map (fun point => point.transposed.toNative) ∧
        (Polygon.Traces ring vertices ↔ ∀ point ∈ park.vertices,
          Native.ofNumber point.latitude = Native.ofNumber point.longitude) := by
  have hstored : park.toNative = .ok (Polygon.documentOfRing
      (park.vertices ++ [⟨.integer 10, .integer 20⟩])) := rfl
  have hcompiled : region insidePark = .ok [("$polygon",
      .array (park.vertices.map fun point => point.transposed.toNative))] := rfl
  exact ⟨_, _, rfl, hstored, rfl, hcompiled, region_transposes rfl hstored rfl hcompiled⟩

/-- A stored pair. -/
def parkCorner (longitude latitude : Int32) : Native := .array [.int32 longitude, .int32 latitude]

/-- A class of places, looked up by where they are. -/
def placeScope : Where.Scope := ⟨⟨"Place", .empty, .standard⟩, false, ⟨0, 0⟩⟩

/-- The park is in range read either way; stored it lies east of the meridian of 20 degrees, and in
a query north of the parallel of 20 degrees. -/
theorem region_of_park_elsewhere :
    (∀ point ∈ park.vertices, point.validate = .ok () ∧ point.transposed.validate = .ok ()) ∧
      Create.document placeScope.target [("area", .object parkMembers)] =
        .ok [("area", .document [("type", .string "Polygon"), ("coordinates", .array [.array
          [parkCorner 20 10, parkCorner 25 10, parkCorner 25 15, parkCorner 20 10]])])] ∧
      Where.document placeScope [("area", .object [("$geoWithin", insidePark)])] =
        .ok [("area", .document [("$geoWithin", .document [("$polygon",
          .array [parkCorner 10 20, parkCorner 10 25, parkCorner 15 25])])])] ∧
      ¬Polygon.Traces [parkCorner 20 10, parkCorner 25 10, parkCorner 25 15, parkCorner 20 10]
        [parkCorner 10 20, parkCorner 10 25, parkCorner 15 25] := by
  refine ⟨?_, rfl, rfl, ?_⟩
  · intro point hm
    simp only [park, List.mem_cons, List.not_mem_nil, or_false] at hm
    rcases hm with rfl | rfl | rfl <;> exact ⟨rfl, rfl⟩
  · rintro (h | ⟨first, _, h⟩)
    · cases congrArg List.length h
    · cases List.head_eq_of_cons_eq h

end Constraint

end RestStore
