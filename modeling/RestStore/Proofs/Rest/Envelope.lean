import RestStore.Proofs.Calendar.Iso
import RestStore.Proofs.Rest.Alike
import RestStore.Proofs.Rest.Shape

/-!
# Envelopes as they are sent

The shape of an envelope with its own members in any order. Every kind has one equation:
`shape_pointer`, `shape_relation`, `shape_date`, `shape_bytes`, `shape_geoPoint`, `shape_polygon`,
`shape_file`.
-/

set_option autoImplicit false

namespace RestStore

open Rest (Reordered)

/-- The envelope of a date with its canonical text. -/
def IsoMoment.toEnvelope (moment : IsoMoment) : Rest :=
  .tagged Instant.kind [("iso", .string moment.text)]

/-- A tagged object is read by its tag, in whatever order its members are. -/
theorem shape_reordered {value : Rest} {kind : String} {payload : Fields Rest}
    (hn : (typeKey :: Fields.keys payload).Nodup) (h : Reordered value (.tagged kind payload)) :
    ∃ members, value = .object members ∧
      members.Perm ((typeKey, .string kind) :: payload) ∧
      (∀ key, Fields.get? members key = Fields.get? ((typeKey, .string kind) :: payload) key) ∧
      value.shape = Shape.ofEnvelope (.string kind) members := by
  have h' : Reordered value (.object ((typeKey, .string kind) :: payload)) := h
  obtain ⟨hperm⟩ := h'
  have hget := Fields.get?_perm hperm hn
  exact ⟨_, rfl, hperm, hget, shape_tagged ((hget typeKey).trans rfl)⟩

/-- Such an object has its own tag and no other. -/
theorem hasTag_reordered {value : Rest} {kind : String} {payload : Fields Rest}
    (h : Reordered value (.tagged kind payload)) (hn : (typeKey :: Fields.keys payload).Nodup) :
    value.hasTag kind = true := by
  obtain ⟨members, rfl, _, hget, _⟩ := shape_reordered hn h
  exact hasTag_iff.2 ⟨members, rfl, (hget typeKey).trans rfl⟩

section

variable {value : Rest}

theorem shape_pointer {pointer : Pointer} (h : Reordered value pointer.toEnvelope) :
    value.shape = .ok (.pointer pointer) := by
  obtain ⟨members, _, _, hget, hs⟩ := shape_reordered (by simp [typeKey]) h
  rw [hs, Shape.ofEnvelope_pointer]
  simp [Pointer.ofEnvelope, Envelope.text, hget, Fields.get?, typeKey, Except.map]

theorem shape_relation {relation : Relation} (h : Reordered value relation.toEnvelope) :
    value.shape = .ok (.relation relation) := by
  obtain ⟨members, _, _, hget, hs⟩ := shape_reordered (by simp [typeKey]) h
  rw [hs, Shape.ofEnvelope_relation]
  simp [Relation.ofEnvelope, Envelope.text, hget, Fields.get?, typeKey, Except.map]

theorem shape_date {moment : IsoMoment} (h : Reordered value moment.toEnvelope) :
    value.shape = .ok (.date moment.instant) := by
  obtain ⟨members, _, _, hget, hs⟩ := shape_reordered (by simp [typeKey]) h
  rw [hs, Shape.ofEnvelope_date]
  simp [Instant.ofEnvelope, Envelope.text, hget, Fields.get?, typeKey, Instant.ofText,
    moment.parse?_text, Except.map]

theorem shape_bytes {bytes : Bytes} {payload : List UInt8} (hp : bytes.payload = .ok payload)
    (h : Reordered value bytes.toEnvelope) : value.shape = .ok (.bytes bytes) := by
  obtain ⟨members, _, _, hget, hs⟩ := shape_reordered (by simp [typeKey]) h
  rw [hs, Shape.ofEnvelope_bytes]
  simp [Bytes.ofEnvelope, Envelope.text, hget, Fields.get?, typeKey, hp, Except.map]

theorem shape_geoPoint {point : GeoPoint} (h : Reordered value point.toEnvelope) :
    value.shape = .ok (.geoPoint point) := by
  obtain ⟨members, _, _, hget, hs⟩ := shape_reordered (by simp [typeKey]) h
  rw [hs, Shape.ofEnvelope_geoPoint]
  simp [GeoPoint.ofEnvelope, Envelope.number, hget, Fields.get?, typeKey, Except.map]

theorem verticesOfRest?_map : ∀ points : List GeoPoint,
    Polygon.verticesOfRest? (points.map Polygon.vertexToRest) = some points
  | [] => rfl
  | point :: rest => by
    rw [List.map_cons, Polygon.vertexToRest, Polygon.verticesOfRest?, verticesOfRest?_map rest]
    rfl

theorem shape_polygon {polygon : Polygon} (h : Reordered value polygon.toEnvelope) :
    value.shape = .ok (.polygon polygon) := by
  obtain ⟨members, _, _, hget, hs⟩ := shape_reordered (by simp [typeKey]) h
  rw [hs, Shape.ofEnvelope_polygon]
  simp [Polygon.ofEnvelope, hget, Fields.get?, typeKey, verticesOfRest?_map, Except.map]

theorem nodup_file (file : File) : (typeKey :: Fields.keys (("name", Rest.string file.name) ::
    match file.url with
    | none => []
    | some url => [("url", Rest.string url)])).Nodup := by
  cases file.url <;> simp [typeKey]

theorem shape_file {file : File} (h : Reordered value file.toEnvelope) :
    value.shape = .ok (.file file) := by
  obtain ⟨members, _, _, hget, hs⟩ := shape_reordered (nodup_file file) h
  rw [hs, Shape.ofEnvelope_file]
  obtain ⟨name, url⟩ := file
  cases url <;>
    simp [File.ofEnvelope, Envelope.text, hget, Fields.get?, typeKey, File.urlOfRest, Except.map]

end

end RestStore
