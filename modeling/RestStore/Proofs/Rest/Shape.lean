import RestStore.Native.Atom
import RestStore.Proofs.Outcome

/-!
# Shapes of tagged objects

A tag decides the shape of an object: `shape_tagged` with one equation for each kind of envelope.
-/

set_option autoImplicit false

namespace RestStore

theorem hasTag_iff {value : Rest} {kind : String} :
    value.hasTag kind = true ↔
      ∃ members, value = .object members ∧ Fields.get? members typeKey = some (.string kind) := by
  unfold Rest.hasTag
  rw [beq_iff_eq, Option.bind_eq_some_iff]
  constructor
  · rintro ⟨tag, htag, htext⟩
    cases value with
    | object members =>
      cases tag with
      | string text =>
        cases htext
        exact ⟨members, rfl, htag⟩
      | null | bool _ | number _ | array _ | object _ => cases htext
    | null | bool _ | number _ | string _ | array _ => cases htag
  · rintro ⟨members, rfl, htag⟩
    exact ⟨.string kind, htag, rfl⟩

/-- A tagged value is truthy, as every object is. -/
theorem isTruthy_of_hasTag {value : Rest} {kind : String} (h : value.hasTag kind = true) :
    value.isTruthy = true := by
  obtain ⟨members, rfl, _⟩ := hasTag_iff.1 h
  rfl

/-- A value has at most one tag. -/
theorem hasTag_ne {value : Rest} {kind other : String} (h : value.hasTag kind = true)
    (hne : kind ≠ other) : value.hasTag other = false := by
  unfold Rest.hasTag at h ⊢
  rw [beq_iff_eq] at h
  rw [h]
  simpa using hne

theorem shape_tagged {members : Fields Rest} {tag : Rest}
    (h : Fields.get? members typeKey = some tag) :
    (Rest.object members).shape = Shape.ofEnvelope tag members := by
  simp [Rest.shape, Shape.ofMembers, h]

namespace Shape

variable (members : Fields Rest)

theorem ofEnvelope_pointer :
    ofEnvelope (.string Pointer.kind) members = (Pointer.ofEnvelope members).map pointer := by
  simp [ofEnvelope, Rest.text?]

theorem ofEnvelope_relation :
    ofEnvelope (.string Relation.kind) members = (Relation.ofEnvelope members).map relation := by
  simp [ofEnvelope, Rest.text?, Pointer.kind, Relation.kind]

theorem ofEnvelope_date :
    ofEnvelope (.string Instant.kind) members = (Instant.ofEnvelope members).map date := by
  simp [ofEnvelope, Rest.text?, Pointer.kind, Relation.kind, Instant.kind]

theorem ofEnvelope_bytes :
    ofEnvelope (.string Bytes.kind) members = (Bytes.ofEnvelope members).map bytes := by
  simp [ofEnvelope, Rest.text?, Pointer.kind, Relation.kind, Instant.kind, Bytes.kind]

theorem ofEnvelope_geoPoint :
    ofEnvelope (.string GeoPoint.kind) members = (GeoPoint.ofEnvelope members).map geoPoint := by
  simp [ofEnvelope, Rest.text?, Pointer.kind, Relation.kind, Instant.kind, Bytes.kind,
    GeoPoint.kind]

theorem ofEnvelope_polygon :
    ofEnvelope (.string Polygon.kind) members = (Polygon.ofEnvelope members).map polygon := by
  simp [ofEnvelope, Rest.text?, Pointer.kind, Relation.kind, Instant.kind, Bytes.kind,
    GeoPoint.kind, Polygon.kind]

theorem ofEnvelope_file :
    ofEnvelope (.string File.kind) members = (File.ofEnvelope members).map file := by
  simp [ofEnvelope, Rest.text?, Pointer.kind, Relation.kind, Instant.kind, Bytes.kind,
    GeoPoint.kind, Polygon.kind, File.kind]

/-- An envelope of a known kind has its payload. -/
theorem ofEnvelope_cases {tag : Rest} {members : Fields Rest} {shape : Shape}
    (h : ofEnvelope tag members = .ok shape) :
    (∃ payload, Pointer.ofEnvelope members = .ok payload ∧ pointer payload = shape) ∨
      (∃ payload, Relation.ofEnvelope members = .ok payload ∧ relation payload = shape) ∨
      (∃ payload, Instant.ofEnvelope members = .ok payload ∧ date payload = shape) ∨
      (∃ payload, Bytes.ofEnvelope members = .ok payload ∧ bytes payload = shape) ∨
      (∃ payload, GeoPoint.ofEnvelope members = .ok payload ∧ geoPoint payload = shape) ∨
      (∃ payload, Polygon.ofEnvelope members = .ok payload ∧ polygon payload = shape) ∨
      ∃ payload, File.ofEnvelope members = .ok payload ∧ file payload = shape := by
  unfold ofEnvelope at h
  split at h
  · exact .inl (Outcome.map_eq_ok.1 h)
  split at h
  · exact .inr (.inl (Outcome.map_eq_ok.1 h))
  split at h
  · exact .inr (.inr (.inl (Outcome.map_eq_ok.1 h)))
  split at h
  · exact .inr (.inr (.inr (.inl (Outcome.map_eq_ok.1 h))))
  split at h
  · exact .inr (.inr (.inr (.inr (.inl (Outcome.map_eq_ok.1 h)))))
  split at h
  · exact .inr (.inr (.inr (.inr (.inr (.inl (Outcome.map_eq_ok.1 h))))))
  split at h
  · exact .inr (.inr (.inr (.inr (.inr (.inr (Outcome.map_eq_ok.1 h))))))
  · cases h

/-- The shapes of tagged objects. -/
def IsTagged : Shape → Prop
  | pointer _ | relation _ | date _ | bytes _ | geoPoint _ | polygon _ | file _ => True
  | null | bool _ | number _ | string _ | regex _ | array _ | object _ => False

end Shape

/-- An object is tagged, a regular expression or a plain object. -/
theorem shape_object_cases {members : Fields Rest} {shape : Shape}
    (h : (Rest.object members).shape = .ok shape) :
    (∃ tag, Fields.get? members typeKey = some tag ∧ Shape.ofEnvelope tag members = .ok shape) ∨
      (∃ pattern, shape = .regex pattern) ∨ shape = .object members := by
  simp only [Rest.shape, Shape.ofMembers] at h
  split at h
  · rename_i tag htag
    exact .inl ⟨tag, htag, h⟩
  · split at h
    · cases h
      exact .inr (.inl ⟨_, rfl⟩)
    · cases h
    · cases h
      exact .inr (.inr rfl)

/-- A tagged shape is that of an object with a tag. -/
theorem exists_tag_of_shape {value : Rest} {shape : Shape} (h : value.shape = .ok shape)
    (ht : shape.IsTagged) :
    ∃ members tag, value = .object members ∧ Fields.get? members typeKey = some tag ∧
      Shape.ofEnvelope tag members = .ok shape := by
  cases value with
  | object members =>
    rcases shape_object_cases h with ⟨tag, htag, hs⟩ | ⟨_, rfl⟩ | rfl
    · exact ⟨members, tag, rfl, htag, hs⟩
    · exact ht.elim
    · exact ht.elim
  | null | bool _ | number _ | string _ | array _ =>
    cases h
    exact ht.elim

/-- Only the envelope of a relation has the shape of one. -/
theorem hasTag_of_relation {value : Rest} {relation : Relation}
    (h : value.shape = .ok (.relation relation)) : value.hasTag Relation.kind = true := by
  obtain ⟨members, tag, rfl, htag, henvelope⟩ := exists_tag_of_shape h trivial
  unfold Shape.ofEnvelope at henvelope
  split at henvelope
  · obtain ⟨_, _, he⟩ := Outcome.map_eq_ok.1 henvelope
    cases he
  split at henvelope
  · rename_i htext
    rw [Rest.hasTag, Rest.get?, htag]
    simpa using htext
  repeat' split at henvelope
  all_goals first
    | cases henvelope
    | (obtain ⟨_, _, he⟩ := Outcome.map_eq_ok.1 henvelope; cases he)

/-- Only a text has the shape of a text. -/
theorem eq_string_of_shape {value : Rest} {text : String} (h : value.shape = .ok (.string text)) :
    value = .string text := by
  cases value with
  | string text =>
    cases h
    rfl
  | null | bool _ | number _ | array _ => cases h
  | object members =>
    rcases shape_object_cases h with ⟨tag, _, hs⟩ | ⟨_, he⟩ | he
    · rcases Shape.ofEnvelope_cases hs with ⟨_, _, he⟩ | ⟨_, _, he⟩ | ⟨_, _, he⟩ | ⟨_, _, he⟩ |
        ⟨_, _, he⟩ | ⟨_, _, he⟩ | ⟨_, _, he⟩ <;> cases he
    · cases he
    · cases he

/-- A date under a key of its own is an atom, unless its text is no date. -/
theorem columnAtom?_date {value : Rest} (field : Option FieldSchema)
    (h : value.hasTag Instant.kind = true) :
    (∃ native, Native.columnAtom? field value = .ok (some native)) ∨
      ∃ failure, Native.columnAtom? field value = .error failure := by
  obtain ⟨members, rfl, htag⟩ := hasTag_iff.1 h
  unfold Native.columnAtom?
  rw [shape_tagged htag, Shape.ofEnvelope_date]
  cases Instant.ofEnvelope members with
  | error failure => exact .inr ⟨failure, rfl⟩
  | ok instant => exact .inl ⟨instant.toNative, rfl⟩

end RestStore
