import RestStore.Native.Atom
import RestStore.Proofs.Native.Fits

/-!
# What atoms are stored as

Inside an array or object an atom is a scalar or a reference: `nestedAtom?_cases`. Under a key of
its own it is a scalar, a point or a ring: `columnAtom?_cases`. Whether it is one does not depend on
the field: `columnAtom?_eq_none`.
-/

set_option autoImplicit false

namespace RestStore.Native

theorem bytes_eq_binary {bytes : Bytes} {native : Native} (h : bytes.toNative = .ok native) :
    ∃ payload, native = .binary payload 0 := by
  obtain ⟨payload, _, rfl⟩ := Outcome.map_eq_ok.1 h
  exact ⟨payload, rfl⟩

theorem polygon_eq_ring {polygon : Polygon} {native : Native}
    (h : polygon.toNative = .ok native) :
    ∃ points, polygon.ring = .ok points ∧ native = Polygon.documentOfRing points := by
  obtain ⟨points, hring, rfl⟩ := Outcome.map_eq_ok.1 h
  exact ⟨points, hring, rfl⟩

section

variable {field : Option FieldSchema} {value : Rest} {native : Native}

theorem nestedAtom?_cases (h : nestedAtom? value = .ok (some native)) :
    native.IsScalar ∨
      ∃ pointer, value.shape = .ok (.pointer pointer) ∧ native = pointer.nested := by
  unfold nestedAtom? at h
  split at h
  · cases h
  · rename_i shape hs
    cases shape with
    | pointer pointer =>
      cases h
      exact .inr ⟨pointer, hs, rfl⟩
    | bytes bytes =>
      obtain ⟨stored, hstored, hn⟩ := Outcome.map_eq_ok.1 h
      cases hn
      obtain ⟨payload, rfl⟩ := bytes_eq_binary hstored
      exact .inl trivial
    | number number =>
      cases h
      exact .inl (isScalar_ofNumber number)
    | null | bool _ | string _ | date _ | regex _ =>
      cases h
      exact .inl trivial
    | relation _ | geoPoint _ | polygon _ | file _ | array _ | object _ => cases h

theorem columnAtom?_cases (h : columnAtom? field value = .ok (some native)) :
    native.IsScalar ∨
      (∃ point, value.shape = .ok (.geoPoint point) ∧ native = point.toNative) ∨
      ∃ polygon points, value.shape = .ok (.polygon polygon) ∧ polygon.ring = .ok points ∧
        native = Polygon.documentOfRing points := by
  unfold columnAtom? at h
  split at h
  · cases h
  · rename_i shape hs
    cases shape with
    | string text =>
      cases h
      refine .inl ?_
      unfold ofText
      split
      · split <;> trivial
      · trivial
    | number number =>
      cases h
      exact .inl (isScalar_ofNumber number)
    | bytes bytes =>
      obtain ⟨stored, hstored, hn⟩ := Outcome.map_eq_ok.1 h
      cases hn
      obtain ⟨payload, rfl⟩ := bytes_eq_binary hstored
      exact .inl trivial
    | geoPoint point =>
      cases h
      exact .inr (.inl ⟨point, hs, rfl⟩)
    | polygon polygon =>
      obtain ⟨stored, hstored, hn⟩ := Outcome.map_eq_ok.1 h
      cases hn
      obtain ⟨points, hring, rfl⟩ := polygon_eq_ring hstored
      exact .inr (.inr ⟨polygon, points, hs, hring, rfl⟩)
    | null | bool _ | pointer _ | date _ | file _ =>
      cases h
      exact .inl trivial
    | relation _ | regex _ | array _ | object _ => cases h

/-- Whether a value is an atom under a key of its own does not depend on the field. -/
theorem columnAtom?_eq_none (other : Option FieldSchema) (h : columnAtom? field value = .ok none) :
    columnAtom? other value = .ok none := by
  unfold columnAtom? at h ⊢
  split at h
  · cases h
  · rename_i shape hs
    cases shape with
    | relation _ | regex _ | array _ | object _ => rfl
    | bytes bytes =>
      obtain ⟨_, _, hn⟩ := Outcome.map_eq_ok.1 h
      cases hn
    | polygon polygon =>
      obtain ⟨_, _, hn⟩ := Outcome.map_eq_ok.1 h
      cases hn
    | null | bool _ | number _ | string _ | pointer _ | date _ | geoPoint _ | file _ => cases h

end

end RestStore.Native
