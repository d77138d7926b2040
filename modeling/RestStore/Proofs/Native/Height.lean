import RestStore.Native.Nested
import RestStore.Proofs.Native.Atoms
import RestStore.Proofs.Native.Given
import RestStore.Proofs.Rest.Height

/-!
# Stored values are no higher than what was sent

A value stored as given or inside an array or object has at most as many levels as the REST value:
`verbatim_fits`, `nested_fits`. Under a key of its own a polygon has one level more:
`columnAtom?_fits`.
-/

set_option autoImplicit false

namespace RestStore

namespace Native

/-! ## Values as given -/

mutual

/-- **A value as given is as high as the value.** -/
theorem given_fits : ∀ value : Rest, Fits value.height (given value) := by
  intro value
  cases value with
  | array items =>
    rw [given, Rest.height]
    exact .array (givenItems_fits items)
  | object members =>
    rw [given, Rest.height]
    exact .document (givenMembers_fits members)
  | number number => exact .of_isScalar (isScalar_ofNumber number) (Rest.height_pos _)
  | null | bool _ | string _ => exact .of_isScalar trivial (Rest.height_pos _)

theorem givenItems_fits : ∀ (items : List Rest),
    ∀ native ∈ givenItems items, Fits (Rest.heightOfItems items) native
  | [], _, hm => nomatch hm
  | item :: rest, native, hm => by
    rw [givenItems] at hm
    rw [Rest.heightOfItems]
    rcases List.mem_cons.1 hm with rfl | hm
    · exact (given_fits item).mono (Nat.le_max_left _ _)
    · exact (givenItems_fits rest native hm).mono (Nat.le_max_right _ _)

theorem givenMembers_fits : ∀ (members : List (String × Rest)),
    ∀ column ∈ givenMembers members, Fits (Rest.heightOfMembers members) column.2
  | [], _, hm => nomatch hm
  | (_, value) :: rest, column, hm => by
    rw [givenMembers] at hm
    rw [Rest.heightOfMembers]
    rcases List.mem_cons.1 hm with rfl | hm
    · exact (given_fits value).mono (Nat.le_max_left _ _)
    · exact (givenMembers_fits rest column hm).mono (Nat.le_max_right _ _)

end

theorem verbatim_fits {value : Rest} {guard : Nesting} {native : Native}
    (h : verbatim guard value = .ok native) : Fits value.height native := by
  rw [verbatim_eq_given h]
  exact given_fits value

/-! ## Atoms and elements -/

theorem pointer_fits (pointer : Pointer) : Fits 2 pointer.nested := by
  refine .document fun column hc => .of_isScalar ?_ Nat.one_pos
  simp only [List.mem_cons, List.not_mem_nil, or_false] at hc
  rcases hc with rfl | rfl | rfl <;> trivial

theorem nestedAtom?_fits {value : Rest} {native : Native}
    (h : nestedAtom? value = .ok (some native)) : Fits value.height native := by
  rcases nestedAtom?_cases h with hscalar | ⟨pointer, hs, rfl⟩
  · exact .of_isScalar hscalar value.height_pos
  · exact (pointer_fits pointer).mono (Rest.two_le_height_of_shape hs trivial)

theorem element_fits {guard : Nesting} {value : Rest} {native : Native}
    (h : element guard value = .ok native) : Fits value.height native := by
  rcases element_cases h with ha | ⟨-, rfl⟩
  · exact nestedAtom?_fits ha
  · exact given_fits value

theorem elements_fits : ∀ {items : List Rest} {guard : Nesting} {natives : List Native},
    elements guard items = .ok natives →
      ∀ native ∈ natives, Fits (Rest.heightOfItems items) native
  | [], _, _, h => by
    cases h
    exact fun _ hm => nomatch hm
  | item :: rest, guard, natives, h => by
    rw [elements] at h
    split at h
    · cases h
    · rename_i first hf
      obtain ⟨later, hl, rfl⟩ := Outcome.map_eq_ok.1 h
      rw [Rest.heightOfItems]
      intro native hm
      rcases List.mem_cons.1 hm with rfl | hm
      · exact (element_fits hf).mono (Nat.le_max_left _ _)
      · exact (elements_fits hl native hm).mono (Nat.le_max_right _ _)

/-! ## Operations -/

theorem items_eq_ok {members : Fields Rest} {fault : OperationFault} {items : List Rest}
    (h : Operation.items members fault = .ok items) :
    Fields.get? members "objects" = some (.array items) := by
  unfold Operation.items at h
  split at h
  · rename_i found hget
    cases h
    exact hget
  · cases h

/-- The operands of an operation stand in its object. -/
theorem operation_cases {members : Fields Rest} {operation : Operation}
    (h : Operation.ofMembers members = .ok operation) :
    operation = .delete ∨ (∃ amount, operation = .increment amount) ∨
      operation = .setOnInsert ((Fields.get? members "amount").getD .null) ∨
      ∃ items, (operation = .add items ∨ operation = .addUnique items ∨
        operation = .remove items) ∧ Fields.get? members "objects" = some (.array items) := by
  unfold Operation.ofMembers at h
  dsimp only at h
  split at h
  · cases h
    exact .inl rfl
  split at h
  · split at h
    · cases h
      exact .inr (.inl ⟨_, rfl⟩)
    · cases h
  split at h
  · cases h
    exact .inr (.inr (.inl rfl))
  split at h
  · obtain ⟨items, hi, rfl⟩ := Outcome.map_eq_ok.1 h
    exact .inr (.inr (.inr ⟨items, .inl rfl, items_eq_ok hi⟩))
  split at h
  · obtain ⟨items, hi, rfl⟩ := Outcome.map_eq_ok.1 h
    exact .inr (.inr (.inr ⟨items, .inr (.inl rfl), items_eq_ok hi⟩))
  split at h
  · obtain ⟨items, hi, rfl⟩ := Outcome.map_eq_ok.1 h
    exact .inr (.inr (.inr ⟨items, .inr (.inr rfl), items_eq_ok hi⟩))
  · cases h

theorem flatten_fits {guard : Nesting} {members : Fields Rest} {operation : Operation}
    {native : Native} (ho : Operation.ofMembers members = .ok operation)
    (h : operation.flatten guard = .ok (some native)) :
    Fits (Rest.object members).height native := by
  rcases operation_cases ho with rfl | ⟨amount, rfl⟩ | rfl | ⟨items, hop, hget⟩
  · cases h
  · cases h
    exact .of_isScalar (isScalar_ofNumber amount) (Rest.height_pos _)
  · obtain ⟨stored, hs, hn⟩ := Outcome.map_eq_ok.1 h
    cases hn
    refine (verbatim_fits hs).mono ?_
    cases hget : Fields.get? members "amount" with
    | none => exact Rest.height_pos _
    | some value => exact Nat.le_of_lt (Rest.height_get?_lt hget)
  · have hlt := Rest.height_get?_lt hget
    rw [Rest.height] at hlt
    rcases hop with rfl | rfl | rfl
    · obtain ⟨natives, hn, he⟩ := Outcome.map_eq_ok.1 h
      cases he
      exact (Fits.array (elements_fits hn)).mono (Nat.le_of_lt hlt)
    · obtain ⟨natives, hn, he⟩ := Outcome.map_eq_ok.1 h
      cases he
      exact (Fits.array (elements_fits hn)).mono (Nat.le_of_lt hlt)
    · obtain ⟨natives, hn, he⟩ := Outcome.map_eq_ok.1 h
      cases he
      have hnil : Fits 1 (.array []) := .array fun _ hm => nomatch hm
      exact hnil.mono (Rest.height_pos _)

/-! ## Nested values -/

mutual

/-- **A nested value is at most as high as the value.** -/
theorem nested_fits : ∀ {value : Rest} {guard : Nesting} {native : Native},
    nested guard value = .ok (some native) → Fits value.height native := by
  intro value guard native h
  cases value with
  | null | bool _ | number _ | string _ =>
    cases nested_of_atom rfl h
    exact nestedAtom?_fits rfl
  | array items =>
    obtain ⟨_, natives, hn, he⟩ := nested_array h
    cases he
    exact .array (nestedItems_fits hn)
  | object members =>
    rcases nested_object h with ⟨atom, ha, he⟩ | ⟨_, operation, -, -, ho, hf⟩ |
      ⟨_, columns, -, hc, he⟩
    · cases he
      exact nestedAtom?_fits ha
    · exact flatten_fits ho hf
    · cases he
      exact .document (nestedMembers_fits hc)

theorem nestedItems_fits : ∀ {items : List Rest} {guard : Nesting} {natives : List Native},
    nestedItems guard items = .ok natives →
      ∀ native ∈ natives, Fits (Rest.heightOfItems items) native
  | [], _, _, h => by
    rw [nestedItems] at h
    cases h
    exact fun _ hm => nomatch hm
  | item :: rest, guard, natives, h => by
    rw [nestedItems] at h
    split at h
    · cases h
    · rename_i first hf
      obtain ⟨later, hl, rfl⟩ := Outcome.map_eq_ok.1 h
      rw [Rest.heightOfItems]
      intro native hm
      rcases List.mem_cons.1 hm with rfl | hm
      · refine Fits.mono ?_ (Nat.le_max_left _ _)
        cases first with
        | none => exact .of_isScalar trivial item.height_pos
        | some stored => exact nested_fits hf
      · exact (nestedItems_fits hl native hm).mono (Nat.le_max_right _ _)

theorem nestedMembers_fits : ∀ {members : List (String × Rest)} {guard : Nesting}
    {columns : List (String × Native)}, nestedMembers guard members = .ok columns →
      ∀ column ∈ columns, Fits (Rest.heightOfMembers members) column.2
  | [], _, _, h => by
    rw [nestedMembers] at h
    cases h
    exact fun _ hm => nomatch hm
  | (key, value) :: rest, guard, columns, h => by
    rw [nestedMembers] at h
    rw [Rest.heightOfMembers]
    intro column hm
    split at h
    · cases h
    · exact (nestedMembers_fits h column hm).mono (Nat.le_max_right _ _)
    · rename_i stored hf
      obtain ⟨later, hl, rfl⟩ := Outcome.map_eq_ok.1 h
      rcases List.mem_cons.1 hm with rfl | hm
      · exact (nested_fits hf).mono (Nat.le_max_left _ _)
      · exact (nestedMembers_fits hl column hm).mono (Nat.le_max_right _ _)

end

/-! ## Values under a key of their own -/

theorem geoPoint_fits (point : GeoPoint) : Fits 2 point.toNative := by
  refine .array fun item hi => ?_
  simp only [List.mem_cons, List.not_mem_nil, or_false] at hi
  rcases hi with rfl | rfl <;> exact .of_isScalar (isScalar_ofNumber _) Nat.one_pos

theorem ring_fits (points : List GeoPoint) : Fits 5 (Polygon.documentOfRing points) := by
  refine .document fun column hc => ?_
  simp only [List.mem_cons, List.not_mem_nil, or_false] at hc
  rcases hc with rfl | rfl
  · exact .of_isScalar trivial (by decide)
  · refine .array fun item hi => ?_
    obtain rfl := List.mem_singleton.1 hi
    refine .array fun pair hp => ?_
    obtain ⟨point, _, rfl⟩ := List.mem_map.1 hp
    exact geoPoint_fits point

theorem vertices_ne_nil {polygon : Polygon} {points : List GeoPoint}
    (h : polygon.ring = .ok points) : polygon.vertices ≠ [] := by
  intro he
  unfold Polygon.ring at h
  rw [he] at h
  cases h

/-- **A stored atom is at most one level higher than the value**, a polygon exactly so. -/
theorem columnAtom?_fits {field : Option FieldSchema} {value : Rest} {native : Native}
    (h : columnAtom? field value = .ok (some native)) : Fits (value.height + 1) native := by
  rcases columnAtom?_cases h with hscalar | ⟨point, hs, rfl⟩ | ⟨polygon, points, hs, hring, rfl⟩
  · exact .of_isScalar hscalar (Nat.succ_pos _)
  · have := Rest.two_le_height_of_shape hs trivial
    exact (geoPoint_fits point).mono (by omega)
  · obtain ⟨members, rfl, hp⟩ := Rest.ofEnvelope_of_shape hs
    have := Rest.four_le_height hp (vertices_ne_nil hring)
    exact (ring_fits points).mono (by omega)

end Native

end RestStore
