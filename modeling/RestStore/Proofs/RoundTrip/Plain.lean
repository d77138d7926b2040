import RestStore.Native.Nested
import RestStore.Proofs.Rest.Envelope
import RestStore.Proofs.Rest.Height
import RestStore.Proofs.Text.Affix

/-!
# Plain values

What a client may keep inside an array or object: scalars, arrays and objects of plain values, and
envelopes with exactly their own members. Pointers, dates and binary data are atoms there; the
other envelopes are kept as the objects they are.

* `Plain` — the plain values.
* `KeptObject` — the objects that are stored as documents of their members:
  `keptObject_of_reordered` for envelopes, `keptObject_of_clean` for objects without a tag.
-/

set_option autoImplicit false

namespace RestStore

open Rest (Reordered)

/-- A number that the store holds exactly. -/
def Number.Storable : Number → Prop
  | integer i => fitsInt64 i = true
  | double d => d.isFinite = true

theorem Native.number?_ofNumber {number : Number} (h : number.Storable) :
    (Native.ofNumber number).number? = some number := by
  cases number with
  | integer i => exact Native.number?_ofNumber_integer h
  | double d => exact if_pos h

/-- A point with numbers that the store holds. -/
def GeoPoint.Storable (point : GeoPoint) : Prop :=
  point.latitude.Storable ∧ point.longitude.Storable

theorem ofNative?_toNative_geoPoint {point : GeoPoint} (h : point.Storable) :
    GeoPoint.ofNative? point.toNative = some point := by
  unfold GeoPoint.toNative GeoPoint.ofNative?
  simp [Native.number?_ofNumber h.1, Native.number?_ofNumber h.2]

/-- A value inside an array or object, as clients write it. -/
inductive Plain : Rest → Prop
  | null : Plain .null
  | bool (flag : Bool) : Plain (.bool flag)
  | number {number : Number} : number.Storable → Plain (.number number)
  | string (text : String) : Plain (.string text)
  | array {items : List Rest} : (∀ item ∈ items, Plain item) → Plain (.array items)
  | object {members : Fields Rest} : (∀ key ∈ Fields.keys members, Native.isCleanKey key = true) →
    typeKey ∉ Fields.keys members → operationKey ∉ Fields.keys members →
      (∀ member ∈ members, Plain member.2) → Plain (.object members)
  | pointer {value : Rest} (pointer : Pointer) : Reordered value pointer.toEnvelope → Plain value
  | date {value : Rest} (moment : IsoMoment) : Reordered value moment.toEnvelope → Plain value
  | bytes {value : Rest} {bytes : Bytes} {payload : List UInt8} : bytes.payload = .ok payload →
    Reordered value bytes.toEnvelope → Plain value
  | geoPoint {value : Rest} {point : GeoPoint} : point.Storable →
    Reordered value point.toEnvelope → Plain value
  | polygon {value : Rest} {polygon : Polygon} : (∀ point ∈ polygon.vertices, point.Storable) →
    Reordered value polygon.toEnvelope → Plain value
  | file {value : Rest} (file : File) : Reordered value file.toEnvelope → Plain value
  | relation {value : Rest} (relation : Relation) : Reordered value relation.toEnvelope →
    Plain value

theorem Plain.storable {number : Number} (h : Plain (.number number)) : number.Storable := by
  cases h with
  | number hs => exact hs
  | pointer _ hr | date _ hr | bytes _ hr | geoPoint _ hr | polygon _ hr | file _ hr
  | relation _ hr =>
    obtain ⟨_, he⟩ := hr.exists_members
    cases he

theorem Plain.items {items : List Rest} (h : Plain (.array items)) :
    ∀ item ∈ items, Plain item := by
  cases h with
  | array hitems => exact hitems
  | pointer _ hr | date _ hr | bytes _ hr | geoPoint _ hr | polygon _ hr | file _ hr
  | relation _ hr =>
    obtain ⟨_, he⟩ := hr.exists_members
    cases he

/-! ## Objects kept as they are -/

/-- An object that is stored as the document of its members. -/
structure KeptObject (members : Fields Rest) : Prop where
  clean : ∀ key ∈ Fields.keys members, Native.isCleanKey key = true
  not_operation : operationKey ∉ Fields.keys members
  not_atom : Native.nestedAtom? (.object members) = .ok none
  not_date : Fields.get? members typeKey ≠ some (.string Instant.kind)
  plain : ∀ member ∈ members, Plain member.2

theorem nestedAtom?_of_shape {value : Rest} {shape : Shape} (h : value.shape = .ok shape) :
    Native.nestedAtom? value = Native.ofNestedShape? shape := by
  unfold Native.nestedAtom?
  rw [h]

/-- A tagged object that is no atom is kept, if its payload is plain. -/
theorem keptObject_of_reordered {value : Rest} {kind : String} {payload : Fields Rest}
    {shape : Shape} (h : Reordered value (.tagged kind payload)) (hs : value.shape = .ok shape)
    (hatom : Native.ofNestedShape? shape = .ok none)
    (hn : (typeKey :: Fields.keys payload).Nodup) (hkind : kind ≠ Instant.kind)
    (hclean : ∀ key ∈ Fields.keys payload, Native.isCleanKey key = true)
    (hop : operationKey ∉ Fields.keys payload) (hplain : ∀ member ∈ payload, Plain member.2) :
    ∃ members, value = .object members ∧ KeptObject members := by
  obtain ⟨members, rfl, hperm, hget, _⟩ := shape_reordered hn h
  have hkeys : ∀ key ∈ Fields.keys members, key = typeKey ∨ key ∈ Fields.keys payload := by
    intro key hk
    exact List.mem_cons.1 ((hperm.map Prod.fst).mem_iff.1 hk)
  refine ⟨members, rfl, ?_, ?_, ?_, ?_, ?_⟩
  · intro key hk
    rcases hkeys key hk with rfl | hk
    · decide
    · exact hclean key hk
  · intro hk
    rcases hkeys _ hk with he | hk
    · exact absurd he (by decide)
    · exact hop hk
  · rw [nestedAtom?_of_shape hs, hatom]
  · rw [hget, Fields.get?_cons, if_pos rfl]
    intro he
    cases he
    exact hkind rfl
  · intro member hm
    rcases List.mem_cons.1 (hperm.mem_iff.1 hm) with rfl | hm
    · exact .string kind
    · exact hplain member hm

/-- An object without a tag is an object. -/
theorem shape_of_clean {members : Fields Rest}
    (hclean : ∀ key ∈ Fields.keys members, Native.isCleanKey key = true)
    (htag : typeKey ∉ Fields.keys members) :
    (Rest.object members).shape = .ok (.object members) := by
  have hnone : Fields.get? members typeKey = none := (Fields.get?_eq_none_iff _ _).2 htag
  have hregex : Fields.get? members regexKey = none := by
    rw [Fields.get?_eq_none_iff]
    intro hk
    exact absurd (hclean _ hk) (by decide)
  simp [Rest.shape, Shape.ofMembers, hnone, hregex]

theorem keptObject_of_clean {members : Fields Rest}
    (hclean : ∀ key ∈ Fields.keys members, Native.isCleanKey key = true)
    (htag : typeKey ∉ Fields.keys members) (hop : operationKey ∉ Fields.keys members)
    (hplain : ∀ member ∈ members, Plain member.2) : KeptObject members := by
  refine ⟨hclean, hop, ?_, ?_, hplain⟩
  · rw [nestedAtom?_of_shape (shape_of_clean hclean htag)]
    rfl
  · rw [(Fields.get?_eq_none_iff _ _).2 htag]
    exact fun h => nomatch h

theorem keptObject_of_geoPoint {value : Rest} {point : GeoPoint} (hs : point.Storable)
    (h : Reordered value point.toEnvelope) :
    ∃ members, value = .object members ∧ KeptObject members := by
  refine keptObject_of_reordered h (shape_geoPoint h) rfl (by simp [typeKey]) (by decide)
    (by simp [Native.isCleanKey]) (by simp [operationKey]) ?_
  intro member hm
  simp only [List.mem_cons, List.not_mem_nil, or_false] at hm
  rcases hm with rfl | rfl
  · exact .number hs.1
  · exact .number hs.2

theorem keptObject_of_polygon {value : Rest} {polygon : Polygon}
    (hs : ∀ point ∈ polygon.vertices, point.Storable) (h : Reordered value polygon.toEnvelope) :
    ∃ members, value = .object members ∧ KeptObject members := by
  refine keptObject_of_reordered h (shape_polygon h) rfl (by simp [typeKey]) (by decide)
    (by simp [Native.isCleanKey]) (by simp [operationKey]) ?_
  intro member hm
  obtain rfl := List.mem_singleton.1 hm
  refine .array fun item hi => ?_
  obtain ⟨point, hp, rfl⟩ := List.mem_map.1 hi
  refine .array fun number hn => ?_
  simp only [List.mem_cons, List.not_mem_nil, or_false] at hn
  rcases hn with rfl | rfl
  · exact .number (hs point hp).1
  · exact .number (hs point hp).2

theorem keptObject_of_file {value : Rest} {file : File} (h : Reordered value file.toEnvelope) :
    ∃ members, value = .object members ∧ KeptObject members := by
  obtain ⟨name, url⟩ := file
  refine keptObject_of_reordered h (shape_file h) rfl (nodup_file ⟨name, url⟩) (by decide) ?_ ?_ ?_
  · cases url <;> simp [Native.isCleanKey]
  · cases url <;> simp [operationKey]
  · intro member hm
    cases url <;> simp only [List.mem_cons, List.not_mem_nil, or_false] at hm
    · rw [hm]
      exact .string name
    · rcases hm with rfl | rfl <;> exact .string _

theorem keptObject_of_relation {value : Rest} {relation : Relation}
    (h : Reordered value relation.toEnvelope) :
    ∃ members, value = .object members ∧ KeptObject members := by
  refine keptObject_of_reordered h (shape_relation h) rfl (by simp [typeKey]) (by decide)
    (by simp [Native.isCleanKey]) (by simp [operationKey]) ?_
  intro member hm
  obtain rfl := List.mem_singleton.1 hm
  exact .string relation.className

end RestStore
