import RestStore.Proofs.Native.Atoms
import RestStore.Proofs.Native.Given
import RestStore.Proofs.Rest.Inside

/-!
# Keys inside stored values

The keys of an object are checked where it is walked, and not where it is an operand that is stored
as given. So the keys of a nested value that are not clean are those of such operands:
`nested_keys`.

* `Native.HasKey` — the keys of the documents in a native value, at any depth.
* `Operation.Keeps`, `Rest.GivenIn` — the operands that a walk stores as given.
* `hasKey_given_iff`, `elements_keys`, `flatten_keys` — keys of values as given, of elements and of
  what operations leave.
-/

set_option autoImplicit false

namespace RestStore

namespace Native

/-! ## Documents inside values -/

/-- A native value stands in another one, or is it. -/
inductive Inside : Native → Native → Prop
  | self {native : Native} : Inside native native
  | item {items : List Native} {item inner : Native} : item ∈ items → Inside item inner →
    Inside (.array items) inner
  | column {columns : List (String × Native)} {column : String × Native} {inner : Native} :
    column ∈ columns → Inside column.2 inner → Inside (.document columns) inner

/-- A document in the value, at any depth, has a key. -/
def HasKey (native : Native) (key : String) : Prop :=
  ∃ columns, Inside native (.document columns) ∧ key ∈ Fields.keys columns

theorem hasKey_array_iff {items : List Native} {key : String} :
    HasKey (.array items) key ↔ ∃ item ∈ items, HasKey item key := by
  constructor
  · rintro ⟨columns, hi, hk⟩
    cases hi with
    | item hm hi => exact ⟨_, hm, columns, hi, hk⟩
  · rintro ⟨item, hm, columns, hi, hk⟩
    exact ⟨columns, .item hm hi, hk⟩

theorem hasKey_document_iff {columns : List (String × Native)} {key : String} :
    HasKey (.document columns) key ↔
      key ∈ Fields.keys columns ∨ ∃ column ∈ columns, HasKey column.2 key := by
  constructor
  · rintro ⟨inner, hi, hk⟩
    cases hi with
    | self => exact .inl hk
    | column hm hi => exact .inr ⟨_, hm, inner, hi, hk⟩
  · rintro (hk | ⟨column, hm, inner, hi, hk⟩)
    · exact ⟨columns, .self, hk⟩
    · exact ⟨inner, .column hm hi, hk⟩

theorem not_hasKey_of_isScalar {native : Native} {key : String} (h : native.IsScalar) :
    ¬HasKey native key := by
  rintro ⟨columns, hi, _⟩
  cases hi with
  | self => exact h
  | item _ _ => exact h
  | column _ _ => exact h

mutual

/-- **A value as given has the keys of the value.** -/
theorem hasKey_given_iff : ∀ {value : Rest} {key : String},
    HasKey (given value) key ↔ value.HasKey key := by
  intro value key
  cases value with
  | array items => rw [given, hasKey_array_iff, Rest.hasKey_array_iff, hasKey_givenItems_iff]
  | object members =>
    rw [given, hasKey_document_iff, Rest.hasKey_object_iff, hasKey_givenMembers_iff]
    simp [givenMembers_eq_map, Fields.keys]
  | number number =>
    exact iff_of_false (not_hasKey_of_isScalar (isScalar_ofNumber number))
      (Rest.not_hasKey_scalar (fun _ => nofun) fun _ => nofun)
  | null | bool _ | string _ =>
    exact iff_of_false (not_hasKey_of_isScalar trivial)
      (Rest.not_hasKey_scalar (fun _ => nofun) fun _ => nofun)

theorem hasKey_givenItems_iff : ∀ {items : List Rest} {key : String},
    (∃ item ∈ givenItems items, HasKey item key) ↔ ∃ item ∈ items, item.HasKey key
  | [], _ => by simp [givenItems]
  | item :: rest, key => by
    rw [givenItems, List.exists_mem_cons_iff, List.exists_mem_cons_iff, hasKey_given_iff,
      hasKey_givenItems_iff]

theorem hasKey_givenMembers_iff : ∀ {members : List (String × Rest)} {key : String},
    (∃ column ∈ givenMembers members, HasKey column.2 key) ↔
      ∃ member ∈ members, member.2.HasKey key
  | [], _ => by simp [givenMembers]
  | (name, value) :: rest, key => by
    rw [givenMembers, List.exists_mem_cons_iff, List.exists_mem_cons_iff, hasKey_given_iff,
      hasKey_givenMembers_iff]

end

/-! ## Atoms -/

section

variable {key : String}

theorem not_hasKey_nested (pointer : Pointer) (h : isCleanKey key = false) :
    ¬HasKey pointer.nested key := by
  rw [Pointer.nested, hasKey_document_iff]
  rintro (hk | ⟨column, hm, hk⟩)
  · simp only [Fields.keys_cons, Fields.keys_nil, List.mem_cons, List.not_mem_nil, or_false] at hk
    rcases hk with rfl | rfl | rfl <;> exact absurd h (by decide)
  · simp only [List.mem_cons, List.not_mem_nil, or_false] at hm
    rcases hm with rfl | rfl | rfl <;> exact absurd hk (not_hasKey_of_isScalar trivial)

/-- The keys of an atom inside an array or object are clean. -/
theorem nestedAtom?_keys {value : Rest} {native : Native}
    (ha : nestedAtom? value = .ok (some native)) (h : isCleanKey key = false) :
    ¬HasKey native key := by
  rcases nestedAtom?_cases ha with hscalar | ⟨pointer, _, rfl⟩
  · exact not_hasKey_of_isScalar hscalar
  · exact not_hasKey_nested pointer h

theorem not_hasKey_point (point : GeoPoint) : ¬HasKey point.toNative key := by
  rw [GeoPoint.toNative, hasKey_array_iff]
  rintro ⟨item, hm, hk⟩
  simp only [List.mem_cons, List.not_mem_nil, or_false] at hm
  rcases hm with rfl | rfl <;> exact not_hasKey_of_isScalar (isScalar_ofNumber _) hk

theorem not_hasKey_ring (points : List GeoPoint) (h : isCleanKey key = false) :
    ¬HasKey (Polygon.documentOfRing points) key := by
  rw [Polygon.documentOfRing, hasKey_document_iff]
  rintro (hk | ⟨column, hm, hk⟩)
  · simp only [Fields.keys_cons, Fields.keys_nil, List.mem_cons, List.not_mem_nil, or_false] at hk
    rcases hk with rfl | rfl <;> exact absurd h (by decide)
  · simp only [List.mem_cons, List.not_mem_nil, or_false] at hm
    rcases hm with rfl | rfl
    · exact absurd hk (not_hasKey_of_isScalar trivial)
    · simp only [hasKey_array_iff, List.mem_singleton, exists_eq_left, List.mem_map] at hk
      obtain ⟨_, ⟨point, _, rfl⟩, hk⟩ := hk
      exact not_hasKey_point point hk

/-- The keys of an atom under a key of its own are clean. -/
theorem columnAtom?_keys {field : Option FieldSchema} {value : Rest} {native : Native}
    (ha : columnAtom? field value = .ok (some native)) (h : isCleanKey key = false) :
    ¬HasKey native key := by
  rcases columnAtom?_cases ha with hscalar | ⟨point, _, rfl⟩ | ⟨_, points, _, _, rfl⟩
  · exact not_hasKey_of_isScalar hscalar
  · exact not_hasKey_point point
  · exact not_hasKey_ring points h

/-! ## Elements and operations -/

variable {guard : Nesting}

/-- The keys of elements that are not clean are those of the items that are no atoms. -/
theorem exists_element_key_iff {items : List Rest} {natives : List Native}
    (he : elements guard items = .ok natives) (h : isCleanKey key = false) :
    (∃ native ∈ natives, HasKey native key) ↔
      ∃ item ∈ items, nestedAtom? item = .ok none ∧ item.HasKey key := by
  replace he := elements_forall₂ he
  induction he with
  | nil => simp
  | @cons item native rest natives helement _ ih =>
    rw [List.exists_mem_cons_iff, List.exists_mem_cons_iff]
    refine or_congr ?_ ih
    rcases element_cases helement with ha | ⟨ha, rfl⟩
    · refine iff_of_false (nestedAtom?_keys ha h) ?_
      rintro ⟨hnone, _⟩
      cases ha.symm.trans hnone
    · rw [hasKey_given_iff, and_iff_right ha]

/-- Where an operation gives the items that are no atoms, their keys are those of its elements. -/
theorem elements_keys {gives : Rest → Prop} {items : List Rest} {natives : List Native}
    (he : elements guard items = .ok natives) (h : isCleanKey key = false)
    (hgives : ∀ item, gives item ↔ item ∈ items ∧ nestedAtom? item = .ok none) :
    HasKey (.array natives) key ↔ ∃ operand, gives operand ∧ operand.HasKey key := by
  simp only [hasKey_array_iff, exists_element_key_iff he h, hgives, and_assoc]

end

end Native

/-- The operands that an operation leaves as given in the field it is flattened into: an amount, and
the items of a list that are no atoms. -/
inductive Operation.Keeps : Operation → Rest → Prop
  | amount {value : Rest} : Keeps (.setOnInsert value) value
  | added {items : List Rest} {item : Rest} : item ∈ items →
    Native.nestedAtom? item = .ok none → Keeps (.add items) item
  | addedUnique {items : List Rest} {item : Rest} : item ∈ items →
    Native.nestedAtom? item = .ok none → Keeps (.addUnique items) item

namespace Rest

/-- An operand stands in a nested value and is stored as given. -/
inductive GivenIn (operand : Rest) : Rest → Prop
  | item {items : List Rest} {item : Rest} : item ∈ items → GivenIn operand item →
    GivenIn operand (.array items)
  | member {members : List (String × Rest)} {member : String × Rest} :
    Native.nestedAtom? (.object members) = .ok none →
      Fields.contains members operationKey = false → member ∈ members →
        GivenIn operand member.2 → GivenIn operand (.object members)
  | operation {members : List (String × Rest)} {operation : Operation} :
    Native.nestedAtom? (.object members) = .ok none →
      Fields.contains members operationKey = true → Operation.ofMembers members = .ok operation →
        operation.Keeps operand → GivenIn operand (.object members)

end Rest

namespace Native

variable {key : String}

/-- The keys of what an operation leaves that are not clean are those of its operands. -/
theorem flatten_keys {guard : Nesting} {operation : Operation} {result : Option Native}
    (hf : operation.flatten guard = .ok result) (h : isCleanKey key = false) :
    HasKey (result.getD .null) key ↔ ∃ operand, operation.Keeps operand ∧ operand.HasKey key := by
  cases operation with
  | delete =>
    cases hf
    refine iff_of_false (not_hasKey_of_isScalar trivial) ?_
    rintro ⟨_, hk, _⟩
    cases hk
  | increment amount =>
    cases hf
    refine iff_of_false (not_hasKey_of_isScalar (isScalar_ofNumber amount)) ?_
    rintro ⟨_, hk, _⟩
    cases hk
  | setOnInsert value =>
    obtain ⟨native, hn, rfl⟩ := Outcome.map_eq_ok.1 hf
    rw [Option.getD_some, verbatim_eq_given hn, hasKey_given_iff]
    constructor
    · exact fun hk => ⟨value, .amount, hk⟩
    · rintro ⟨_, ⟨⟩, hk⟩
      exact hk
  | add items =>
    obtain ⟨natives, hn, rfl⟩ := Outcome.map_eq_ok.1 hf
    refine elements_keys hn h fun item => ⟨?_, fun ⟨hm, ha⟩ => .added hm ha⟩
    rintro (_ | ⟨hm, ha⟩)
    exact ⟨hm, ha⟩
  | addUnique items =>
    obtain ⟨natives, hn, rfl⟩ := Outcome.map_eq_ok.1 hf
    refine elements_keys hn h fun item => ⟨?_, fun ⟨hm, ha⟩ => .addedUnique hm ha⟩
    rintro (_ | _ | ⟨hm, ha⟩)
    exact ⟨hm, ha⟩
  | remove items =>
    obtain ⟨natives, _, rfl⟩ := Outcome.map_eq_ok.1 hf
    rw [Option.getD_some, hasKey_array_iff]
    refine iff_of_false (fun ⟨_, hm, _⟩ => nomatch hm) ?_
    rintro ⟨_, hk, _⟩
    cases hk

/-! ## Nested values -/

-- the recursion follows the walk; a value that is left out counts as null, which has no keys
mutual

/-- **The keys of a nested value that are not clean are those of operands** that are stored as
given. -/
theorem nested_keys : ∀ {value : Rest} {guard : Nesting} {result : Option Native},
    nested guard value = .ok result → isCleanKey key = false →
      (HasKey (result.getD .null) key ↔
        ∃ operand, Rest.GivenIn operand value ∧ operand.HasKey key) := by
  intro value guard result hn h
  have hatom : ∀ {native : Native}, nestedAtom? value = .ok (some native) →
      ¬∃ operand, Rest.GivenIn operand value ∧ operand.HasKey key := by
    rintro native ha ⟨operand, hg, _⟩
    cases hg with
    | item _ _ => cases ha
    | member hnone _ _ _ => cases ha.symm.trans hnone
    | operation hnone _ _ _ => cases ha.symm.trans hnone
  have hkept : ∀ {native : Native}, nestedAtom? value = .ok (some native) →
      (HasKey (result.getD .null) key ↔
        ∃ operand, Rest.GivenIn operand value ∧ operand.HasKey key) := by
    intro native ha
    rw [nested_of_atom ha hn]
    exact iff_of_false (nestedAtom?_keys ha h) (hatom ha)
  cases value with
  | null | bool _ | number _ | string _ => exact hkept rfl
  | array items =>
    obtain ⟨_, natives, hitems, rfl⟩ := nested_array hn
    rw [Option.getD_some, hasKey_array_iff, nestedItems_keys hitems h]
    constructor
    · rintro ⟨item, hm, operand, hg, hk⟩
      exact ⟨operand, .item hm hg, hk⟩
    · rintro ⟨operand, ⟨hm, hg⟩ | _ | _, hk⟩
      exact ⟨_, hm, operand, hg, hk⟩
  | object members =>
    rcases nested_object hn with ⟨native, ha, _⟩ | ⟨_, operation, hnone, hop, ho, hflat⟩ |
      ⟨_, columns, hwalked, hcolumns, rfl⟩
    · exact hkept ha
    · rw [flatten_keys hflat h]
      constructor
      · rintro ⟨operand, hkeeps, hk⟩
        exact ⟨operand, .operation hnone hop ho hkeeps, hk⟩
      · rintro ⟨operand, _ | ⟨_, hwalked, _, _⟩ | ⟨_, _, ho', hkeeps⟩, hk⟩
        · cases hop.symm.trans hwalked
        · cases ho.symm.trans ho'
          exact ⟨operand, hkeeps, hk⟩
    · rw [Option.getD_some, hasKey_document_iff, nestedMembers_keys hcolumns h]
      constructor
      · rintro (hk | ⟨member, hm, operand, hg, hk⟩)
        · obtain ⟨column, hc, rfl⟩ := List.mem_map.1 hk
          obtain ⟨value, hm, _⟩ := (mem_nestedMembers hcolumns).1 hc
          rw [hwalked.clean _ (List.mem_map_of_mem hm)] at h
          cases h
        · exact ⟨operand, .member hwalked.no_atom hwalked.no_operation hm hg, hk⟩
      · rintro ⟨operand, _ | ⟨_, _, hm, hg⟩ | ⟨_, hop, _, _⟩, hk⟩
        · exact .inr ⟨_, hm, operand, hg, hk⟩
        · cases hop.symm.trans hwalked.no_operation

theorem nestedItems_keys : ∀ {items : List Rest} {guard : Nesting} {natives : List Native},
    nestedItems guard items = .ok natives → isCleanKey key = false →
      ((∃ native ∈ natives, HasKey native key) ↔
        ∃ item ∈ items, ∃ operand, Rest.GivenIn operand item ∧ operand.HasKey key)
  | [], _, _, hn, _ => by
    rw [nestedItems] at hn
    cases hn
    simp
  | item :: rest, _, _, hn, h => by
    rw [nestedItems] at hn
    split at hn
    · cases hn
    · rename_i first hf
      obtain ⟨later, hl, rfl⟩ := Outcome.map_eq_ok.1 hn
      rw [List.exists_mem_cons_iff, List.exists_mem_cons_iff]
      exact or_congr (nested_keys hf h) (nestedItems_keys hl h)

theorem nestedMembers_keys : ∀ {members : List (String × Rest)} {guard : Nesting}
    {columns : List (String × Native)},
    nestedMembers guard members = .ok columns → isCleanKey key = false →
      ((∃ column ∈ columns, HasKey column.2 key) ↔
        ∃ member ∈ members, ∃ operand, Rest.GivenIn operand member.2 ∧ operand.HasKey key)
  | [], _, _, hn, _ => by
    rw [nestedMembers] at hn
    cases hn
    simp
  | (name, value) :: rest, _, _, hn, h => by
    obtain ⟨result, hr⟩ := nestedMembers_admits hn (name, value) List.mem_cons_self
    have hvalue := nested_keys hr h
    rw [nestedMembers, hr] at hn
    rw [List.exists_mem_cons_iff]
    cases result with
    | none =>
      rw [nestedMembers_keys hn h]
      have hnull : ¬HasKey .null key := not_hasKey_of_isScalar trivial
      exact (or_iff_right fun hk => hnull (hvalue.2 hk)).symm
    | some native =>
      obtain ⟨later, hl, rfl⟩ := Outcome.map_eq_ok.1 hn
      rw [List.exists_mem_cons_iff]
      exact or_congr hvalue (nestedMembers_keys hl h)

end

end Native

end RestStore
