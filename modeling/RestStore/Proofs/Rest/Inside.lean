import RestStore.Rest.Basic

/-!
# Values inside values

What stands in a REST value at any depth: `Inside`, with one equation for each kind of value, and
the keys of its objects: `HasKey`.
-/

set_option autoImplicit false

namespace RestStore.Rest

/-- A value stands in another one, or is it. -/
inductive Inside : Rest → Rest → Prop
  | self {value : Rest} : Inside value value
  | item {items : List Rest} {item inner : Rest} : item ∈ items → Inside item inner →
    Inside (.array items) inner
  | member {members : List (String × Rest)} {member : String × Rest} {inner : Rest} :
    member ∈ members → Inside member.2 inner → Inside (.object members) inner

/-- An object in the value, at any depth, has a key. -/
def HasKey (value : Rest) (key : String) : Prop :=
  ∃ members, Inside value (.object members) ∧ key ∈ Fields.keys members

theorem inside_array_iff {items : List Rest} {inner : Rest} :
    Inside (.array items) inner ↔ inner = .array items ∨ ∃ item ∈ items, Inside item inner := by
  constructor
  · intro h
    cases h with
    | self => exact .inl rfl
    | item hm hi => exact .inr ⟨_, hm, hi⟩
  · rintro (rfl | ⟨item, hm, hi⟩)
    · exact .self
    · exact .item hm hi

theorem inside_object_iff {members : List (String × Rest)} {inner : Rest} :
    Inside (.object members) inner ↔
      inner = .object members ∨ ∃ member ∈ members, Inside member.2 inner := by
  constructor
  · intro h
    cases h with
    | self => exact .inl rfl
    | member hm hi => exact .inr ⟨_, hm, hi⟩
  · rintro (rfl | ⟨member, hm, hi⟩)
    · exact .self
    · exact .member hm hi

theorem hasKey_array_iff {items : List Rest} {key : String} :
    HasKey (.array items) key ↔ ∃ item ∈ items, HasKey item key := by
  simp only [HasKey, inside_array_iff, reduceCtorEq, false_or]
  constructor
  · rintro ⟨members, ⟨item, hm, hi⟩, hk⟩
    exact ⟨item, hm, members, hi, hk⟩
  · rintro ⟨item, hm, members, hi, hk⟩
    exact ⟨members, ⟨item, hm, hi⟩, hk⟩

theorem hasKey_object_iff {members : List (String × Rest)} {key : String} :
    HasKey (.object members) key ↔
      key ∈ Fields.keys members ∨ ∃ member ∈ members, HasKey member.2 key := by
  simp only [HasKey, inside_object_iff]
  constructor
  · rintro ⟨inner, he | ⟨member, hm, hi⟩, hk⟩
    · cases he
      exact .inl hk
    · exact .inr ⟨member, hm, inner, hi, hk⟩
  · rintro (hk | ⟨member, hm, inner, hi, hk⟩)
    · exact ⟨members, .inl rfl, hk⟩
    · exact ⟨inner, .inr ⟨member, hm, hi⟩, hk⟩

/-- A value that is neither an array nor an object has no keys. -/
theorem not_hasKey_scalar {value : Rest} {key : String} (ha : ∀ items, value ≠ .array items)
    (ho : ∀ members, value ≠ .object members) : ¬HasKey value key := by
  rintro ⟨members, hi, _⟩
  cases hi with
  | self => exact ho members rfl
  | item _ _ => exact ha _ rfl
  | member _ _ => exact ho _ rfl

end RestStore.Rest
