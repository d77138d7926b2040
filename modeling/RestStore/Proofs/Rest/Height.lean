import RestStore.Proofs.Fields
import RestStore.Proofs.Rest.Shape

/-!
# Heights

How deep a REST value is nested: a scalar and an empty object have height one, and an array or
object is one higher than the highest value in it.

* `height_item_lt`, `height_member_lt` — what is inside is lower.
* `two_le_height_of_shape`, `four_le_height` — envelopes, and those of polygons.
-/

set_option autoImplicit false

namespace RestStore.Rest

mutual

/-- The height of a value. -/
def height : Rest → Nat
  | .array items => heightOfItems items + 1
  | .object members => heightOfMembers members + 1
  | .null | .bool _ | .number _ | .string _ => 1

/-- The height of the highest item. -/
def heightOfItems : List Rest → Nat
  | [] => 0
  | item :: rest => max item.height (heightOfItems rest)

/-- The height of the highest member. -/
def heightOfMembers : List (String × Rest) → Nat
  | [] => 0
  | (_, value) :: rest => max value.height (heightOfMembers rest)

end

theorem height_pos (value : Rest) : 0 < value.height := by
  cases value <;> simp [height]

theorem height_le_heightOfItems : ∀ {items : List Rest} {item : Rest}, item ∈ items →
    item.height ≤ heightOfItems items
  | first :: rest, item, h => by
    rw [heightOfItems]
    rcases List.mem_cons.1 h with rfl | h
    · omega
    · have := height_le_heightOfItems h
      omega

theorem height_le_heightOfMembers : ∀ {members : List (String × Rest)} {member : String × Rest},
    member ∈ members → member.2.height ≤ heightOfMembers members
  | (key, value) :: rest, member, h => by
    rw [heightOfMembers]
    rcases List.mem_cons.1 h with rfl | h
    · exact Nat.le_max_left _ _
    · have := height_le_heightOfMembers h
      omega

theorem height_item_lt {items : List Rest} {item : Rest} (h : item ∈ items) :
    item.height < (array items).height := by
  have := height_le_heightOfItems h
  rw [height]
  omega

theorem height_member_lt {members : List (String × Rest)} {member : String × Rest}
    (h : member ∈ members) : member.2.height < (object members).height := by
  have := height_le_heightOfMembers h
  rw [height]
  omega

/-! ## Heights of tagged objects -/

theorem height_get?_lt {members : Fields Rest} {key : String} {value : Rest}
    (h : Fields.get? members key = some value) : value.height < (object members).height :=
  height_member_lt (Fields.mem_of_get? h)

/-- An object that is more than a plain one has a member. -/
theorem two_le_height_of_get? {members : Fields Rest} {key : String} {value : Rest}
    (h : Fields.get? members key = some value) : 2 ≤ (object members).height :=
  Nat.lt_of_le_of_lt value.height_pos (height_get?_lt h)

theorem two_le_height_of_shape {value : Rest} {shape : Shape} (h : value.shape = .ok shape)
    (ht : shape.IsTagged) : 2 ≤ value.height := by
  obtain ⟨members, tag, rfl, htag, _⟩ := exists_tag_of_shape h ht
  exact two_le_height_of_get? htag

/-- An object with the shape of a polygon is the envelope of one. -/
theorem ofEnvelope_of_shape {value : Rest} {polygon : Polygon}
    (h : value.shape = .ok (.polygon polygon)) :
    ∃ members, value = .object members ∧ Polygon.ofEnvelope members = .ok polygon := by
  obtain ⟨members, tag, rfl, _, hs⟩ := exists_tag_of_shape h trivial
  refine ⟨members, rfl, ?_⟩
  rcases Shape.ofEnvelope_cases hs with ⟨_, _, he⟩ | ⟨_, _, he⟩ | ⟨_, _, he⟩ | ⟨_, _, he⟩ |
    ⟨_, _, he⟩ | ⟨_, hp, he⟩ | ⟨_, _, he⟩ <;> cases he
  exact hp

/-- The envelope of a polygon with a vertex is at least four levels high. -/
theorem four_le_height {members : Fields Rest} {polygon : Polygon}
    (h : Polygon.ofEnvelope members = .ok polygon) (hne : polygon.vertices ≠ []) :
    4 ≤ (object members).height := by
  unfold Polygon.ofEnvelope at h
  split at h
  · rename_i points hc
    split at h
    · rename_i vertices hv
      cases h
      cases points with
      | nil =>
        cases hv
        exact absurd rfl hne
      | cons first rest =>
        have hpair : 2 ≤ first.height := by
          unfold Polygon.verticesOfRest? at hv
          split at hv
          · rename_i he
            cases he
          · rename_i latitude longitude later he
            cases he
            simp [height, heightOfItems]
          · cases hv
        have hlist := height_item_lt (List.mem_cons_self (a := first) (l := rest))
        have hobject := height_get?_lt hc
        omega
    · cases h
  · cases h

end RestStore.Rest
