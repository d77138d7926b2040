import RestStore.Proofs.Fields
import RestStore.Rest.Basic

/-!
# Equality up to the order of members

The order of the members of an object is kept, but it does not tell two objects apart.
`Rest.Alike` compares the objects in a value by what they hold under each name, at every depth.

* `Rest.Alike.refl` — every value is alike itself.
* `Rest.Reordered` — an object with the members of another one in some order.
* `Rest.Reordered.alike` — it is alike to the other one.
-/

set_option autoImplicit false

namespace RestStore

namespace Rest

/-! ## Values alike -/

/-- Equality up to the order of the members of objects. -/
inductive Alike : Rest → Rest → Prop
  | null : Alike .null .null
  | bool (flag : Bool) : Alike (.bool flag) (.bool flag)
  | number (value : Number) : Alike (.number value) (.number value)
  | string (text : String) : Alike (.string text) (.string text)
  | array {items others : List Rest} : List.Forall₂ Alike items others →
    Alike (.array items) (.array others)
  | object {members others : Fields Rest} :
    (∀ key, Option.Rel Alike (Fields.get? members key) (Fields.get? others key)) →
      Alike (.object members) (.object others)

mutual

theorem Alike.refl : ∀ value : Rest, Alike value value
  | .null => .null
  | .bool flag => .bool flag
  | .number value => .number value
  | .string text => .string text
  | .array items => .array (Alike.refl_items items)
  | .object members => .object (Fields.get?_forall₂ (Alike.refl_members members))

theorem Alike.refl_items : ∀ items : List Rest, List.Forall₂ Alike items items
  | [] => .nil
  | item :: rest => .cons (Alike.refl item) (Alike.refl_items rest)

theorem Alike.refl_members : ∀ members : List (String × Rest),
    List.Forall₂ (fun a b => a.1 = b.1 ∧ Alike a.2 b.2) members members
  | [] => .nil
  | (_, value) :: rest => .cons ⟨rfl, Alike.refl value⟩ (Alike.refl_members rest)

end

theorem Alike.refl_option : ∀ value : Option Rest, Option.Rel Alike value value
  | none => .none
  | some value => .some (Alike.refl value)

/-- What is alike stays so beside one default. -/
theorem Alike.or_default {first second : Option Rest} (h : Option.Rel Alike first second)
    (default : Option Rest) : Option.Rel Alike (first.or default) (second.or default) := by
  cases h with
  | none => exact Alike.refl_option default
  | some h => exact .some h

/-- Objects with the same members in one order, each alike. -/
theorem Alike.of_forall₂ {members others : Fields Rest}
    (h : List.Forall₂ (fun a b => a.1 = b.1 ∧ Alike a.2 b.2) members others) :
    Alike (.object members) (.object others) :=
  .object (Fields.get?_forall₂ h)

/-! ## Objects in another order -/

/-- An object with the members of another one, in some order. -/
inductive Reordered : Rest → Rest → Prop
  | intro {members others : Fields Rest} : members.Perm others →
    Reordered (.object members) (.object others)

theorem Reordered.exists_members {value other : Rest} (h : Reordered value other) :
    ∃ members, value = .object members := by
  obtain ⟨_⟩ := h
  exact ⟨_, rfl⟩

theorem Reordered.alike {value : Rest} {others : Fields Rest}
    (h : Reordered value (.object others)) (hn : (Fields.keys others).Nodup) :
    Alike (.object others) value := by
  obtain ⟨hperm⟩ := h
  refine .object fun key => ?_
  rw [Fields.get?_perm hperm hn]
  exact Alike.refl_option _

end Rest

end RestStore
