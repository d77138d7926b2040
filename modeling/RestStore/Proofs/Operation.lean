import RestStore.Native.Nested
import RestStore.Proofs.Outcome

/-!
# Operations on absent fields

An operation is flattened where there is no stored object to apply it to. `flattened_of_update`
compares the flattened value with what the store leaves in an absent field when it applies the
operator of the same operation. They are the same for every operator but one: a union keeps an
element once, and its flattened value repeats the elements that the request repeats.

* `FieldUpdate.onAbsent` — the store's meaning of the operators, on a field that is absent.
* `eraseDupsBy_eq_self_iff` — keeping elements once changes a list only where some are the same.
* `flatten_cases` — an operation is flattened exactly when it has an operator, and into which value.
-/

set_option autoImplicit false

namespace RestStore

open Operation (each)

/-- The elements that the argument of an operator adds to an array. -/
def addedElements : Native → List Native
  | .document [("$each", .array elements)] => elements
  | argument => [argument]

/-- What the store leaves in an absent field, given when it takes two elements for the same. A sum
starts from nothing, an array from no element. A removal from an absent array counts as one from
an empty array. -/
def FieldUpdate.onAbsent (same : Native → Native → Bool) (update : FieldUpdate) : Option Native :=
  match update.operator with
  | .unset => none
  | .set | .inc | .setOnInsert => some update.argument
  | .push => some (.array (addedElements update.argument))
  | .addToSet => some (.array ((addedElements update.argument).eraseDupsBy same))
  | .pullAll => some (.array [])

/-- No element of a list is the same as an earlier one. -/
def NoneSame (same : Native → Native → Bool) (elements : List Native) : Prop :=
  elements.Pairwise fun earlier later => same later earlier = false

instance (same : Native → Native → Bool) (elements : List Native) :
    Decidable (NoneSame same elements) :=
  inferInstanceAs (Decidable (elements.Pairwise _))

/-! ## Elements kept once -/

section

variable {same : Native → Native → Bool}

theorem length_eraseDupsBy_le (elements : List Native) :
    (elements.eraseDupsBy same).length ≤ elements.length := by
  match elements with
  | [] => exact Nat.le_refl _
  | element :: rest =>
    rw [List.eraseDupsBy_cons, List.length_cons, List.length_cons]
    have shorter := List.length_filter_le (fun later => decide (same later element = false)) rest
    have := length_eraseDupsBy_le (rest.filter fun later => decide (same later element = false))
    omega
termination_by elements.length
decreasing_by
  simp only [List.length_cons]
  omega

/-- **Keeping elements once changes nothing** exactly where none is the same as an earlier one. -/
theorem eraseDupsBy_eq_self_iff (elements : List Native) :
    elements.eraseDupsBy same = elements ↔ NoneSame same elements := by
  unfold NoneSame
  induction elements with
  | nil => simp
  | cons element rest ih =>
    rw [List.eraseDupsBy_cons, List.cons.injEq, List.pairwise_cons]
    constructor
    · rintro ⟨-, kept⟩
      -- A filter that drops an element leaves fewer than the whole list holds.
      have full : rest.length ≤ _ :=
        calc rest.length
          _ = _ := congrArg List.length kept.symm
          _ ≤ (rest.filter fun later => decide (same later element = false)).length :=
            length_eraseDupsBy_le _
      have all := List.length_filter_eq_length_iff.1
        (Nat.le_antisymm (List.length_filter_le _ _) full)
      rw [List.filter_eq_self.2 all] at kept
      exact ⟨fun later hm => by simpa using all later hm, ih.1 kept⟩
    · rintro ⟨first, others⟩
      have all : rest.filter (fun later => decide (same later element = false)) = rest :=
        List.filter_eq_self.2 fun later hm => by simpa using first later hm
      rw [all]
      exact ⟨rfl, ih.2 others⟩

end

/-! ## Flattened operations -/

theorem onAbsent_each (same : Native → Native → Bool) (elements : List Native) :
    FieldUpdate.onAbsent same ⟨.addToSet, each elements⟩ =
      some (.array (elements.eraseDupsBy same)) :=
  rfl

section

variable (same : Native → Native → Bool) {guard : Nesting} {operation : Operation}
  {update : FieldUpdate}

/-- An operation with an operator is flattened: a union into all of its elements, and every other
operation into what the operator leaves. -/
theorem flatten_cases (sent : operation.update guard = .ok update) :
    (∃ elements, update = ⟨.addToSet, each elements⟩ ∧
      operation.flatten guard = .ok (some (.array elements))) ∨
    (update.operator ≠ .addToSet ∧ operation.flatten guard = .ok (update.onAbsent same)) := by
  cases operation with
  | delete | increment amount =>
    cases sent
    exact .inr ⟨nofun, rfl⟩
  | setOnInsert value =>
    obtain ⟨native, hn, rfl⟩ := Outcome.map_eq_ok.1 sent
    exact .inr ⟨nofun, by rw [Operation.flatten, hn]; rfl⟩
  | add items =>
    obtain ⟨elements, he, rfl⟩ := Outcome.map_eq_ok.1 sent
    exact .inr ⟨nofun, by rw [Operation.flatten, he]; rfl⟩
  | addUnique items =>
    obtain ⟨elements, he, rfl⟩ := Outcome.map_eq_ok.1 sent
    exact .inl ⟨elements, rfl, by rw [Operation.flatten, he]; rfl⟩
  | remove items =>
    obtain ⟨elements, he, rfl⟩ := Outcome.map_eq_ok.1 sent
    exact .inr ⟨nofun, by rw [Operation.flatten, he]; rfl⟩

/-- **A flattened operation against the store.** Where an operation has an operator it is flattened
too. The value is what the operator leaves in an absent field, except that a union is flattened
into its whole list: that is what the store leaves exactly where none of the elements is the same
as an earlier one. -/
theorem flattened_of_update {members : Fields Rest}
    (parsed : Operation.ofMembers members = .ok operation)
    (sent : operation.update guard = .ok update) :
    ∃ result, Native.flattened guard members = .ok result ∧
      ((∃ elements, update = ⟨.addToSet, each elements⟩ ∧ result = some (.array elements) ∧
          (result = update.onAbsent same ↔ NoneSame same elements)) ∨
        (update.operator ≠ .addToSet ∧ result = update.onAbsent same)) := by
  unfold Native.flattened
  rw [parsed]
  rcases flatten_cases same sent with ⟨elements, rfl, hf⟩ | ⟨hne, hf⟩
  · refine ⟨_, hf, .inl ⟨elements, rfl, rfl, ?_⟩⟩
    rw [onAbsent_each, Option.some.injEq, Native.array.injEq, eq_comm]
    exact eraseDupsBy_eq_self_iff elements
  · exact ⟨_, hf, .inr ⟨hne, rfl⟩⟩

end

/-- The members of an operation that adds texts where they are not there yet. -/
def unionOf (texts : List String) : Fields Rest :=
  [(operationKey, .string "AddUnique"), ("objects", .array (texts.map Rest.string))]

/-- A guard that admits two levels. -/
def twoLevels : Nesting := .top 2 .value

/-- Two stored texts that are equal. -/
def sameText : Native → Native → Bool
  | .string text, .string other => text == other
  | _, _ => false

theorem flattened_of_update_texts :
    Native.flattened twoLevels (unionOf ["a", "b"]) =
      .ok (FieldUpdate.onAbsent sameText ⟨.addToSet, each [.string "a", .string "b"]⟩) := by
  have parsed : Operation.ofMembers (unionOf ["a", "b"]) =
    .ok (.addUnique [.string "a", .string "b"]) := rfl
  have sent : (Operation.addUnique [.string "a", .string "b"]).update twoLevels =
    .ok ⟨.addToSet, each [.string "a", .string "b"]⟩ := rfl
  obtain ⟨result, hr, ⟨elements, he, -, same_iff⟩ | ⟨hne, -⟩⟩ :=
    flattened_of_update sameText parsed sent
  · cases he
    rw [hr, same_iff.2 (by decide)]
  · exact absurd rfl hne

/-- Whatever the store compares by, if it finds a text to be the same as itself: of a text that is
added twice it keeps one, and the flattened value keeps both. -/
theorem flattened_union_repeats :
    ∃ operation update, Operation.ofMembers (unionOf ["a", "a"]) = .ok operation ∧
      operation.update twoLevels = .ok update ∧
        Native.flattened twoLevels (unionOf ["a", "a"]) =
          .ok (some (.array [.string "a", .string "a"])) ∧
        ∀ same : Native → Native → Bool, same (.string "a") (.string "a") = true →
          update.onAbsent same = some (.array [.string "a"]) := by
  refine ⟨.addUnique [.string "a", .string "a"], ⟨.addToSet, each [.string "a", .string "a"]⟩,
    rfl, rfl, rfl, fun same reflexive => ?_⟩
  rw [onAbsent_each, List.eraseDupsBy_cons]
  simp [reflexive]

end RestStore
