import RestStore.Native.Nested
import RestStore.Proofs.Outcome

/-!
# Guards that differ in their origin

The origin of a guard is only named by the failure at the bound. Two guards with the same level and
the same bound admit the same values and give the same native ones, and where one refuses, the
other refuses with the same class and message: `verbatim_sameDepth`, `elements_sameDepth`,
`flatten_sameDepth` and `nested_sameDepth`.
-/

set_option autoImplicit false

namespace RestStore

/-- The guards stand at the same level below the same bound. -/
structure SameDepth (g g' : Nesting) : Prop where
  level : g.level = g'.level
  bound : g.bound = g'.bound

theorem enter_sameDepth {g g' : Nesting} (h : SameDepth g g') :
    SameOutcome SameDepth g.enter g'.enter := by
  unfold Nesting.enter
  rw [h.level, h.bound]
  split
  · exact ⟨rfl, rfl⟩
  · exact ⟨rfl, rfl⟩

namespace Native

/-! ## Values as given -/

mutual

theorem verbatim_sameDepth {g g' : Nesting} (h : SameDepth g g') (value : Rest) :
    SameOutcome (· = ·) (verbatim g value) (verbatim g' value) := by
  unfold verbatim
  rcases (enter_sameDepth h).cases with ⟨i, i', hi, hi', hd⟩ | ⟨f, f', hf, hf', he⟩
  · rw [hi, hi']
    cases value with
    | array items => exact (verbatimItems_sameDepth hd items).map fun _ _ e => congrArg array e
    | object members =>
      exact (verbatimMembers_sameDepth hd members).map fun _ _ e => congrArg document e
    | null | bool _ | number _ | string _ => exact SameOutcome.refl _
  · rw [hf, hf']
    exact he

theorem verbatimItems_sameDepth {g g' : Nesting} (h : SameDepth g g') :
    ∀ items : List Rest, SameOutcome (· = ·) (verbatimItems g items) (verbatimItems g' items)
  | [] => SameOutcome.refl _
  | item :: rest => by
    unfold verbatimItems
    rcases (verbatim_sameDepth h item).cases with ⟨n, _, hn, hn', rfl⟩ | ⟨f, f', hf, hf', he⟩
    · rw [hn, hn']
      exact (verbatimItems_sameDepth h rest).map fun _ _ e => congrArg (n :: ·) e
    · rw [hf, hf']
      exact he

theorem verbatimMembers_sameDepth {g g' : Nesting} (h : SameDepth g g') :
    ∀ members : List (String × Rest),
      SameOutcome (· = ·) (verbatimMembers g members) (verbatimMembers g' members)
  | [] => SameOutcome.refl _
  | (key, value) :: rest => by
    unfold verbatimMembers
    rcases (verbatim_sameDepth h value).cases with ⟨n, _, hn, hn', rfl⟩ | ⟨f, f', hf, hf', he⟩
    · rw [hn, hn']
      exact (verbatimMembers_sameDepth h rest).map fun _ _ e => congrArg ((key, n) :: ·) e
    · rw [hf, hf']
      exact he

end

/-! ## Elements and operations -/

variable {g g' : Nesting}

theorem element_sameDepth (h : SameDepth g g') (value : Rest) :
    SameOutcome (· = ·) (element g value) (element g' value) := by
  unfold element
  split
  · exact ⟨rfl, rfl⟩
  · exact SameOutcome.refl _
  · exact verbatim_sameDepth h value

theorem elements_sameDepth (h : SameDepth g g') :
    ∀ items : List Rest, SameOutcome (· = ·) (elements g items) (elements g' items)
  | [] => SameOutcome.refl _
  | item :: rest => by
    unfold elements
    rcases (element_sameDepth h item).cases with ⟨n, _, hn, hn', rfl⟩ | ⟨f, f', hf, hf', he⟩
    · rw [hn, hn']
      exact (elements_sameDepth h rest).map fun _ _ e => congrArg (n :: ·) e
    · rw [hf, hf']
      exact he

theorem flatten_sameDepth (h : SameDepth g g') (operation : Operation) :
    SameOutcome (· = ·) (operation.flatten g) (operation.flatten g') := by
  cases operation with
  | delete => exact SameOutcome.refl _
  | increment amount => exact SameOutcome.refl _
  | setOnInsert value => exact (verbatim_sameDepth h value).map fun _ _ e => congrArg some e
  | add items =>
    exact (elements_sameDepth h items).map fun _ _ e => congrArg (fun l => some (array l)) e
  | addUnique items =>
    exact (elements_sameDepth h items).map fun _ _ e => congrArg (fun l => some (array l)) e
  | remove items => exact (elements_sameDepth h items).map fun _ _ _ => rfl

/-! ## Nested values -/

mutual

/-- **A nested value is the same under both guards**, or refused by both. -/
theorem nested_sameDepth {g g' : Nesting} (h : SameDepth g g') (value : Rest) :
    SameOutcome (· = ·) (nested g value) (nested g' value) := by
  unfold nested
  rcases (enter_sameDepth h).cases with ⟨i, i', hi, hi', hd⟩ | ⟨f, f', hf, hf', he⟩
  · rw [hi, hi']
    cases value with
    | null | bool _ | number _ | string _ => exact SameOutcome.refl _
    | array items =>
      exact (nestedItems_sameDepth hd items).map fun _ _ e => congrArg (fun l => some (array l)) e
    | object members =>
      dsimp only
      split
      · exact ⟨rfl, rfl⟩
      · exact SameOutcome.refl _
      · split
        · unfold flattened
          split
          · exact ⟨rfl, rfl⟩
          · exact flatten_sameDepth hd _
        · split
          · exact (nestedMembers_sameDepth hd members).map fun _ _ e =>
              congrArg (fun l => some (document l)) e
          · exact ⟨rfl, rfl⟩
  · rw [hf, hf']
    exact he

theorem nestedItems_sameDepth {g g' : Nesting} (h : SameDepth g g') :
    ∀ items : List Rest, SameOutcome (· = ·) (nestedItems g items) (nestedItems g' items)
  | [] => SameOutcome.refl _
  | item :: rest => by
    unfold nestedItems
    rcases (nested_sameDepth h item).cases with ⟨n, _, hn, hn', rfl⟩ | ⟨f, f', hf, hf', he⟩
    · rw [hn, hn']
      exact (nestedItems_sameDepth h rest).map fun _ _ e => congrArg (n.getD .null :: ·) e
    · rw [hf, hf']
      exact he

theorem nestedMembers_sameDepth {g g' : Nesting} (h : SameDepth g g') :
    ∀ members : List (String × Rest),
      SameOutcome (· = ·) (nestedMembers g members) (nestedMembers g' members)
  | [] => SameOutcome.refl _
  | (key, value) :: rest => by
    unfold nestedMembers
    rcases (nested_sameDepth h value).cases with ⟨n, _, hn, hn', rfl⟩ | ⟨f, f', hf, hf', he⟩
    · rw [hn, hn']
      cases n with
      | none => exact nestedMembers_sameDepth h rest
      | some native =>
        exact (nestedMembers_sameDepth h rest).map fun _ _ e => congrArg ((key, native) :: ·) e
    · rw [hf, hf']
      exact he

end

end Native

end RestStore
