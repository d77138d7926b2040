import RestStore.Native.Nested
import RestStore.Rest.OfNative

/-!
# Raising the bound on nesting

A guard with a larger bound only admits more: a computation that the smaller bound does not refuse
has the same outcome under the larger one, a result or another failure. No step turns a refusal
into something else, so this goes through every composition: `OnlyRefuses.map` and the cases of
`OnlyRefuses` itself.

* `IsTooDeep`, `OnlyRefuses` — refusals at the bound, and what a larger bound may change.
* `enter_onlyRefuses` — entering a value.
* `verbatim_onlyRefuses`, `element_onlyRefuses`, `nested_onlyRefuses` — values that are written.
* `ofNative_onlyRefuses` — stored values that are read.
-/

set_option autoImplicit false

namespace RestStore

variable {α β : Type}

/-- A refusal of a value that is nested too deep. -/
def IsTooDeep (outcome : Except Failure α) : Prop :=
  ∃ origin bound, outcome = .error (.tooDeep origin bound)

/-- The second outcome is the first one, unless that is a refusal for the depth of a value. -/
def OnlyRefuses (tight loose : Except Failure α) : Prop := IsTooDeep tight ∨ loose = tight

theorem not_isTooDeep_ok (result : α) : ¬IsTooDeep (.ok result : Except Failure α) := by
  rintro ⟨_, _, h⟩
  cases h

namespace OnlyRefuses

variable {tight loose : Except Failure α}

theorem refl (outcome : Except Failure α) : OnlyRefuses outcome outcome := .inr rfl

theorem tooDeep {origin : Origin} {bound : Nat} :
    OnlyRefuses (.error (.tooDeep origin bound)) loose := .inl ⟨origin, bound, rfl⟩

theorem map (h : OnlyRefuses tight loose) (f : α → β) :
    OnlyRefuses (tight.map f) (loose.map f) := by
  rcases h with ⟨_, _, rfl⟩ | rfl
  · exact tooDeep
  · exact refl _

theorem eq (h : OnlyRefuses tight loose) (hdeep : ¬IsTooDeep tight) : loose = tight :=
  h.resolve_left hdeep

/-- A step that looks at the outcomes: one is a refusal, or both are one failure or one result. -/
@[elab_as_elim]
theorem elim {motive : Except Failure α → Except Failure α → Prop} (h : OnlyRefuses tight loose)
    (deep : ∀ origin bound loose, motive (.error (.tooDeep origin bound)) loose)
    (error : ∀ failure, motive (.error failure) (.error failure))
    (ok : ∀ result, motive (.ok result) (.ok result)) : motive tight loose := by
  rcases h with ⟨origin, bound, rfl⟩ | rfl
  · exact deep origin bound loose
  · cases loose with
    | error failure => exact error failure
    | ok result => exact ok result

end OnlyRefuses

namespace Nesting

/-- The guards stand at the same level, the second below a bound that is not smaller. -/
structure Loosens (tight loose : Nesting) : Prop where
  level : loose.level = tight.level
  origin : loose.origin = tight.origin
  bound : tight.bound ≤ loose.bound

theorem loosens_top {bound looser : Nat} (h : bound ≤ looser) (origin : Origin) :
    Loosens (top bound origin) (top looser origin) := ⟨rfl, rfl, h⟩

/-- Where a guard lets a value enter, so does one with a larger bound. -/
theorem Loosens.enter {tight loose : Nesting} (h : Loosens tight loose) :
    (∃ origin bound, tight.enter = .error (.tooDeep origin bound)) ∨
      ∃ inner outer, tight.enter = .ok inner ∧ loose.enter = .ok outer ∧ Loosens inner outer := by
  unfold Nesting.enter
  by_cases hb : tight.bound ≤ tight.level
  · rw [if_pos hb]
    exact .inl ⟨_, _, rfl⟩
  · have hb' : ¬loose.bound ≤ loose.level := by
      have := h.bound
      have := h.level
      omega
    rw [if_neg hb, if_neg hb']
    exact .inr ⟨_, _, rfl, rfl, by rw [h.level], h.origin, h.bound⟩

end Nesting

namespace Native

/-! ## Values as given -/

mutual

theorem verbatim_onlyRefuses {tight loose : Nesting} (h : tight.Loosens loose) (value : Rest) :
    OnlyRefuses (verbatim tight value) (verbatim loose value) := by
  unfold verbatim
  rcases h.enter with ⟨_, _, hi⟩ | ⟨inner, outer, hi, ho, hd⟩
  · rw [hi]
    exact .tooDeep
  · rw [hi, ho]
    cases value with
    | array items => exact (verbatimItems_onlyRefuses hd items).map _
    | object members => exact (verbatimMembers_onlyRefuses hd members).map _
    | null | bool _ | number _ | string _ => exact .refl _

theorem verbatimItems_onlyRefuses {tight loose : Nesting} (h : tight.Loosens loose) :
    ∀ items : List Rest, OnlyRefuses (verbatimItems tight items) (verbatimItems loose items)
  | [] => .refl _
  | item :: rest => by
    unfold verbatimItems
    exact (verbatim_onlyRefuses h item).elim (fun _ _ _ => .tooDeep) (fun _ => .refl _)
      fun _ => (verbatimItems_onlyRefuses h rest).map _

theorem verbatimMembers_onlyRefuses {tight loose : Nesting} (h : tight.Loosens loose) :
    ∀ members : List (String × Rest),
      OnlyRefuses (verbatimMembers tight members) (verbatimMembers loose members)
  | [] => .refl _
  | (_, value) :: rest => by
    unfold verbatimMembers
    exact (verbatim_onlyRefuses h value).elim (fun _ _ _ => .tooDeep) (fun _ => .refl _)
      fun _ => (verbatimMembers_onlyRefuses h rest).map _

end

/-! ## Elements and operations -/

section

variable {tight loose : Nesting}

theorem element_onlyRefuses (h : tight.Loosens loose) (value : Rest) :
    OnlyRefuses (element tight value) (element loose value) := by
  unfold element
  split
  · exact .refl _
  · exact .refl _
  · exact verbatim_onlyRefuses h value

theorem elements_onlyRefuses (h : tight.Loosens loose) :
    ∀ items : List Rest, OnlyRefuses (elements tight items) (elements loose items)
  | [] => .refl _
  | item :: rest => by
    unfold elements
    exact (element_onlyRefuses h item).elim (fun _ _ _ => .tooDeep) (fun _ => .refl _)
      fun _ => (elements_onlyRefuses h rest).map _

theorem flatten_onlyRefuses (h : tight.Loosens loose) (operation : Operation) :
    OnlyRefuses (operation.flatten tight) (operation.flatten loose) := by
  cases operation with
  | delete | increment _ => exact .refl _
  | setOnInsert value => exact (verbatim_onlyRefuses h value).map _
  | add items | addUnique items | remove items => exact (elements_onlyRefuses h items).map _

theorem update_onlyRefuses (h : tight.Loosens loose) (operation : Operation) :
    OnlyRefuses (operation.update tight) (operation.update loose) := by
  cases operation with
  | delete | increment _ => exact .refl _
  | setOnInsert value => exact (verbatim_onlyRefuses h value).map _
  | add items | addUnique items | remove items => exact (elements_onlyRefuses h items).map _

theorem flattened_onlyRefuses (h : tight.Loosens loose) (members : Fields Rest) :
    OnlyRefuses (flattened tight members) (flattened loose members) := by
  unfold flattened
  split
  · exact .refl _
  · exact flatten_onlyRefuses h _

end

/-! ## Nested values -/

mutual

/-- **A nested value that is not too deep** is the same below a larger bound. -/
theorem nested_onlyRefuses {tight loose : Nesting} (h : tight.Loosens loose) (value : Rest) :
    OnlyRefuses (nested tight value) (nested loose value) := by
  unfold nested
  rcases h.enter with ⟨_, _, hi⟩ | ⟨inner, outer, hi, ho, hd⟩
  · rw [hi]
    exact .tooDeep
  · rw [hi, ho]
    cases value with
    | null | bool _ | number _ | string _ => exact .refl _
    | array items => exact (nestedItems_onlyRefuses hd items).map _
    | object members =>
      dsimp only
      split
      · exact .refl _
      · exact .refl _
      · split
        · exact flattened_onlyRefuses hd members
        · split
          · exact (nestedMembers_onlyRefuses hd members).map _
          · exact .refl _

theorem nestedItems_onlyRefuses {tight loose : Nesting} (h : tight.Loosens loose) :
    ∀ items : List Rest, OnlyRefuses (nestedItems tight items) (nestedItems loose items)
  | [] => .refl _
  | item :: rest => by
    unfold nestedItems
    exact (nested_onlyRefuses h item).elim (fun _ _ _ => .tooDeep) (fun _ => .refl _)
      fun _ => (nestedItems_onlyRefuses h rest).map _

theorem nestedMembers_onlyRefuses {tight loose : Nesting} (h : tight.Loosens loose) :
    ∀ members : List (String × Rest),
      OnlyRefuses (nestedMembers tight members) (nestedMembers loose members)
  | [] => .refl _
  | (_, value) :: rest => by
    unfold nestedMembers
    refine (nested_onlyRefuses h value).elim (fun _ _ _ => .tooDeep) (fun _ => .refl _) ?_
    intro native
    cases native with
    | none => exact nestedMembers_onlyRefuses h rest
    | some native => exact (nestedMembers_onlyRefuses h rest).map _

end

end Native

namespace Rest

/-! ## Stored values -/

mutual

/-- **A stored value that is not too deep** reads the same below a larger bound. -/
theorem ofNative_onlyRefuses : ∀ {native : Native} {tight loose : Nesting}, tight.Loosens loose →
    OnlyRefuses (ofNative tight native) (ofNative loose native) := by
  intro native tight loose h
  unfold ofNative
  rcases h.enter with ⟨_, _, hi⟩ | ⟨inner, outer, hi, ho, hd⟩
  · rw [hi]
    exact .tooDeep
  · rw [hi, ho]
    cases native with
    | array items => exact (ofItems_onlyRefuses hd).map _
    | document columns => exact (ofColumns_onlyRefuses hd).map _
    | null | bool _ | string _ | int32 _ | int64 _ | double _ | date _ | binary _ _ | regex _ _
    | objectId _ | opaqueValue _ => exact .refl _

theorem ofItems_onlyRefuses : ∀ {items : List Native} {tight loose : Nesting},
    tight.Loosens loose → OnlyRefuses (ofItems tight items) (ofItems loose items)
  | [], _, _, _ => .refl _
  | item :: rest, tight, _, h => by
    unfold ofItems
    exact (ofNative_onlyRefuses h).elim (fun _ _ _ => .tooDeep) (fun _ => .refl _)
      fun _ => (ofItems_onlyRefuses h).map _

theorem ofColumns_onlyRefuses : ∀ {columns : List (String × Native)} {tight loose : Nesting}
    {storedDate : Bool}, tight.Loosens loose →
      OnlyRefuses (ofColumns tight storedDate columns) (ofColumns loose storedDate columns)
  | [], _, _, _, _ => .refl _
  | (key, native) :: rest, tight, _, storedDate, h => by
    unfold ofColumns
    cases storedIso? storedDate key native with
    | some text => exact (ofColumns_onlyRefuses h).map _
    | none =>
      dsimp only
      exact (ofNative_onlyRefuses h).elim (fun _ _ _ => .tooDeep) (fun _ => .refl _)
        fun _ => (ofColumns_onlyRefuses h).map _

end

end Rest

end RestStore
