import Mathlib.Data.List.Forall2
import RestStore.Native.Nested
import RestStore.Proofs.Outcome

/-!
# What a guard leaves open

A guard decides whether a value is admitted, never what it becomes: two guards that admit a value
give one native value. A value as given is `Native.given`, a function without a guard.

* `verbatim_eq_given`, `element_unique`, `nested_unique` — one native value for all guards.
* `element_cases`, `nested_array`, `nested_object` — all that an element and a nested value can be.
* `elements_forall₂`, `nestedItems_forall₂`, `mem_nestedMembers` — lists go item by item, and
  members name by name.
-/

set_option autoImplicit false

namespace RestStore.Native

/-! ## Values as given -/

mutual

/-- The native value with the structure of a REST value. -/
def given : Rest → Native
  | .null => .null
  | .bool flag => .bool flag
  | .number number => .ofNumber number
  | .string text => .string text
  | .array items => .array (givenItems items)
  | .object members => .document (givenMembers members)

def givenItems : List Rest → List Native
  | [] => []
  | item :: rest => given item :: givenItems rest

def givenMembers : List (String × Rest) → List (String × Native)
  | [] => []
  | (key, value) :: rest => (key, given value) :: givenMembers rest

end

theorem givenMembers_eq_map (members : List (String × Rest)) :
    givenMembers members = members.map fun member => (member.1, given member.2) := by
  induction members with
  | nil => rfl
  | cons member rest ih =>
    obtain ⟨key, value⟩ := member
    rw [givenMembers, ih, List.map_cons]

/-- A number is stored as one of the three kinds of number. -/
theorem ofNumber_cases (number : Number) :
    (∃ value, ofNumber number = .int32 value) ∨ (∃ value, ofNumber number = .int64 value) ∨
      ∃ value, ofNumber number = .double value := by
  cases number with
  | double d => exact .inr (.inr ⟨d, rfl⟩)
  | integer i =>
    rw [ofNumber, ofInt]
    split
    · exact .inl ⟨_, rfl⟩
    · split
      · exact .inr (.inl ⟨_, rfl⟩)
      · exact .inr (.inr ⟨_, rfl⟩)

theorem ofNumber_ne_string (number : Number) (text : String) :
    ofNumber number ≠ .string text := by
  intro h
  rcases ofNumber_cases number with ⟨_, hn⟩ | ⟨_, hn⟩ | ⟨_, hn⟩ <;> cases hn.symm.trans h

theorem instant?_ofNumber (number : Number) : Instant.ofNative? (ofNumber number) = none := by
  rcases ofNumber_cases number with ⟨_, hn⟩ | ⟨_, hn⟩ | ⟨_, hn⟩ <;> rw [hn] <;> rfl

/-- Only a text is given as a text. -/
theorem eq_string_of_given {value : Rest} {text : String} (h : given value = .string text) :
    value = .string text := by
  cases value with
  | string other =>
    cases h
    rfl
  | number number => exact absurd h (ofNumber_ne_string number text)
  | null | bool _ | array _ | object _ => cases h

mutual

theorem verbatim_eq_given : ∀ {value : Rest} {guard : Nesting} {native : Native},
    verbatim guard value = .ok native → native = given value := by
  intro value guard native h
  unfold verbatim at h
  split at h
  · cases h
  · cases value with
    | array items =>
      obtain ⟨natives, hn, rfl⟩ := Outcome.map_eq_ok.1 h
      rw [verbatimItems_eq_given hn, given]
    | object members =>
      obtain ⟨columns, hc, rfl⟩ := Outcome.map_eq_ok.1 h
      rw [verbatimMembers_eq_given hc, given]
    | null | bool _ | number _ | string _ =>
      cases h
      rfl

theorem verbatimItems_eq_given : ∀ {items : List Rest} {guard : Nesting} {natives : List Native},
    verbatimItems guard items = .ok natives → natives = givenItems items
  | [], _, _, h => by
    rw [verbatimItems] at h
    cases h
    rfl
  | item :: rest, _, _, h => by
    rw [verbatimItems] at h
    split at h
    · cases h
    · rename_i first hf
      obtain ⟨later, hl, rfl⟩ := Outcome.map_eq_ok.1 h
      rw [givenItems, verbatim_eq_given hf, verbatimItems_eq_given hl]

theorem verbatimMembers_eq_given : ∀ {members : List (String × Rest)} {guard : Nesting}
    {columns : List (String × Native)},
    verbatimMembers guard members = .ok columns → columns = givenMembers members
  | [], _, _, h => by
    rw [verbatimMembers] at h
    cases h
    rfl
  | (key, value) :: rest, _, _, h => by
    rw [verbatimMembers] at h
    split at h
    · cases h
    · rename_i first hf
      obtain ⟨later, hl, rfl⟩ := Outcome.map_eq_ok.1 h
      rw [givenMembers, verbatim_eq_given hf, verbatimMembers_eq_given hl]

end

/-! ## Elements -/

section

variable {guard other : Nesting}

/-- An element is an atom, or the value as given. -/
theorem element_cases {value : Rest} {native : Native} (h : element guard value = .ok native) :
    nestedAtom? value = .ok (some native) ∨
      nestedAtom? value = .ok none ∧ native = given value := by
  unfold element at h
  split at h
  · cases h
  · rename_i atom ha
    cases h
    exact .inl ha
  · rename_i ha
    exact .inr ⟨ha, verbatim_eq_given h⟩

theorem element_unique {value : Rest} {first second : Native}
    (hf : element guard value = .ok first) (hs : element other value = .ok second) :
    first = second := by
  rcases element_cases hf with ha | ⟨ha, rfl⟩ <;> rcases element_cases hs with hb | ⟨hb, rfl⟩
  · cases ha.symm.trans hb
    rfl
  · cases ha.symm.trans hb
  · cases ha.symm.trans hb
  · rfl

/-- The elements of a list are those of its items. -/
theorem elements_forall₂ : ∀ {items : List Rest} {natives : List Native},
    elements guard items = .ok natives →
      List.Forall₂ (fun item native => element guard item = .ok native) items natives
  | [], _, h => by
    cases h
    exact .nil
  | item :: rest, _, h => by
    rw [elements] at h
    split at h
    · cases h
    · rename_i first hf
      obtain ⟨later, hl, rfl⟩ := Outcome.map_eq_ok.1 h
      exact .cons hf (elements_forall₂ hl)

/-- Items that are elements one by one are the elements of the list. -/
theorem elements_of_forall₂ {items : List Rest} {natives : List Native}
    (h : List.Forall₂ (fun item native => element guard item = .ok native) items natives) :
    elements guard items = .ok natives := by
  induction h with
  | nil => rfl
  | cons hfirst _ ih =>
    rw [elements, hfirst, ih]
    rfl

theorem elements_unique {items : List Rest} {first second : List Native}
    (hf : elements guard items = .ok first) (hs : elements other items = .ok second) :
    first = second := by
  replace hf := elements_forall₂ hf
  replace hs := elements_forall₂ hs
  induction hf generalizing second with
  | nil =>
    cases hs
    rfl
  | cons hfirst _ ih =>
    cases hs with
    | cons hsecond hrest => rw [element_unique hfirst hsecond, ih hrest]

theorem flatten_unique {operation : Operation} {first second : Option Native}
    (hf : operation.flatten guard = .ok first) (hs : operation.flatten other = .ok second) :
    first = second := by
  cases operation with
  | delete | increment amount =>
    cases hf
    cases hs
    rfl
  | setOnInsert value =>
    obtain ⟨a, ha, rfl⟩ := Outcome.map_eq_ok.1 hf
    obtain ⟨b, hb, rfl⟩ := Outcome.map_eq_ok.1 hs
    rw [verbatim_eq_given ha, verbatim_eq_given hb]
  | add items | addUnique items =>
    obtain ⟨a, ha, rfl⟩ := Outcome.map_eq_ok.1 hf
    obtain ⟨b, hb, rfl⟩ := Outcome.map_eq_ok.1 hs
    rw [elements_unique ha hb]
  | remove items =>
    obtain ⟨a, _, rfl⟩ := Outcome.map_eq_ok.1 hf
    obtain ⟨b, _, rfl⟩ := Outcome.map_eq_ok.1 hs
    rfl

/-! ## Nested values -/

/-- Whether an object is walked: it is no atom and asks for no operation. -/
structure IsWalked (members : Fields Rest) : Prop where
  no_atom : nestedAtom? (.object members) = .ok none
  no_operation : Fields.contains members operationKey = false
  clean : ∀ key ∈ Fields.keys members, isCleanKey key = true

/-- The items of a nested array are one level down. -/
theorem nested_array_entered {items : List Rest} {result : Option Native} {inner : Nesting}
    (hi : guard.enter = .ok inner) (h : nested guard (.array items) = .ok result) :
    ∃ natives, nestedItems inner items = .ok natives ∧ result = some (.array natives) := by
  rw [nested, hi] at h
  obtain ⟨natives, hn, rfl⟩ := Outcome.map_eq_ok.1 h
  exact ⟨natives, hn, rfl⟩

theorem nested_array {items : List Rest} {result : Option Native}
    (h : nested guard (.array items) = .ok result) :
    ∃ inner natives, nestedItems inner items = .ok natives ∧ result = some (.array natives) := by
  cases hi : guard.enter with
  | error failure =>
    rw [nested, hi] at h
    cases h
  | ok inner => exact ⟨inner, nested_array_entered hi h⟩

/-- **All that a nested object can be**: an atom, what an operation leaves, or a document of members
one level down. -/
theorem nested_object_entered {members : Fields Rest} {result : Option Native} {inner : Nesting}
    (hi : guard.enter = .ok inner) (h : nested guard (.object members) = .ok result) :
    (∃ native, nestedAtom? (.object members) = .ok (some native) ∧ result = some native) ∨
      (∃ operation, nestedAtom? (.object members) = .ok none ∧
        Fields.contains members operationKey = true ∧
        Operation.ofMembers members = .ok operation ∧ operation.flatten inner = .ok result) ∨
      ∃ columns, IsWalked members ∧ nestedMembers inner members = .ok columns ∧
        result = some (.document columns) := by
  rw [nested, hi] at h
  dsimp only at h
  split at h
  · cases h
  · rename_i native ha
    cases h
    exact .inl ⟨native, ha, rfl⟩
  · rename_i ha
    refine .inr ?_
    split at h
    · rename_i hop
      unfold flattened at h
      split at h
      · cases h
      · rename_i operation ho
        exact .inl ⟨operation, ha, hop, ho, h⟩
    · rename_i hop
      split at h
      · rename_i hclean
        obtain ⟨columns, hc, rfl⟩ := Outcome.map_eq_ok.1 h
        refine .inr ⟨columns, ⟨ha, by simpa using hop, fun key hk => ?_⟩, hc, rfl⟩
        obtain ⟨member, hm, rfl⟩ := List.mem_map.1 hk
        exact List.all_eq_true.1 hclean member hm
      · cases h

theorem nested_object {members : Fields Rest} {result : Option Native}
    (h : nested guard (.object members) = .ok result) :
    (∃ native, nestedAtom? (.object members) = .ok (some native) ∧ result = some native) ∨
      (∃ inner operation, nestedAtom? (.object members) = .ok none ∧
        Fields.contains members operationKey = true ∧
        Operation.ofMembers members = .ok operation ∧ operation.flatten inner = .ok result) ∨
      ∃ inner columns, IsWalked members ∧ nestedMembers inner members = .ok columns ∧
        result = some (.document columns) := by
  cases hi : guard.enter with
  | error failure =>
    rw [nested, hi] at h
    cases h
  | ok inner =>
    rcases nested_object_entered hi h with hatom | hflat | hwalked
    · exact .inl hatom
    · exact .inr (.inl ⟨inner, hflat⟩)
    · exact .inr (.inr ⟨inner, hwalked⟩)

/-- An atom inside an array or object is kept, where a level is left for it. -/
theorem nested_atom {value : Rest} {native : Native} {inner : Nesting}
    (hi : guard.enter = .ok inner) (ha : nestedAtom? value = .ok (some native)) :
    nested guard value = .ok (some native) := by
  cases value with
  | array items => cases ha
  | object members =>
    rw [nested, hi]
    dsimp only
    rw [ha]
  | null | bool _ | number _ | string _ =>
    cases ha
    rw [nested, hi]

/-- A walked object is stored as the document of its members, where a level is left for it. -/
theorem nested_walked {members : Fields Rest} {columns : List (String × Native)}
    {inner : Nesting} (hi : guard.enter = .ok inner) (h : IsWalked members)
    (hc : nestedMembers inner members = .ok columns) :
    nested guard (.object members) = .ok (some (.document columns)) := by
  have hclean : (members.all fun member => isCleanKey member.1) = true := by
    rw [List.all_eq_true]
    exact fun member hm => h.clean _ (List.mem_map_of_mem hm)
  rw [nested, hi]
  dsimp only
  rw [h.no_atom, h.no_operation, hclean, hc]
  rfl

/-- **Only an operation leaves a nested value out.** -/
theorem exists_operation_of_nested {value : Rest} (h : nested guard value = .ok none) :
    ∃ members, value = .object members ∧ Fields.contains members operationKey = true := by
  cases value with
  | array items =>
    obtain ⟨_, _, _, he⟩ := nested_array h
    cases he
  | object members =>
    rcases nested_object h with ⟨_, _, he⟩ | ⟨_, _, _, hop, _⟩ | ⟨_, _, _, _, he⟩
    · cases he
    · exact ⟨members, rfl, hop⟩
    · cases he
  | null | bool _ | number _ | string _ =>
    unfold nested at h
    split at h
    · cases h
    · cases h

/-- A nested atom is kept as one. -/
theorem nested_of_atom {value : Rest} {result : Option Native} {native : Native}
    (ha : nestedAtom? value = .ok (some native)) (h : nested guard value = .ok result) :
    result = some native := by
  cases value with
  | array items => cases ha
  | object members =>
    rcases nested_object h with ⟨other, hother, rfl⟩ | ⟨_, _, hnone, _⟩ | ⟨_, _, hwalked, _⟩
    · cases ha.symm.trans hother
      rfl
    · cases ha.symm.trans hnone
    · cases ha.symm.trans hwalked.no_atom
  | null | bool _ | number _ | string _ =>
    unfold nested at h
    split at h
    · cases h
    · cases ha
      cases h
      rfl

/-- The items of a nested array are nested values; one that is left out is null. -/
theorem nestedItems_forall₂ : ∀ {items : List Rest} {natives : List Native},
    nestedItems guard items = .ok natives → List.Forall₂
      (fun item native => ∃ result, nested guard item = .ok result ∧ native = result.getD .null)
      items natives
  | [], _, h => by
    rw [nestedItems] at h
    cases h
    exact .nil
  | item :: rest, _, h => by
    rw [nestedItems] at h
    split at h
    · cases h
    · rename_i first hf
      obtain ⟨later, hl, rfl⟩ := Outcome.map_eq_ok.1 h
      exact .cons ⟨first, hf, rfl⟩ (nestedItems_forall₂ hl)

/-- The members of a nested object are nested values; one that is left out has no column. -/
theorem mem_nestedMembers : ∀ {members : List (String × Rest)} {columns : List (String × Native)},
    nestedMembers guard members = .ok columns → ∀ {key : String} {native : Native},
      (key, native) ∈ columns ↔
        ∃ value, (key, value) ∈ members ∧ nested guard value = .ok (some native)
  | [], _, h, _, _ => by
    rw [nestedMembers] at h
    cases h
    simp
  | (name, first) :: rest, _, h, key, native => by
    rw [nestedMembers] at h
    split at h
    · cases h
    · rename_i hf
      rw [mem_nestedMembers h]
      constructor
      · rintro ⟨value, hm, hn⟩
        exact ⟨value, List.mem_cons_of_mem _ hm, hn⟩
      · rintro ⟨value, hm, hn⟩
        rcases List.mem_cons.1 hm with he | hm
        · cases he
          cases hf.symm.trans hn
        · exact ⟨value, hm, hn⟩
    · rename_i own hf
      obtain ⟨later, hl, rfl⟩ := Outcome.map_eq_ok.1 h
      rw [List.mem_cons, mem_nestedMembers hl]
      constructor
      · rintro (he | ⟨value, hm, hn⟩)
        · cases he
          exact ⟨first, List.mem_cons_self, hf⟩
        · exact ⟨value, List.mem_cons_of_mem _ hm, hn⟩
      · rintro ⟨value, hm, hn⟩
        rcases List.mem_cons.1 hm with he | hm
        · cases he
          cases hf.symm.trans hn
          exact .inl rfl
        · exact .inr ⟨value, hm, hn⟩

/-- Every item of a nested array is admitted. -/
theorem nestedItems_admits {items : List Rest} {natives : List Native}
    (h : nestedItems guard items = .ok natives) :
    ∀ item ∈ items, ∃ result, nested guard item = .ok result := by
  replace h := nestedItems_forall₂ h
  induction h with
  | nil => exact fun _ hm => nomatch hm
  | cons hfirst _ ih =>
    obtain ⟨result, hr, _⟩ := hfirst
    exact List.forall_mem_cons.2 ⟨⟨result, hr⟩, ih⟩

/-- Every member of a nested object is admitted. -/
theorem nestedMembers_admits : ∀ {members : List (String × Rest)}
    {columns : List (String × Native)}, nestedMembers guard members = .ok columns →
      ∀ member ∈ members, ∃ result, nested guard member.2 = .ok result
  | [], _, _, _, hm => nomatch hm
  | (_, _) :: rest, _, h, member, hm => by
    rw [nestedMembers] at h
    rcases List.mem_cons.1 hm with rfl | hm
    · split at h
      · cases h
      · rename_i hf
        exact ⟨none, hf⟩
      · rename_i own hf
        exact ⟨some own, hf⟩
    · split at h
      · cases h
      · exact nestedMembers_admits h member hm
      · obtain ⟨later, hl, _⟩ := Outcome.map_eq_ok.1 h
        exact nestedMembers_admits hl member hm

end

mutual

/-- **Two guards that admit a nested value give one native value.** -/
theorem nested_unique : ∀ {value : Rest} {guard other : Nesting} {first second : Option Native},
    nested guard value = .ok first → nested other value = .ok second → first = second := by
  intro value guard other first second hf hs
  cases value with
  | null | bool _ | number _ | string _ =>
    rw [nested_of_atom rfl hf, nested_of_atom rfl hs]
  | array items =>
    obtain ⟨_, a, ha, rfl⟩ := nested_array hf
    obtain ⟨_, b, hb, rfl⟩ := nested_array hs
    rw [nestedItems_unique ha hb]
  | object members =>
    rcases nested_object hf with ⟨native, ha, rfl⟩ | ⟨_, operation, ha, hop, ho, hf⟩ |
      ⟨_, a, hw, ha, rfl⟩
    · exact (nested_of_atom ha hs).symm
    · rcases nested_object hs with ⟨_, hb, _⟩ | ⟨_, _, _, _, ho', hs⟩ | ⟨_, _, hw, _⟩
      · cases ha.symm.trans hb
      · cases ho.symm.trans ho'
        exact flatten_unique hf hs
      · cases hop.symm.trans hw.no_operation
    · rcases nested_object hs with ⟨_, hb, _⟩ | ⟨_, _, _, hop, _⟩ | ⟨_, b, _, hb, rfl⟩
      · cases hw.no_atom.symm.trans hb
      · cases hop.symm.trans hw.no_operation
      · rw [nestedMembers_unique ha hb]

theorem nestedItems_unique : ∀ {items : List Rest} {guard other : Nesting}
    {first second : List Native}, nestedItems guard items = .ok first →
      nestedItems other items = .ok second → first = second
  | [], _, _, _, _, hf, hs => by
    rw [nestedItems] at hf hs
    cases hf
    cases hs
    rfl
  | item :: rest, _, _, _, _, hf, hs => by
    rw [nestedItems] at hf hs
    split at hf
    · cases hf
    split at hs
    · cases hs
    rename_i a ha _ b hb
    obtain ⟨as, has, rfl⟩ := Outcome.map_eq_ok.1 hf
    obtain ⟨bs, hbs, rfl⟩ := Outcome.map_eq_ok.1 hs
    rw [nested_unique ha hb, nestedItems_unique has hbs]

theorem nestedMembers_unique : ∀ {members : List (String × Rest)} {guard other : Nesting}
    {first second : List (String × Native)}, nestedMembers guard members = .ok first →
      nestedMembers other members = .ok second → first = second
  | [], _, _, _, _, hf, hs => by
    rw [nestedMembers] at hf hs
    cases hf
    cases hs
    rfl
  | (key, value) :: rest, guard, other, _, _, hf, hs => by
    obtain ⟨a, ha⟩ := nestedMembers_admits hf (key, value) List.mem_cons_self
    obtain ⟨b, hb⟩ := nestedMembers_admits hs (key, value) List.mem_cons_self
    obtain rfl := nested_unique ha hb
    rw [nestedMembers, ha] at hf
    rw [nestedMembers, hb] at hs
    cases a with
    | none => exact nestedMembers_unique hf hs
    | some native =>
      obtain ⟨as, has, rfl⟩ := Outcome.map_eq_ok.1 hf
      obtain ⟨bs, hbs, rfl⟩ := Outcome.map_eq_ok.1 hs
      rw [nestedMembers_unique has hbs]

end

end RestStore.Native
