import RestStore.Proofs.Fields
import RestStore.Proofs.Native.Atoms
import RestStore.Proofs.Native.Given
import RestStore.Proofs.Rest.Inside
import RestStore.Proofs.Rest.Shape

/-!
# Values that are stored as they are given

A value inside an array is walked when it is stored, and is given as it stands when it is an element
of an operand, unless it is an atom. Both come to one native value where the walk converts nothing:
`nested_eq_element_iff`.

* `Rest.Converts`, `Rest.Literal` — what a walk converts, and values that it keeps.
* `atom_eq_given_iff` — an atom that is an object is kept when it is a reference in its own form.
* `nested_eq_given_iff` — a walked value is kept when it is literal.
-/

set_option autoImplicit false

namespace RestStore

namespace Rest

/-- A value that becomes something else than what is given: a date, binary data, a regular
expression, or a reference that is not written with its own members in their order. -/
inductive Converts (value : Rest) : Prop
  | date {instant : Instant} : value.shape = .ok (.date instant) → Converts value
  | bytes {bytes : Bytes} : value.shape = .ok (.bytes bytes) → Converts value
  | regex {pattern : String} : value.shape = .ok (.regex pattern) → Converts value
  | pointer {pointer : Pointer} : value.shape = .ok (.pointer pointer) →
    value ≠ pointer.toEnvelope → Converts value

/-- A value in which nothing converts. -/
def Literal (value : Rest) : Prop := ∀ inner, Inside value inner → ¬Converts inner

theorem literal_array_iff {items : List Rest} :
    Literal (.array items) ↔ ∀ item ∈ items, Literal item := by
  simp only [Literal, inside_array_iff]
  constructor
  · exact fun h item hm inner hi => h inner (.inr ⟨item, hm, hi⟩)
  · rintro h _ (rfl | ⟨item, hm, hi⟩)
    · rintro (h | h | h | ⟨h, _⟩) <;> cases h
    · exact h item hm _ hi

theorem literal_object_iff {members : List (String × Rest)} :
    Literal (.object members) ↔
      ¬Converts (.object members) ∧ ∀ member ∈ members, Literal member.2 := by
  simp only [Literal, inside_object_iff]
  constructor
  · exact fun h => ⟨h _ (.inl rfl), fun member hm inner hi => h inner (.inr ⟨member, hm, hi⟩)⟩
  · rintro ⟨hself, h⟩ _ (rfl | ⟨member, hm, hi⟩)
    · exact hself
    · exact h member hm _ hi

theorem literal_scalar {value : Rest} (ha : ∀ items, value ≠ .array items)
    (ho : ∀ members, value ≠ .object members) : Literal value := by
  intro inner hi
  cases hi with
  | self =>
    cases value with
    | array items => exact absurd rfl (ha items)
    | object members => exact absurd rfl (ho members)
    | null | bool _ | number _ | string _ => rintro (h | h | h | ⟨h, _⟩) <;> cases h
  | item _ _ => exact absurd rfl (ha _)
  | member _ _ => exact absurd rfl (ho _)

/-- A reference in its own form is literal. -/
theorem literal_pointer (pointer : Pointer) : Literal pointer.toEnvelope := by
  refine literal_object_iff.2 ⟨?_, ?_⟩
  · have hshape : pointer.toEnvelope.shape = .ok (.pointer pointer) := rfl
    rintro (h | h | h | ⟨h, hne⟩)
    · cases hshape.symm.trans h
    · cases hshape.symm.trans h
    · cases hshape.symm.trans h
    · cases hshape.symm.trans h
      exact hne rfl
  · intro member hm
    simp only [List.mem_cons, List.not_mem_nil, or_false] at hm
    rcases hm with rfl | rfl | rfl <;>
      exact literal_scalar (fun _ => nofun) fun _ => nofun

end Rest

namespace Native

open Rest (Literal Converts)

/-! ## Atoms -/

/-- A reference is stored as given where it has its own members in their order. -/
theorem pointer_eq_given_iff {pointer : Pointer} {members : Fields Rest} :
    pointer.nested = given (.object members) ↔ .object members = pointer.toEnvelope := by
  constructor
  · intro h
    have hmember : ∀ {member : String × Rest} {key text : String},
        (member.1, given member.2) = (key, .string text) → member = (key, .string text) := by
      rintro ⟨name, value⟩ key text hm
      obtain ⟨rfl, hv⟩ := Prod.mk.inj hm
      exact congrArg (Prod.mk name) (eq_string_of_given hv)
    rw [given, givenMembers_eq_map, Pointer.nested, Native.document.injEq] at h
    obtain ⟨kind, _, rfl, hkind, h⟩ := List.map_eq_cons_iff.1 h.symm
    obtain ⟨name, _, rfl, hname, h⟩ := List.map_eq_cons_iff.1 h
    obtain ⟨id, _, rfl, hid, h⟩ := List.map_eq_cons_iff.1 h
    rw [List.map_eq_nil_iff.1 h, hmember hkind, hmember hname, hmember hid]
    rfl
  · intro h
    rw [h]
    rfl

/-- **An atom that is an object is stored as given** only if it is a reference in its own form. -/
theorem atom_eq_given_iff {members : Fields Rest} {native : Native}
    (h : nestedAtom? (.object members) = .ok (some native)) :
    native = given (.object members) ↔ Literal (.object members) := by
  have hdiffers : native ≠ given (.object members) → Converts (.object members) →
      (native = given (.object members) ↔ Literal (.object members)) := fun hne hc =>
    iff_of_false hne fun hl => hl _ .self hc
  unfold nestedAtom? at h
  split at h
  · cases h
  · rename_i shape hs
    rcases shape_object_cases hs with ⟨tag, _, he⟩ | ⟨pattern, rfl⟩ | rfl
    · rcases Shape.ofEnvelope_cases he with ⟨pointer, _, rfl⟩ | ⟨_, _, rfl⟩ | ⟨instant, _, rfl⟩ |
        ⟨bytes, _, rfl⟩ | ⟨_, _, rfl⟩ | ⟨_, _, rfl⟩ | ⟨_, _, rfl⟩
      · cases h
        rw [pointer_eq_given_iff]
        constructor
        · intro hown
          rw [hown]
          exact Rest.literal_pointer pointer
        · intro hl
          by_contra hne
          exact hl _ .self (.pointer hs hne)
      · cases h
      · cases h
        exact hdiffers nofun (.date hs)
      · obtain ⟨stored, hstored, hn⟩ := Outcome.map_eq_ok.1 h
        cases hn
        obtain ⟨payload, rfl⟩ := bytes_eq_binary hstored
        exact hdiffers nofun (.bytes hs)
      · cases h
      · cases h
      · cases h
    · cases h
      exact hdiffers nofun (.regex hs)
    · cases h

/-- An object that is no atom does not convert as a whole. -/
theorem not_converts_of_no_atom {members : Fields Rest}
    (h : nestedAtom? (.object members) = .ok none) : ¬Converts (.object members) := by
  unfold nestedAtom? at h
  rintro (hs | hs | hs | ⟨hs, _⟩) <;> rw [hs] at h
  · cases h
  · obtain ⟨_, _, hn⟩ := Outcome.map_eq_ok.1 h
    cases hn
  · cases h
  · cases h

/-! ## Walked values -/

-- without an operation no value is left out, so the walk keeps all positions
mutual

/-- **A walked value is stored as given** where it is literal. -/
theorem nested_eq_given_iff : ∀ {value : Rest} {guard : Nesting} {result : Option Native},
    ¬value.HasKey operationKey → nested guard value = .ok result →
      ∃ native, result = some native ∧ (native = given value ↔ Literal value) := by
  intro value guard result hop h
  cases value with
  | null | bool _ | number _ | string _ =>
    rw [nested_of_atom rfl h]
    exact ⟨_, rfl, iff_of_true rfl (Rest.literal_scalar (fun _ => nofun) fun _ => nofun)⟩
  | array items =>
    obtain ⟨_, natives, hn, rfl⟩ := nested_array h
    refine ⟨_, rfl, ?_⟩
    rw [given, Native.array.injEq, Rest.literal_array_iff]
    refine nestedItems_eq_given_iff (fun item hm hk => hop ?_) hn
    exact Rest.hasKey_array_iff.2 ⟨item, hm, hk⟩
  | object members =>
    rcases nested_object h with ⟨native, ha, rfl⟩ | ⟨_, _, _, hcontains, _⟩ |
      ⟨_, columns, hwalked, hc, rfl⟩
    · exact ⟨native, rfl, atom_eq_given_iff ha⟩
    · have hnot : operationKey ∉ Fields.keys members := fun hk =>
        hop (Rest.hasKey_object_iff.2 (.inl hk))
      rw [Fields.contains_eq_false_iff.2 hnot] at hcontains
      cases hcontains
    · refine ⟨_, rfl, ?_⟩
      rw [given, Native.document.injEq, Rest.literal_object_iff,
        and_iff_right (not_converts_of_no_atom hwalked.no_atom)]
      refine nestedMembers_eq_given_iff (fun member hm hk => hop ?_) hc
      exact Rest.hasKey_object_iff.2 (.inr ⟨member, hm, hk⟩)

theorem nestedItems_eq_given_iff : ∀ {items : List Rest} {guard : Nesting}
    {natives : List Native}, (∀ item ∈ items, ¬item.HasKey operationKey) →
      nestedItems guard items = .ok natives →
        (natives = givenItems items ↔ ∀ item ∈ items, Literal item)
  | [], _, _, _, h => by
    rw [nestedItems] at h
    cases h
    exact iff_of_true rfl fun _ hm => nomatch hm
  | item :: rest, _, _, hop, h => by
    rw [nestedItems] at h
    split at h
    · cases h
    · rename_i first hf
      obtain ⟨later, hl, rfl⟩ := Outcome.map_eq_ok.1 h
      rw [List.forall_mem_cons] at hop
      obtain ⟨native, rfl, hiff⟩ := nested_eq_given_iff hop.1 hf
      rw [givenItems, List.cons.injEq, Option.getD_some, hiff,
        nestedItems_eq_given_iff hop.2 hl, List.forall_mem_cons]

theorem nestedMembers_eq_given_iff : ∀ {members : List (String × Rest)} {guard : Nesting}
    {columns : List (String × Native)},
    (∀ member ∈ members, ¬member.2.HasKey operationKey) →
      nestedMembers guard members = .ok columns →
        (columns = givenMembers members ↔ ∀ member ∈ members, Literal member.2)
  | [], _, _, _, h => by
    rw [nestedMembers] at h
    cases h
    exact iff_of_true rfl fun _ hm => nomatch hm
  | (key, value) :: rest, _, _, hop, h => by
    rw [List.forall_mem_cons] at hop
    obtain ⟨result, hr⟩ := nestedMembers_admits h (key, value) List.mem_cons_self
    obtain ⟨native, rfl, hiff⟩ := nested_eq_given_iff hop.1 hr
    rw [nestedMembers, hr] at h
    obtain ⟨later, hl, rfl⟩ := Outcome.map_eq_ok.1 h
    rw [givenMembers, List.cons.injEq, Prod.mk.injEq, and_iff_right rfl, hiff,
      nestedMembers_eq_given_iff hop.2 hl, List.forall_mem_cons]

end

/-! ## Elements -/

/-- A value with one native form inside arrays: an atom there, or literal. -/
def OneForm (value : Rest) : Prop :=
  (∃ native, nestedAtom? value = .ok (some native)) ∨ Literal value

/-- **A value is stored inside an array as it is sent for an element** where it has one form. -/
theorem nested_eq_element_iff {value : Rest} {guard other : Nesting} {result : Option Native}
    {sent : Native} (hop : ¬value.HasKey operationKey)
    (hn : nested guard value = .ok result) (he : element other value = .ok sent) :
    result.getD .null = sent ↔ OneForm value := by
  rcases element_cases he with hatom | ⟨hnone, rfl⟩
  · refine iff_of_true ?_ (.inl ⟨sent, hatom⟩)
    rw [nested_of_atom hatom hn, Option.getD_some]
  · obtain ⟨native, rfl, hiff⟩ := nested_eq_given_iff hop hn
    rw [Option.getD_some, hiff]
    constructor
    · exact .inr
    · rintro (⟨_, hatom⟩ | hl)
      · cases hnone.symm.trans hatom
      · exact hl

end Native

end RestStore
