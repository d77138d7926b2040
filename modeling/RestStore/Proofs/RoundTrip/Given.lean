import RestStore.Proofs.Native.Given
import RestStore.Proofs.Nesting
import RestStore.Proofs.Rest.Height
import RestStore.Proofs.Rest.Inside
import RestStore.Proofs.RoundTrip.Plain
import RestStore.Rest.OfNative

/-!
# Values as given, both ways

Storing a value as given refuses it for its depth only, and at one height exactly:
`verbatim_eq_ifRoom`. Reading what was stored goes through the same levels and gives the value
itself, member by member: `ofNative_given`. No envelope is taken for anything else on the way, for
a value as given holds no instant. `given_reads_back` puts the two walks together under one guard.
-/

set_option autoImplicit false

namespace RestStore

namespace Rest

/-- The store holds every number in the value exactly: integers have 64 bits, doubles are finite. -/
def Storable (value : Rest) : Prop := ∀ number, Inside value (.number number) → number.Storable

theorem storable_null : Storable .null := fun _ h => nomatch h

theorem storable_string (text : String) : Storable (.string text) := fun _ h => nomatch h

theorem storable_number_iff {number : Number} : Storable (.number number) ↔ number.Storable := by
  constructor
  · exact fun h => h number .self
  · intro h other hi
    cases hi
    exact h

theorem storable_array_iff {items : List Rest} :
    Storable (.array items) ↔ ∀ item ∈ items, Storable item := by
  simp only [Storable, inside_array_iff, reduceCtorEq, false_or]
  constructor
  · exact fun h item hm number hi => h number ⟨item, hm, hi⟩
  · rintro h number ⟨item, hm, hi⟩
    exact h item hm number hi

theorem storable_object_iff {members : List (String × Rest)} :
    Storable (.object members) ↔ ∀ member ∈ members, Storable member.2 := by
  simp only [Storable, inside_object_iff, reduceCtorEq, false_or]
  constructor
  · exact fun h member hm number hi => h number ⟨member, hm, hi⟩
  · rintro h number ⟨member, hm, hi⟩
    exact h member hm number hi

end Rest

namespace Native

/-! ## Storing -/

mutual

/-- **A value is stored as given exactly where there is room for its height.** -/
theorem verbatim_eq_ifRoom : ∀ (value : Rest) (guard : Nesting),
    verbatim guard value = guard.ifRoom value.height (given value) := by
  intro value guard
  rw [verbatim]
  rcases guard.enter_cases with ⟨hfull, hi⟩ | ⟨inner, hi, hroom, horigin, hbound⟩
  · rw [hi]
    cases value with
    | array items => rw [Rest.height, Nesting.ifRoom_full hfull]
    | object members => rw [Rest.height, Nesting.ifRoom_full hfull]
    | null | bool _ | number _ | string _ => rw [Rest.height, Nesting.ifRoom_full hfull]
  · rw [hi]
    have henter : ∀ (levels : Nat) (native : Native),
        inner.ifRoom levels native = guard.ifRoom (levels + 1) native :=
      Nesting.ifRoom_enter hroom horigin hbound
    cases value with
    | array items =>
      dsimp only
      rw [verbatimItems_eq_ifRoom items inner, Nesting.map_ifRoom, henter, Rest.height, given]
    | object members =>
      dsimp only
      rw [verbatimMembers_eq_ifRoom members inner, Nesting.map_ifRoom, henter, Rest.height, given]
    | null | bool _ | number _ | string _ =>
      rw [Rest.height, ← henter, Nesting.ifRoom_zero, given]

theorem verbatimItems_eq_ifRoom : ∀ (items : List Rest) (guard : Nesting),
    verbatimItems guard items = guard.ifRoom (Rest.heightOfItems items) (givenItems items)
  | [], guard => by rw [verbatimItems, Rest.heightOfItems, Nesting.ifRoom_zero, givenItems]
  | item :: rest, guard => by
    rw [verbatimItems, verbatim_eq_ifRoom item guard, verbatimItems_eq_ifRoom rest guard,
      Rest.heightOfItems, givenItems]
    rcases guard.ifRoom_cases item.height (given item) with ⟨hle, hi⟩ | ⟨hlt, hi⟩
    · rw [hi]
      dsimp only
      rw [Nesting.map_ifRoom, Nesting.ifRoom_max_of_le hle]
    · rw [hi, Nesting.ifRoom_max_of_lt hlt]

theorem verbatimMembers_eq_ifRoom : ∀ (members : List (String × Rest)) (guard : Nesting),
    verbatimMembers guard members =
      guard.ifRoom (Rest.heightOfMembers members) (givenMembers members)
  | [], guard => by rw [verbatimMembers, Rest.heightOfMembers, Nesting.ifRoom_zero, givenMembers]
  | (key, value) :: rest, guard => by
    rw [verbatimMembers, verbatim_eq_ifRoom value guard, verbatimMembers_eq_ifRoom rest guard,
      Rest.heightOfMembers, givenMembers]
    rcases guard.ifRoom_cases value.height (given value) with ⟨hle, hi⟩ | ⟨hlt, hi⟩
    · rw [hi]
      dsimp only
      rw [Nesting.map_ifRoom, Nesting.ifRoom_max_of_le hle]
    · rw [hi, Nesting.ifRoom_max_of_lt hlt]

end

end Native

/-! ## Reading -/

namespace Rest

/-- A value as given holds no instant, so no column of it is read as the text of one. -/
theorem storedIso?_given (storedDate : Bool) (key : String) (value : Rest) :
    storedIso? storedDate key (Native.given value) = none := by
  have hinstant : Instant.ofNative? (Native.given value) = none := by
    cases value with
    | number number => exact Native.instant?_ofNumber number
    | null | bool _ | string _ | array _ | object _ => rfl
  unfold storedIso?
  rw [hinstant]
  split <;> rfl

theorem ofNative_ofNumber {guard inner : Nesting} {number : Number}
    (hi : guard.enter = .ok inner) (h : number.Storable) :
    ofNative guard (.ofNumber number) = .ok (.number number) := by
  have hback : Native.number? (.ofNumber number) = some number := Native.number?_ofNumber h
  rcases Native.ofNumber_cases number with ⟨_, hn⟩ | ⟨_, hn⟩ | ⟨_, hn⟩ <;>
  · rw [hn] at hback ⊢
    rw [ofNative, hi]
    dsimp only
    rw [hback]
    rfl

mutual

/-- **A value as given reads as itself** exactly where there is room for its height. -/
theorem ofNative_given : ∀ {value : Rest} (guard : Nesting), value.Storable →
    ofNative guard (Native.given value) = guard.ifRoom value.height value := by
  intro value guard h
  rcases guard.enter_cases with ⟨hfull, hi⟩ | ⟨inner, hi, hroom, horigin, hbound⟩
  · have hrefused : ofNative guard (Native.given value) =
        .error (.tooDeep guard.origin guard.bound) := by
      rw [ofNative, hi]
    rw [hrefused]
    cases value <;> rw [height, Nesting.ifRoom_full hfull]
  · have henter : ∀ (levels : Nat) (result : Rest),
        inner.ifRoom levels result = guard.ifRoom (levels + 1) result :=
      Nesting.ifRoom_enter hroom horigin hbound
    cases value with
    | number number =>
      rw [Native.given, ofNative_ofNumber hi (h number .self), height, ← henter,
        Nesting.ifRoom_zero]
    | array items =>
      rw [Native.given, ofNative, hi]
      dsimp only
      rw [ofItems_given inner (storable_array_iff.1 h), Nesting.map_ifRoom, henter, height]
    | object members =>
      rw [Native.given, ofNative, hi]
      dsimp only
      rw [ofColumns_given _ inner (storable_object_iff.1 h), Nesting.map_ifRoom, henter, height]
    | null | bool _ | string _ =>
      rw [Native.given, ofNative, hi, height, ← henter, Nesting.ifRoom_zero]

theorem ofItems_given : ∀ {items : List Rest} (guard : Nesting), (∀ item ∈ items, item.Storable) →
    ofItems guard (Native.givenItems items) = guard.ifRoom (heightOfItems items) items
  | [], guard, _ => by rw [Native.givenItems, ofItems, heightOfItems, Nesting.ifRoom_zero]
  | item :: rest, guard, h => by
    rw [Native.givenItems, ofItems, ofNative_given guard (h item List.mem_cons_self),
      ofItems_given guard fun other ho => h other (List.mem_cons_of_mem _ ho), heightOfItems]
    rcases guard.ifRoom_cases item.height item with ⟨hle, hi⟩ | ⟨hlt, hi⟩
    · rw [hi]
      dsimp only
      rw [Nesting.map_ifRoom, Nesting.ifRoom_max_of_le hle]
    · rw [hi, Nesting.ifRoom_max_of_lt hlt]

theorem ofColumns_given : ∀ {members : List (String × Rest)} (storedDate : Bool)
    (guard : Nesting), (∀ member ∈ members, member.2.Storable) →
      ofColumns guard storedDate (Native.givenMembers members) =
        guard.ifRoom (heightOfMembers members) members
  | [], _, guard, _ => by
    rw [Native.givenMembers, ofColumns, heightOfMembers, Nesting.ifRoom_zero]
  | (key, value) :: rest, storedDate, guard, h => by
    rw [Native.givenMembers, ofColumns, storedIso?_given]
    dsimp only
    rw [ofNative_given guard (h (key, value) List.mem_cons_self),
      ofColumns_given storedDate guard fun other ho => h other (List.mem_cons_of_mem _ ho),
      heightOfMembers]
    dsimp only
    rcases guard.ifRoom_cases value.height value with ⟨hle, hi⟩ | ⟨hlt, hi⟩
    · rw [hi]
      dsimp only
      rw [Nesting.map_ifRoom, Nesting.ifRoom_max_of_le hle]
    · rw [hi, Nesting.ifRoom_max_of_lt hlt]

end

end Rest

/-! ## Both walks -/

/-- **Storing a value as given is undone by reading it, and refused at one depth exactly.** It
succeeds where the level of the guard and the height of the value do not pass the bound. What it
stores then reads, under the same guard, as the value itself: the same members in the same order,
and numbers of the same kind. Everywhere else the guard refuses the value and names its part. -/
theorem given_reads_back {value : Rest} (guard : Nesting) (h : value.Storable) :
    ((∃ native, Native.verbatim guard value = .ok native) ↔
        guard.level + value.height ≤ guard.bound) ∧
      (∀ native, Native.verbatim guard value = .ok native →
        Rest.ofNative guard native = .ok value) ∧
      (guard.bound < guard.level + value.height →
        Native.verbatim guard value = .error (.tooDeep guard.origin guard.bound)) := by
  have hroom : value.height ≤ guard.room ↔ guard.level + value.height ≤ guard.bound :=
    Nesting.le_room_iff value.height_pos
  rw [← hroom]
  simp only [Native.verbatim_eq_ifRoom, Nesting.ifRoom_eq_ok]
  refine ⟨⟨?_, fun hle => ⟨_, hle, rfl⟩⟩, ?_, fun hlt => if_neg (by omega)⟩
  · rintro ⟨_, hle, _⟩
    exact hle
  · rintro _ ⟨hle, rfl⟩
    rw [Rest.ofNative_given guard h, Nesting.ifRoom, if_pos hle]

/-- A draft as a client sends it: when it is due, as the envelope of a date, and its lengths. -/
def draft : Rest :=
  .object [("due", .object [(typeKey, .string "Date"), ("iso", .string "2020-01-01")]),
    ("lengths", .array [.number (.integer 7), .number (.integer (-5000000000)),
      .number (.double ⟨0x3FE0000000000000⟩)]), ("title", .null)]

theorem draft_storable : draft.Storable := by
  simp only [draft, Rest.storable_object_iff, Rest.storable_array_iff, Rest.storable_number_iff,
    Number.Storable, List.mem_cons, List.not_mem_nil, or_false, forall_eq_or_imp, forall_eq]
  refine ⟨⟨Rest.storable_string _, Rest.storable_string _⟩, ?_, Rest.storable_null⟩
  decide

theorem given_reads_back_draft :
    draft.Storable ∧ (∃ native, Native.verbatim ⟨1, 4, .value⟩ draft = .ok native ∧
        Rest.ofNative ⟨1, 4, .value⟩ native = .ok draft) ∧
      Native.verbatim ⟨2, 4, .value⟩ draft = .error (.tooDeep .value 4) := by
  have hheight : draft.height = 3 := by decide
  obtain ⟨hfits, hback, _⟩ := given_reads_back ⟨1, 4, .value⟩ draft_storable
  have hroom : 1 + draft.height ≤ 4 := by omega
  obtain ⟨native, hn⟩ := hfits.2 hroom
  have hdeep : 4 < 2 + draft.height := by omega
  exact ⟨draft_storable, ⟨native, hn, hback native hn⟩,
    (given_reads_back ⟨2, 4, .value⟩ draft_storable).2.2 hdeep⟩

end RestStore
