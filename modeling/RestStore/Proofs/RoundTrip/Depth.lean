import RestStore.Decode
import RestStore.Proofs.RoundTrip.Written
import RestStore.Write.Create

/-!
# Depth both ways

Storing a nested value and reading it are bound by one number of levels, but count differently.
Reading goes down one level for each level of what is stored. Storing counts one level for an atom,
also for a pointer, which is kept as a document of two; and it counts none for an atom that an
operation adds, though it stands one level below the object of the operation. Everything else is
counted alike. So a value that is stored within the bound can be read within it just where its atoms
end there: `nested_reads_iff`. Two levels more always suffice.

* `Native.atomLevels` — the levels of a stored atom.
* `Rest.EndsAt` — the level at which an atom in the value ends, once it is stored.
* `Native.nested_fits_iff` — the levels of what is stored are those of its atoms, as far as they
  pass the bound.
-/

set_option autoImplicit false

namespace RestStore

/-- The operands that an operation leaves in a list. -/
inductive Operation.Adds : Operation → Rest → Prop
  | add {items : List Rest} {operand : Rest} : operand ∈ items → Adds (.add items) operand
  | addUnique {items : List Rest} {operand : Rest} : operand ∈ items →
    Adds (.addUnique items) operand

/-- The levels of an atom inside an array or object: a pointer is kept as a document. -/
def Native.atomLevels : Native → Nat
  | .document _ => 2
  | _ => 1

open Native (nestedAtom? IsWalked atomLevels)

/-- An atom of the value ends at a level once it is stored: the value itself, an atom in an array or
an object that is walked, or one that an operation adds. -/
inductive Rest.EndsAt : Rest → Nat → Prop
  | atom {value : Rest} {native : Native} : nestedAtom? value = .ok (some native) →
    EndsAt value (atomLevels native)
  | added {members : Fields Rest} {operation : Operation} {operand : Rest} {native : Native} :
    nestedAtom? (.object members) = .ok none → Fields.contains members operationKey = true →
      Operation.ofMembers members = .ok operation → operation.Adds operand →
        nestedAtom? operand = .ok (some native) →
          EndsAt (.object members) (atomLevels native + 1)
  | item {items : List Rest} {item : Rest} {level : Nat} : item ∈ items → EndsAt item level →
    EndsAt (.array items) (level + 1)
  | member {members : Fields Rest} {member : String × Rest} {level : Nat} : IsWalked members →
    member ∈ members → EndsAt member.2 level → EndsAt (.object members) (level + 1)

/-! ## Where atoms end -/

namespace Rest

variable {level : Nat}

theorem endsAt_atom_iff {value : Rest} {native : Native}
    (ha : nestedAtom? value = .ok (some native)) : EndsAt value level ↔ level = atomLevels native := by
  constructor
  · intro h
    cases h with
    | atom hb =>
      cases ha.symm.trans hb
      rfl
    | added hnone _ _ _ _ => cases ha.symm.trans hnone
    | item _ _ => cases ha
    | member hwalked _ _ => cases ha.symm.trans hwalked.no_atom
  · rintro rfl
    exact .atom ha

theorem endsAt_array_iff {items : List Rest} :
    EndsAt (.array items) level ↔ ∃ item ∈ items, ∃ inner, EndsAt item inner ∧ level = inner + 1 := by
  constructor
  · intro h
    cases h with
    | atom ha => cases ha
    | item hm hi => exact ⟨_, hm, _, hi, rfl⟩
  · rintro ⟨item, hm, inner, hi, rfl⟩
    exact .item hm hi

theorem endsAt_operation_iff {members : Fields Rest} {operation : Operation}
    (hnone : nestedAtom? (.object members) = .ok none)
    (hop : Fields.contains members operationKey = true)
    (ho : Operation.ofMembers members = .ok operation) :
    EndsAt (.object members) level ↔ ∃ operand native, operation.Adds operand ∧
      nestedAtom? operand = .ok (some native) ∧ level = atomLevels native + 1 := by
  constructor
  · intro h
    cases h with
    | atom ha => cases ha.symm.trans hnone
    | added _ _ ho' hadds ha =>
      cases ho.symm.trans ho'
      exact ⟨_, _, hadds, ha, rfl⟩
    | member hwalked _ _ => cases hop.symm.trans hwalked.no_operation
  · rintro ⟨operand, native, hadds, ha, rfl⟩
    exact .added hnone hop ho hadds ha

theorem endsAt_walked_iff {members : Fields Rest} (hwalked : IsWalked members) :
    EndsAt (.object members) level ↔
      ∃ member ∈ members, ∃ inner, EndsAt member.2 inner ∧ level = inner + 1 := by
  constructor
  · intro h
    cases h with
    | atom ha => cases ha.symm.trans hwalked.no_atom
    | added _ hop _ _ _ => cases hop.symm.trans hwalked.no_operation
    | member _ hm hi => exact ⟨_, hm, _, hi, rfl⟩
  · rintro ⟨member, hm, inner, hi, rfl⟩
    exact .member hwalked hm hi

end Rest

namespace Native

variable {guard : Nesting} {levels : Nat}

/-! ## Levels of atoms and elements -/

theorem atomLevels_of_isScalar {native : Native} (h : native.IsScalar) : atomLevels native = 1 := by
  cases native with
  | document _ => exact h.elim
  | null | bool _ | string _ | int32 _ | int64 _ | double _ | date _ | binary _ _ | objectId _
  | regex _ _ | array _ | opaqueValue _ => rfl

theorem atomLevels_le (native : Native) : atomLevels native ≤ 2 := by
  unfold atomLevels
  split <;> omega

theorem atom_fits_iff {value : Rest} {native : Native}
    (h : nestedAtom? value = .ok (some native)) :
    Fits levels native ↔ atomLevels native ≤ levels := by
  rcases nestedAtom?_cases h with hscalar | ⟨pointer, _, rfl⟩
  · rw [atomLevels_of_isScalar hscalar, fits_scalar_iff hscalar]
    exact Nat.lt_iff_add_one_le
  · constructor
    · intro hfits
      obtain ⟨less, rfl⟩ := Nat.exists_eq_add_of_lt hfits.pos
      rw [Nat.zero_add] at hfits
      have hcolumn : Fits less (.string Pointer.kind) :=
        fits_document_iff.1 hfits (typeKey, .string Pointer.kind) List.mem_cons_self
      have hpos : 0 < less := hcolumn.pos
      show 2 ≤ 0 + less + 1
      omega
    · exact (pointer_fits pointer).mono

/-- A value as given takes no more levels than there were for it. -/
theorem verbatim_fits_room {value : Rest} {native : Native} (h : verbatim guard value = .ok native) :
    Fits guard.room native := by
  have hroom := h
  rw [verbatim_eq_ifRoom, Nesting.ifRoom_eq_ok] at hroom
  exact (verbatim_fits h).mono hroom.1

/-- Elements go as deep as the atoms among the items, as far as they pass the levels that were
counted. -/
theorem elements_fits_iff {items : List Rest} {natives : List Native}
    (h : elements guard items = .ok natives) (hlevels : guard.room ≤ levels) :
    (∀ native ∈ natives, Fits levels native) ↔ ∀ operand ∈ items, ∀ native,
      nestedAtom? operand = .ok (some native) → atomLevels native ≤ levels := by
  replace h := elements_forall₂ h
  induction h with
  | nil => simp
  | @cons item native rest later helement _ ih =>
    rw [List.forall_mem_cons, List.forall_mem_cons]
    refine and_congr ?_ ih
    unfold element at helement
    split at helement
    · cases helement
    · rename_i atom ha
      cases helement
      rw [atom_fits_iff ha]
      constructor
      · intro hle other ho
        cases ha.symm.trans ho
        exact hle
      · exact fun hall => hall _ ha
    · rename_i hnone
      refine iff_of_true ((verbatim_fits_room helement).mono hlevels) fun other ho => ?_
      cases hnone.symm.trans ho

/-- The same for the list of an operation that adds the items. -/
theorem added_fits_iff {operation : Operation} {items : List Rest} {natives : List Native}
    (h : elements guard items = .ok natives) (hlevels : guard.room ≤ levels)
    (hadds : ∀ operand, operation.Adds operand ↔ operand ∈ items) :
    Fits (levels + 1) (.array natives) ↔ ∀ operand native, operation.Adds operand →
      nestedAtom? operand = .ok (some native) → atomLevels native ≤ levels := by
  rw [fits_array_iff, elements_fits_iff h hlevels]
  constructor
  · exact fun hall operand native ha hn => hall operand ((hadds operand).1 ha) native hn
  · exact fun hall operand hm native hn => hall operand native ((hadds operand).2 hm) hn

/-- **What an operation leaves goes as deep as the atoms that it adds**, as far as they pass the
levels that were counted. -/
theorem flatten_fits_iff {operation : Operation} {result : Option Native}
    (h : operation.flatten guard = .ok result) (hlevels : guard.room ≤ levels) :
    Fits (levels + 1) (result.getD .null) ↔ ∀ operand native, operation.Adds operand →
      nestedAtom? operand = .ok (some native) → atomLevels native ≤ levels := by
  cases operation with
  | delete =>
    cases h
    refine iff_of_true (.scalar trivial) ?_
    rintro _ _ ⟨⟩
  | increment amount =>
    cases h
    refine iff_of_true (.scalar (isScalar_ofNumber amount)) ?_
    rintro _ _ ⟨⟩
  | setOnInsert value =>
    obtain ⟨native, hn, rfl⟩ := Outcome.map_eq_ok.1 h
    have hfits : Fits levels native := (verbatim_fits_room hn).mono hlevels
    refine iff_of_true (hfits.mono (Nat.le_succ _)) ?_
    rintro _ _ ⟨⟩
  | add items =>
    obtain ⟨natives, hn, rfl⟩ := Outcome.map_eq_ok.1 h
    refine added_fits_iff hn hlevels fun operand => ⟨fun hadds => ?_, .add⟩
    cases hadds with
    | add hm => exact hm
  | addUnique items =>
    obtain ⟨natives, hn, rfl⟩ := Outcome.map_eq_ok.1 h
    refine added_fits_iff hn hlevels fun operand => ⟨fun hadds => ?_, .addUnique⟩
    cases hadds with
    | addUnique hm => exact hm
  | remove items =>
    obtain ⟨natives, _, rfl⟩ := Outcome.map_eq_ok.1 h
    refine iff_of_true (.array ?_) ?_
    · rintro _ ⟨⟩
    · rintro _ _ ⟨⟩

/-! ## Levels of nested values -/

theorem room_pos_of_nested {value : Rest} {result : Option Native}
    (h : nested guard value = .ok result) : 0 < guard.room := by
  rcases guard.enter_cases with ⟨_, hi⟩ | ⟨inner, _, hroom, _⟩
  · rw [nested, hi] at h
    cases h
  · omega

-- the recursion follows the walk; a value that is left out counts as null, which always fits
mutual

/-- **A nested value goes as deep as its atoms**, as far as they pass the levels that were counted:
arrays, objects, values as given and what the other operations leave take no more than these. -/
theorem nested_fits_iff : ∀ {value : Rest} {guard : Nesting} {result : Option Native}
    {levels : Nat}, nested guard value = .ok result → guard.room ≤ levels →
      (Fits levels (result.getD .null) ↔ ∀ level, value.EndsAt level → level ≤ levels) := by
  intro value guard result levels h hlevels
  have hpos := room_pos_of_nested h
  obtain ⟨less, rfl⟩ : ∃ less, levels = less + 1 := ⟨levels - 1, by omega⟩
  rcases guard.enter_cases with ⟨hfull, _⟩ | ⟨inner, hi, hroom, _⟩
  · omega
  have hless : inner.room ≤ less := by omega
  have hatom : ∀ {native : Native}, nestedAtom? value = .ok (some native) →
      (Fits (less + 1) (result.getD .null) ↔
        ∀ level, value.EndsAt level → level ≤ less + 1) := by
    intro native ha
    rw [nested_of_atom ha h, Option.getD_some, atom_fits_iff ha]
    simp only [Rest.endsAt_atom_iff ha, forall_eq]
  cases value with
  | null | bool _ | number _ | string _ => exact hatom rfl
  | array items =>
    obtain ⟨natives, hn, rfl⟩ := nested_array_entered hi h
    rw [Option.getD_some, fits_array_iff, nestedItems_fits_iff hn hless]
    constructor
    · intro hall level he
      obtain ⟨item, hm, deep, hd, rfl⟩ := Rest.endsAt_array_iff.1 he
      exact Nat.succ_le_succ (hall item hm deep hd)
    · exact fun hall item hm deep hd => Nat.le_of_succ_le_succ (hall _ (.item hm hd))
  | object members =>
    rcases nested_object_entered hi h with ⟨native, ha, _⟩ | ⟨operation, hnone, hop, ho, hf⟩ |
      ⟨columns, hwalked, hc, rfl⟩
    · exact hatom ha
    · rw [flatten_fits_iff hf hless]
      constructor
      · intro hall level he
        obtain ⟨operand, native, hadds, ha, rfl⟩ := (Rest.endsAt_operation_iff hnone hop ho).1 he
        exact Nat.succ_le_succ (hall operand native hadds ha)
      · exact fun hall operand native hadds ha =>
          Nat.le_of_succ_le_succ (hall _ (.added hnone hop ho hadds ha))
    · rw [Option.getD_some, fits_document_iff, nestedMembers_fits_iff hc hless]
      constructor
      · intro hall level he
        obtain ⟨member, hm, deep, hd, rfl⟩ := (Rest.endsAt_walked_iff hwalked).1 he
        exact Nat.succ_le_succ (hall member hm deep hd)
      · exact fun hall member hm deep hd =>
          Nat.le_of_succ_le_succ (hall _ (.member hwalked hm hd))

theorem nestedItems_fits_iff : ∀ {items : List Rest} {guard : Nesting} {natives : List Native}
    {levels : Nat}, nestedItems guard items = .ok natives → guard.room ≤ levels →
      ((∀ native ∈ natives, Fits levels native) ↔
        ∀ item ∈ items, ∀ level, item.EndsAt level → level ≤ levels)
  | [], _, _, _, h, _ => by
    rw [nestedItems] at h
    cases h
    simp
  | item :: rest, _, _, _, h, hlevels => by
    rw [nestedItems] at h
    split at h
    · cases h
    · rename_i first hf
      obtain ⟨later, hl, rfl⟩ := Outcome.map_eq_ok.1 h
      rw [List.forall_mem_cons, List.forall_mem_cons]
      exact and_congr (nested_fits_iff hf hlevels) (nestedItems_fits_iff hl hlevels)

theorem nestedMembers_fits_iff : ∀ {members : List (String × Rest)} {guard : Nesting}
    {columns : List (String × Native)} {levels : Nat}, nestedMembers guard members = .ok columns →
      guard.room ≤ levels →
        ((∀ column ∈ columns, Fits levels column.2) ↔
          ∀ member ∈ members, ∀ level, member.2.EndsAt level → level ≤ levels)
  | [], _, _, _, h, _ => by
    rw [nestedMembers] at h
    cases h
    simp
  | (key, value) :: rest, _, _, levels, h, hlevels => by
    obtain ⟨result, hr⟩ := nestedMembers_admits h (key, value) List.mem_cons_self
    have hvalue := nested_fits_iff hr hlevels
    have hpos := room_pos_of_nested hr
    rw [nestedMembers, hr] at h
    rw [List.forall_mem_cons]
    cases result with
    | none =>
      have hnull : Fits levels (Option.getD none .null) := .of_isScalar trivial (by omega)
      rw [nestedMembers_fits_iff h hlevels]
      exact (and_iff_right (hvalue.1 hnull)).symm
    | some native =>
      obtain ⟨later, hl, rfl⟩ := Outcome.map_eq_ok.1 h
      rw [List.forall_mem_cons]
      exact and_congr hvalue (nestedMembers_fits_iff hl hlevels)

end

/-- **An atom ends at most two levels below the bound.** -/
theorem endsAt_le {value : Rest} {level : Nat} (he : value.EndsAt level) :
    ∀ {guard : Nesting} {result : Option Native}, nested guard value = .ok result →
      level ≤ guard.room + 2 := by
  induction he with
  | @atom value native _ =>
    intro guard result h
    have hle := atomLevels_le native
    omega
  | @added _ _ _ native _ _ _ _ _ =>
    intro guard result h
    have hpos := room_pos_of_nested h
    have hle := atomLevels_le native
    omega
  | @item items item level hm _ ih =>
    intro guard result h
    rcases guard.enter_cases with ⟨hfull, _⟩ | ⟨inner, hi, hroom, _⟩
    · have := room_pos_of_nested h
      omega
    obtain ⟨natives, hn, _⟩ := nested_array_entered hi h
    obtain ⟨stored, hs⟩ := nestedItems_admits hn item hm
    have hle := ih hs
    omega
  | @member members member level hwalked hm _ ih =>
    intro guard result h
    rcases guard.enter_cases with ⟨hfull, _⟩ | ⟨inner, hi, hroom, _⟩
    · have := room_pos_of_nested h
      omega
    rcases nested_object_entered hi h with ⟨_, ha, _⟩ | ⟨_, _, hop, _, _⟩ | ⟨columns, _, hc, _⟩
    · cases ha.symm.trans hwalked.no_atom
    · cases hop.symm.trans hwalked.no_operation
    · obtain ⟨stored, hs⟩ := nestedMembers_admits hc member hm
      have hle := ih hs
      omega

end Native

/-- **A value that is stored within a bound can be read within it just where its atoms end there.**
Otherwise, and for no other reason, reading it is refused as too deep; and it can always be read
with a bound that is higher by two. -/
theorem nested_reads_iff {value : Rest} {native : Native} {bound : Nat} {writing : Origin}
    (h : Native.nested (.top bound writing) value = .ok (some native)) (reading : Origin) :
    ((∃ back, Rest.ofNative (.top bound reading) native = .ok back) ↔
        ∀ level, value.EndsAt level → level ≤ bound) ∧
      (∀ failure, Rest.ofNative (.top bound reading) native = .error failure →
        failure = .tooDeep reading bound) ∧
      ∃ back, Rest.ofNative (.top (bound + 2) reading) native = .ok back := by
  have hwritten : native.Written := Native.nested_written h
  have hfits : native.Fits bound ↔ ∀ level, value.EndsAt level → level ≤ bound :=
    Native.nested_fits_iff h (Nat.le_refl _)
  have hlooser : native.Fits (bound + 2) := by
    refine (Native.nested_fits_iff h (Nat.le_add_right _ 2)).2 fun level he => ?_
    exact Native.endsAt_le he h
  refine ⟨?_, ?_, ?_⟩
  · rcases Rest.ofNative_written hwritten (.top bound reading) with ⟨hf, hback⟩ | ⟨hf, herror⟩
    · exact iff_of_true hback (hfits.1 hf)
    · refine iff_of_false ?_ fun hall => hf (hfits.2 hall)
      rintro ⟨back, hback⟩
      cases herror.symm.trans hback
  · intro failure hfailure
    rcases Rest.ofNative_written hwritten (.top bound reading) with ⟨_, _, hback⟩ | ⟨_, herror⟩
    · cases hback.symm.trans hfailure
    · exact (Except.error.inj (herror.symm.trans hfailure)).symm
  · rcases Rest.ofNative_written hwritten (.top (bound + 2) reading) with ⟨_, hback⟩ | ⟨hf, _⟩
    · exact hback
    · exact absurd hlooser hf

/-- A list of references, as it is sent. -/
def references : Rest := .array [Pointer.toEnvelope ⟨"Tag", "t1"⟩]

/-- The list of references, as it is stored. -/
def storedReferences : Native := .array [Pointer.nested ⟨"Tag", "t1"⟩]

theorem nested_reads_iff_references :
    Native.nested (.top 3 .value) references = .ok (some storedReferences) ∧
      (∀ level, references.EndsAt level → level ≤ 3) ∧
      ∃ back, Rest.ofNative (.top 3 .decode) storedReferences = .ok back := by
  have hstored : Native.nested (.top 3 .value) references = .ok (some storedReferences) := by rfl
  have hatom : nestedAtom? (Pointer.toEnvelope ⟨"Tag", "t1"⟩) =
      .ok (some (Pointer.nested ⟨"Tag", "t1"⟩)) := by rfl
  have hends : ∀ level, references.EndsAt level → level ≤ 3 := by
    intro level he
    obtain ⟨item, hm, inner, hi, rfl⟩ := Rest.endsAt_array_iff.1 he
    obtain rfl := List.mem_singleton.1 hm
    obtain rfl := (Rest.endsAt_atom_iff hatom).1 hi
    decide
  exact ⟨hstored, hends, (nested_reads_iff hstored .decode).1.2 hends⟩

/-- A list with an operation in it, which leaves a list of one number. -/
def addedNumber : Rest :=
  .array [.object [(operationKey, .string "Add"), ("objects", .array [.number (.integer 1)])]]

/-- A class whose host allows two levels of nesting. -/
def shelf : Target := ⟨"Shelf", .empty, { Config.standard with maxDepth := 2 }⟩

/-- **At the limit a list of references is stored and cannot be read**, and so is the result of an
operation that adds a number. -/
theorem references_unread_at_limit :
    Native.nested (.top 2 .value) references = .ok (some storedReferences) ∧
      Rest.ofNative (.top 2 .decode) storedReferences = .error (.tooDeep .decode 2) ∧
      Create.document shelf [("tags", references)] = .ok [("tags", storedReferences)] ∧
      Decode.object shelf [("tags", storedReferences)] = .error (.tooDeep .decode 2) ∧
      Create.document shelf [("tags", addedNumber)] =
        .ok [("tags", .array [.array [.int32 1]])] ∧
      Decode.object shelf [("tags", .array [.array [.int32 1]])] = .error (.tooDeep .decode 2) :=
  ⟨rfl, rfl, rfl, rfl, rfl, rfl⟩

end RestStore
