import RestStore.Proofs.Native.Keys
import RestStore.Proofs.Write.Contributions

/-!
# Keys inside what is written

Of the keys inside what a field of a client stores or sends to a stored object, those that are not
clean stand in operands that are stored as given: the amount of a `SetOnInsert`, and the items of an
`Add`, `AddUnique` or `Remove` that are no atoms. `written_keys` says so of new objects and of
updates; without such operands all keys are clean.

* `CheckedName` — the fields whose values are checked.
* `CreateGives`, `UpdateGives` — the operands that a field stores or sends as given.
* `created_keys`, `updated_keys` — the keys of one field.
-/

set_option autoImplicit false

namespace RestStore

/-- The name of a field whose value is checked: a client's own field, no path, and neither the
permissions nor the id nor the session token. -/
structure CheckedName (key : String) : Prop where
  not_internal : hasStart "_" key = false
  not_path : Column.isPath key = false
  not_acl : key ≠ aclKey
  not_id : key ≠ objectIdKey
  not_session : key ≠ "sessionToken"

/-- An operand that creating a field stores as given. A value that is an atom itself has none. -/
structure CreateGives (value operand : Rest) : Prop where
  no_atom : Native.columnAtom? none value = .ok none
  given : Rest.GivenIn operand value

/-- The operands that an operation on a stored object sends as given: those that it keeps, and the
items to remove that are no atoms. -/
inductive Operation.Sends : Operation → Rest → Prop
  | kept {operation : Operation} {operand : Rest} : operation.Keeps operand →
    Sends operation operand
  | removed {items : List Rest} {item : Rest} : item ∈ items →
    Native.nestedAtom? item = .ok none → Sends (.remove items) item

/-- An operand that updating a field sends as given. -/
inductive UpdateGives (value operand : Rest) : Prop
  | nested : Native.columnAtom? none value = .ok none →
    (∀ members, value = .object members → Fields.contains members operationKey = false) →
      Rest.GivenIn operand value → UpdateGives value operand
  | operation {members : Fields Rest} {operation : Operation} :
    Native.columnAtom? none value = .ok none → value = .object members →
      Fields.contains members operationKey = true → Operation.ofMembers members = .ok operation →
        operation.Sends operand → UpdateGives value operand

/-- The argument of a contribution without the wrapper around a list to add. -/
def Update.Contribution.content (contribution : Update.Contribution) : Native :=
  match contribution.operator, contribution.argument with
  | .push, .document [("$each", elements)] => elements
  | .addToSet, .document [("$each", elements)] => elements
  | _, argument => argument

section

variable {target : Target} {key name : String} {value : Rest}

/-- **The keys inside a new column** that are not clean stand in operands stored as given. -/
theorem created_keys {column : String × Native} (hk : CheckedName key)
    (h : Create.column? target key value = .ok (some column))
    (hn : Native.isCleanKey name = false) :
    column.2.HasKey name ↔ ∃ operand, CreateGives value operand ∧ operand.HasKey name := by
  have hatom : ∀ {field native}, Native.columnAtom? field value = .ok (some native) →
      (native.HasKey name ↔ ∃ operand, CreateGives value operand ∧ operand.HasKey name) := by
    intro field native ha
    refine iff_of_false (Native.columnAtom?_keys ha hn) ?_
    rintro ⟨_, ⟨hnone, _⟩, _⟩
    cases ha.symm.trans (Native.columnAtom?_eq_none field hnone)
  rcases Create.column?_cases target value hk.not_internal with
    ⟨hid, _⟩ | ⟨hsession, _⟩ | ⟨stored, _, he⟩ | ⟨_, he⟩
  · exact absurd hid hk.not_id
  · exact absurd hsession hk.not_session
  · rw [he] at h
    obtain ⟨native, ht, hc⟩ := Outcome.map_eq_ok.1 h
    cases hc
    unfold Create.timeValue at ht
    split at ht
    · obtain ⟨instant, _, rfl⟩ := Outcome.map_eq_ok.1 ht
      refine iff_of_false (Native.not_hasKey_of_isScalar trivial) ?_
      rintro ⟨_, ⟨hnone, _⟩, _⟩
      cases hnone
    · split at ht
      · cases ht
      · rename_i ha
        cases ht
        exact hatom ha
      · cases ht
  · rw [he, authIdProvider?_eq_none hk.not_path] at h
    obtain ⟨result, hr, hc⟩ := Outcome.map_eq_ok.1 h
    obtain ⟨native, rfl, rfl⟩ := Option.map_eq_some_iff.1 hc
    unfold Create.plainValue? at hr
    split at hr
    · cases hr
    · rename_i ha
      cases hr
      exact hatom ha
    · rename_i ha
      have hkeys := Native.nested_keys hr hn
      rw [Option.getD_some] at hkeys
      rw [hkeys]
      constructor
      · rintro ⟨operand, hg, ho⟩
        exact ⟨operand, ⟨Native.columnAtom?_eq_none none ha, hg⟩, ho⟩
      · rintro ⟨operand, hg, ho⟩
        exact ⟨operand, hg.given, ho⟩

/-- The keys of what an operation sends that are not clean are those of its operands. -/
theorem sent_keys {guard : Nesting} {operation : Operation} {column : String}
    {operator : UpdateOperator} {argument : Native}
    (h : operation.update guard = .ok ⟨operator, argument⟩) (hn : Native.isCleanKey name = false) :
    (Update.Contribution.content ⟨operator, column, argument⟩).HasKey name ↔
      ∃ operand, operation.Sends operand ∧ operand.HasKey name := by
  rcases Operation.update_cases h with ⟨rfl, he⟩ | ⟨amount, rfl, he⟩ | ⟨value, rfl, he⟩ |
    ⟨items, natives, helements, ⟨rfl, he⟩ | ⟨rfl, he⟩ | ⟨rfl, he⟩⟩
  · cases he
    refine iff_of_false (Native.not_hasKey_of_isScalar trivial) ?_
    rintro ⟨_, ⟨⟨⟩⟩, _⟩
  · cases he
    refine iff_of_false (Native.not_hasKey_of_isScalar (Native.isScalar_ofNumber amount)) ?_
    rintro ⟨_, ⟨⟨⟩⟩, _⟩
  · cases he
    show (Native.given value).HasKey name ↔ _
    rw [Native.hasKey_given_iff]
    constructor
    · exact fun hk => ⟨value, .kept .amount, hk⟩
    · rintro ⟨_, ⟨⟨⟩⟩, hk⟩
      exact hk
  · cases he
    refine Native.elements_keys helements hn fun item => ⟨?_, fun ⟨hm, ha⟩ => .kept (.added hm ha)⟩
    rintro ⟨_ | ⟨hm, ha⟩⟩
    exact ⟨hm, ha⟩
  · cases he
    refine Native.elements_keys helements hn fun item =>
      ⟨?_, fun ⟨hm, ha⟩ => .kept (.addedUnique hm ha)⟩
    rintro ⟨_ | _ | ⟨hm, ha⟩⟩
    exact ⟨hm, ha⟩
  · cases he
    refine Native.elements_keys helements hn fun item => ⟨?_, fun ⟨hm, ha⟩ => .removed hm ha⟩
    rintro (⟨⟨⟩⟩ | ⟨hm, ha⟩)
    exact ⟨hm, ha⟩

/-- **The keys inside an argument** that are not clean stand in operands sent as given. -/
theorem updated_keys {contribution : Update.Contribution} (hk : CheckedName key)
    (h : Update.field? target key value = .ok (some contribution))
    (hn : Native.isCleanKey name = false) :
    contribution.content.HasKey name ↔
      ∃ operand, UpdateGives value operand ∧ operand.HasKey name := by
  have hnone : ∀ {field native}, Native.columnAtom? field value = .ok (some native) →
      ¬∃ operand, UpdateGives value operand ∧ operand.HasKey name := by
    rintro field native ha ⟨_, ⟨hnone, _, _⟩ | ⟨hnone, _, _, _, _⟩, _⟩
    · cases ha.symm.trans (Native.columnAtom?_eq_none field hnone)
    · cases ha.symm.trans (Native.columnAtom?_eq_none field hnone)
  rcases Update.field?_cases h with ⟨column, native, rfl, hscalar, hvalue⟩ | ⟨column, hvalue⟩
  · refine iff_of_false (Native.not_hasKey_of_isScalar hscalar) ?_
    rcases hvalue with ⟨text, rfl⟩ | ⟨number, rfl⟩
    · exact hnone (show Native.columnAtom? none (.string text) = .ok (some (.string text)) from rfl)
    · exact hnone
        (show Native.columnAtom? none (.number number) = .ok (some (.ofNumber number)) from rfl)
  · rcases Update.value?_cases hvalue with ⟨native, ha, rfl⟩ | ⟨ha, ⟨members, operation, rfl, hop,
      ho, hu⟩ | ⟨hno, native, hnested, rfl⟩⟩
    · rw [hk.not_path]
      exact iff_of_false (Native.columnAtom?_keys ha hn) (hnone ha)
    · have hnone := Native.columnAtom?_eq_none none ha
      obtain ⟨operator, stored, argument⟩ := contribution
      rw [sent_keys hu hn]
      constructor
      · rintro ⟨operand, hs, hk⟩
        exact ⟨operand, .operation hnone rfl hop ho hs, hk⟩
      · rintro ⟨operand, ⟨_, hnot, _⟩ | ⟨_, he, _, ho', hs⟩, hk⟩
        · rw [hnot members rfl] at hop
          cases hop
        · cases he
          cases ho.symm.trans ho'
          exact ⟨operand, hs, hk⟩
    · have hnone := Native.columnAtom?_eq_none none ha
      have hkeys := Native.nested_keys hnested hn
      rw [Option.getD_some] at hkeys
      show native.HasKey name ↔ _
      rw [hkeys]
      constructor
      · rintro ⟨operand, hg, ho⟩
        exact ⟨operand, .nested hnone hno hg, ho⟩
      · rintro ⟨operand, ⟨_, _, hg⟩ | ⟨_, he, hop, _, _⟩, ho⟩
        · exact ⟨operand, hg, ho⟩
        · rw [hno _ he] at hop
          cases hop

end

/-! ## Whole requests -/

/-- What the columns of a new object come from, and the keys inside them. -/
structure CreatedKeys (target : Target) (members : Fields Rest) (created : Document) : Prop where
  /-- Every column holds permissions or comes from a field. -/
  origin : ∀ column ∈ created,
    (∃ permissions, Create.permissionColumns members = .ok permissions ∧ column ∈ permissions) ∨
      ∃ member ∈ members, Create.column? target member.1 member.2 = .ok (some column)
  /-- A key inside the column of a checked field is clean or stands in an operand. -/
  unclean : ∀ member ∈ members, CheckedName member.1 → ∀ column,
    Create.column? target member.1 member.2 = .ok (some column) →
      ∀ key, Native.isCleanKey key = false →
        (column.2.HasKey key ↔ ∃ operand, CreateGives member.2 operand ∧ operand.HasKey key)

/-- What the arguments of an update come from, and the keys inside them. -/
structure UpdatedKeys (target : Target) (members : Fields Rest) (updated : Document) : Prop where
  /-- Every argument sets a permission column or comes from a field. -/
  origin : ∀ token columns column argument, (token, .document columns) ∈ updated →
    (column, argument) ∈ columns →
      (token = UpdateOperator.set.token ∧ ∃ permissions,
        Create.permissionColumns members = .ok permissions ∧ (column, argument) ∈ permissions) ∨
      ∃ member ∈ members, ∃ contribution,
        Update.field? target member.1 member.2 = .ok (some contribution) ∧
          contribution.operator.token = token ∧ contribution.column = column ∧
          contribution.argument = argument
  /-- A key inside the argument of a checked field is clean or stands in an operand. -/
  unclean : ∀ member ∈ members, CheckedName member.1 → ∀ contribution,
    Update.field? target member.1 member.2 = .ok (some contribution) →
      ∀ key, Native.isCleanKey key = false →
        (contribution.content.HasKey key ↔
          ∃ operand, UpdateGives member.2 operand ∧ operand.HasKey key)

/-- **The keys inside what is written are clean, but for those of operands given as they stand.** -/
theorem written_keys (target : Target) (members : Fields Rest) :
    (∀ created, Create.document target members = .ok created →
      CreatedKeys target members created) ∧
    ∀ updated, Update.document target members = .ok updated →
      UpdatedKeys target members updated := by
  constructor
  · intro created h
    exact ⟨fun _ hm => Create.mem_document h hm, fun _ _ hk _ hc _ hn => created_keys hk hc hn⟩
  · intro updated h
    exact ⟨fun _ _ _ _ ht hc => Update.mem_document h ht hc,
      fun _ _ hk _ hf _ hn => updated_keys hk hf hn⟩

/-- The class of notes. -/
def noteTarget : Target := ⟨"Note", .empty, .standard⟩

/-- An object with a point in a key. -/
def pointedMark : Rest := .object [("a.b", .number (.integer 1))]

/-- A note to which such a mark is added. -/
def markedNote : Fields Rest :=
  [("title", .string "tea"),
    ("marks", .object [(operationKey, .string "Add"), ("objects", .array [pointedMark])])]

/-- The mark as it is stored. -/
def storedMark : Native := .document [("a.b", .int32 1)]

theorem written_keys_note :
    Create.document noteTarget markedNote =
        .ok [("title", .string "tea"), ("marks", .array [storedMark])] ∧
      CreatedKeys noteTarget markedNote
        [("title", .string "tea"), ("marks", .array [storedMark])] ∧
      Update.document noteTarget markedNote =
        .ok [("$set", .document [("title", .string "tea")]),
          ("$push", .document [("marks", .document [("$each", .array [storedMark])])])] ∧
      UpdatedKeys noteTarget markedNote [("$set", .document [("title", .string "tea")]),
          ("$push", .document [("marks", .document [("$each", .array [storedMark])])])] :=
  ⟨rfl, (written_keys noteTarget markedNote).1 _ rfl, rfl,
    (written_keys noteTarget markedNote).2 _ rfl⟩

/-- A nested object is refused for such a key, and an operand is stored with it. -/
theorem operand_keys_unchecked :
    CheckedName "marks" ∧ Native.isCleanKey "a.b" = false ∧
      Create.document noteTarget [("marks", .array [pointedMark])] =
        .error (.shape .uncleanKey) ∧
      Create.document noteTarget markedNote =
        .ok [("title", .string "tea"), ("marks", .array [storedMark])] ∧
      Update.document noteTarget markedNote =
        .ok [("$set", .document [("title", .string "tea")]),
          ("$push", .document [("marks", .document [("$each", .array [storedMark])])])] ∧
      (Native.array [storedMark]).HasKey "a.b" :=
  ⟨⟨by decide, by decide, by decide, by decide, by decide⟩, by decide, rfl, rfl, rfl,
    Native.hasKey_array_iff.2 ⟨storedMark, List.mem_cons_self,
      Native.hasKey_document_iff.2 (.inl List.mem_cons_self)⟩⟩

end RestStore
