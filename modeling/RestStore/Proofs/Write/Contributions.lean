import RestStore.Proofs.Native.Fits
import RestStore.Proofs.Native.Given
import RestStore.Proofs.Write.Columns
import RestStore.Write.Update

/-!
# Contributions to an update

What one field of a request contributes to its operator document, and where it is found there.

* `update_cases` — the operator and the argument of each operation.
* `field?_cases` — all that a field can contribute.
* `field?_eq_none_iff` — the fields that contribute nothing.
* `column_of_field?` — the column that it contributes to.
* `mem_collect`, `mem_document` — nothing stands in an operator document that no field and no
  permission contributed.
* `collect_column` — and every column that was contributed stands there.
* `document_single` — the operator document of a single field.
-/

set_option autoImplicit false

namespace RestStore

/-- The operator and the argument of an operation on a field of a stored object. -/
theorem Operation.update_cases {guard : Nesting} {operation : Operation} {update : FieldUpdate}
    (h : operation.update guard = .ok update) :
    operation = .delete ∧ update = ⟨.unset, .string ""⟩ ∨
      (∃ amount, operation = .increment amount ∧ update = ⟨.inc, .ofNumber amount⟩) ∨
      (∃ value, operation = .setOnInsert value ∧ update = ⟨.setOnInsert, Native.given value⟩) ∨
      ∃ items natives, Native.elements guard items = .ok natives ∧
        (operation = .add items ∧ update = ⟨.push, each natives⟩ ∨
          operation = .addUnique items ∧ update = ⟨.addToSet, each natives⟩ ∨
          operation = .remove items ∧ update = ⟨.pullAll, .array natives⟩) := by
  cases operation with
  | delete =>
    cases h
    exact .inl ⟨rfl, rfl⟩
  | increment amount =>
    cases h
    exact .inr (.inl ⟨amount, rfl, rfl⟩)
  | setOnInsert value =>
    obtain ⟨native, hn, rfl⟩ := Outcome.map_eq_ok.1 h
    rw [Native.verbatim_eq_given hn]
    exact .inr (.inr (.inl ⟨value, rfl, rfl⟩))
  | add items =>
    obtain ⟨natives, hn, rfl⟩ := Outcome.map_eq_ok.1 h
    exact .inr (.inr (.inr ⟨items, natives, hn, .inl ⟨rfl, rfl⟩⟩))
  | addUnique items =>
    obtain ⟨natives, hn, rfl⟩ := Outcome.map_eq_ok.1 h
    exact .inr (.inr (.inr ⟨items, natives, hn, .inr (.inl ⟨rfl, rfl⟩)⟩))
  | remove items =>
    obtain ⟨natives, hn, rfl⟩ := Outcome.map_eq_ok.1 h
    exact .inr (.inr (.inr ⟨items, natives, hn, .inr (.inr ⟨rfl, rfl⟩)⟩))

namespace Update

/-! ## One field -/

section

variable {target : Target} {key : String} {value : Rest} {contribution : Contribution}

/-- A value that is no atom does what its operation asks for, or is set as a nested value. -/
theorem compound?_cases {column : String}
    (h : compound? target column value = .ok (some contribution)) :
    (∃ members operation, value = .object members ∧
        Fields.contains members operationKey = true ∧
        Operation.ofMembers members = .ok operation ∧
        operation.update (guard target) = .ok ⟨contribution.operator, contribution.argument⟩) ∨
      (∀ members, value = .object members → Fields.contains members operationKey = false) ∧
        ∃ native, Native.nested (guard target) value = .ok (some native) ∧
          contribution = setColumn column native := by
  have hnested : (Native.nested (guard target) value).map
      (fun native => native.map (setColumn column)) = .ok (some contribution) →
        ∃ native, Native.nested (guard target) value = .ok (some native) ∧
          contribution = setColumn column native := by
    intro hn
    obtain ⟨result, hr, he⟩ := Outcome.map_eq_ok.1 hn
    obtain ⟨native, rfl, rfl⟩ := Option.map_eq_some_iff.1 he
    exact ⟨native, hr, rfl⟩
  unfold compound? at h
  split at h
  · rename_i members
    split at h
    · rename_i hop
      split at h
      · cases h
      · rename_i operation ho
        obtain ⟨update, hu, he⟩ := Outcome.map_eq_ok.1 h
        cases he
        exact .inl ⟨members, operation, rfl, hop, ho, hu⟩
    · rename_i hop
      refine .inr ⟨?_, hnested h⟩
      rintro _ ⟨⟩
      simpa using hop
  · rename_i hno
    exact .inr ⟨fun members he => absurd he (hno members), hnested h⟩

/-- An ordinary value is set as an atom, does what its operation asks for, or is set as a nested
value. -/
theorem value?_cases {column : String}
    (h : value? target key column value = .ok (some contribution)) :
    (∃ native, Native.columnAtom? (target.schema.field? key) value = .ok (some native) ∧
        contribution =
          setColumn column (if Column.isPath key then Native.given value else native)) ∨
      Native.columnAtom? (target.schema.field? key) value = .ok none ∧
        ((∃ members operation, value = .object members ∧
            Fields.contains members operationKey = true ∧
            Operation.ofMembers members = .ok operation ∧
            operation.update (guard target) =
              .ok ⟨contribution.operator, contribution.argument⟩) ∨
          (∀ members, value = .object members →
            Fields.contains members operationKey = false) ∧
            ∃ native, Native.nested (guard target) value = .ok (some native) ∧
              contribution = setColumn column native) := by
  unfold value? at h
  split at h
  · cases h
  · rename_i native ha
    refine .inl ⟨native, ha, ?_⟩
    split at h
    · rename_i hpath
      obtain ⟨stored, hs, he⟩ := Outcome.map_eq_ok.1 h
      cases he
      rw [if_pos hpath, Native.verbatim_eq_given hs]
    · rename_i hpath
      cases h
      rw [if_neg hpath]
  · rename_i ha
    exact .inr ⟨ha, compound?_cases h⟩

/-- An integer id is read off a number or a text. -/
theorem integerId_eq_ok {origin : Origin} {native : Native}
    (h : integerId origin value = .ok native) : native.IsScalar ∧
      ((∃ text, value = .string text) ∨ ∃ number, value = .number number) := by
  unfold integerId at h
  split at h
  · rename_i i hi
    cases h
    refine ⟨Native.isScalar_ofNumber (.integer i), ?_⟩
    cases value with
    | string text => exact .inl ⟨text, rfl⟩
    | number number => exact .inr ⟨number, rfl⟩
    | null | bool _ | array _ | object _ => cases hi
  · cases h

/-- **What a field contributes**: it sets an instant or an integer id, or does to its column what
its value asks for. -/
theorem field?_cases (h : field? target key value = .ok (some contribution)) :
    (∃ column native, contribution = setColumn column native ∧ native.IsScalar ∧
        ((∃ text, value = .string text) ∨ ∃ number, value = .number number)) ∨
      ∃ column, value? target key column value = .ok (some contribution) := by
  unfold field? at h
  dsimp only at h
  split at h
  · cases h
  · rename_i text _
    obtain ⟨instant, _, he⟩ := Outcome.map_eq_ok.1 h
    cases he
    exact .inl ⟨_, _, rfl, trivial, .inl ⟨text, rfl⟩⟩
  · split at h
    · obtain ⟨native, hn, he⟩ := Outcome.map_eq_ok.1 h
      cases he
      obtain ⟨hscalar, hvalue⟩ := integerId_eq_ok hn
      exact .inl ⟨_, native, rfl, hscalar, hvalue⟩
    · exact .inr ⟨_, h⟩
  · exact .inr ⟨_, h⟩

/-- A value that is no atom contributes something: where it asks for no operation, it is stored. -/
theorem compound?_ne_none {column : String} : compound? target column value ≠ .ok none := by
  intro h
  have hnested : (Native.nested (guard target) value).map
      (fun native => native.map (setColumn column)) = .ok none →
        ∃ members, value = .object members ∧ Fields.contains members operationKey = true := by
    intro hn
    obtain ⟨result, hr, he⟩ := Outcome.map_eq_ok.1 hn
    rw [Option.map_eq_none_iff] at he
    exact Native.exists_operation_of_nested (he ▸ hr)
  unfold compound? at h
  split at h
  · split at h
    · split at h
      · cases h
      · obtain ⟨_, _, he⟩ := Outcome.map_eq_ok.1 h
        cases he
    · rename_i hop
      obtain ⟨members, he, hcontains⟩ := hnested h
      cases he
      exact hop hcontains
  · rename_i hno
    obtain ⟨members, he, _⟩ := hnested h
    exact hno members he

/-- An ordinary value contributes something. -/
theorem value?_ne_none {column : String} : value? target key column value ≠ .ok none := by
  intro h
  unfold value? at h
  split at h
  · cases h
  · split at h
    · obtain ⟨_, _, he⟩ := Outcome.map_eq_ok.1 h
      cases he
    · cases h
  · exact compound?_ne_none h

/-- **A field contributes nothing just where it is a permission list.** -/
theorem field?_eq_none_iff {own : Option Contribution} (h : field? target key value = .ok own) :
    own = none ↔ key = readersColumn ∨ key = writersColumn := by
  have hlists : (Column.forUpdate target.schema key value).role = .permission ↔
      key = readersColumn ∨ key = writersColumn := role_forUpdate_iff
  rw [← hlists]
  unfold field? at h
  dsimp only at h
  split at h
  · rename_i hrole
    cases h
    exact iff_of_true rfl hrole
  · rename_i hrole
    obtain ⟨_, _, rfl⟩ := Outcome.map_eq_ok.1 h
    exact iff_of_false nofun (by rw [hrole]; decide)
  · rename_i hrole
    refine iff_of_false ?_ (by rw [hrole]; decide)
    rintro rfl
    split at h
    · obtain ⟨_, _, he⟩ := Outcome.map_eq_ok.1 h
      cases he
    · exact value?_ne_none h
  · rename_i hpermission _ _
    refine iff_of_false ?_ hpermission
    rintro rfl
    exact value?_ne_none h

theorem column_of_compound? {column : String}
    (h : compound? target column value = .ok (some contribution)) :
    contribution.column = column := by
  unfold compound? at h
  split at h
  · split at h
    · split at h
      · cases h
      · obtain ⟨update, _, he⟩ := Outcome.map_eq_ok.1 h
        cases he
        rfl
    · obtain ⟨native, _, he⟩ := Outcome.map_eq_ok.1 h
      obtain ⟨stored, _, rfl⟩ := Option.map_eq_some_iff.1 he
      rfl
  · obtain ⟨native, _, he⟩ := Outcome.map_eq_ok.1 h
    obtain ⟨stored, _, rfl⟩ := Option.map_eq_some_iff.1 he
    rfl

theorem column_of_value? {column : String}
    (h : value? target key column value = .ok (some contribution)) :
    contribution.column = column := by
  rcases value?_cases h with ⟨native, _, rfl⟩ | ⟨ha, _⟩
  · rfl
  · unfold value? at h
    rw [ha] at h
    exact column_of_compound? h

/-- A field writes to its column, which holds no permissions. -/
theorem column_of_field? (h : field? target key value = .ok (some contribution)) :
    contribution.column = (Column.forUpdate target.schema key value).name ∧
      (Column.forUpdate target.schema key value).role ≠ .permission := by
  unfold field? at h
  dsimp only at h
  split at h
  · cases h
  · rename_i hrole
    obtain ⟨instant, _, he⟩ := Outcome.map_eq_ok.1 h
    cases he
    exact ⟨rfl, by rw [hrole]; decide⟩
  · rename_i hrole
    refine ⟨?_, by rw [hrole]; decide⟩
    split at h
    · obtain ⟨native, _, he⟩ := Outcome.map_eq_ok.1 h
      cases he
      rfl
    · exact column_of_value? h
  · rename_i hpermission _ _
    exact ⟨column_of_value? h, hpermission⟩

end

/-! ## A whole request -/

/-- What stands in the documents of the operators was contributed. -/
theorem mem_collect {entries : List Contribution} {token column : String} {columns : Document}
    {argument : Native} (ht : (token, columns) ∈ collect entries)
    (hc : (column, argument) ∈ columns) :
    ∃ entry ∈ entries, entry.operator.token = token ∧ entry.column = column ∧
      entry.argument = argument := by
  suffices ∀ (entries : List Contribution) (collected : Fields Document),
      (token, columns) ∈ entries.foldl place collected →
        (∃ earlier, (token, earlier) ∈ collected ∧ (column, argument) ∈ earlier) ∨
          ∃ entry ∈ entries, entry.operator.token = token ∧ entry.column = column ∧
            entry.argument = argument by
    rcases this entries [] ht with ⟨_, hm, _⟩ | h
    · cases hm
    · exact h
  intro entries
  induction entries with
  | nil => exact fun collected hm => .inl ⟨columns, hm, hc⟩
  | cons entry entries ih =>
    intro collected hm
    rcases ih (place collected entry) hm with ⟨earlier, he, hin⟩ | ⟨other, ho, hown⟩
    · rcases Fields.mem_insert he with hnew | hold
      · cases hnew
        rcases Fields.mem_insert hin with hown | hin
        · cases hown
          exact .inr ⟨entry, List.mem_cons_self, rfl, rfl, rfl⟩
        · cases hget : Fields.get? collected entry.operator.token with
          | none =>
            rw [hget] at hin
            cases hin
          | some held =>
            rw [hget] at hin
            exact .inl ⟨held, Fields.mem_of_get? hget, hin⟩
      · exact .inl ⟨earlier, hold, hin⟩
    · exact .inr ⟨other, List.mem_cons_of_mem _ ho, hown⟩

/-- A column that an operator wrote to stays among the columns of the operator. -/
theorem collect_column {entries : List Contribution} {entry : Contribution}
    (hm : entry ∈ entries) : ∃ columns, (entry.operator.token, columns) ∈ collect entries ∧
      entry.column ∈ Fields.keys columns := by
  suffices ∀ (entries : List Contribution) (collected : Fields Document),
      (entry ∈ entries ∨ ∃ columns, Fields.get? collected entry.operator.token = some columns ∧
        entry.column ∈ Fields.keys columns) →
          ∃ columns, Fields.get? (entries.foldl place collected) entry.operator.token =
            some columns ∧ entry.column ∈ Fields.keys columns by
    obtain ⟨columns, hget, hcolumn⟩ := this entries [] (.inl hm)
    exact ⟨columns, Fields.mem_of_get? hget, hcolumn⟩
  intro entries
  induction entries with
  | nil => exact fun _ h => h.resolve_left List.not_mem_nil
  | cons other entries ih =>
    intro collected h
    refine ih (place collected other) ?_
    have hkept : ∀ columns, Fields.get? collected entry.operator.token = some columns →
        entry.column ∈ Fields.keys columns →
          ∃ columns, Fields.get? (place collected other) entry.operator.token = some columns ∧
            entry.column ∈ Fields.keys columns := by
      intro columns hget hcolumn
      unfold place
      dsimp only
      by_cases ht : other.operator.token = entry.operator.token
      · rw [ht, Fields.get?_insert_self, hget]
        exact ⟨_, rfl, Fields.mem_keys_insert.2 (.inl hcolumn)⟩
      · rw [Fields.get?_insert_of_ne _ _ ht]
        exact ⟨columns, hget, hcolumn⟩
    rcases h with hm | ⟨columns, hget, hcolumn⟩
    · rcases List.mem_cons.1 hm with rfl | hm
      · refine .inr ⟨_, Fields.get?_insert_self _ _ _, Fields.mem_keys_insert.2 (.inr rfl)⟩
      · exact .inl hm
    · exact .inr (hkept columns hget hcolumn)

/-- A contribution comes from a field. -/
theorem mem_fields : ∀ {target : Target} {members : Fields Rest} {entries : List Contribution}
    {entry : Contribution}, fields target members = .ok entries → entry ∈ entries →
      ∃ member ∈ members, field? target member.1 member.2 = .ok (some entry)
  | _, [], _, _, h, hm => by
    cases h
    cases hm
  | target, (key, value) :: rest, _, entry, h, hm => by
    unfold fields at h
    split at h
    · obtain ⟨member, hmember, he⟩ := mem_fields h hm
      exact ⟨member, List.mem_cons_of_mem _ hmember, he⟩
    · split at h
      · cases h
      · rename_i own hown
        obtain ⟨later, hl, rfl⟩ := Outcome.map_eq_ok.1 h
        rcases List.mem_append.1 hm with hm | hm
        · rw [Option.mem_toList] at hm
          cases hm
          exact ⟨(key, value), List.mem_cons_self, hown⟩
        · obtain ⟨member, hmember, he⟩ := mem_fields hl hm
          exact ⟨member, List.mem_cons_of_mem _ hmember, he⟩

/-- **What stands in an operator document** sets a permission column or comes from a field. -/
theorem mem_document {target : Target} {members : Fields Rest} {updated columns : Document}
    {token column : String} {argument : Native} (h : document target members = .ok updated)
    (ht : (token, .document columns) ∈ updated) (hc : (column, argument) ∈ columns) :
    (token = UpdateOperator.set.token ∧ ∃ permissions,
        Create.permissionColumns members = .ok permissions ∧ (column, argument) ∈ permissions) ∨
      ∃ member ∈ members, ∃ entry, field? target member.1 member.2 = .ok (some entry) ∧
        entry.operator.token = token ∧ entry.column = column ∧ entry.argument = argument := by
  obtain ⟨entries, he, rfl⟩ := Outcome.map_eq_ok.1 h
  obtain ⟨⟨token', columns'⟩, hcollected, hsame⟩ := List.mem_map.1 ht
  cases hsame
  obtain ⟨entry, hentry, rfl, rfl, rfl⟩ := mem_collect hcollected hc
  unfold contributions at he
  split at he
  · cases he
  · rename_i permissions hp
    obtain ⟨rest, hrest, rfl⟩ := Outcome.map_eq_ok.1 he
    rcases List.mem_append.1 hentry with hm | hm
    · obtain ⟨⟨name, native⟩, hpermission, rfl⟩ := List.mem_map.1 hm
      exact .inl ⟨rfl, permissions, hp, hpermission⟩
    · obtain ⟨member, hmember, hf⟩ := mem_fields hrest hm
      exact .inr ⟨member, hmember, entry, hf, rfl, rfl, rfl⟩

theorem permissionColumns_ok {target : Target} {members : Fields Rest} {update : Document}
    (h : document target members = .ok update) :
    ∃ permissions, Create.permissionColumns members = .ok permissions := by
  obtain ⟨entries, he, -⟩ := Outcome.map_eq_ok.1 h
  unfold contributions at he
  split at he
  · cases he
  · rename_i permissions hp
    exact ⟨permissions, hp⟩

/-- The operator document of a request with one field. -/
theorem document_single {target : Target} {key : String} {value : Rest} {token column : String}
    {argument : Native} (hp : Create.isPermissionKey key = false)
    (h : document target [(key, value)] = .ok [(token, .document [(column, argument)])]) :
    ∃ operator, operator.token = token ∧
      field? target key value = .ok (some ⟨operator, column, argument⟩) := by
  rcases mem_document h List.mem_cons_self List.mem_cons_self with
    ⟨_, permissions, hpermissions, hm⟩ | ⟨member, hm, ⟨operator, _, _⟩, hf, rfl, rfl, rfl⟩
  · rw [Create.permissionColumns_single value hp] at hpermissions
    cases hpermissions
    cases hm
  · cases List.mem_singleton.1 hm
    exact ⟨operator, rfl, hf⟩

end Update

end RestStore
