import RestStore.Proofs.Permission.Runs
import RestStore.Proofs.Rest.Shape

/-!
# New objects field by field

A new object is stored as if its fields were stored one at a time: the permission columns of its
`ACL`, and then what each other field is stored as when it is the only one, in the order of the
request. Where the object is refused, the `ACL` alone is refused or one of the fields alone, and the
failure is the first of these.

* `IsDeletion` — a value that leaves its field out; `column?_eq_none_iff` says of which fields.
* `StoredAlone` — what a field is stored as when it is the only one.
* `columns_cons` — one more field; `columns_parts` and `columns_refused` follow for all of them.
* `document_fieldwise` — the whole object.
-/

set_option autoImplicit false

namespace RestStore

/-- A value that leaves its field out: an object that asks for a deletion, and is no envelope and no
regular expression. -/
def IsDeletion (value : Rest) : Prop :=
  ∃ members, value = .object members ∧ value.shape = .ok (.object members) ∧
    Fields.get? members operationKey = some (.string "Delete")

namespace Operation

theorem get?_of_delete {members : Fields Rest} (h : ofMembers members = .ok delete) :
    Fields.get? members operationKey = some (.string "Delete") := by
  unfold ofMembers at h
  dsimp only at h
  split at h
  · rename_i hname
    obtain ⟨value, hvalue, htext⟩ := Option.bind_eq_some_iff.1 hname
    cases value with
    | string text =>
      cases htext
      exact hvalue
    | null | bool _ | number _ | array _ | object _ => cases htext
  -- no other operation is a deletion
  repeat' split at h
  all_goals first | cases h | (obtain ⟨_, _, he⟩ := Outcome.map_eq_ok.1 h; cases he)

theorem ofMembers_delete {members : Fields Rest}
    (h : Fields.get? members operationKey = some (.string "Delete")) :
    ofMembers members = .ok delete := by
  unfold ofMembers
  rw [h]
  rfl

/-- Only a deletion leaves nothing behind. -/
theorem eq_delete_of_flatten {guard : Nesting} {operation : Operation}
    (h : operation.flatten guard = .ok none) : operation = delete := by
  cases operation with
  | delete => rfl
  | increment amount => cases h
  | setOnInsert _ | add _ | addUnique _ | remove _ =>
    obtain ⟨_, _, he⟩ := Outcome.map_eq_ok.1 h
    cases he

end Operation

namespace Create

/-! ## Single fields -/

section

variable {target : Target} {key : String} {value : Rest}

/-- An object without a stored atom of either kind is a plain one, unless it is a relation. -/
theorem shape_of_no_atom {field : Option FieldSchema} {members : Fields Rest}
    (hc : Native.columnAtom? field (.object members) = .ok none)
    (hn : Native.nestedAtom? (.object members) = .ok none)
    (hr : (Rest.object members).hasTag Relation.kind = false) :
    (Rest.object members).shape = .ok (.object members) := by
  unfold Native.columnAtom? at hc
  unfold Native.nestedAtom? at hn
  split at hc
  · cases hc
  · rename_i shape hshape
    rw [hshape] at hn
    rcases shape_object_cases hshape with ⟨tag, _, hs⟩ | ⟨_, rfl⟩ | rfl
    · rcases Shape.ofEnvelope_cases hs with ⟨_, _, rfl⟩ | ⟨_, _, rfl⟩ | ⟨_, _, rfl⟩ | ⟨_, _, rfl⟩ |
        ⟨_, _, rfl⟩ | ⟨_, _, rfl⟩ | ⟨_, _, rfl⟩
      · cases hc
      · rw [hasTag_of_relation hshape] at hr
        cases hr
      · cases hc
      · obtain ⟨_, _, he⟩ := Outcome.map_eq_ok.1 hc
        cases he
      · cases hc
      · obtain ⟨_, _, he⟩ := Outcome.map_eq_ok.1 hc
        cases he
      · cases hc
    · cases hn
    · exact hshape

/-- An ordinary value that is no relation is left out only where it is a deletion. -/
theorem isDeletion_of_plainValue? (h : plainValue? target key value = .ok none)
    (hr : value.hasTag Relation.kind = false) : IsDeletion value := by
  unfold plainValue? at h
  split at h
  · cases h
  · cases h
  · rename_i hatom
    cases value with
    | null | bool _ | number _ | string _ => cases hatom
    | array items =>
      obtain ⟨_, _, _, he⟩ := Native.nested_array h
      cases he
    | object members =>
      rcases Native.nested_object h with ⟨_, _, he⟩ | ⟨_, operation, hnone, _, ho, hf⟩ |
        ⟨_, _, _, _, he⟩
      · cases he
      · obtain rfl := Operation.eq_delete_of_flatten hf
        exact ⟨members, rfl, shape_of_no_atom hatom hnone hr, Operation.get?_of_delete ho⟩
      · cases he

/-- A deletion is no stored atom. -/
theorem columnAtom?_deletion (field : Option FieldSchema) (hd : IsDeletion value) :
    Native.columnAtom? field value = .ok none := by
  obtain ⟨members, _, hshape, _⟩ := hd
  rw [Native.columnAtom?, hshape]
  rfl

/-- A deletion is left out of every ordinary field. -/
theorem plainValue?_deletion {result : Option Native} (hd : IsDeletion value)
    (h : plainValue? target key value = .ok result) : result = none := by
  unfold plainValue? at h
  rw [columnAtom?_deletion _ hd] at h
  obtain ⟨members, rfl, hshape, hdelete⟩ := hd
  rcases Native.nested_object h with ⟨_, ha, _⟩ | ⟨_, operation, _, _, ho, hf⟩ | ⟨_, _, hw, _⟩
  · rw [Native.nestedAtom?, hshape] at ha
    cases ha
  · rw [Operation.ofMembers_delete hdelete] at ho
    cases ho
    cases hf
    rfl
  · have hcontains := hw.no_operation
    rw [Fields.contains, hdelete] at hcontains
    cases hcontains

/-- A field that holds an instant has no deletion. -/
theorem timeValue_deletion {native : Native} (hd : IsDeletion value) :
    timeValue target key value ≠ .ok native := by
  intro h
  have hatom := columnAtom?_deletion (target.schema.field? key) hd
  obtain ⟨members, rfl, _⟩ := hd
  unfold timeValue at h
  dsimp only at h
  rw [hatom] at h
  cases h

/-- **A field that is no relation is left out just where it is a deletion**, except that the object
id and the session token are stored as given. -/
theorem column?_eq_none_iff {column : Option (String × Native)} (hs : hasStart "_" key = false)
    (hr : value.hasTag Relation.kind = false) (h : column? target key value = .ok column) :
    column = none ↔ IsDeletion value ∧ key ≠ objectIdKey ∧ key ≠ "sessionToken" := by
  rcases column?_cases target value hs with ⟨hkey, he⟩ | ⟨hkey, he⟩ | ⟨_, _, he⟩ | ⟨hkey, he⟩
  · obtain ⟨_, _, rfl⟩ := Outcome.map_eq_ok.1 (he ▸ h)
    simp [hkey]
  · obtain ⟨_, _, rfl⟩ := Outcome.map_eq_ok.1 (he ▸ h)
    simp [hkey]
  · obtain ⟨_, htime, rfl⟩ := Outcome.map_eq_ok.1 (he ▸ h)
    exact iff_of_false (by simp) fun hd => timeValue_deletion hd.1 htime
  · rw [he] at h
    split at h
    · cases h
    · obtain ⟨native, hnative, rfl⟩ := Outcome.map_eq_ok.1 h
      simp only [List.mem_cons, not_or] at hkey
      rw [Option.map_eq_none_iff]
      constructor
      · rintro rfl
        exact ⟨isDeletion_of_plainValue? hnative hr, hkey.1, hkey.2.1⟩
      · exact fun hd => plainValue?_deletion hd.1 hnative

end

/-- What a field is stored as when it is the only one: one column, or none for a relation or a
deletion. The object id and the session token are stored as given. -/
structure StoredAlone (target : Target) (member : String × Rest) (part : Document) : Prop where
  stored : document target [member] = .ok part
  length : part.length ≤ 1
  left_out : part = [] ↔ target.isRelation member.1 member.2 = true ∨
    IsDeletion member.2 ∧ member.1 ≠ objectIdKey ∧ member.1 ≠ "sessionToken"

theorem storedAlone {target : Target} {key : String} {value : Rest} {part : Document}
    (hs : hasStart "_" key = false) (hp : isPermissionKey key = false)
    (h : document target [(key, value)] = .ok part) : StoredAlone target (key, value) part := by
  have hpart := h
  rw [document_single hp] at hpart
  split at hpart
  · rename_i hrelation
    cases hpart
    exact ⟨h, Nat.zero_le 1, iff_of_true rfl (.inl hrelation)⟩
  · rename_i hrelation
    obtain ⟨column, hcolumn, rfl⟩ := Outcome.map_eq_ok.1 hpart
    have htag : value.hasTag Relation.kind = false := by
      rw [Bool.not_eq_true, Target.isRelation, Bool.or_eq_false_iff] at hrelation
      exact hrelation.1
    refine ⟨h, Option.length_toList_le, ?_⟩
    rw [Option.toList_eq_nil_iff, column?_eq_none_iff hs htag hcolumn, or_iff_right hrelation]

/-! ## Whole objects -/

/-- The `ACL` of an object. -/
def aclOf (members : Fields Rest) : Fields Rest := members.filter fun member => member.1 == aclKey

/-- The fields of an object, without its `ACL`. -/
def fieldsOf (members : Fields Rest) : Fields Rest :=
  members.filter fun member => member.1 != aclKey

section

variable {target : Target} {members : Fields Rest}

/-- **One more field** is stored as it is alone, before the later ones. -/
theorem columns_cons {key : String} {value : Rest} (hp : isPermissionKey key = false) :
    columns target ((key, value) :: members) =
      match document target [(key, value)] with
      | .error failure => .error failure
      | .ok part => (columns target members).map (part ++ ·) := by
  rw [columns, hp, Bool.false_or, document_single hp]
  split
  · cases columns target members <;> rfl
  · cases column? target key value <;> rfl

/-- The columns of an object do not depend on its `ACL`. -/
theorem columns_fieldsOf : ∀ {members : Fields Rest},
    (∀ key ∈ Fields.keys members, hasStart "_" key = false) →
      columns target members = columns target (fieldsOf members)
  | [], _ => rfl
  | (key, value) :: rest, hs => by
    have ih := columns_fieldsOf fun key hk => hs key (List.mem_cons_of_mem _ hk)
    cases hp : isPermissionKey key with
    | true =>
      obtain rfl := eq_aclKey (hs key List.mem_cons_self) hp
      exact ih
    | false =>
      have hacl : (key != aclKey) = true := by
        simp only [isPermissionKey, Bool.or_eq_false_iff] at hp
        simp [bne, hp.1.1]
      rw [fieldsOf, List.filter_cons_of_pos (by exact hacl), columns_cons hp, columns_cons hp, ih]
      rfl

/-- The other fields hold no permissions. -/
theorem keys_fieldsOf (hs : ∀ key ∈ Fields.keys members, hasStart "_" key = false) :
    ∀ key ∈ Fields.keys (fieldsOf members),
      hasStart "_" key = false ∧ isPermissionKey key = false := by
  intro key hk
  obtain ⟨member, hmember, rfl⟩ := List.mem_map.1 hk
  obtain ⟨hm, hne⟩ := List.mem_filter.1 hmember
  have hstart := hs member.1 (List.mem_map_of_mem hm)
  refine ⟨hstart, ?_⟩
  rw [← Bool.not_eq_true]
  intro hp
  rw [eq_aclKey hstart hp] at hne
  simp at hne

/-- No column of a field is a permission column. -/
theorem disjoint_permissionColumns {permissions stored : Document}
    (hs : ∀ key ∈ Fields.keys members, hasStart "_" key = false)
    (hp : permissionColumns members = .ok permissions)
    (hc : columns target members = .ok stored) :
    ∀ column ∈ Fields.keys permissions, column ∉ Fields.keys stored := by
  intro column hcolumn
  obtain ⟨own, hown, rfl⟩ := List.mem_map.1 hcolumn
  rcases mem_permissionColumns hp hown with hname | ⟨hname | hname, _⟩ <;> rw [hname] <;>
    exact not_mem_columns hs hc (by decide)

/-- The permission columns of an object are those of its `ACL`. -/
theorem permissionColumns_aclOf (hs : ∀ key ∈ Fields.keys members, hasStart "_" key = false) :
    permissionColumns (aclOf members) = permissionColumns members := by
  have hget : ∀ key, Fields.get? (aclOf members) key =
      if key == aclKey then Fields.get? members key else none :=
    Fields.get?_filter_key (· == aclKey) members
  have hnone : ∀ key, hasStart "_" key = true → Fields.get? members key = none := fun _ =>
    Fields.get?_eq_none_of_forall hs
  have hread := hnone readersColumn (by decide)
  have hwrite := hnone writersColumn (by decide)
  unfold permissionColumns PermissionSet.ofMembers? PermissionSet.idList
  rw [hget, hget, hget, hread, hwrite]
  rfl

/-- The columns of fields are what each field is stored as alone, one after the other. -/
theorem columns_parts : ∀ {members : Fields Rest} {stored : Document},
    (∀ key ∈ Fields.keys members, hasStart "_" key = false ∧ isPermissionKey key = false) →
      columns target members = .ok stored →
        ∃ parts, List.Forall₂ (StoredAlone target) members parts ∧ stored = parts.flatten
  | [], _, _, h => by
    cases h
    exact ⟨[], .nil, rfl⟩
  | (key, value) :: rest, stored, hk, h => by
    obtain ⟨hs, hp⟩ := hk key List.mem_cons_self
    rw [columns_cons hp] at h
    split at h
    · cases h
    · rename_i part hpart
      obtain ⟨later, hlater, rfl⟩ := Outcome.map_eq_ok.1 h
      obtain ⟨parts, hparts, rfl⟩ :=
        columns_parts (fun key hm => hk key (List.mem_cons_of_mem _ hm)) hlater
      exact ⟨part :: parts, .cons (storedAlone hs hp hpart) hparts, rfl⟩

/-- Fields are refused as the first of them that is refused alone. -/
theorem columns_refused : ∀ {members : Fields Rest} {failure : Failure},
    (∀ key ∈ Fields.keys members, isPermissionKey key = false) →
      columns target members = .error failure →
        ∃ before member after, members = before ++ member :: after ∧
          (∀ earlier ∈ before, ∃ part, document target [earlier] = .ok part) ∧
          document target [member] = .error failure
  | [], _, _, h => by cases h
  | (key, value) :: rest, failure, hp, h => by
    rw [columns_cons (hp key List.mem_cons_self)] at h
    split at h
    · rename_i first hfirst
      cases h
      exact ⟨[], (key, value), rest, rfl, List.forall_mem_nil _, hfirst⟩
    · rename_i part hpart
      obtain ⟨before, member, after, rfl, hbefore, hmember⟩ :=
        columns_refused (fun key hk => hp key (List.mem_cons_of_mem _ hk)) (Outcome.map_eq_error.1 h)
      exact ⟨_ :: before, member, after, rfl,
        List.forall_mem_cons.2 ⟨⟨part, hpart⟩, hbefore⟩, hmember⟩

/-- **A new object is stored field by field.** Its document holds the permission columns of its
`ACL`, and then what each other field is stored as alone, all under distinct names. An object that
is refused is refused as its `ACL` alone, or as the first of its other fields that is refused
alone. -/
theorem document_fieldwise (hn : (Fields.keys members).Nodup)
    (hs : ∀ key ∈ Fields.keys members, hasStart "_" key = false) :
    (∀ created, document target members = .ok created →
      ∃ permissions parts, permissionColumns (aclOf members) = .ok permissions ∧
        List.Forall₂ (StoredAlone target) (fieldsOf members) parts ∧
        created = permissions ++ parts.flatten ∧ (Fields.keys created).Nodup) ∧
    ∀ failure, document target members = .error failure →
      permissionColumns (aclOf members) = .error failure ∨
        (∃ permissions, permissionColumns (aclOf members) = .ok permissions) ∧
          ∃ before member after, fieldsOf members = before ++ member :: after ∧
            (∀ earlier ∈ before, ∃ part, document target [earlier] = .ok part) ∧
            document target [member] = .error failure := by
  have hkeys := keys_fieldsOf hs
  rw [permissionColumns_aclOf hs]
  unfold document
  constructor
  · intro created h
    split at h
    · cases h
    · rename_i permissions hp
      obtain ⟨stored, hstored, rfl⟩ := Outcome.map_eq_ok.1 h
      have hnodup : (Fields.keys permissions ++ Fields.keys stored).Nodup :=
        List.nodup_append.2 ⟨nodup_permissionColumns hp, nodup_columns hn hs hstored,
          fun _ hc _ ho he => disjoint_permissionColumns hs hp hstored _ hc (he ▸ ho)⟩
      -- no name stands twice, so the columns are appended to the permission columns
      rw [Fields.insertAll_of_nodup hnodup, Fields.keys_append]
      rw [columns_fieldsOf hs] at hstored
      obtain ⟨parts, hparts, rfl⟩ := columns_parts hkeys hstored
      exact ⟨permissions, parts, hp, hparts, rfl, hnodup⟩
  · intro failure h
    split at h
    · rename_i hacl
      cases h
      exact .inl hacl
    · rename_i permissions hp
      have hrefused := Outcome.map_eq_error.1 h
      rw [columns_fieldsOf hs] at hrefused
      exact .inr ⟨⟨permissions, hp⟩, columns_refused (fun key hk => (hkeys key hk).2) hrefused⟩

end

/-- A class of gardens, with the plants that grow there. -/
def gardenTarget : Target :=
  ⟨"Garden", .ofFields [("plants", ⟨.relation, some "Plant"⟩)], .standard⟩

/-- A garden with an id, a name, an owner and plants, and without a shed. -/
def laidGarden : Fields Rest :=
  [(objectIdKey, .string "g1"), ("plants", .null),
    (aclKey, .object [("ann", .object [("read", .bool true), ("write", .bool true)])]),
    ("shed", .object [(operationKey, .string "Delete")]),
    ("owner", Pointer.toEnvelope ⟨"_User", "ann"⟩), ("name", .string "Kew")]

/-- A garden whose second and third field are both refused. -/
def refusedGarden : Fields Rest :=
  [("name", .string "Kew"), ("createdAt", .array []), ("updatedAt", .array [])]

theorem document_fieldwise_garden :
    (document gardenTarget laidGarden = .ok (ownedBy "ann" ++ [("_id", .string "g1"),
        ("_p_owner", .string "_User$ann"), ("name", .string "Kew")]) ∧
      ∃ permissions parts, permissionColumns (aclOf laidGarden) = .ok permissions ∧
        List.Forall₂ (StoredAlone gardenTarget) (fieldsOf laidGarden) parts) ∧
    document gardenTarget refusedGarden = .error (.object (.badDate "createdAt" (.array []))) ∧
      ∃ before member after, fieldsOf refusedGarden = before ++ member :: after ∧
        (∀ earlier ∈ before, ∃ part, document gardenTarget [earlier] = .ok part) ∧
        document gardenTarget [member] = .error (.object (.badDate "createdAt" (.array []))) := by
  have hlaid : document gardenTarget laidGarden = .ok (ownedBy "ann" ++ [("_id", .string "g1"),
      ("_p_owner", .string "_User$ann"), ("name", .string "Kew")]) := by
    rw [document, permissionColumns_owned rfl]
    rfl
  have hrefused : document gardenTarget refusedGarden =
      .error (.object (.badDate "createdAt" (.array []))) := rfl
  obtain ⟨permissions, parts, hp, hparts, _⟩ :=
    (document_fieldwise (by decide) (by decide)).1 _ hlaid
  refine ⟨⟨hlaid, permissions, parts, hp, hparts⟩, hrefused, ?_⟩
  rcases (document_fieldwise (by decide) (by decide)).2 _ hrefused with hacl | ⟨_, hfirst⟩
  · cases hacl
  · exact hfirst

/-- The deletion of an object id is no deletion: it is stored as given. -/
theorem deleted_id_is_stored :
    IsDeletion (.object [(operationKey, .string "Delete")]) ∧
      document gardenTarget [(objectIdKey, .object [(operationKey, .string "Delete")])] =
        .ok [("_id", .document [("__op", .string "Delete")])] :=
  ⟨⟨_, rfl, rfl, rfl⟩, rfl⟩

end Create

end RestStore
