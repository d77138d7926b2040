import RestStore.Proofs.Column
import RestStore.Proofs.Fields
import RestStore.Proofs.Outcome

/-!
# The columns of a new object

Each of a client's own fields is written to a column that determines the field, so the columns of an
object are distinct and none of them holds permissions.

* `column?_cases` — the four kinds of fields with what is written for them.
* `storedKey_of_column?` — the column determines the field.
* `nodup_columns`, `not_mem_columns` — the columns of an object.
* `mem_permissionColumns`, `acl_of_mem` — its permission columns.
* `mem_document` — nothing stands in the document that no field and no permission wrote.
* `document_single` — the document of a single field.
-/

set_option autoImplicit false

namespace RestStore.Create

/-- The fields that hold instants, with their columns. -/
def timeColumns : Fields String :=
  [("createdAt", "_created_at"), ("updatedAt", "_updated_at"), ("lastUsed", "_last_used"),
    ("expiresAt", "expiresAt")]

/-- The kinds of a client's own fields: the id, the session token, instants, and ordinary ones. -/
theorem column?_cases (target : Target) {key : String} (value : Rest)
    (hs : hasStart "_" key = false) :
    key = objectIdKey ∧ column? target key value =
        (Native.verbatim (guard target) value).map (fun native => some (idColumn, native)) ∨
      key = "sessionToken" ∧ column? target key value =
        (Native.verbatim (guard target) value).map (fun native => some ("_session_token", native)) ∨
      (∃ column, (key, column) ∈ timeColumns ∧ column? target key value =
        (timeValue target key value).map fun native => some (column, native)) ∨
      key ∉ [objectIdKey, "sessionToken", "createdAt", "updatedAt", "lastUsed", "expiresAt"] ∧
        column? target key value =
          if (authIdProvider? key).isSome then .error (.object (.queryOnly key))
          else (plainValue? target key value).map fun native =>
            native.map fun native => (plainColumn target key value, native) := by
  rcases verbatimColumn?_cases hs with ⟨hid, hv⟩ | ⟨hs, hv⟩ | ⟨hid, htoken, hv⟩
  · refine .inl ⟨hid, ?_⟩
    unfold column?
    rw [hv]
  · refine .inr (.inl ⟨hs, ?_⟩)
    unfold column?
    rw [hv]
  · unfold column?
    rw [hv]
    cases ht : timeColumn? key with
    | some column =>
      refine .inr (.inr (.inl ⟨column, ?_, rfl⟩))
      rcases timeColumn?_cases ht hs with ⟨rfl, rfl⟩ | ⟨rfl, rfl⟩ | ⟨rfl, rfl⟩ | ⟨rfl, rfl⟩ <;>
        decide
    | none =>
      refine .inr (.inr (.inr ⟨?_, rfl⟩))
      have hne : ∀ name, timeColumn? name ≠ none → key ≠ name := by
        rintro name hname rfl
        exact hname ht
      simp only [List.mem_cons, List.not_mem_nil, or_false, not_or]
      exact ⟨hid, htoken, hne _ (by decide), hne _ (by decide), hne _ (by decide),
        hne _ (by decide)⟩

/-- The field that is stored in a column. -/
def storedKey (column : String) : String :=
  match dropStart? pointerStart column with
  | some key => key
  | none =>
    if column = idColumn then objectIdKey
    else if column = "_session_token" then "sessionToken"
    else if column = "_created_at" then "createdAt"
    else if column = "_updated_at" then "updatedAt"
    else if column = "_last_used" then "lastUsed"
    else column

theorem storedKey_pointer (key : String) : storedKey (pointerStart ++ key) = key := by
  unfold storedKey
  rw [dropStart?_eq_some_iff.2 rfl]

theorem storedKey_self {key : String} (hs : hasStart "_" key = false) : storedKey key = key := by
  have hne : ∀ name, hasStart "_" name = true → key ≠ name := fun name hname =>
    (ne_of_hasStart hname hs).symm
  unfold storedKey
  rw [dropStart?_eq_none (show hasStart "_" pointerStart = true by decide) hs]
  dsimp only
  rw [if_neg (hne _ (by decide)), if_neg (hne _ (by decide)), if_neg (hne _ (by decide)),
    if_neg (hne _ (by decide)), if_neg (hne _ (by decide))]

/-- **The column of a field determines the field.** -/
theorem storedKey_of_column? {target : Target} {key : String} {value : Rest}
    {column : String × Native} (hs : hasStart "_" key = false)
    (h : column? target key value = .ok (some column)) : storedKey column.1 = key := by
  rcases column?_cases target value hs with ⟨rfl, he⟩ | ⟨rfl, he⟩ | ⟨name, hname, he⟩ | ⟨_, he⟩
  · rw [he] at h
    obtain ⟨native, _, hc⟩ := Outcome.map_eq_ok.1 h
    cases hc
    dsimp only
    decide
  · rw [he] at h
    obtain ⟨native, _, hc⟩ := Outcome.map_eq_ok.1 h
    cases hc
    dsimp only
    decide
  · rw [he] at h
    obtain ⟨native, _, hc⟩ := Outcome.map_eq_ok.1 h
    cases hc
    simp only [timeColumns, List.mem_cons, List.not_mem_nil, or_false, Prod.mk.injEq] at hname
    rcases hname with ⟨rfl, rfl⟩ | ⟨rfl, rfl⟩ | ⟨rfl, rfl⟩ | ⟨rfl, rfl⟩ <;>
      (dsimp only; decide)
  · rw [he] at h
    split at h
    · cases h
    · obtain ⟨native, _, hc⟩ := Outcome.map_eq_ok.1 h
      obtain ⟨stored, _, rfl⟩ := Option.map_eq_some_iff.1 hc
      unfold plainColumn
      dsimp only
      split
      · exact storedKey_pointer key
      · exact storedKey_self hs

/-! ## Whole objects -/

/-- Every column comes from a field that holds no permissions. -/
theorem mem_columns : ∀ {target : Target} {members : Fields Rest} {columns : Document}
    {column : String × Native}, Create.columns target members = .ok columns → column ∈ columns →
      ∃ member ∈ members, isPermissionKey member.1 = false ∧
        column? target member.1 member.2 = .ok (some column)
  | _, [], _, _, h, hm => by
    cases h
    cases hm
  | _, (key, value) :: _, _, _, h, hm => by
    unfold Create.columns at h
    split at h
    · obtain ⟨member, hmember, hc⟩ := mem_columns h hm
      exact ⟨member, List.mem_cons_of_mem _ hmember, hc⟩
    · rename_i hkey
      rw [Bool.not_eq_true, Bool.or_eq_false_iff] at hkey
      split at h
      · cases h
      · rename_i own hown
        obtain ⟨later, hlater, rfl⟩ := Outcome.map_eq_ok.1 h
        rcases List.mem_append.1 hm with hm | hm
        · rw [Option.mem_toList] at hm
          cases hm
          exact ⟨(key, value), List.mem_cons_self, hkey.1, hown⟩
        · obtain ⟨member, hmember, hc⟩ := mem_columns hlater hm
          exact ⟨member, List.mem_cons_of_mem _ hmember, hc⟩

theorem storedKey_of_mem {target : Target} {members : Fields Rest} {columns : Document}
    {column : String} (hs : ∀ key ∈ Fields.keys members, hasStart "_" key = false)
    (h : Create.columns target members = .ok columns) (hm : column ∈ Fields.keys columns) :
    storedKey column ∈ Fields.keys members := by
  obtain ⟨own, hown, rfl⟩ := List.mem_map.1 hm
  obtain ⟨member, hmember, _, hc⟩ := mem_columns h hown
  have hkey : member.1 ∈ Fields.keys members := List.mem_map_of_mem hmember
  rw [storedKey_of_column? (hs member.1 hkey) hc]
  exact hkey

/-- **The columns of an object are distinct.** -/
theorem nodup_columns : ∀ {target : Target} {members : Fields Rest} {columns : Document},
    (Fields.keys members).Nodup → (∀ key ∈ Fields.keys members, hasStart "_" key = false) →
      Create.columns target members = .ok columns → (Fields.keys columns).Nodup
  | _, [], _, _, _, h => by
    cases h
    exact List.nodup_nil
  | target, (key, value) :: rest, columns, hn, hs, h => by
    have hrest : ∀ key ∈ Fields.keys rest, hasStart "_" key = false := fun key hk =>
      hs key (List.mem_cons_of_mem _ hk)
    rw [Fields.keys_cons, List.nodup_cons] at hn
    unfold Create.columns at h
    split at h
    · exact nodup_columns hn.2 hrest h
    · split at h
      · cases h
      · rename_i own hown
        obtain ⟨later, hlater, rfl⟩ := Outcome.map_eq_ok.1 h
        have hnodup := nodup_columns hn.2 hrest hlater
        cases own with
        | none => exact hnodup
        | some own =>
          refine List.nodup_cons.2 ⟨fun hm => hn.1 ?_, hnodup⟩
          rw [← storedKey_of_column? (hs key List.mem_cons_self) hown]
          exact storedKey_of_mem hrest hlater hm

/-- A column that stands for no field of a client is not among them. -/
theorem not_mem_columns {target : Target} {members : Fields Rest} {columns : Document}
    {column : String} (hs : ∀ key ∈ Fields.keys members, hasStart "_" key = false)
    (h : Create.columns target members = .ok columns)
    (hc : hasStart "_" (storedKey column) = true) : column ∉ Fields.keys columns := by
  intro hm
  rw [hs _ (storedKey_of_mem hs h hm)] at hc
  cases hc

/-! ## Permissions -/

/-- The only permission key that is not internal. -/
theorem eq_aclKey {key : String} (hs : hasStart "_" key = false)
    (h : isPermissionKey key = true) : key = aclKey := by
  simp only [isPermissionKey, Bool.or_eq_true, beq_iff_eq] at h
  rcases h with (rfl | rfl) | rfl
  · rfl
  · cases hs
  · cases hs

/-- The permission columns have names of their own. -/
theorem nodup_setColumns (set : PermissionSet) : (Fields.keys set.columns).Nodup := by
  unfold PermissionSet.columns
  cases set.readIds <;> cases set.writeIds <;>
    simp [Fields.keys, readersColumn, writersColumn, legacyAclColumn]

theorem nodup_permissionColumns {members : Fields Rest} {columns : Document}
    (h : Create.permissionColumns members = .ok columns) : (Fields.keys columns).Nodup := by
  obtain ⟨permissions, _, rfl⟩ := Outcome.map_eq_ok.1 h
  cases permissions with
  | none => exact List.nodup_nil
  | some set => exact nodup_setColumns set

theorem mem_setColumns {set : PermissionSet} {column : String × Native}
    (hm : column ∈ set.columns) :
    column.1 = legacyAclColumn ∨ (column.1 = readersColumn ∨ column.1 = writersColumn) ∧
      ∃ ids : List String, column.2 = .array (ids.map .string) := by
  unfold PermissionSet.columns at hm
  simp only [List.mem_append, List.mem_singleton, or_assoc] at hm
  rcases hm with hm | hm | rfl
  · cases hr : set.readIds with
    | none => simp [hr] at hm
    | some ids =>
      simp only [hr, List.mem_singleton] at hm
      subst hm
      exact .inr ⟨.inl rfl, ids, rfl⟩
  · cases hw : set.writeIds with
    | none => simp [hw] at hm
    | some ids =>
      simp only [hw, List.mem_singleton] at hm
      subst hm
      exact .inr ⟨.inr rfl, ids, rfl⟩
  · exact .inl rfl

/-- A permission column holds a list of ids, or is the older map. -/
theorem mem_permissionColumns {members : Fields Rest} {columns : Document}
    {column : String × Native} (h : permissionColumns members = .ok columns)
    (hm : column ∈ columns) :
    column.1 = legacyAclColumn ∨ (column.1 = readersColumn ∨ column.1 = writersColumn) ∧
      ∃ ids : List String, column.2 = .array (ids.map .string) := by
  obtain ⟨permissions, _, rfl⟩ := Outcome.map_eq_ok.1 h
  cases permissions with
  | none => cases hm
  | some set => exact mem_setColumns hm

/-- The permission columns of an object with permissions are those of its set. -/
theorem permissionColumns_of_members {members : Fields Rest} {set : PermissionSet}
    (h : PermissionSet.ofMembers? members = .ok (some set)) :
    permissionColumns members = .ok set.columns := by
  rw [permissionColumns, h]
  rfl

theorem permissionColumns_ok {target : Target} {members : Fields Rest} {stored : Document}
    (h : Create.document target members = .ok stored) :
    ∃ permissions, Create.permissionColumns members = .ok permissions := by
  unfold Create.document at h
  split at h
  · cases h
  · rename_i permissions hp
    exact ⟨permissions, hp⟩

/-- **Every column of a new object** holds permissions or comes from a field. -/
theorem mem_document {target : Target} {members : Fields Rest} {created : Document}
    {column : String × Native} (h : Create.document target members = .ok created)
    (hm : column ∈ created) :
    (∃ permissions, permissionColumns members = .ok permissions ∧ column ∈ permissions) ∨
      ∃ member ∈ members, column? target member.1 member.2 = .ok (some column) := by
  unfold Create.document at h
  split at h
  · cases h
  · rename_i permissions hp
    obtain ⟨columns, hc, rfl⟩ := Outcome.map_eq_ok.1 h
    rcases Fields.mem_insertAll hm with hm | hm
    · exact .inl ⟨permissions, hp, hm⟩
    · obtain ⟨member, hmember, _, hcolumn⟩ := mem_columns hc hm
      exact .inr ⟨member, hmember, hcolumn⟩

/-- A field that holds no permissions gives no permission columns. -/
theorem permissionColumns_single {key : String} (value : Rest) (hp : isPermissionKey key = false) :
    permissionColumns [(key, value)] = .ok [] := by
  simp only [isPermissionKey, Bool.or_eq_false_iff, beq_eq_false_iff_ne] at hp
  obtain ⟨⟨hacl, hread⟩, hwrite⟩ := hp
  simp [permissionColumns, PermissionSet.ofMembers?, PermissionSet.idList, Fields.get?, hacl, hread,
    hwrite, Except.map]

/-- The document of an object with one field. -/
theorem document_single {target : Target} {key : String} {value : Rest}
    (hp : isPermissionKey key = false) : Create.document target [(key, value)] =
      if target.isRelation key value then .ok []
      else (column? target key value).map Option.toList := by
  unfold Create.document
  rw [permissionColumns_single value hp]
  simp only [columns, hp, Bool.false_or]
  split
  · rfl
  · cases column? target key value with
    | error failure => rfl
    | ok column => cases column <;> rfl

/-- Without internal fields, the permissions come from the `ACL` map. -/
theorem acl_of_mem {members : Fields Rest} {columns : Document} {column : String × Native}
    (hs : ∀ key ∈ Fields.keys members, hasStart "_" key = false)
    (h : permissionColumns members = .ok columns) (hm : column ∈ columns) :
    ∃ acl, (aclKey, acl) ∈ members := by
  obtain ⟨permissions, hp, rfl⟩ := Outcome.map_eq_ok.1 h
  cases hacl : Fields.get? members aclKey with
  | some acl => exact ⟨acl, Fields.mem_of_get? hacl⟩
  | none =>
    have hnone : ∀ key, hasStart "_" key = true → Fields.get? members key = none := fun _ =>
      Fields.get?_eq_none_of_forall hs
    unfold PermissionSet.ofMembers? PermissionSet.idList at hp
    rw [hacl, hnone readersColumn (by decide), hnone writersColumn (by decide)] at hp
    cases hp
    cases hm

end RestStore.Create
