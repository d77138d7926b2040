import RestStore.Proofs.Write.Contributions

/-!
# Permission columns

The permission columns of an object are written from its permissions alone: no field is stored under
their names, and an update names them only to set them.

* `LeavesPermissions` — the requests that name permission columns only by their lists.
* `not_inColumn` — a field is stored apart from the permissions.
* `Update.eq_of_mentions`, `Update.mentions_permission` — what an update says of a permission
  column.
-/

set_option autoImplicit false

namespace RestStore

/-- The columns that hold permissions. -/
def permissionNames : List String := [readersColumn, writersColumn, legacyAclColumn]

/-- Whether a path is a column or leads into it. -/
def InColumn (path column : String) : Prop := path = column ∨ hasStart (column ++ ".") path = true

/-- A request names permission columns only by its lists. -/
def LeavesPermissions (members : Fields Rest) : Prop :=
  ∀ key ∈ Fields.keys members, ∀ column ∈ permissionNames, InColumn key column →
    key = readersColumn ∨ key = writersColumn

/-! ## Columns apart from permissions -/

/-- The columns of reserved fields. -/
def reservedNames : List String :=
  [idColumn, "_created_at", "_updated_at", "_session_token", "_last_used", "times_used"]

/-- A name that a field of a key may be stored under. -/
def StoresUnder (key name : String) : Prop :=
  name ∈ reservedNames ∨ name = key ∨ name = pointerStart ++ key

theorem not_inColumn_reserved : ∀ name ∈ reservedNames, ∀ column ∈ permissionNames,
    ¬InColumn name column := by
  unfold InColumn
  decide

theorem not_inColumn_pointer (key : String) {column : String} (hc : column ∈ permissionNames) :
    ¬InColumn (pointerStart ++ key) column := by
  have hp := hasStart_append pointerStart key
  rintro (h | h)
  · have hno : ∀ column ∈ permissionNames, hasStart pointerStart column = false := by decide
    rw [h, hno column hc] at hp
    cases hp
  · obtain ⟨rest, hrest⟩ := hasStart_iff.1 h
    have heads := congrArg String.toList hrest
    simp only [permissionNames, List.mem_cons, List.not_mem_nil, or_false] at hc
    rcases hc with rfl | rfl | rfl <;>
      simp [pointerStart, readersColumn, writersColumn, legacyAclColumn] at heads

/-- A field that holds no permissions is stored apart from them. -/
theorem not_inColumn {members : Fields Rest} (h : LeavesPermissions members) {key name : String}
    (hk : key ∈ Fields.keys members) (hlist : key ≠ readersColumn ∧ key ≠ writersColumn)
    (hs : StoresUnder key name) {column : String} (hc : column ∈ permissionNames) :
    ¬InColumn name column := by
  rcases hs with hs | rfl | rfl
  · exact not_inColumn_reserved name hs column hc
  · intro hin
    rcases h name hk column hc hin with he | he
    · exact hlist.1 he
    · exact hlist.2 he
  · exact not_inColumn_pointer key hc

theorem mem_reservedNames {key : String} {column : Column}
    (h : Column.reserved? key = some column) : column.name ∈ reservedNames := by
  rcases reserved?_cases h with
    ⟨_, rfl⟩ | ⟨_, rfl⟩ | ⟨_, rfl⟩ | ⟨_, rfl⟩ | ⟨_, rfl⟩ | ⟨_, rfl⟩ <;> decide

theorem Create.storesUnder {target : Target} {key : String} {value : Rest}
    {column : String × Native} (h : Create.column? target key value = .ok (some column)) :
    StoresUnder key column.1 := by
  unfold Create.column? at h
  split at h
  · rename_i name hv
    obtain ⟨native, _, he⟩ := Outcome.map_eq_ok.1 h
    cases he
    unfold Create.verbatimColumn? at hv
    split at hv
    · cases hv
      exact .inl (show idColumn ∈ reservedNames by decide)
    · split at hv
      · cases hv
        exact .inr (.inl rfl)
      · split at hv
        · cases hv
          exact .inl (show "_session_token" ∈ reservedNames by decide)
        · cases hv
  · split at h
    · rename_i name ht
      obtain ⟨native, _, he⟩ := Outcome.map_eq_ok.1 h
      cases he
      unfold Create.timeColumn? at ht
      split at ht
      · rename_i reserved hr
        split at ht
        · cases ht
          exact .inl (mem_reservedNames hr)
        · cases ht
      · split at ht
        · cases ht
          exact .inr (.inl rfl)
        · cases ht
    · split at h
      · cases h
      · obtain ⟨native, _, he⟩ := Outcome.map_eq_ok.1 h
        obtain ⟨stored, _, rfl⟩ := Option.map_eq_some_iff.1 he
        unfold Create.plainColumn
        dsimp only
        split
        · exact .inr (.inr rfl)
        · exact .inr (.inl rfl)

namespace Update

theorem storesUnder (schema : Schema) (key : String) (value : Rest) :
    StoresUnder key (Column.forUpdate schema key value).name := by
  unfold Column.forUpdate
  split
  · rename_i column hr
    exact .inl (mem_reservedNames hr)
  · split
    · exact .inr (.inl rfl)
    · split
      · exact .inr (.inl rfl)
      · split
        · exact .inr (.inr rfl)
        · exact .inr (.inl rfl)

/-- An operator document names a path, with an argument. -/
def Mentions (update : Document) (operator path : String) (argument : Native) : Prop :=
  ∃ columns, (operator, .document columns) ∈ update ∧ (path, argument) ∈ columns

section

variable {target : Target} {members : Fields Rest} {update permissions : Document}
  {column : String}

/-- **An update names permission columns only to set them.** -/
theorem eq_of_mentions (h : document target members = .ok update)
    (hl : LeavesPermissions members) (hp : Create.permissionColumns members = .ok permissions)
    (hc : column ∈ permissionNames) {operator path : String} {argument : Native}
    (hm : Mentions update operator path argument) (hin : InColumn path column) :
    operator = UpdateOperator.set.token ∧ path = column ∧ (column, argument) ∈ permissions := by
  obtain ⟨columns, ht, hcolumn⟩ := hm
  rcases mem_document h ht hcolumn with
    ⟨rfl, own, hown, hpermission⟩ | ⟨member, hmember, entry, hf, _, rfl, _⟩
  · cases hp.symm.trans hown
    have hname : path ∈ permissionNames := by
      rcases Create.mem_permissionColumns hp hpermission with hn | ⟨hn | hn, _⟩ <;>
        (dsimp only at hn; rw [hn]; decide)
    have hapart : ∀ path ∈ permissionNames, ∀ column ∈ permissionNames,
        InColumn path column → path = column := by
      unfold InColumn
      decide
    obtain rfl := hapart path hname column hc hin
    exact ⟨rfl, rfl, hpermission⟩
  · obtain ⟨hentry, hrole⟩ := column_of_field? hf
    rw [hentry] at hin
    refine absurd hin (not_inColumn hl (List.mem_map_of_mem hmember) ⟨?_, ?_⟩
      (storesUnder _ _ _) hc)
    · intro hk
      rw [hk] at hrole
      exact hrole rfl
    · intro hk
      rw [hk] at hrole
      exact hrole rfl

/-- **An update sets the permission columns** of its request. -/
theorem mentions_permission (h : document target members = .ok update)
    (hl : LeavesPermissions members) (hp : Create.permissionColumns members = .ok permissions)
    (hc : column ∈ permissionNames) {native : Native} (hm : (column, native) ∈ permissions) :
    Mentions update UpdateOperator.set.token column native := by
  obtain ⟨entries, he, hupdate⟩ := Outcome.map_eq_ok.1 h
  unfold contributions at he
  rw [hp] at he
  obtain ⟨rest, hrest, rfl⟩ := Outcome.map_eq_ok.1 he
  have hset : setColumn column native ∈ permissions.map fun entry => setColumn entry.1 entry.2 :=
    List.mem_map_of_mem hm
  obtain ⟨columns, hcolumns, hkey⟩ := collect_column (List.mem_append_left rest hset)
  obtain ⟨⟨name, argument⟩, hargument, hname⟩ := List.mem_map.1 hkey
  obtain rfl : column = name := hname.symm
  have hmentions : Mentions update UpdateOperator.set.token column argument :=
    ⟨columns, hupdate ▸ List.mem_map.2 ⟨_, hcolumns, rfl⟩, hargument⟩
  -- the permission columns have names of their own, so the argument is the one of the request
  obtain ⟨_, _, hown⟩ := eq_of_mentions h hl hp hc hmentions (.inl rfl)
  have hnodup := Create.nodup_permissionColumns hp
  have hsame := (Fields.get?_of_mem hnodup hown).symm.trans (Fields.get?_of_mem hnodup hm)
  cases hsame
  exact hmentions

end

end Update

end RestStore
