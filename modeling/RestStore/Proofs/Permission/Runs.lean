import RestStore.Proofs.Permission.Columns
import RestStore.Proofs.Permission.Grants

/-!
# Permissions of stored objects

An object is created and then updated any number of times. Every request that carries permissions
rewrites the older map from the lists that it declares, and leaves a list that it does not declare
as it was.

* `Applies` — what an operator document may do to a stored document.
* `Run` — a stored document with the requests that led to it, the last one first.
* `get?_created`, `get?_updated` — the permission columns after one request.
* `Run.get?_permission` — and after a run: each holds what the last request that writes it wrote.
* `permissions_agree_iff` — a list and the older map agree just when the last request with
  permissions declared the list, or the list is empty.
-/

set_option autoImplicit false

namespace RestStore

/-! ## One request -/

/-- What an operator document does to a stored document. A column that is only set holds what it is
set to, one that is only unset is gone, and one that the document does not name stays as it was.
Nothing is said of columns that other operators name, in part or as a whole. -/
structure Applies (update before after : Document) : Prop where
  set : ∀ column native, Update.Mentions update UpdateOperator.set.token column native →
    (∀ operator path argument, Update.Mentions update operator path argument →
      InColumn path column →
        operator = UpdateOperator.set.token ∧ path = column ∧ argument = native) →
      Fields.get? after column = some native
  unset : ∀ column native, Update.Mentions update UpdateOperator.unset.token column native →
    (∀ operator path argument, Update.Mentions update operator path argument →
      InColumn path column → operator = UpdateOperator.unset.token ∧ path = column) →
      Fields.get? after column = none
  kept : ∀ column, (∀ operator path argument, Update.Mentions update operator path argument →
      ¬InColumn path column) → Fields.get? after column = Fields.get? before column

/-- Setting columns, each once, is to write them. -/
theorem applies_set {columns : Document} (hn : (Fields.keys columns).Nodup) (before : Document) :
    Applies [(UpdateOperator.set.token, .document columns)] before
      (Fields.insertAll before columns) := by
  have hmentions : ∀ {operator path argument},
      Update.Mentions [(UpdateOperator.set.token, .document columns)] operator path argument ↔
        operator = UpdateOperator.set.token ∧ (path, argument) ∈ columns := by
    intro operator path argument
    unfold Update.Mentions
    simp
  refine ⟨fun column native hm _ => ?_, fun column native hm _ => ?_, fun column hno => ?_⟩
  · obtain ⟨before', after', rfl⟩ := List.append_of_mem (hmentions.1 hm).2
    exact Fields.get?_insertAll_last _ _ _ (Fields.not_mem_after hn)
  · exact absurd (hmentions.1 hm).1 (by decide)
  · refine Fields.get?_insertAll_of_not_mem _ _ fun hkey => ?_
    obtain ⟨⟨_, native⟩, hm, rfl⟩ := List.mem_map.1 hkey
    exact hno _ _ _ (hmentions.2 ⟨rfl, hm⟩) (.inl rfl)

section

variable {target : Target} {members : Fields Rest} {permissions : Document} {column : String}

/-- The permission columns of a new object are those of its request. -/
theorem get?_created {stored : Document} (h : Create.document target members = .ok stored)
    (hl : LeavesPermissions members) (hp : Create.permissionColumns members = .ok permissions)
    (hc : column ∈ permissionNames) :
    Fields.get? stored column = Fields.get? permissions column := by
  unfold Create.document at h
  rw [hp] at h
  obtain ⟨columns, hcolumns, rfl⟩ := Outcome.map_eq_ok.1 h
  refine Fields.get?_insertAll_of_not_mem _ _ fun hkey => ?_
  obtain ⟨own, hown, hname⟩ := List.mem_map.1 hkey
  obtain ⟨member, hmember, hkind, hcolumn⟩ := Create.mem_columns hcolumns hown
  have hlist : member.1 ≠ readersColumn ∧ member.1 ≠ writersColumn := by
    simp only [Create.isPermissionKey, Bool.or_eq_false_iff, beq_eq_false_iff_ne] at hkind
    exact ⟨hkind.1.2, hkind.2⟩
  exact not_inColumn hl (List.mem_map_of_mem hmember) hlist (Create.storesUnder hcolumn) hc
    (.inl hname)

/-- **The permission columns after an update** are those of its request, where it has any. -/
theorem get?_updated {update before after : Document}
    (h : Update.document target members = .ok update) (hl : LeavesPermissions members)
    (hp : Create.permissionColumns members = .ok permissions) (ha : Applies update before after)
    (hc : column ∈ permissionNames) :
    Fields.get? after column =
      (Fields.get? permissions column).or (Fields.get? before column) := by
  cases hget : Fields.get? permissions column with
  | some native =>
    refine ha.set column native
      (Update.mentions_permission h hl hp hc (Fields.mem_of_get? hget)) ?_
    intro operator path argument hm hin
    obtain ⟨hoperator, hpath, hown⟩ := Update.eq_of_mentions h hl hp hc hm hin
    have hheld := Fields.get?_of_mem (Create.nodup_permissionColumns hp) hown
    exact ⟨hoperator, hpath, Option.some.inj (hheld.symm.trans hget)⟩
  | none =>
    refine ha.kept column fun operator path argument hm hin => ?_
    obtain ⟨_, _, hown⟩ := Update.eq_of_mentions h hl hp hc hm hin
    rw [Fields.get?_of_mem (Create.nodup_permissionColumns hp) hown] at hget
    cases hget

end

/-! ## Many requests -/

/-- A stored document, and the requests that led to it, the last one first. -/
inductive Run : List (Fields Rest) → Document → Prop
  | created {target : Target} {members : Fields Rest} {stored : Document} :
    LeavesPermissions members → Create.document target members = .ok stored → Run [members] stored
  | updated {target : Target} {history : List (Fields Rest)} {members : Fields Rest}
    {before update after : Document} :
    Run history before → LeavesPermissions members →
      Update.document target members = .ok update → Applies update before after →
        Run (members :: history) after

/-- The permissions of a request. -/
def permissions? (members : Fields Rest) : Option PermissionSet :=
  match PermissionSet.ofMembers? members with
  | .ok permissions => permissions
  | .error _ => none

/-- The permissions of the last request that has any. -/
def lastPermissions? (history : List (Fields Rest)) : Option PermissionSet :=
  history.findSome? permissions?

/-- The last list of a kind that a request declared. -/
def lastIds? (kind : PermissionSet.Kind) (history : List (Fields Rest)) : Option (List String) :=
  history.findSome? fun members => (permissions? members).bind kind.ids

theorem get?_permissionColumns {members : Fields Rest} {permissions : Document}
    (h : Create.permissionColumns members = .ok permissions) (column : String) :
    Fields.get? permissions column =
      (permissions? members).bind fun set => Fields.get? set.columns column := by
  obtain ⟨set, hset, rfl⟩ := Outcome.map_eq_ok.1 h
  unfold permissions?
  rw [hset]
  cases set <;> rfl

section

variable {history : List (Fields Rest)} {stored : Document}

/-- **The permission columns after a run** are those of the last request that writes them. -/
theorem Run.get?_permission (h : Run history stored) {column : String}
    (hc : column ∈ permissionNames) :
    Fields.get? stored column = history.findSome? fun members =>
      (permissions? members).bind fun set => Fields.get? set.columns column := by
  induction h with
  | created hl hd =>
    obtain ⟨permissions, hp⟩ := Create.permissionColumns_ok hd
    rw [get?_created hd hl hp hc, get?_permissionColumns hp, List.findSome?_singleton]
  | updated _ hl hd ha ih =>
    obtain ⟨permissions, hp⟩ := Update.permissionColumns_ok hd
    rw [get?_updated hd hl hp ha hc, get?_permissionColumns hp, ih, List.findSome?_cons]
    cases (permissions? _).bind _ <;> rfl

/-- A list holds the ids of the last request that declares it. -/
theorem Run.get?_list (h : Run history stored) (kind : PermissionSet.Kind) :
    Fields.get? stored kind.column =
      (lastIds? kind history).map fun ids => .array (ids.map .string) := by
  have hc : kind.column ∈ permissionNames := by cases kind <;> decide
  rw [h.get?_permission hc, lastIds?, List.map_findSome?]
  simp only [PermissionSet.get?_columns_list, Function.comp_def, Option.map_bind]

/-- The older map holds the grants of the last request with permissions. -/
theorem Run.get?_acl (h : Run history stored) : Fields.get? stored legacyAclColumn =
    (lastPermissions? history).map fun set => .document set.legacy := by
  rw [h.get?_permission (by decide), lastPermissions?, List.map_findSome?]
  simp only [PermissionSet.get?_columns_acl, Function.comp_def, Option.map_eq_bind]

theorem wellFormed_of_last {set : PermissionSet} (h : lastPermissions? history = some set) :
    set.WellFormed := by
  obtain ⟨members, _, hset⟩ := List.exists_of_findSome?_eq_some h
  unfold permissions? at hset
  split at hset
  · rename_i hm
    rw [hset] at hm
    exact PermissionSet.wellFormed_of_members hm
  · cases hset

/-- A list that the last request with permissions declares is the last one. -/
theorem lastIds?_of_declared {set : PermissionSet} {kind : PermissionSet.Kind}
    (h : lastPermissions? history = some set) (hd : kind.declared set = true) :
    lastIds? kind history = kind.ids set := by
  induction history with
  | nil => cases h
  | cons members history ih =>
    unfold lastPermissions? at h
    unfold lastIds?
    rw [List.findSome?_cons] at h ⊢
    cases hp : permissions? members with
    | none =>
      rw [hp] at h
      exact ih h
    | some own =>
      rw [hp] at h
      cases h
      rw [Option.bind_some, PermissionSet.ids_eq, if_pos hd]

/-! ## Agreement -/

/-- An id stands in a list of a stored document. -/
def Listed (kind : PermissionSet.Kind) (stored : Document) (id : String) : Prop :=
  ∃ ids, Fields.get? stored kind.column = some (.array ids) ∧ .string id ∈ ids

/-- An id has a grant in the older map of a stored document. -/
def Granted (kind : PermissionSet.Kind) (stored : Document) (id : String) : Prop :=
  ∃ acl grants, Fields.get? stored legacyAclColumn = some (.document acl) ∧
    Fields.get? acl id = some (.document grants) ∧
      Fields.get? grants kind.name = some (.bool true)

theorem Run.listed_iff (h : Run history stored) {kind : PermissionSet.Kind} {id : String} :
    Listed kind stored id ↔ ∃ ids, lastIds? kind history = some ids ∧ id ∈ ids := by
  unfold Listed
  rw [h.get?_list kind]
  constructor
  · rintro ⟨natives, hids, hm⟩
    obtain ⟨ids, hlast, he⟩ := Option.map_eq_some_iff.1 hids
    cases he
    obtain ⟨other, ho, he⟩ := List.mem_map.1 hm
    cases he
    exact ⟨ids, hlast, ho⟩
  · rintro ⟨ids, hlast, hm⟩
    exact ⟨_, by rw [hlast]; rfl, List.mem_map_of_mem hm⟩

theorem Run.granted_iff (h : Run history stored) {set : PermissionSet}
    (hset : lastPermissions? history = some set) {kind : PermissionSet.Kind} {id : String} :
    Granted kind stored id ↔ ∃ grants, Fields.get? set.legacy id = some (.document grants) ∧
      Fields.get? grants kind.name = some (.bool true) := by
  unfold Granted
  rw [h.get?_acl, hset]
  constructor
  · rintro ⟨acl, grants, he, hgrants⟩
    cases he
    exact ⟨grants, hgrants⟩
  · rintro ⟨grants, hgrants⟩
    exact ⟨_, grants, rfl, hgrants⟩

/-- **When the stored permissions agree.** The list of a kind and the older map of a stored document
grant to the same ids just when the last request with permissions declared the list, or the list
has no ids; and the list is the last one that a request declared. -/
theorem permissions_agree_iff (h : Run history stored) {acl : Native}
    (hacl : Fields.get? stored legacyAclColumn = some acl) :
    ∃ set, lastPermissions? history = some set ∧ ∀ kind : PermissionSet.Kind,
      (∀ id, Listed kind stored id ↔ ∃ ids, lastIds? kind history = some ids ∧ id ∈ ids) ∧
      ((∀ id, Granted kind stored id ↔ Listed kind stored id) ↔
        kind.declared set = true ∨ ∀ id, ¬Listed kind stored id) := by
  rw [h.get?_acl, Option.map_eq_some_iff] at hacl
  obtain ⟨set, hset, -⟩ := hacl
  have hwell := wellFormed_of_last hset
  refine ⟨set, hset, fun kind => ⟨fun id => h.listed_iff, ?_⟩⟩
  cases hd : kind.declared set with
  | true =>
    refine iff_of_true (fun id => ?_) (.inl rfl)
    have hids : lastIds? kind history = some (PermissionSet.project kind.rank set.entries) := by
      rw [lastIds?_of_declared hset hd, PermissionSet.ids_eq, if_pos hd]
    rw [h.granted_iff hset, h.listed_iff, hids,
      ← PermissionSet.mem_ids_iff hwell (lastIds?_of_declared hset hd ▸ hids)]
    simp
  | false =>
    have hnone : ∀ id, ¬Granted kind stored id := by
      intro id hg
      obtain ⟨entry, hm, _, hsome⟩ :=
        (PermissionSet.legacy_grants_iff hwell).1 ((h.granted_iff hset).1 hg)
      rw [hwell.declared kind hd entry hm] at hsome
      cases hsome
    constructor
    · exact fun hagree => .inr fun id hl => hnone id ((hagree id).2 hl)
    · rintro (hno | hempty) id
      · cases hno
      · exact iff_of_false (hnone id) (hempty id)

end

/-- Parcels that anyone may deliver to. -/
def parcelTarget : Target := ⟨"Parcel", .ofFields [], .standard⟩

/-- A parcel that its sender may read and write. -/
def sentParcel : Fields Rest :=
  [("_rperm", .array [.string "ann"]), ("_wperm", .array [.string "ann"])]

/-- The parcel is handed over. -/
def handedParcel : Fields Rest :=
  [("weight", .number (.integer 3)),
    ("ACL", .object [("bob", .object [("read", .bool true), ("write", .bool true)])])]

/-- The stored permissions of someone who may read and write. -/
def ownedBy (id : String) : Document :=
  [("_rperm", .array [.string id]), ("_wperm", .array [.string id]),
    ("_acl", .document [(id, .document [("w", .bool true), ("r", .bool true)])])]

theorem columns_owned (id : String) :
    (⟨[⟨id, some 0, some 0⟩], true, true⟩ : PermissionSet).columns = ownedBy id := by
  simp only [PermissionSet.columns, PermissionSet.readIds, PermissionSet.writeIds, if_true,
    PermissionSet.project_single]
  rfl

theorem permissionColumns_owned {members : Fields Rest} {id : String}
    (h : PermissionSet.ofMembers? members = .ok (some ⟨[⟨id, some 0, some 0⟩], true, true⟩)) :
    Create.permissionColumns members = .ok (ownedBy id) := by
  rw [Create.permissionColumns_of_members h, columns_owned]

theorem run_sent : Run [sentParcel] (ownedBy "ann") := by
  have hcreated : Create.document parcelTarget sentParcel = .ok (ownedBy "ann") := by
    have hset : PermissionSet.ofMembers? sentParcel =
        .ok (some ⟨[⟨"ann", some 0, some 0⟩], true, true⟩) := rfl
    rw [Create.document, permissionColumns_owned hset]
    rfl
  refine .created ?_ hcreated
  unfold LeavesPermissions InColumn
  decide

theorem permissions_agree_iff_parcel :
    ∃ stored, Run [handedParcel, sentParcel] stored ∧
      (∃ acl, Fields.get? stored legacyAclColumn = some acl) ∧
      ∃ set, lastPermissions? [handedParcel, sentParcel] = some set ∧
        ∀ kind : PermissionSet.Kind,
          (∀ id, Listed kind stored id ↔
            ∃ ids, lastIds? kind [handedParcel, sentParcel] = some ids ∧ id ∈ ids) ∧
          ((∀ id, Granted kind stored id ↔ Listed kind stored id) ↔
            kind.declared set = true ∨ ∀ id, ¬Listed kind stored id) := by
  have hupdated : Update.document parcelTarget handedParcel =
      .ok [("$set", .document (ownedBy "bob" ++ [("weight", .int32 3)]))] := by
    have hset : PermissionSet.ofMembers? handedParcel =
        .ok (some ⟨[⟨"bob", some 0, some 0⟩], true, true⟩) := rfl
    have hcolumns : Create.permissionColumns handedParcel = .ok (ownedBy "bob") := by
      rw [Create.permissionColumns, hset]
      exact congrArg _ (columns_owned "bob")
    rw [Update.document, Update.contributions, hcolumns]
    rfl
  have hleaves : LeavesPermissions handedParcel := by
    unfold LeavesPermissions InColumn
    decide
  have happlies := applies_set
    (show (Fields.keys (ownedBy "bob" ++ [("weight", .int32 3)])).Nodup by decide) (ownedBy "ann")
  have hrun := run_sent.updated hleaves hupdated happlies
  exact ⟨_, hrun, ⟨_, rfl⟩, permissions_agree_iff hrun rfl⟩

/-- Someone else may read the parcel. -/
def sharedParcel : Fields Rest := [("_rperm", .array [.string "bob"])]

/-- The columns that sharing the parcel writes. -/
def sharedColumns : Document :=
  [("_rperm", .array [.string "bob"]),
    ("_acl", .document [("bob", .document [("r", .bool true)])])]

theorem columns_shared :
    (⟨[⟨"bob", some 0, none⟩], true, false⟩ : PermissionSet).columns = sharedColumns := by
  simp only [PermissionSet.columns, PermissionSet.readIds, PermissionSet.writeIds, if_true,
    PermissionSet.project_single]
  rfl

/-- A request that declares one list forgets the ids of the other in the older map: the sender of
the parcel is still among the writers, but has no grant. -/
theorem shared_parcel_disagrees :
    Update.document parcelTarget sharedParcel = .ok [("$set", .document sharedColumns)] ∧
      Fields.insertAll (ownedBy "ann") sharedColumns = [("_rperm", .array [.string "bob"]),
        ("_wperm", .array [.string "ann"]),
        ("_acl", .document [("bob", .document [("r", .bool true)])])] ∧
      Run [sharedParcel, sentParcel] (Fields.insertAll (ownedBy "ann") sharedColumns) ∧
      Listed .write (Fields.insertAll (ownedBy "ann") sharedColumns) "ann" ∧
      ¬Granted .write (Fields.insertAll (ownedBy "ann") sharedColumns) "ann" := by
  have hupdated : Update.document parcelTarget sharedParcel =
      .ok [("$set", .document sharedColumns)] := by
    have hset : PermissionSet.ofMembers? sharedParcel =
        .ok (some ⟨[⟨"bob", some 0, none⟩], true, false⟩) := rfl
    have hcolumns : Create.permissionColumns sharedParcel = .ok sharedColumns := by
      rw [Create.permissionColumns, hset]
      exact congrArg _ columns_shared
    rw [Update.document, Update.contributions, hcolumns]
    rfl
  have hleaves : LeavesPermissions sharedParcel := by
    unfold LeavesPermissions InColumn
    decide
  have happlies := applies_set (show (Fields.keys sharedColumns).Nodup by decide) (ownedBy "ann")
  refine ⟨hupdated, rfl, run_sent.updated hleaves hupdated happlies,
    ⟨[.string "ann"], rfl, List.mem_singleton_self _⟩, ?_⟩
  rintro ⟨acl, grants, hacl, hgrants, _⟩
  cases hacl
  cases hgrants

end RestStore
